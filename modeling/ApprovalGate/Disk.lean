import ApprovalGate.Table
import ApprovalGate.Text.Bytes
import ApprovalGate.Text.Split
/-!
# Disks and environments

What a process finds when it starts: the files and directories under one working directory, and its variables.  A path
is its names from there down; the working directory itself has the empty path and is always there.
-/
namespace ApprovalGate

/-- The variables that a process is started with. -/
abbrev Environment := Table String String

abbrev Path := List String

namespace Path

/-- The names in a written path, without empty ones and those for the place itself. -/
def ofString (s : String) : Path :=
  ((Text.splitOn '/' s.toList).map String.ofList).filter fun n => n ≠ "" ∧ n ≠ "."

def parent (p : Path) : Path := p.dropLast

/-- The name up to its last point; a point in front does not count. -/
def stem (name : String) : String :=
  match name.toList with
  | [] => ""
  | c :: cs => match Text.cutLast? '.' cs with
    | some (before, _) => String.ofList (c :: before)
    | none => name

def parentText (s : String) : String :=
  match Text.cutLast? '/' (Text.trimEndOf '/' s).toList with
  | some (before, _) => Text.trimEndOf '/' (String.ofList before)
  | none => ""

def withExtension (p : Path) (extension : String) : Path :=
  match p.getLast? with
  | none => p
  | some name => p.parent ++ [stem name ++ "." ++ extension]

end Path

inductive DiskEntry where
  | file (bytes : ByteArray)
  | directory
deriving DecidableEq, Inhabited

structure Disk where
  entries : List (Path × DiskEntry)
deriving DecidableEq, Inhabited

namespace Disk

def empty : Disk := ⟨[]⟩

def entry? (d : Disk) (p : Path) : Option DiskEntry :=
  if p.isEmpty then some .directory else (d.entries.find? fun (q, _) => q == p).map Prod.snd

def contains (d : Disk) (p : Path) : Bool := (d.entry? p).isSome

def isDirectory (d : Disk) (p : Path) : Bool :=
  match d.entry? p with
  | some .directory => true
  | _ => false

def read? (d : Disk) (p : Path) : Option ByteArray :=
  match d.entry? p with
  | some (.file bytes) => some bytes
  | _ => none

def put (d : Disk) (p : Path) (e : DiskEntry) : Disk := ⟨(p, e) :: d.entries.filter fun (q, _) => q != p⟩

def drop (d : Disk) (p : Path) : Disk := ⟨d.entries.filter fun (q, _) => q != p⟩

/-- Writes a file in a directory that is there, over a file but not over a directory. -/
def write? (d : Disk) (p : Path) (bytes : ByteArray) : Option Disk :=
  if d.isDirectory p.parent ∧ !d.isDirectory p then some (d.put p (.file bytes)) else none

/-- Moves a file, over a file but not over a directory. -/
def rename? (d : Disk) (source target : Path) : Option Disk :=
  match d.entry? source with
  | some (.file bytes) =>
    if d.isDirectory target.parent ∧ !d.isDirectory target then some ((d.drop source).put target (.file bytes))
    else none
  | _ => none

def makeDir? (d : Disk) (p : Path) : Option Disk :=
  if d.isDirectory p.parent ∧ !d.contains p then some (d.put p .directory) else none

/-- Makes the directories on the way to a path and the path itself, where they are missing; `done` is the part of the
path that is there. -/
def makeDirsFrom? (d : Disk) (done : Path) : List String → Option Disk
  | [] => some d
  | name :: rest =>
    let p := done ++ [name]
    if d.isDirectory p then d.makeDirsFrom? p rest
    else (d.makeDir? p).bind fun d => d.makeDirsFrom? p rest

def makeDirs? (d : Disk) (p : Path) : Option Disk := d.makeDirsFrom? [] p

def removeDir? (d : Disk) (p : Path) : Option Disk :=
  if p.isEmpty ∨ !d.isDirectory p ∨ d.entries.any (fun (q, _) => p.isPrefixOf q && q != p) then none
  else some (d.drop p)

def list (d : Disk) : List (Path × DiskEntry) := d.entries

end Disk
end ApprovalGate
