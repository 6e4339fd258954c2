import ApprovalGate.Disk
import ApprovalGate.Store.Snapshot
/-!
# Stores

Where a registry keeps its records beyond its own life: in memory that outlives it, or in a snapshot file that is
written anew with every change.  A change is first made to the store's own copy of the records, and then the whole
copy goes to a file beside the snapshot, which takes its place.
-/
namespace ApprovalGate

inductive Medium where
  /-- Memory that a registry shares with the next one. -/
  | memory (records : Records)
  /-- A snapshot file on a disk, and the store's own copy of the records. -/
  | file (path : String) (copy : Records) (disk : Disk)
deriving DecidableEq, Inhabited

/-- The operations that a store turns down before they reach its medium. -/
structure Refusals where
  put : Bool := false
  delete : Bool := false
  load : Bool := false
deriving DecidableEq, Repr, Inhabited

structure Store where
  medium : Medium
  refuses : Refusals
deriving DecidableEq, Inhabited

namespace Store

def memory : Store := ⟨.memory Table.empty, {}⟩

def refused (operation : String) : Failure := .store "flaky" (operation ++ " refused")

def kind (s : Store) : String :=
  match s.medium with
  | .memory _ => "memory"
  | .file _ _ _ => "file"

def records (s : Store) : Records :=
  match s.medium with
  | .memory records => records
  | .file _ copy _ => copy

/-- Writes a snapshot beside its file and moves it there.  A failure names its step and leaves the disk as it got. -/
def writeSnapshot (path : String) (copy : Records) (disk : Disk) : Outcome Unit × Disk :=
  let target := Path.ofString path
  let temporary := target.withExtension "tmp"
  match disk.write? temporary (Snapshot.write copy.sorted).toUTF8 with
  | none => (.error (.store path "Failed to create temp snapshot: no file can be written there"), disk)
  | some disk => match disk.rename? temporary target with
    | none => (.error (.store path "Failed to rename snapshot: no file can be moved there"), disk)
    | some disk => (.ok (), disk)

/-- The medium with a changed copy of the records, written through. -/
def commit (path : String) (copy : Records) (disk : Disk) : Outcome Unit × Medium :=
  let (result, disk) := writeSnapshot path copy disk
  (result, .file path copy disk)

def put (s : Store) (r : WaitRecord) : Outcome Unit × Store :=
  if s.refuses.put then (.error (refused "put"), s)
  else match s.medium with
    | .memory records => (.ok (), { s with medium := .memory (records.insert r.token r) })
    | .file path copy disk =>
      let (result, medium) := commit path (copy.insert r.token r) disk
      (result, { s with medium })

/-- Deletes the record of a token; without one nothing is written. -/
def delete (s : Store) (t : Token) : Outcome Unit × Store :=
  if s.refuses.delete then (.error (refused "delete"), s)
  else match s.medium with
    | .memory records => (.ok (), { s with medium := .memory (records.erase t) })
    | .file path copy disk =>
      if copy.contains t then
        let (result, medium) := commit path (copy.erase t) disk
        (result, { s with medium })
      else (.ok (), s)

/-- The order in which a store lists its records: that of the texts from a snapshot file, and whatever order it happens
to be from memory. -/
def listing (s : Store) (happens : TokenOrder) : TokenOrder :=
  match s.medium with
  | .memory _ => happens
  | .file _ _ _ => .byText

def load (s : Store) (happens : TokenOrder) : Outcome (List WaitRecord) :=
  if s.refuses.load then .error (refused "load") else .ok (s.records.sortedBy (s.listing happens))

/-- Opens the snapshot file at a path, making the directories on the way; a file that is not there yet holds no
records. -/
def openFile (path : String) (disk : Disk) : Outcome Medium :=
  let target := Path.ofString path
  match disk.makeDirs? target.parent with
  | none => .error (.io (Path.parentText path) "no directory can be made there")
  | some disk =>
    if disk.contains target then
      match disk.read? target with
      | none => .error (.store path Snapshot.Fault.unreadable.message)
      | some bytes => match Snapshot.read bytes with
        | .error fault => .error (.store path fault.message)
        | .ok records => .ok (.file path (Records.ofList records) disk)
    else .ok (.file path Table.empty disk)

/-- The store after a restart of its process: the copy of the records is read anew from the file. -/
def reopen (s : Store) : Outcome Store :=
  match s.medium with
  | .memory _ => .ok s
  | .file path _ disk => (openFile path disk).map fun medium => { s with medium }

end Store
end ApprovalGate
