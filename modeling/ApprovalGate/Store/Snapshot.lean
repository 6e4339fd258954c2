import ApprovalGate.Json.Printer
import ApprovalGate.Json.Reader
import ApprovalGate.Table
import ApprovalGate.Wait.Codec
/-!
# Snapshots

The text that keeps all records of a store in one file: a version and the records in the order of their tokens.
Reading takes what writing makes, and no other version.
-/
namespace ApprovalGate

abbrev Records := Table Token WaitRecord

namespace Records

def sortedBy (rs : Records) (order : TokenOrder) : List WaitRecord :=
  rs.values.mergeSort fun a b => order.le a.token b.token

abbrev sorted (rs : Records) : List WaitRecord := rs.sortedBy .byText

/-- The table of a list of records; of two with one token the later counts. -/
def ofList (rs : List WaitRecord) : Records := rs.foldl (fun t r => t.insert r.token r) Table.empty

end Records

namespace Snapshot

def version : Nat := 1

def toJson (rs : List WaitRecord) : Json :=
  .obj [("version", .int version), ("records", .arr (rs.map WaitRecord.toJson))]

def write (rs : List WaitRecord) : String := (toJson rs).pretty

inductive Fault where
  | unreadable
  | corrupt
  | unsupported (version : Nat)
deriving DecidableEq, Repr

def Fault.message : Fault → String
  | .unreadable => "Failed to read snapshot: not a file"
  | .corrupt => "Corrupt snapshot: not a snapshot"
  | .unsupported v => "Unsupported snapshot version " ++ toString v

def ofJson? (v : Json) : Option (Nat × List WaitRecord) := do
  let parts ← v.parts? ["version", "records"] 2
  let version ← Json.required? Json.nat? "version" parts
  let items ← Json.required? (fun v => match v with | .arr items => some items | _ => none) "records" parts
  let records ← items.mapM WaitRecord.ofJson?
  if version < Nat.pow 2 32 then return (version, records) else failure

/-- The records in the bytes of a snapshot.  No bytes at all are a snapshot without records. -/
def read (bytes : ByteArray) : Except Fault (List WaitRecord) :=
  if bytes.size = 0 then .ok []
  else match ((String.fromUTF8? bytes).bind Json.read?).bind ofJson? with
    | none => .error .corrupt
    | some (v, records) => if v = version then .ok records else .error (.unsupported v)

end Snapshot
end ApprovalGate
