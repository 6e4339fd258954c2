import ApprovalGate.Config.Basic
import ApprovalGate.Yaml.Document
import ApprovalGate.Yaml.Schema
/-!
# Reading configurations

A configuration is written in YAML.  Every section and every setting may be left out; unknown ones are passed over.
-/
namespace ApprovalGate

open Yaml (Node)

namespace Credentials

def partNames : String → List String
  | "basic" => ["username", "password"]
  | "token" => ["token"]
  | _ => []

def partOfWord : Yaml.Word → Json
  | .text s => .str s
  | _ => .null

/-- A part under its name.  A number is the name of the part at that place; past the last it names no part. -/
def namedPart? (names : List String) : Yaml.Word × Json → Option (List (String × Json))
  | (.text name, part) => some [(name, part)]
  | (.unsigned n, part) => some ((names[n]?.map fun name => (name, part)).toList)
  | (.other, _) => Option.none

/-- Reads credentials from a sequence of their type and their parts in order.  The type is any scalar; the parts must be
texts by themselves, in which collections may nest `depth` levels deep. -/
def ofItems? (depth : Nat) : List Node → Option Credentials
  | [] => Option.none
  | kind :: items => do
    let kind ← kind.text?
    let words ← items.mapM fun item => item.word? depth
    ofJson? (.arr (.str kind :: words.map partOfWord))

/-- Reads credentials from the pairs of a mapping, among which their type stands once. -/
def ofPairs? (depth : Nat) (pairs : List (Node × Node)) : Option Credentials := do
  let keyed ← pairs.mapM fun (k, v) => (k.word? depth).map (·, v)
  let (kinds, others) := keyed.partition fun (k, _) => k == .text "type"
  let kind ← match kinds with
    | [(_, kind)] => kind.text?
    | _ => failure
  let parts ← others.mapM fun (k, v) => (v.word? depth).map fun w => (k, partOfWord w)
  if kind = "none" then return none
  let named ← parts.mapM (namedPart? (partNames kind))
  ofJson? (.obj (("type", .str kind) :: named.flatten))

/-- Reads credentials from a collection without a tag of the document's own. -/
def ofNode? (depth : Nat) : Node → Option Credentials
  | .sequence tag items =>
    if depth = 0 ∨ (Yaml.ownTag? tag).isSome then Option.none else ofItems? (depth - 1) items
  | .mapping tag pairs =>
    if depth = 0 ∨ (Yaml.ownTag? tag).isSome then Option.none else ofPairs? (depth - 1) pairs
  | _ => Option.none

end Credentials

namespace Endpoint

def ofNode? (depth : Nat) (n : Node) : Option Endpoint := do
  let fields ← n.fields? ["url", "auth"]
  return {
    url := ← Yaml.required? Node.text? "url" fields
    auth := ← Yaml.defaulted? (Credentials.ofNode? (depth - 1)) .none "auth" fields }

end Endpoint

namespace EndpointTable

/-- Reads the endpoints of jobs; of two with one prefix the later counts. -/
def jobsOfNode? (depth : Nat) (n : Node) : Option (List (String × Endpoint)) := do
  let pairs ← n.pairs?
  let jobs ← pairs.mapM fun (p, e) => (Endpoint.ofNode? (depth - 1) e).map (p, ·)
  return Ordered.ofList jobs

def ofNode? (depth : Nat) (n : Node) : Option EndpointTable := do
  let fields ← n.fields? ["default", "jobs"]
  return {
    default := ← Yaml.defaulted? (Node.optional? (Endpoint.ofNode? (depth - 1))) none "default" fields
    jobs := ← Yaml.defaulted? (jobsOfNode? (depth - 1)) [] "jobs" fields }

end EndpointTable

namespace Config

def listenOfNode? (n : Node) : Option ListenSettings := do
  let fields ← n.fields? ["host", "port"]
  let default : ListenSettings := {}
  return {
    host := ← Yaml.defaulted? Node.text? default.host "host" fields
    port := ← Yaml.defaulted? (Node.unsigned? (Nat.pow 2 16)) default.port "port" fields }

def waitOfNode? (n : Node) : Option WaitSettings := do
  let fields ← n.fields? ["default_timeout_secs", "check_interval_ms", "tombstone_ttl_secs"]
  let default : WaitSettings := {}
  let number := Node.unsigned? (Nat.pow 2 64)
  return {
    defaultTimeoutSecs := ← Yaml.defaulted? number default.defaultTimeoutSecs "default_timeout_secs" fields
    checkIntervalMillis := ← Yaml.defaulted? number default.checkIntervalMillis "check_interval_ms" fields
    tombstoneTtlSecs := ← Yaml.defaulted? number default.tombstoneTtlSecs "tombstone_ttl_secs" fields }

def storeOfNode? (n : Node) : Option StoreSettings := do
  let fields ← n.fields? ["kind", "path"]
  return {
    kind := ← Yaml.defaulted? (fun n => n.choice?.bind StoreKind.ofName?) .memory "kind" fields
    path := ← Yaml.defaulted? (Node.optional? Node.text?) none "path" fields }

/-- Reads a configuration.  Its mapping takes up one of the `depth` levels. -/
def ofNode? (depth : Nat) (n : Node) : Option Config := do
  let fields ← n.fields? ["server", "public_base_url", "tool_id", "wait", "store", "endpoints"]
  let default : Config := {}
  return {
    server := ← Yaml.defaulted? listenOfNode? default.server "server" fields
    publicBaseUrl := ← Yaml.defaulted? Node.text? default.publicBaseUrl "public_base_url" fields
    tool := ← Yaml.defaulted? Node.text? default.tool "tool_id" fields
    wait := ← Yaml.defaulted? waitOfNode? default.wait "wait" fields
    store := ← Yaml.defaulted? storeOfNode? default.store "store" fields
    endpoints := ← Yaml.defaulted? (EndpointTable.ofNode? (depth - 1)) default.endpoints "endpoints" fields }

def maxDepth : Nat := 128

def read? (s : String) : Option Config :=
  match Yaml.Document.read? s with
  | none => none
  | some .void => some {}
  | some (.root n) => ofNode? maxDepth n

def read (path s : String) : Outcome Config :=
  match read? s with
  | some c => .ok c
  | none => .error (.yamlParse path "the text is not that of a configuration")

end Config
end ApprovalGate
