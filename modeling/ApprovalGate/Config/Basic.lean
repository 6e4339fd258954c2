import ApprovalGate.Address
import ApprovalGate.Endpoint.Table
import ApprovalGate.Time.Span
/-!
# Configurations

What a gate is set up with: where it listens, how it names itself, how long it waits, where it keeps its records and
where it sends change requests.  The printed form hides secrets.
-/
namespace ApprovalGate

structure ListenSettings where
  host : String := "0.0.0.0"
  port : Nat := 8080
deriving DecidableEq, Repr, Inhabited

structure WaitSettings where
  /-- Zero for no timeout. -/
  defaultTimeoutSecs : Nat := 3600
  checkIntervalMillis : Nat := 1000
  tombstoneTtlSecs : Nat := 3600
deriving DecidableEq, Repr, Inhabited

inductive StoreKind where
  | memory
  | file
deriving DecidableEq, Repr, Inhabited

structure StoreSettings where
  kind : StoreKind := .memory
  path : Option String := none
deriving DecidableEq, Repr, Inhabited

structure Config where
  server : ListenSettings := {}
  publicBaseUrl : String := "http://localhost:8080"
  tool : String := "changegate"
  wait : WaitSettings := {}
  store : StoreSettings := {}
  /-- The endpoints, those of jobs in ascending order of their prefixes. -/
  endpoints : EndpointTable := .empty
deriving DecidableEq, Repr, Inhabited

namespace WaitSettings

def defaultTimeout (w : WaitSettings) : Option Span :=
  if 0 < w.defaultTimeoutSecs then some (.ofSeconds w.defaultTimeoutSecs) else none

def checkInterval (w : WaitSettings) : Span := .ofMillis w.checkIntervalMillis

def tombstoneTtl (w : WaitSettings) : Span := .ofSeconds w.tombstoneTtlSecs

end WaitSettings

namespace StoreKind

def name : StoreKind → String
  | memory => "memory"
  | file => "file"

def ofName? : String → Option StoreKind
  | "memory" => some memory
  | "file" => some file
  | _ => none

def title : StoreKind → String
  | memory => "Memory"
  | file => "File"

end StoreKind

namespace Config

def address (c : Config) : String := listenAddress c.server.host c.server.port

def toJson (c : Config) : Json := .obj [
  ("server", .obj [("host", .str c.server.host), ("port", .int c.server.port)]),
  ("public_base_url", .str c.publicBaseUrl),
  ("tool_id", .str c.tool),
  ("wait", .obj [
    ("default_timeout_secs", .int c.wait.defaultTimeoutSecs),
    ("check_interval_ms", .int c.wait.checkIntervalMillis),
    ("tombstone_ttl_secs", .int c.wait.tombstoneTtlSecs)]),
  ("store", .obj [("kind", .str c.store.kind.name), ("path", Json.ofString? c.store.path)]),
  ("endpoints", .obj [
    ("default", match c.endpoints.default with
      | none => .null
      | some e => e.toJson),
    ("jobs", .obj (c.endpoints.jobs.map fun (p, e) => (p, e.toJson)))])]

def text (c : Config) : String :=
  Text.labelled "GateConfig" [
    ("server", Text.labelled "ServerSection" [("host", Text.quote c.server.host), ("port", toString c.server.port)]),
    ("public_base_url", Text.quote c.publicBaseUrl),
    ("tool_id", Text.quote c.tool),
    ("wait", Text.labelled "WaitSection" [
      ("default_timeout_secs", toString c.wait.defaultTimeoutSecs),
      ("check_interval_ms", toString c.wait.checkIntervalMillis),
      ("tombstone_ttl_secs", toString c.wait.tombstoneTtlSecs)]),
    ("store", Text.labelled "StoreSection" [
      ("kind", c.store.kind.title),
      ("path", match c.store.path with
        | none => "None"
        | some path => "Some(" ++ Text.quote path ++ ")")]),
    ("endpoints", Text.labelled "EndpointsSection" [
      ("default", EndpointTable.optionText c.endpoints.default),
      ("jobs",
        "\x7b" ++ ", ".intercalate (c.endpoints.jobs.map fun (p, e) => Text.quote p ++ ": " ++ e.text) ++ "\x7d")])]

end Config
end ApprovalGate
