import ApprovalGate.Config.Check
import ApprovalGate.Config.Reader
import ApprovalGate.Disk
import ApprovalGate.Gate.Basic
import ApprovalGate.Registry.Open
/-!
# Setting up gates

How a configuration is loaded from a file and the environment, and the store and the gate that it describes.
-/
namespace ApprovalGate.Config

/-- A number of 16 bits in decimal, with or without a plus sign. -/
def readPort? (s : String) : Option Nat :=
  (Text.decimal? (match s.toList with
    | '+' :: cs => cs
    | cs => cs)).filter (· < Nat.pow 2 16)

def withHost (c : Config) (host : String) : Config := { c with server := { c.server with host } }

def withPort (c : Config) (port : Nat) : Config := { c with server := { c.server with port } }

/-- The configuration with the settings that an environment gives, up to the first that is none. -/
def withEnvironment (c : Config) (env : Environment) : Outcome Unit × Config :=
  let c := match env.get? "CHANGEGATE_HOST" with
    | some host => c.withHost host
    | none => c
  let withUrl (c : Config) : Config := match env.get? "CHANGEGATE_PUBLIC_URL" with
    | some url => { c with publicBaseUrl := url }
    | none => c
  match env.get? "CHANGEGATE_PORT" with
  | none => (.ok (), withUrl c)
  | some port => match readPort? port with
    | some port => (.ok (), withUrl (c.withPort port))
    | none => (.error (.configValue "CHANGEGATE_PORT" ("'" ++ port ++ "' is not a valid port")), c)

def load (path : String) (disk : Disk) (env : Environment) : Outcome Config := do
  let s ← match (disk.read? (Path.ofString path)).bind String.fromUTF8? with
    | some s => pure s
    | none => throw (.io path "no text can be read there")
  let (result, c) := (← read path s).withEnvironment env
  result
  return c

def openStore (c : Config) (disk : Disk) : Outcome Store :=
  match c.store.kind, c.store.path with
  | .memory, _ => .ok Store.memory
  | .file, some path => (Store.openFile path disk).map fun medium => { Store.memory with medium }
  | .file, none => .error storeUnplaced

def issuer (c : Config) : Issuer :=
  { endpoints := c.endpoints, baseUrl := c.publicBaseUrl, tool := c.tool, defaultTimeout := c.wait.defaultTimeout }

def openGate (c : Config) (store : Store) (happens : TokenOrder := .byText) : Outcome Gate :=
  match Registry.openStore store c.wait.tombstoneTtl happens with
  | (.error failure, _) => .error failure
  | (.ok (), registry) => .ok (.start registry (some c.issuer))

end ApprovalGate.Config
