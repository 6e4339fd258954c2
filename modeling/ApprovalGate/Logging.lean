import ApprovalGate.Disk
/-!
# Logging

What a log looks like: its format, its filter and what each line carries.  Settings come from the environment or are
set one by one.
-/
namespace ApprovalGate

inductive LogFormat where
  | json
  | pretty
  | compact
deriving DecidableEq, Repr, Inhabited

def LogFormat.read (s : String) : LogFormat :=
  match s.map Char.toLower with
  | "json" => .json
  | "pretty" => .pretty
  | _ => .compact

structure LogSettings where
  service : String := "changegate"
  /-- None when it is for the terminal to say. -/
  format : Option LogFormat := some .compact
  filter : String := "info"
  location : Bool := false
  target : Bool := true
  threadIds : Bool := false
deriving DecidableEq, Repr, Inhabited

namespace LogSettings

def isOn (env : Environment) (name : String) : Bool := env.get? name == some "true" || env.get? name == some "1"

def ofEnvironment (env : Environment) : LogSettings := {
  format := (env.get? "CHANGEGATE_LOG_FORMAT").map LogFormat.read
  filter := ((env.get? "CHANGEGATE_LOG_LEVEL") <|> env.get? "RUST_LOG").getD "info"
  location := isOn env "CHANGEGATE_LOG_LOCATION"
  threadIds := isOn env "CHANGEGATE_LOG_THREAD_IDS" }

def withJson (s : LogSettings) (enable : Bool) : LogSettings := if enable then { s with format := some .json } else s

end LogSettings
end ApprovalGate
