import ApprovalGate.Text.Digit
import ApprovalGate.Text.Split
/-!
# Arguments

What a command takes, and how its arguments are read: operands in order, settings by a long or a short name anywhere
among them.  A setting is given at most once.  Nothing after two hyphens is a setting.
-/
namespace ApprovalGate.CommandLine

inductive Word where
  | hyphens
  | long (name : String) (value : Option String)
  | short (letter : Char) (rest : List Char)
  | plain (text : String)
deriving DecidableEq, Repr

def Word.ofString (s : String) : Word :=
  match s.toList with
  | ['-', '-'] => hyphens
  | '-' :: '-' :: cs => match Text.cut? '=' cs with
    | some (name, value) => long (String.ofList name) (some (String.ofList value))
    | none => long (String.ofList cs) none
  | '-' :: c :: cs => short c cs
  | _ => plain s

structure Setting where
  long : String
  short : Char
  about : String
  required : Bool := false
  default : Option String := none
  isPort : Bool := false
deriving DecidableEq, Repr

def Setting.valueName (s : Setting) : String := "<" ++ s.long.map Char.toUpper ++ ">"

structure Shape where
  name : String
  about : String
  /-- The operands, all of them required, and what they are. -/
  operands : List (String × String) := []
  settings : List Setting := []
deriving DecidableEq, Repr

inductive Refusal where
  /-- Help was asked for, with a command or in general. -/
  | help (shape : Option Shape)
  | version
  | usage
deriving DecidableEq, Repr

structure Given where
  values : List (String × String)
  operands : List String
deriving DecidableEq, Repr

/-- A port number in decimal, with or without a sign. -/
def readPort? (s : String) : Option Nat :=
  match s.toList with
  | '-' :: ds => (Text.decimal? ds).filter (· == 0)
  | '+' :: ds | ds => (Text.decimal? ds).filter (· < Nat.pow 2 16)

namespace Given

def set (g : Given) (s : Setting) (value : String) : Except Refusal Given :=
  if (g.values.lookup s.long).isSome ∨ (s.isPort ∧ (readPort? value).isNone) then .error .usage
  else .ok { g with values := (s.long, value) :: g.values }

def addOperand (g : Given) (shape : Shape) (operand : String) : Except Refusal Given :=
  if g.operands.length < shape.operands.length then .ok { g with operands := g.operands ++ [operand] }
  else .error .usage

end Given

namespace Shape

/-- Reads arguments; `pending` is the setting whose value comes next. -/
def readFrom (shape : Shape) : (pending : Option Setting) → Given → List String → Except Refusal Given
  | none, g, [] => .ok g
  | some _, _, [] => .error .usage
  | some s, g, a :: rest =>
    match Word.ofString a with
    | .plain value => (g.set s value).bind fun g => shape.readFrom none g rest
    | _ => .error .usage
  | none, g, a :: rest =>
    match Word.ofString a with
    | .plain text => (g.addOperand shape text).bind fun g => shape.readFrom none g rest
    | .hyphens => rest.foldlM (fun g text => g.addOperand shape text) g
    | .long "help" none => .error (.help (some shape))
    | .long name value =>
      match shape.settings.find? fun s => s.long == name, value with
      | none, _ => .error .usage
      | some s, none => shape.readFrom (some s) g rest
      | some s, some value => (g.set s value).bind fun g => shape.readFrom none g rest
    | .short 'h' _ => .error (.help (some shape))
    | .short letter cs =>
      match shape.settings.find? fun s => s.short == letter, cs with
      | none, _ => .error .usage
      | some s, [] => shape.readFrom (some s) g rest
      | some s, '=' :: value | some s, value =>
        (g.set s (String.ofList value)).bind fun g => shape.readFrom none g rest

def read (shape : Shape) (args : List String) : Except Refusal Given :=
  (shape.readFrom none ⟨[], []⟩ args).bind fun g =>
    if g.operands.length = shape.operands.length ∧
      shape.settings.all fun s => !s.required || (g.values.lookup s.long).isSome then .ok g
    else .error .usage

/-! ## Help -/

def usage (shape : Shape) (program : String) : String :=
  let optional := if shape.settings.any fun s => !s.required then ["[OPTIONS]"] else []
  let required := (shape.settings.filter Setting.required).map fun s => "--" ++ s.long ++ " " ++ Setting.valueName s
  let operands := shape.operands.map fun (name, _) => "<" ++ name ++ ">"
  "Usage: " ++ String.intercalate " " ([program, shape.name] ++ optional ++ required ++ operands)

/-- Lines of names and what they are, with what they are in one column. -/
def columns (entries : List (String × String)) : List String :=
  let width := (entries.map fun (name, _) => name.length).foldl max 0
  entries.map fun (name, about) => "  " ++ name ++ "".pushn ' ' (width - name.length) ++ "  " ++ about

def helpEntry : String × String := ("-h, --help", "Print help")

def help (shape : Shape) (program : String) : List String :=
  let settings := shape.settings.map fun s =>
    ("-" ++ s.short.toString ++ ", --" ++ s.long ++ " " ++ Setting.valueName s,
      match s.default with
      | some value => s.about ++ " [default: " ++ value ++ "]"
      | none => s.about)
  let operands := if shape.operands.isEmpty then []
    else ["Arguments:"] ++ columns (shape.operands.map fun (name, about) => ("<" ++ name ++ ">", about)) ++ [""]
  [shape.about, "", shape.usage program, ""] ++ operands ++ ["Options:"] ++ columns (settings ++ [helpEntry])

end Shape
end ApprovalGate.CommandLine
