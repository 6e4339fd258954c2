import ApprovalGate.Yaml.Cursor
/-!
# Folding

White space between the words of a scalar.  Within a line it stays; a single line break becomes a blank, and of more
the first is dropped.
-/
namespace ApprovalGate.Yaml

/-- White space and line breaks between two words. -/
structure Gap where
  white : List Char
  broken : Bool
  first : List Char
  more : List Char
deriving DecidableEq, Repr

namespace Gap

def text (g : Gap) : List Char :=
  if !g.broken then g.white
  else match g.first with
    | '\n' :: _ => if g.more.isEmpty then [' '] else g.more
    | first => first ++ g.more

/-- The gap from here on, and the place past it.  After a break no tab may stand left of `margin`.  Each step uses up a
character, so `fuel` is the length of the text. -/
def readWithin (margin : Nat) : (fuel : Nat) → Gap → Cursor → Option (Gap × Cursor)
  | 0, g, c => some (g, c)
  | fuel + 1, g, c => match c.rest with
    | [] => some (g, c)
    | b :: _ =>
      if isSpace b then
        if g.broken ∧ b = '\t' ∧ c.column < margin then none
        else readWithin margin fuel (if g.broken then g else { g with white := g.white ++ [b] }) (c.skip 1)
      else if isBreak b then
        let (stands, c) := c.takeBreak
        readWithin margin fuel
          (if g.broken then { g with more := g.more ++ stands } else { g with broken := true, first := stands }) c
      else some (g, c)

def read (margin : Nat) (broken : Bool) (c : Cursor) : Option (Gap × Cursor) :=
  readWithin margin (c.rest.length + 1) { white := [], broken, first := [], more := [] } c

end Gap
end ApprovalGate.Yaml
