/-!
# Bytes of a text

The length of a text in UTF-8 and the reading of bytes as text, strictly or with each faulty part replaced.
-/
namespace ApprovalGate.Text

-- bytes are compared in one way, whatever other library is at hand
instance (priority := high) decEqBytes : DecidableEq ByteArray := ByteArray.instDecidableEq

def byteCount : List Char → Nat
  | [] => 0
  | c :: cs => c.utf8Size + byteCount cs

def byteLength (s : String) : Nat := byteCount s.toList

def isAscii (c : Char) : Bool := c.toNat < 128

theorem byteCount_of_ascii {cs : List Char} (h : ∀ c ∈ cs, isAscii c = true) : byteCount cs = cs.length := by
  induction cs with
  | nil => rfl
  | cons c cs ih =>
    have hc : c.utf8Size = 1 := by
      have := h c (by simp)
      simp only [isAscii, Char.toNat, decide_eq_true_eq] at this
      rw [Char.utf8Size_eq_one_iff, UInt32.le_iff_toNat_le]
      exact Nat.le_of_lt_succ this
    rw [byteCount, hc, ih fun d hd => h d (by simp [hd]), List.length_cons, Nat.add_comm]

theorem byteCount_append (cs ds : List Char) : byteCount (cs ++ ds) = byteCount cs + byteCount ds := by
  induction cs with
  | nil => simp [byteCount]
  | cons c cs ih => rw [List.cons_append, byteCount, byteCount, ih, Nat.add_assoc]

theorem byteLength_append (s t : String) : byteLength (s ++ t) = byteLength s + byteLength t := by
  rw [byteLength, String.toList_append, byteCount_append]
  rfl

/-! ## Lenient decoding -/

def continuation? (b : UInt8) : Option Nat :=
  let n := b.toNat
  if 0x80 ≤ n ∧ n < 0xC0 then some (n - 0x80) else none

/-- How many bytes follow a first byte, the bits it carries, and the range of the byte after it. -/
def leading? (b : UInt8) : Option (Nat × Nat × Nat × Nat) :=
  let n := b.toNat
  if 0xC2 ≤ n ∧ n ≤ 0xDF then some (1, n - 0xC0, 0x80, 0xBF)
  else if n = 0xE0 then some (2, 0, 0xA0, 0xBF)
  else if n = 0xED then some (2, 0xD, 0x80, 0x9F)
  else if 0xE1 ≤ n ∧ n ≤ 0xEF then some (2, n - 0xE0, 0x80, 0xBF)
  else if n = 0xF0 then some (3, 0, 0x90, 0xBF)
  else if 0xF1 ≤ n ∧ n ≤ 0xF3 then some (3, n - 0xF0, 0x80, 0xBF)
  else if n = 0xF4 then some (3, 4, 0x80, 0x8F)
  else none

/-- The code point made of the bits so far and the continuations that follow, as far as they go: the rest of the
bytes, and the code point if it is complete. -/
def continueWith : (missing bits : Nat) → List UInt8 → Option Nat × List UInt8
  | 0, bits, rest => (some bits, rest)
  | _ + 1, _, [] => (none, [])
  | missing + 1, bits, b :: rest =>
    match continuation? b with
    | some n => continueWith missing (bits * 64 + n) rest
    | none => (none, b :: rest)

/-- One character from the front of the bytes.  A faulty part, as long as it could still begin a character, becomes
the replacement character. -/
def takeChar (b : UInt8) (rest : List UInt8) : Char × List UInt8 :=
  if b.toNat < 0x80 then (Char.ofNat b.toNat, rest)
  else match leading? b, rest with
    | some (missing, bits, low, high), c :: _ =>
      if low ≤ c.toNat ∧ c.toNat ≤ high then
        match continueWith missing bits rest with
        | (some n, rest) => (Char.ofNat n, rest)
        | (none, rest) => ('\ufffd', rest)
      else ('\ufffd', rest)
    | _, _ => ('\ufffd', rest)

/-- Decodes with replacement.  Each step uses up a byte, so the number of bytes is fuel enough. -/
def decodeLenientAux : (fuel : Nat) → List UInt8 → List Char
  | 0, _ => []
  | _ + 1, [] => []
  | fuel + 1, b :: rest =>
    let (c, rest) := takeChar b rest
    c :: decodeLenientAux fuel rest

def decodeLenient (bytes : ByteArray) : String :=
  match String.fromUTF8? bytes with
  | some s => s
  | none => String.ofList (decodeLenientAux bytes.size bytes.toList)

end ApprovalGate.Text
