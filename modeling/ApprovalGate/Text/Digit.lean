/-!
# Digits

Reading and writing numbers in decimal and in hexadecimal.  Reading accepts exactly runs of ASCII digits; signs,
widths and limits belong to the formats that use them.
-/
namespace ApprovalGate.Text

def decimal? (cs : List Char) : Option Nat :=
  if !cs.isEmpty && cs.all Char.isDigit then some (Nat.ofDigitChars 10 cs 0) else none

def decimal (n : Nat) : List Char := Nat.toDigits 10 n

/-- The digits of a number, padded with zeros on the left to at least `width` digits. -/
def decimalPadded (width n : Nat) : List Char :=
  let ds := decimal n
  List.replicate (width - ds.length) '0' ++ ds

def nibble (n : Nat) : Fin 16 := Fin.ofNat 16 n

def hexValue? (c : Char) : Option (Fin 16) :=
  let n := c.toNat
  if 48 ≤ n ∧ n ≤ 57 then some (nibble (n - 48))
  else if 97 ≤ n ∧ n ≤ 102 then some (nibble (n - 87))
  else if 65 ≤ n ∧ n ≤ 70 then some (nibble (n - 55))
  else none

def hexDigit (n : Fin 16) : Char := Nat.digitChar n.val

def hexDigitUpper (n : Fin 16) : Char := (Nat.digitChar n.val).toUpper

theorem hexValue?_hexDigit (n : Fin 16) : hexValue? (hexDigit n) = some n := by
  revert n; decide

theorem hexValue?_hexDigitUpper (n : Fin 16) : hexValue? (hexDigitUpper n) = some n := by
  revert n; decide

def hex (n : Nat) : List Char := Nat.toDigits 16 n

theorem decimal?_decimal (n : Nat) : decimal? (decimal n) = some n := by
  have hd : (Nat.toDigits 10 n).all Char.isDigit = true :=
    List.all_eq_true.2 fun c hc => Nat.isDigit_of_mem_toDigits (by omega) (by omega) hc
  have hne : (Nat.toDigits 10 n).isEmpty = false := by simp [Nat.toDigits_ne_nil]
  simp only [decimal?, decimal, hd, hne, Nat.ofDigitChars_ten_toDigits, Bool.not_false, Bool.and_self, if_true]

end ApprovalGate.Text
