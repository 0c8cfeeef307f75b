import LinePatch.Text.Basic

/-!
# Numerals

Digits, their values, and the range of 64-bit floating-point numbers. A numeral whose value
rounds to infinity has no such number.

* `roundSignificand_of_lt`: a number of at most 53 bits is not rounded.
-/

namespace LinePatch.Numeral

/-! ## Digits -/

/-- Whether a character is a decimal digit. -/
def isDigit (c : Char) : Bool := '0' ≤ c && c ≤ '9'

/-- The value of a decimal digit. -/
def digitValue (c : Char) : Nat := c.toNat - 48

/-- The value of decimal digits. -/
def value (ds : Text) : Nat := ds.foldl (fun n c => 10 * n + digitValue c) 0

/-- The digits at the start of a text. -/
def digits (t : Text) : Text := t.takeWhile isDigit

/-- What follows the digits at the start of a text. -/
def afterDigits (t : Text) : Text := t.dropWhile isDigit

/-! ## The range of floating-point numbers -/

/-- A number rounded to 53 significant bits, ties to even. -/
def roundSignificand (n : Nat) : Nat :=
  let k := n.log2 + 1 - 53
  if k = 0 then n
  else
    let unit := Nat.pow 2 k
    let q := n / unit
    let r := n % unit
    (if unit < 2 * r || (unit == 2 * r && q % 2 == 1) then q + 1 else q) * unit

/-- A number of at most 53 bits is not rounded. -/
theorem roundSignificand_of_lt {n : Nat} (h : n.log2 < 53) : roundSignificand n = n := by
  unfold roundSignificand
  have : n.log2 + 1 - 53 = 0 := by omega
  simp [this]

/-- Whether a product of two rounded numbers rounds to infinity. -/
def productOverflows (a b : Nat) : Bool :=
  Nat.pow 2 1024 ≤ roundSignificand (roundSignificand a * roundSignificand b)

/-- Whether `n` times ten to the power `e` rounds to infinity, that is, reaches the middle between
the greatest number and the next power of two. -/
def overflows (n : Nat) (e : Int) : Bool :=
  let limit := Nat.pow 2 1024 - Nat.pow 2 970
  if n = 0 then false
  else if 400 < e then true
  else if 0 ≤ e then limit ≤ n * Nat.pow 10 e.toNat
  else if (n.log2 : Int) + 3 * e < 1000 then false
  else limit * Nat.pow 10 (-e).toNat ≤ n

end LinePatch.Numeral
