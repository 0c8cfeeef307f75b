import LinePatch.Digest.Xxh3
import LinePatch.Text.Basic

/-!
# Digests of texts

The digest of a text is the XXH3 hash of its UTF-8 bytes without the line terminators at its end.
It is written as `0x` and sixteen hexadecimal digits, and read from any number of digits.

* `length_hexDigits`: a digest is always written with sixteen digits.
-/

namespace LinePatch

/-- The UTF-8 bytes of a text. -/
def Text.utf8 (t : Text) : List UInt8 := t.flatMap String.utf8EncodeChar

/-- The digest of a text; terminators at its end do not count. -/
def digest (t : Text) : UInt64 := Xxh3.hash (Text.utf8 (Text.trimNewlines t))

namespace Digest

/-! ## Writing -/

/-- The hexadecimal digit of a number below sixteen, in lower case. -/
def hexDigit (n : Nat) : Char := if n < 10 then Char.ofNat (48 + n) else Char.ofNat (87 + n)

/-- The last `k` hexadecimal digits of a number. -/
def hexDigits : Nat → Nat → Text
  | 0, _ => []
  | k + 1, n => hexDigits k (n / 16) ++ [hexDigit (n % 16)]

theorem length_hexDigits (k n : Nat) : (hexDigits k n).length = k := by
  induction k generalizing n with
  | zero => rfl
  | succ k ih => simp [hexDigits, ih]

/-- The written form of a digest. -/
def literal (h : UInt64) : Text := '0' :: 'x' :: hexDigits 16 h.toNat

/-! ## Reading -/

/-- The value of a hexadecimal digit of either case. -/
def digitValue? (c : Char) : Option Nat :=
  let n := c.toNat
  if 48 ≤ n ∧ n ≤ 57 then some (n - 48)
  else if 65 ≤ n ∧ n ≤ 70 then some (n - 55)
  else if 97 ≤ n ∧ n ≤ 102 then some (n - 87)
  else none

/-- The value of some hexadecimal digits that follow digits of value `acc`. -/
def hexValue? (acc : Nat) : Text → Option Nat
  | [] => some acc
  | c :: cs =>
    match digitValue? c with
    | none => none
    | some d => hexValue? (16 * acc + d) cs

/-- The text without any `0x` at its start. -/
def dropMarks : Text → Text
  | '0' :: 'x' :: cs => dropMarks cs
  | cs => cs

/-- One `+` in front of digits is allowed. -/
def dropPlus : Text → Text
  | '+' :: cs => cs
  | cs => cs

/-- The digest that a literal names: trimmed, with any `0x` in front, at least one digit, and at
most 64 bits. -/
def ofLiteral? (t : Text) : Option UInt64 :=
  match dropPlus (dropMarks (Text.trim t)) with
  | [] => none
  | cs =>
    match hexValue? 0 cs with
    | none => none
    | some n => if n < UInt64.size then some (UInt64.ofNat n) else none

end Digest

end LinePatch
