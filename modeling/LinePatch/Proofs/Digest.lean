import LinePatch.Digest.Basic
import LinePatch.Proofs.Text.LineBreaks
import Mathlib.Algebra.Group.Nat.Defs

/-!
# Digests are read as they are written

A digest is written with all its digits, leading zeros and a mark in front. The reader drops what
may stand around the digits and takes them one by one.

* `Digest.hexValue?_hexDigits`: the digits of a number are read as that number.
* `Digest.ofLiteral?_literal`: the literal of a digest names it.
-/

namespace LinePatch

/-- A text without blank characters has nothing to trim. -/
theorem Text.trim_eq_self {t : Text} (h : ∀ c ∈ t, isBlank c = false) : trim t = t := by
  have hdrop : ∀ t : Text, (∀ c ∈ t, isBlank c = false) → t.dropWhile isBlank = t := by
    intro t h
    cases t with
    | nil => rfl
    | cons c cs => rw [List.dropWhile_cons_of_neg (by simp [h c List.mem_cons_self])]
  rw [trim, trimStart, hdrop t h, trimEnd, hdrop _ fun c hc => h c (List.mem_reverse.mp hc),
    List.reverse_reverse]

namespace Digest

/-! ## Digits -/

theorem digitValue?_hexDigit : ∀ n < 16, digitValue? (hexDigit n) = some n := by decide

/-- The digits of literals, in lower case. -/
def lowerDigits : Text := "0123456789abcdef".toList

theorem hexDigit_mem_lowerDigits : ∀ n < 16, hexDigit n ∈ lowerDigits := by decide

theorem isBlank_of_mem_lowerDigits : ∀ c ∈ lowerDigits, Text.isBlank c = false := by
  have hall : lowerDigits.all (!Text.isBlank ·) = true := by decide
  simpa using hall

theorem mem_lowerDigits_of_mem_hexDigits {k n : Nat} {c : Char} (h : c ∈ hexDigits k n) :
    c ∈ lowerDigits := by
  induction k generalizing n with
  | zero => cases h
  | succ k ih =>
    rw [hexDigits, List.mem_append, List.mem_singleton] at h
    rcases h with h | rfl
    · exact ih h
    · exact hexDigit_mem_lowerDigits _ (Nat.mod_lt _ (by decide))

/-- A digit more at the end of others. -/
theorem hexValue?_concat (acc : Nat) (cs : Text) (c : Char) :
    hexValue? acc (cs ++ [c]) =
      (hexValue? acc cs).bind fun v => (digitValue? c).map (16 * v + ·) := by
  induction cs generalizing acc with
  | nil =>
    simp only [List.nil_append, hexValue?, Option.bind_some]
    cases digitValue? c <;> rfl
  | cons c' cs ih =>
    simp only [List.cons_append, hexValue?]
    cases digitValue? c' with
    | none => rfl
    | some v => exact ih _

/-- The last digits of a number are read as its rest. -/
theorem hexValue?_hexDigits (k n : Nat) : hexValue? 0 (hexDigits k n) = some (n % 16 ^ k) := by
  induction k generalizing n with
  | zero => simp [hexDigits, hexValue?, Nat.mod_one]
  | succ k ih =>
    rw [hexDigits, hexValue?_concat, ih, digitValue?_hexDigit _ (Nat.mod_lt _ (by decide)),
      Option.bind_some, Option.map_some, Nat.pow_succ, Nat.mul_comm (16 ^ k) 16, Nat.mod_mul,
      Nat.add_comm]

/-! ## Literals -/

theorem dropMarks_mark (cs : Text) : dropMarks ('0' :: 'x' :: cs) = dropMarks cs := by
  rw [dropMarks]

theorem dropMarks_of_not_mem {cs : Text} (h : 'x' ∉ cs) : dropMarks cs = cs := by
  unfold dropMarks
  split
  · exact absurd (by simp) h
  · rfl

theorem dropPlus_of_not_mem {cs : Text} (h : '+' ∉ cs) : dropPlus cs = cs := by
  unfold dropPlus
  split
  · exact absurd List.mem_cons_self h
  · rfl

/-- Nothing in a literal is blank, so it has no line break either. -/
theorem isBlank_of_mem_literal {h : UInt64} : ∀ c ∈ literal h, Text.isBlank c = false := by
  intro c hc
  rcases List.mem_cons.mp hc with rfl | hc
  · rfl
  · rcases List.mem_cons.mp hc with rfl | hc
    · rfl
    · exact isBlank_of_mem_lowerDigits c (mem_lowerDigits_of_mem_hexDigits hc)

/-- The literal of a digest names it. -/
theorem ofLiteral?_literal (h : UInt64) : ofLiteral? (literal h) = some h := by
  have hdigits : ∀ c ∉ lowerDigits, c ∉ hexDigits 16 h.toNat := fun c hc hmem =>
    hc (mem_lowerDigits_of_mem_hexDigits hmem)
  have htrim : Text.trim (literal h) = literal h :=
    Text.trim_eq_self isBlank_of_mem_literal
  have hdrop : dropPlus (dropMarks (Text.trim (literal h))) = hexDigits 16 h.toNat := by
    rw [htrim, literal, dropMarks_mark, dropMarks_of_not_mem (hdigits _ (by decide)),
      dropPlus_of_not_mem (hdigits _ (by decide))]
  have hlt : h.toNat < 16 ^ 16 := h.toNat_lt
  unfold ofLiteral?
  rw [hdrop]
  split
  · rename_i hnil
    have := length_hexDigits 16 h.toNat
    rw [hnil] at this
    cases this
  · rw [hexValue?_hexDigits, Nat.mod_eq_of_lt hlt]
    simp only [if_pos h.toNat_lt_size, UInt64.ofNat_toNat]

end Digest

end LinePatch
