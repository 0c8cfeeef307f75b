import LinePatch.Proofs.Document.Joined

/-!
# One search for all needles

The search for a needle looks line by line where the needle has no newline, and in the joined lines
where it has one. Both are the search in the joined lines: a text without newline does not reach
over the newline between two lines.

* `infix_append_cons_iff`: the step, for one newline.
* `infix_joinLines_iff_of_not_mem`: the same for any lines.
* `contains_iff_infix_intercalate`: the search for any needle.
-/

namespace LinePatch

open Text (occursIn unifyNewlines)

/-- A text without the character `x` does not reach over it. -/
theorem Text.infix_append_cons_iff {s : Text} {x : Char} (hx : x ∉ s) (a b : Text) :
    s <:+: a ++ x :: b ↔ s <:+: a ∨ s <:+: b := by
  have hnil : ∀ {r : Text}, x ∉ r → r <+: x :: b → r = [] := by
    intro r hr h
    cases r with
    | nil => rfl
    | cons y r => exact absurd ((List.cons_prefix_cons.mp h).1 ▸ List.mem_cons_self) hr
  constructor
  · intro h
    rcases List.infix_append_iff.mp h with h | h | ⟨u, v, rfl, hu, hv⟩
    · exact .inl h
    · rcases List.infix_cons_iff.mp h with h | h
      · exact .inl (hnil hx h ▸ List.nil_infix)
      · exact .inr h
    · rw [hnil (fun h => hx (List.mem_append_right u h)) hv, List.append_nil]
      exact .inl hu.isInfix
  · rintro (h | h)
    · exact h.trans (List.prefix_append a _).isInfix
    · exact (h.trans (List.suffix_cons x b).isInfix).trans (List.suffix_append a _).isInfix

namespace Document

variable {d : Document} {s : Text}

/-- Joined lines are the lines with newlines between them. -/
theorem joinLines_eq_intercalate (ls : List Text) : joinLines ls = ['\n'].intercalate ls := by
  induction ls with
  | nil => rfl
  | cons l ls ih =>
    cases ls with
    | nil => rw [joinLines, List.intercalate_singleton]
    | cons l' ls =>
      rw [joinLines_cons, if_neg (List.cons_ne_nil l' ls), ih, List.intercalate_cons_cons,
        List.append_assoc, List.singleton_append]

/-- What has no newline is found in joined lines where it is found in one of the lines. -/
theorem infix_joinLines_iff_of_not_mem (hs : '\n' ∉ s) (hne : s ≠ []) (ls : List Text) :
    s <:+: joinLines ls ↔ ∃ l ∈ ls, s <:+: l := by
  induction ls with
  | nil => simp [joinLines, hne]
  | cons l ls ih =>
    cases ls with
    | nil => simp [joinLines]
    | cons l' ls =>
      rw [joinLines_cons, if_neg (List.cons_ne_nil l' ls), Text.infix_append_cons_iff hs, ih]
      simp

/-- The two ways to look for a needle without newline. -/
theorem any_occursIn_eq (hs : '\n' ∉ s) (hne : s ≠ []) (d : Document) :
    d.lines.any (occursIn s) = occursIn (unifyNewlines s) (joinLines d.lines) := by
  rw [Bool.eq_iff_iff, Text.occursIn_iff, Text.unifyNewlines_of_not_mem hs,
    infix_joinLines_iff_of_not_mem hs hne]
  simp [Text.occursIn_iff]

/-- **One search.** A document contains a needle where the needle, with one kind of newline, occurs
in the lines of the document with newlines between them; for a needle without newline, the search
line by line gives the same. The terminators of the document do not matter. -/
theorem contains_iff_infix_intercalate (d : Document) (needle : Text) :
    (d.contains needle = true ↔
      needle ≠ [] ∧ unifyNewlines needle <:+: ['\n'].intercalate d.lines) ∧
    ('\n' ∉ needle → needle ≠ [] →
      d.lines.any (occursIn needle) = occursIn (unifyNewlines needle) (joinLines d.lines)) ∧
    ∀ d' : Document, d'.lines = d.lines → d'.contains needle = d.contains needle := by
  refine ⟨?_, fun hs hne => any_occursIn_eq hs hne d, fun d' h => contains_congr h needle⟩
  rw [← joinLines_eq_intercalate]
  by_cases hs : '\n' ∈ needle
  · rw [contains_iff_of_mem hs, and_iff_right (List.ne_nil_of_mem hs)]
  · rw [contains_iff_mem_lines hs, Text.unifyNewlines_of_not_mem hs]
    exact and_congr_right fun hne => (infix_joinLines_iff_of_not_mem hs hne d.lines).symm

/-- A needle that ends in a carriage return, which is a part of the last line and not of its
terminator. -/
theorem contains_iff_infix_intercalate_return :
    let d : Document := .ofText "a\r\nb\r\r\n".toList
    let d' : Document := .ofText "a\nb\r\r\n".toList
    let needle := "b\r".toList
    '\n' ∉ needle ∧ needle ≠ [] ∧ d'.lines = d.lines ∧
      d.lines.any (occursIn needle) = occursIn (unifyNewlines needle) (joinLines d.lines) ∧
      d'.contains needle = d.contains needle ∧
      unifyNewlines needle <:+: ['\n'].intercalate d.lines := by
  intro d d' needle
  have hs : '\n' ∉ needle := by decide
  have hne : needle ≠ [] := by decide
  have hlines : d'.lines = d.lines := by rfl
  obtain ⟨hiff, hany, hcongr⟩ := contains_iff_infix_intercalate d needle
  have hcontains : d.contains needle = true := by rfl
  exact ⟨hs, hne, hlines, hany hs hne, hcongr d' hlines, (hiff.mp hcontains).2⟩

/-- A needle of two lines matches any terminator. -/
example : (ofText "x\na\r\nb\n".toList).contains "a\nb".toList = true ∧
    (ofText "x\na\nb\n".toList).contains "a\r\nb".toList = true := by
  exact ⟨by rfl, by rfl⟩

end Document

end LinePatch
