import LinePatch.Proofs.Text.Lines
import Mathlib.Data.List.TakeWhile

/-!
# Line breaks at the end of a line

How much of a terminator stays in the content of a line depends on the terminator. What does not
depend on it is the line without the line breaks at its end (`trimNewlines`).

* `trimNewlines_content`: a raw line and its content are the same up to these line breaks.
* `infix_trimNewlines_iff`: a text that lies in one line and does not end in a carriage return
  occurs in a line if and only if it occurs in the line without them.
* `exists_line_of_infix`: such a text occurs in a text only inside one of its lines.
* `isInline_of_trim`: a trimmed line is such a text.
* `exists_line_of_isBlankText`: a text that is not blank has a line that is not.
-/

namespace LinePatch.Text

/-- A character of a terminator. -/
def IsBreak (x : Char) : Prop := x = '\r' ∨ x = '\n'

/-- A text that terminators cannot take a part in: it lies in one line and ends in no carriage
return. -/
def IsInline (s : Text) : Prop := '\n' ∉ s ∧ s.getLast? ≠ some '\r'

variable {c e s t : Text}

/-! ## Trimming -/

private theorem isBreak_iff {x : Char} : (x == '\r' || x == '\n') = true ↔ IsBreak x := by
  simp [IsBreak]

theorem IsBreak.isBlank {x : Char} (h : IsBreak x) : isBlank x = true := by
  rcases h with rfl | rfl <;> decide

theorem IsEnding.isBreak (he : IsEnding e) : ∀ x ∈ e, IsBreak x := by
  rcases he with rfl | rfl <;> simp [IsBreak]

theorem trimNewlines_append (h : ∀ x ∈ e, IsBreak x) : trimNewlines (c ++ e) = trimNewlines c := by
  unfold trimNewlines
  rw [List.reverse_append, List.dropWhile_append_of_pos]
  intro x hx
  exact isBreak_iff.mpr (h x (List.mem_reverse.mp hx))

/-- What is trimmed off are line breaks. -/
theorem exists_append_trimNewlines (c : Text) :
    ∃ e, (∀ x ∈ e, IsBreak x) ∧ c = trimNewlines c ++ e := by
  refine ⟨(c.reverse.takeWhile fun x => x == '\r' || x == '\n').reverse, fun x hx => ?_, ?_⟩
  · have hbreak := List.mem_takeWhile_imp (List.mem_reverse.mp hx)
    exact isBreak_iff.mp hbreak
  · rw [trimNewlines, ← List.reverse_append, List.takeWhile_append_dropWhile, List.reverse_reverse]

theorem isBreak_of_mem_terminator {raw : Text} : ∀ x ∈ terminator raw, IsBreak x := by
  rcases terminator_cases raw with h | h
  · simp [h]
  · exact h.isBreak

@[simp] theorem trimNewlines_content (raw : Text) :
    trimNewlines (content raw) = trimNewlines raw := by
  conv => rhs; rw [← content_append_terminator raw]
  rw [trimNewlines_append isBreak_of_mem_terminator]

theorem map_trimNewlines_content (raws : List Text) :
    (raws.map content).map trimNewlines = raws.map trimNewlines := by
  rw [List.map_map]
  exact List.map_congr_left fun raw _ => trimNewlines_content raw

theorem trimNewlines_append_ending (he : e = [] ∨ IsEnding e) :
    trimNewlines (c ++ e) = trimNewlines c := by
  rcases he with rfl | he
  · rw [List.append_nil]
  · exact trimNewlines_append he.isBreak

/-- Up to line breaks at their ends, written lines are the lines. -/
theorem map_trimNewlines_terminate {last : Text} (he : IsEnding e)
    (hlast : last = [] ∨ IsEnding last) (ls : List Text) :
    (terminate e last ls).map trimNewlines = ls.map trimNewlines := by
  apply List.ext_getElem?
  intro j
  rw [List.getElem?_map, getElem?_terminate, Option.map_map, List.getElem?_map]
  congr 1
  funext c
  rw [Function.comp_apply, trimNewlines_append_ending]
  split
  · exact hlast
  · exact .inr he

/-- Blank characters at the end do not count for a trimmed text. -/
theorem trim_append (h : ∀ x ∈ e, isBlank x = true) : trim (c ++ e) = trim c := by
  unfold trim trimStart
  rw [List.dropWhile_append]
  split
  · rename_i hc
    rw [List.isEmpty_iff.mp hc, List.dropWhile_eq_nil_iff.mpr h]
  · rw [trimEnd, trimEnd, List.reverse_append, List.dropWhile_append_of_pos]
    intro x hx
    exact h x (List.mem_reverse.mp hx)

theorem trim_trimNewlines (c : Text) : trim (trimNewlines c) = trim c := by
  obtain ⟨e, he, hc⟩ := exists_append_trimNewlines c
  conv => rhs; rw [hc]
  rw [trim_append fun x hx => (he x hx).isBlank]

/-! ## Occurrences -/

theorem infix_append_breaks_iff (hs : IsInline s) (he : ∀ x ∈ e, IsBreak x) :
    s <:+: c ++ e ↔ s <:+: c := by
  refine ⟨fun h => ?_, fun h => h.trans (List.prefix_append c e).isInfix⟩
  -- From the back, one line break after the other: none is the last character of `s`.
  induction hn : e.length generalizing e with
  | zero => rwa [List.length_eq_zero_iff.mp hn, List.append_nil] at h
  | succ n ih =>
    rcases List.eq_nil_or_concat e with rfl | ⟨e', x, rfl⟩
    · simp at hn
    · rw [List.concat_eq_append] at h he hn
      rw [← List.append_assoc, List.infix_concat_iff, List.suffix_concat_iff] at h
      rcases h with (rfl | ⟨s', rfl, -⟩) | h
      · exact List.nil_infix
      · rcases he x (by simp) with rfl | rfl
        · exact absurd List.getLast?_concat hs.2
        · exact absurd (List.mem_append_right s' List.mem_cons_self) hs.1
      · exact ih (fun x hx => he x (List.mem_append_left _ hx)) h (by simpa using hn)

theorem infix_trimNewlines_iff (hs : IsInline s) : s <:+: trimNewlines c ↔ s <:+: c := by
  obtain ⟨e, he, hc⟩ := exists_append_trimNewlines c
  conv => rhs; rw [hc]
  rw [infix_append_breaks_iff hs he]

/-- In raw lines, a text without newline lies in one of them. -/
theorem exists_infix_of_infix_flatten {ls : List Text} (h : IsRawLines ls) (hs : '\n' ∉ s)
    (hne : s ≠ []) (hin : s <:+: ls.flatten) : ∃ l ∈ ls, s <:+: l := by
  induction h with
  | nil => exact absurd (List.infix_nil.mp hin) hne
  | @rest u _ => exact ⟨u, List.mem_singleton_self u, by simpa using hin⟩
  | @cons l ls hl _ ih =>
    rw [List.flatten_cons, List.infix_append_iff] at hin
    rcases hin with hin | hin | ⟨s₁, s₂, rfl, h₁, h₂⟩
    · exact ⟨l, List.mem_cons_self, hin⟩
    · obtain ⟨l', hl', hin⟩ := ih hin
      exact ⟨l', List.mem_cons_of_mem l hl', hin⟩
    · obtain ⟨c, -, rfl⟩ := hl
      rcases List.suffix_concat_iff.mp h₁ with rfl | ⟨s', rfl, -⟩
      · obtain ⟨l', hl', hin⟩ := ih h₂.isInfix
        exact ⟨l', List.mem_cons_of_mem _ hl', hin⟩
      · simp at hs

/-- A text that lies in one line of a text is found in one of its lines. -/
theorem exists_line_of_infix (hs : IsInline s) (hne : s ≠ []) (h : s <:+: t) :
    ∃ c ∈ lines t, s <:+: c := by
  rw [← flatten_rawLines t] at h
  obtain ⟨raw, hraw, hin⟩ := exists_infix_of_infix_flatten (isRawLines_rawLines t).1 hs.1 hne h
  refine ⟨content raw, List.mem_map_of_mem hraw, ?_⟩
  rwa [← infix_trimNewlines_iff hs, trimNewlines_content, infix_trimNewlines_iff hs]

/-! ## Trimmed lines -/

theorem isInfix_trim (c : Text) : trim c <:+: c := by
  have h₁ : trimEnd (trimStart c) <+: trimStart c := by
    rw [trimEnd, ← List.reverse_suffix, List.reverse_reverse]
    exact List.dropWhile_suffix _
  exact h₁.isInfix.trans (List.dropWhile_suffix _).isInfix

/-- A text is its trimmed text with blank characters around it. -/
theorem exists_append_trim (c : Text) :
    ∃ a b, (∀ x ∈ a, isBlank x = true) ∧ (∀ x ∈ b, isBlank x = true) ∧ c = a ++ trim c ++ b := by
  refine ⟨c.takeWhile isBlank, ((trimStart c).reverse.takeWhile isBlank).reverse, fun x hx => ?_,
    fun x hx => ?_, ?_⟩
  · exact List.mem_takeWhile_imp hx
  · exact List.mem_takeWhile_imp (List.mem_reverse.mp hx)
  · rw [List.append_assoc, trim, trimEnd, ← List.reverse_append, List.takeWhile_append_dropWhile,
      List.reverse_reverse, trimStart, List.takeWhile_append_dropWhile]

theorem isInline_of_trim (hc : '\n' ∉ c) : IsInline (trim c) := by
  refine ⟨fun h => hc ((isInfix_trim c).subset h), fun h => ?_⟩
  rw [trim, trimEnd, List.getLast?_reverse] at h
  have := List.head?_dropWhile_not isBlank (trimStart c).reverse
  rw [h] at this
  exact absurd this (by decide)

/-! ## Blank texts -/

theorem isBlankText_eq_false_iff :
    isBlankText t = false ↔ ∃ x ∈ t, isBlank x = false := by
  simp [isBlankText]

theorem ne_nil_of_isBlankText (h : isBlankText t = false) : t ≠ [] := by
  rintro rfl
  simp [isBlankText] at h

/-- A text around one that is not blank is not blank. -/
theorem isBlankText_of_infix (h : s <:+: t) (hs : isBlankText s = false) :
    isBlankText t = false := by
  obtain ⟨x, hx, hblank⟩ := isBlankText_eq_false_iff.mp hs
  exact isBlankText_eq_false_iff.mpr ⟨x, h.subset hx, hblank⟩

/-- Trimming leaves something of a text that is not blank. -/
theorem trim_ne_nil (h : isBlankText t = false) : trim t ≠ [] := by
  obtain ⟨x, hx, hblank⟩ := isBlankText_eq_false_iff.mp h
  have hstart : trimStart t ≠ [] := fun hnil => by
    have := List.dropWhile_eq_nil_iff.mp hnil x hx
    rw [hblank] at this
    cases this
  intro hnil
  have hend : (trimStart t).reverse.dropWhile isBlank = [] := List.reverse_eq_nil_iff.mp hnil
  have hall := List.dropWhile_eq_nil_iff.mp hend
  -- The first character that is left at the start is not blank.
  have hhead : isBlank ((trimStart t).head hstart) = false := List.head_dropWhile_not isBlank hstart
  rw [hall _ (List.mem_reverse.mpr (List.head_mem hstart))] at hhead
  cases hhead

/-- A text that is not blank has a line that is not. -/
theorem exists_line_of_isBlankText (h : isBlankText t = false) :
    ∃ c ∈ lines t, isBlankText c = false := by
  obtain ⟨x, hx, hblank⟩ := isBlankText_eq_false_iff.mp h
  rw [← flatten_rawLines t] at hx
  obtain ⟨raw, hraw, hx⟩ := List.mem_flatten.mp hx
  refine ⟨content raw, List.mem_map_of_mem hraw, isBlankText_eq_false_iff.mpr ⟨x, ?_, hblank⟩⟩
  rw [← content_append_terminator raw] at hx
  rcases List.mem_append.mp hx with hx | hx
  · exact hx
  · have := (isBreak_of_mem_terminator x hx).isBlank
    rw [hblank] at this
    cases this

end LinePatch.Text
