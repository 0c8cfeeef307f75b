import LinePatch.Proofs.Document.Lines

/-!
# Texts and their raw lines

A text and the raw lines that it is cut into determine each other. Which lists of lines can be cut
from a text is said by looking at each line: where its newlines are, and whether another line is
behind it.

* `isTerminated_iff`, `isCut_cons`: the step, for one line.
* `isCut_iff`: these lists are the raw lines without empty pieces.
* `sliceText?_append`: two slices of which one starts where the other stops.
* `ofText_toText_inverse`: the round trips, and what lines and slices are put together from.
-/

namespace LinePatch

namespace Text

/-- What a text is cut into after each newline: no piece is empty, a newline stands at most at the
end of a piece, and only the last piece may lack it. -/
structure IsCut (ls : List Text) : Prop where
  ne_nil : ∀ l ∈ ls, l ≠ []
  newline_last : ∀ l ∈ ls, '\n' ∉ l.dropLast
  terminated : ∀ l ∈ ls.dropLast, l.getLast? = some '\n'

variable {l : Text} {ls : List Text}

theorem isTerminated_iff : IsTerminated l ↔ '\n' ∉ l.dropLast ∧ l.getLast? = some '\n' := by
  constructor
  · rintro ⟨c, hc, rfl⟩
    simpa using hc
  · rintro ⟨hinit, hlast⟩
    obtain ⟨c, rfl⟩ := List.getLast?_eq_some_iff.mp hlast
    exact ⟨c, by simpa using hinit, rfl⟩

/-- A newline that is not the last character is in front of it. -/
theorem newline_not_mem_iff : '\n' ∉ l ↔ '\n' ∉ l.dropLast ∧ l.getLast? ≠ some '\n' := by
  rcases List.eq_nil_or_concat l with rfl | ⟨c, x, rfl⟩
  · simp
  · simp [List.concat_eq_append, eq_comm]

/-- A piece behind which there is another one has its newline. -/
theorem isCut_cons (hls : ls ≠ []) : IsCut (l :: ls) ↔ IsTerminated l ∧ IsCut ls := by
  rw [isTerminated_iff]
  constructor
  · intro h
    have hlast := h.terminated
    rw [List.dropLast_cons_of_ne_nil hls, List.forall_mem_cons] at hlast
    obtain ⟨-, hne⟩ := List.forall_mem_cons.mp h.ne_nil
    obtain ⟨hinit, hnewline⟩ := List.forall_mem_cons.mp h.newline_last
    exact ⟨⟨hinit, hlast.1⟩, hne, hnewline, hlast.2⟩
  · rintro ⟨⟨hinit, hlast⟩, h⟩
    refine ⟨List.forall_mem_cons.mpr ⟨?_, h.ne_nil⟩,
      List.forall_mem_cons.mpr ⟨hinit, h.newline_last⟩, ?_⟩
    · rintro rfl
      cases hlast
    · rw [List.dropLast_cons_of_ne_nil hls]
      exact List.forall_mem_cons.mpr ⟨hlast, h.terminated⟩

theorem isCut_singleton : IsCut [l] ↔ l ≠ [] ∧ (IsTerminated l ∨ '\n' ∉ l) := by
  constructor
  · intro h
    have hinit := h.newline_last l (List.mem_singleton_self l)
    refine ⟨h.ne_nil l (List.mem_singleton_self l), ?_⟩
    by_cases hlast : l.getLast? = some '\n'
    · exact .inl (isTerminated_iff.mpr ⟨hinit, hlast⟩)
    · exact .inr (newline_not_mem_iff.mpr ⟨hinit, hlast⟩)
  · rintro ⟨hne, h⟩
    have hinit : '\n' ∉ l.dropLast := by
      rcases h with h | h
      · exact (isTerminated_iff.mp h).1
      · exact (newline_not_mem_iff.mp h).1
    exact ⟨by simpa using hne, by simpa using hinit, by simp⟩

/-- The pieces of texts are the raw lines of which none is empty. -/
theorem isCut_iff : IsCut ls ↔ IsRawLines ls ∧ [] ∉ ls := by
  induction ls with
  | nil => exact ⟨fun _ => ⟨.nil, by simp⟩, fun _ => ⟨by simp, by simp, by simp⟩⟩
  | cons l ls ih =>
    by_cases hls : ls = []
    · subst hls
      rw [isCut_singleton]
      constructor
      · rintro ⟨hne, hl | hl⟩
        · exact ⟨.cons hl .nil, by simpa using Ne.symm hne⟩
        · exact ⟨.rest hl, by simpa using Ne.symm hne⟩
      · rintro ⟨h, hne⟩
        exact ⟨by simpa [eq_comm] using hne, h.mem List.mem_cons_self⟩
    · rw [isCut_cons hls, ih]
      constructor
      · rintro ⟨hl, h, hne⟩
        exact ⟨.cons hl h, by simp [hne, hl.ne_nil.symm]⟩
      · rintro ⟨h, hne⟩
        exact ⟨h.head hls, h.tail, List.not_mem_of_not_mem_cons hne⟩

end Text

namespace Document

open Text (IsCut)

variable {d : Document}

/-- A line and its terminator are the raw line; past the end there is none of them. -/
theorem rawLine?_eq_map_line? (d : Document) (i : Nat) :
    d.rawLine? i = (d.line? i).map (· ++ d.terminator i) := by
  unfold line? lines terminator rawLine?
  rw [List.getElem?_map]
  cases d.rawLines[i]? with
  | none => rfl
  | some raw => simp

/-- Two slices, the second of which starts where the first stops, are one. -/
theorem sliceText?_append {a b c : Nat} (hab : a ≤ b) (hbc : b ≤ c) (hc : c ≤ d.length) :
    ∃ s s', d.sliceText? a b = some s ∧ d.sliceText? b c = some s' ∧
      d.sliceText? a c = some (s ++ s') := by
  refine ⟨_, _, sliceText?_eq_some_iff.mpr ⟨hab, Nat.le_trans hbc hc, rfl⟩,
    sliceText?_eq_some_iff.mpr ⟨hbc, hc, rfl⟩, ?_⟩
  rw [sliceText?_eq_some_iff, ← List.flatten_append]
  refine ⟨Nat.le_trans hab hbc, hc, congrArg List.flatten ?_⟩
  have hsub : c - a = (b - a) + (c - b) := by omega
  have hdrop : a + (b - a) = b := by omega
  rw [hsub, List.take_add, List.drop_drop, hdrop]

/-- **Texts and documents determine each other.** A text that is read is written back as it was,
and its raw lines are cut after each newline. The documents with such raw lines are those that are
read back as they were. In every document a line and its terminator make the raw line, and adjacent
slices make the slice of both. -/
theorem ofText_toText_inverse (t : Text) (d : Document) :
    (ofText t).toText = t ∧ IsCut (ofText t).rawLines ∧
    (IsCut d.rawLines ↔ ofText d.toText = d) ∧
    (∀ i, d.rawLine? i = (d.line? i).map (· ++ d.terminator i)) ∧
    ∀ a b c, a ≤ b → b ≤ c → c ≤ d.length →
      ∃ s s', d.sliceText? a b = some s ∧ d.sliceText? b c = some s' ∧
        d.sliceText? a c = some (s ++ s') :=
  ⟨toText_ofText t, Text.isCut_iff.mpr (Text.isRawLines_rawLines t),
    Text.isCut_iff.trans ofText_toText_eq_iff.symm, rawLine?_eq_map_line? d,
    fun _ _ _ => sliceText?_append⟩

/-- Empty lines, both terminators, carriage returns of their own, and no newline at the end. -/
theorem ofText_toText_inverse_unterminated :
    let d : Document := ⟨["\n".toList, "a\r\n".toList, "\r\r\n".toList, "b\r".toList]⟩
    let t : Text := "\na\r\n\r\r\nb\r".toList
    IsCut d.rawLines ∧ ofText d.toText = d ∧ (ofText t).toText = t ∧
      d.rawLine? 2 = (d.line? 2).map (· ++ d.terminator 2) ∧
      1 ≤ 2 ∧ 2 ≤ 4 ∧ 4 ≤ d.length ∧
      ∃ s s', d.sliceText? 1 2 = some s ∧ d.sliceText? 2 4 = some s' ∧
        d.sliceText? 1 4 = some (s ++ s') := by
  intro d t
  have hcut : IsCut d.rawLines := ⟨by decide, by decide, by decide⟩
  have hlength : 4 ≤ d.length := by decide
  obtain ⟨htext, -, hread, hline, hslice⟩ := ofText_toText_inverse t d
  exact ⟨hcut, hread.mp hcut, htext, hline 2, by decide, by decide, hlength,
    hslice 1 2 4 (by decide) (by decide) hlength⟩

end Document

end LinePatch
