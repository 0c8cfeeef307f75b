import LinePatch.Document.Insertion
import LinePatch.Proofs.Document.Lines
import LinePatch.Proofs.Text.LineBreaks
import Mathlib.Data.List.Flatten

/-!
# The lines after an insertion

The edit of an insertion is inside the document, and always has an effect. It adds the lines of the
snippet beside the anchor line, and gives that line a terminator if it goes behind a line without.

* `insertion_apply`: the edit takes place.
* `rawLines_inserted_before`, `rawLines_inserted_after`, `rawLines_inserted_after_unterminated`: the
  raw lines after it, in each of the three shapes of an insertion.
* `length_inserted`, `toText_sublist_inserted`: what they add, and that they take nothing away.
* `isRawLines_inserted`: they are raw lines again.
* `mem_map_trimNewlines_inserted`: they are the lines before and those of the snippet.
-/

namespace LinePatch

open Text (IsEnding IsRawLines IsTerminated content terminate trimNewlines)

/-! ## Edits without a guard -/

theorem Edit.apply_of_guard_eq_none {e : Edit} {d : Document} {current : Text}
    (htext : d.sliceText? e.start e.stop = some current) (hnoop : e.isNoop current = false)
    (hguard : e.guard = none) :
    e.apply d =
      .ok (.applied (e.stop - e.start) e.newLines.length, d.splice e.start e.stop e.newLines) := by
  simp [Edit.apply, htext, hnoop, hguard]

theorem Edit.insertAt_apply {d : Document} {i : Nat} (h : i ≤ d.length) (newLines : List Text) :
    (Edit.insertAt i newLines).apply d =
      .ok (.applied 0 newLines.length, d.splice i i newLines) := by
  have htext : d.sliceText? i i = some [] := by
    rw [Document.sliceText?_eq_some_iff]
    exact ⟨Nat.le_refl i, h, by simp⟩
  have hnoop : (Edit.insertAt i newLines).isNoop [] = false := by simp [isNoop, insertAt]
  have := Edit.apply_of_guard_eq_none (e := .insertAt i newLines) htext hnoop rfl
  simpa [insertAt] using this

/-! ## Insertions -/

/-- The first of the lines that an insertion beside a line adds. -/
def Placement.firstLine (line : Nat) : Placement → Nat
  | .before => line
  | .after => line + 1

namespace Document

variable {d : Document}

/-- The document with a snippet inserted beside a line. -/
def inserted (d : Document) (line : Nat) (snippet : Text) (placement : Placement) : Document :=
  d.splice (d.insertion line snippet placement).start (d.insertion line snippet placement).stop
    (d.insertion line snippet placement).newLines

/-- The edit of an insertion takes place, whatever the snippet. -/
theorem insertion_apply {line : Nat} (h : line < d.length) (snippet : Text)
    (placement : Placement) :
    ∃ removed added, (d.insertion line snippet placement).apply d =
      .ok (.applied removed added, d.inserted line snippet placement) := by
  cases placement with
  | before => exact ⟨_, _, Edit.insertAt_apply (Nat.le_of_lt h) _⟩
  | after =>
    by_cases ht : (d.terminator line).isEmpty
    · -- The line is written again with a terminator, so its text changes.
      obtain ⟨pre, raw, post, hraw, rfl⟩ := exists_rawLines_eq h
      have htext : d.sliceText? pre.length (pre.length + 1) = some raw := by
        simpa using sliceText?_of_rawLines_eq pre [raw] post (by simpa using hraw)
      have hcontent : content raw = raw := by
        rw [terminator_of_rawLines_eq hraw, List.isEmpty_iff] at ht
        have := Text.content_append_terminator raw
        rwa [ht, List.append_nil] at this
      have hnoop : (d.insertion pre.length snippet .after).isNoop raw = false := by
        simp only [insertion, if_pos ht, Edit.isNoop, line?_of_rawLines_eq hraw, Option.getD_some,
          hcontent, Bool.and_eq_false_iff, beq_eq_false_iff_ne]
        right
        intro heq
        have hlen := congrArg List.length heq
        have := List.length_pos_iff.mpr (endingAt_isEnding d pre.length).ne_nil
        simp only [List.flatten_cons, List.length_append] at hlen
        omega
      have hbounds : (d.insertion pre.length snippet .after).start = pre.length ∧
          (d.insertion pre.length snippet .after).stop = pre.length + 1 ∧
          (d.insertion pre.length snippet .after).guard = none := by
        simp only [insertion, if_pos ht, and_self]
      exact ⟨_, _, Edit.apply_of_guard_eq_none (by rw [hbounds.1, hbounds.2.1, htext]) hnoop
        hbounds.2.2⟩
    · have hins : d.insertion line snippet .after = .insertAt (line + 1)
          (Text.terminatedLines snippet (d.endingAt line) (d.endingAt line)) := by
        simp only [insertion, if_neg ht]
      unfold inserted
      rw [hins]
      exact ⟨_, _, Edit.insertAt_apply h _⟩

section RawLines

variable {pre post : List Text} {raw : Text}

theorem rawLines_inserted_before (h : d.rawLines = pre ++ raw :: post) (snippet : Text) :
    (d.inserted pre.length snippet .before).rawLines =
      pre ++ terminate (d.endingAt pre.length) (d.endingAt pre.length) (Text.lines snippet) ++
        raw :: post := by
  simp only [inserted, insertion, Edit.insertAt, Text.terminatedLines]
  simpa using rawLines_splice_of_rawLines_eq pre [] (raw :: post) (by simpa using h) _

theorem rawLines_inserted_after (h : d.rawLines = pre ++ raw :: post)
    (ht : Text.terminator raw ≠ []) (snippet : Text) :
    (d.inserted pre.length snippet .after).rawLines =
      pre ++ [raw] ++ terminate (d.endingAt pre.length) (d.endingAt pre.length)
        (Text.lines snippet) ++ post := by
  have hne : ¬ (Text.terminator raw).isEmpty = true := by simpa using ht
  simp only [inserted, insertion, terminator_of_rawLines_eq h, if_neg hne, Edit.insertAt,
    Text.terminatedLines]
  simpa using rawLines_splice_of_rawLines_eq (pre ++ [raw]) [] post (by simpa using h) _

/-- Behind a line without terminator the snippet ends without one. -/
theorem rawLines_inserted_after_unterminated (h : d.rawLines = pre ++ raw :: post)
    (ht : Text.terminator raw = []) (snippet : Text) :
    (d.inserted pre.length snippet .after).rawLines =
      pre ++ ((raw ++ d.endingAt pre.length) ::
        terminate (d.endingAt pre.length) [] (Text.lines snippet)) ++ post := by
  have hcontent : content raw = raw := by
    have := Text.content_append_terminator raw
    rwa [ht, List.append_nil] at this
  simp only [inserted, insertion, terminator_of_rawLines_eq h, ht, List.isEmpty_nil, ↓reduceIte,
    line?_of_rawLines_eq h, Option.getD_some, hcontent, Text.terminatedLines]
  exact rawLines_splice_of_rawLines_eq pre [raw] post (by simpa using h) _

/-- The raw lines after an insertion beside the line `raw`: the snippet in front of it, behind it,
or behind it with a terminator in between. -/
theorem inserted_cases (h : d.rawLines = pre ++ raw :: post) (snippet : Text)
    (placement : Placement) :
    ∃ e, IsEnding e ∧
      ((d.inserted pre.length snippet placement).rawLines =
          pre ++ terminate e e (Text.lines snippet) ++ raw :: post ∨
        Text.terminator raw ≠ [] ∧ (d.inserted pre.length snippet placement).rawLines =
          pre ++ [raw] ++ terminate e e (Text.lines snippet) ++ post ∨
        Text.terminator raw = [] ∧ (d.inserted pre.length snippet placement).rawLines =
          pre ++ ((raw ++ e) :: terminate e [] (Text.lines snippet)) ++ post) := by
  refine ⟨d.endingAt pre.length, endingAt_isEnding d _, ?_⟩
  cases placement with
  | before => exact .inl (rawLines_inserted_before h snippet)
  | after =>
    by_cases ht : Text.terminator raw = []
    · exact .inr (.inr ⟨ht, rawLines_inserted_after_unterminated h ht snippet⟩)
    · exact .inr (.inl ⟨ht, rawLines_inserted_after h ht snippet⟩)

/-- An insertion leaves an empty piece only behind a line without terminator, if the last line of
the snippet is empty. -/
theorem nil_mem_rawLines_inserted (h : d.rawLines = pre ++ raw :: post) (hraw : raw ≠ [])
    (snippet : Text) (placement : Placement) :
    [] ∈ (d.inserted pre.length snippet placement).rawLines ↔ [] ∈ d.rawLines ∨
      placement = .after ∧ Text.terminator raw = [] ∧ (Text.lines snippet).getLast? = some [] := by
  have he : d.endingAt pre.length ≠ [] := (endingAt_isEnding d _).ne_nil
  cases placement with
  | before =>
    rw [rawLines_inserted_before h, h]
    simp [Text.nil_mem_terminate_iff he, he]
  | after =>
    by_cases ht : Text.terminator raw = []
    · rw [rawLines_inserted_after_unterminated h ht, h]
      simp only [List.mem_append, List.mem_cons, Text.nil_mem_terminate_iff he]
      simp only [List.nil_eq, List.append_eq_nil_iff, hraw, he, ht, and_false, and_true, true_and,
        false_or]
      rw [or_right_comm, or_assoc]
    · rw [rawLines_inserted_after h ht, h]
      simp [Text.nil_mem_terminate_iff he, he, ht]

end RawLines

/-- An insertion leaves raw lines: the one that may lack a newline stays the last. -/
theorem isRawLines_inserted (hd : IsRawLines d.rawLines) {line : Nat} (h : line < d.length)
    (snippet : Text) (placement : Placement) :
    IsRawLines (d.inserted line snippet placement).rawLines := by
  obtain ⟨pre, raw, post, hraw, rfl⟩ := exists_rawLines_eq h
  rw [hraw] at hd
  have hsnippet : ∀ c ∈ Text.lines snippet, '\n' ∉ c := fun c =>
    Text.newline_not_mem_of_mem_lines
  obtain ⟨e, he, hins | ⟨hterminator, hins⟩ | ⟨hterminator, hins⟩⟩ :=
    inserted_cases hraw snippet placement
  · have hwritten := Text.isTerminated_of_mem_terminate hsnippet he he
    rw [hins, List.append_assoc]
    exact .append hd.left (.append hwritten hd.right)
  · have hterminated : IsTerminated raw := by
      rcases hd.right.mem List.mem_cons_self with h | h
      · exact h
      · exact absurd (Text.terminator_of_not_mem h) hterminator
    have hwritten := Text.isTerminated_of_mem_terminate hsnippet he he
    rw [hins, List.append_assoc, List.append_assoc]
    refine .append hd.left (.append ?_ (.append hwritten hd.right.tail))
    simpa using hterminated
  · have hno : '\n' ∉ raw := by
      rcases hd.right.mem List.mem_cons_self with h | h
      · exact absurd hterminator h.isEnding.ne_nil
      · exact h
    rw [hins, hd.eq_nil_of_terminator hterminator, List.append_nil]
    exact .append hd.left
      (.cons (Text.isTerminated_append hno he) (Text.isRawLines_terminate hsnippet he (.inl rfl)))

/-- An insertion adds as many lines as the snippet has. -/
theorem length_inserted {line : Nat} (h : line < d.length) (snippet : Text)
    (placement : Placement) :
    (d.inserted line snippet placement).length = d.length + (Text.lines snippet).length := by
  obtain ⟨pre, raw, post, hraw, rfl⟩ := exists_rawLines_eq h
  unfold length
  obtain ⟨e, -, hins | ⟨-, hins⟩ | ⟨-, hins⟩⟩ := inserted_cases hraw snippet placement
  all_goals
    rw [hins, hraw]
    simp only [List.length_append, List.length_cons, List.length_nil, Text.length_terminate]
    omega

/-- An insertion takes no character away. -/
theorem toText_sublist_inserted {line : Nat} (h : line < d.length) (snippet : Text)
    (placement : Placement) : d.toText.Sublist (d.inserted line snippet placement).toText := by
  obtain ⟨pre, raw, post, hraw, rfl⟩ := exists_rawLines_eq h
  unfold toText
  obtain ⟨e, -, hins | ⟨-, hins⟩ | ⟨-, hins⟩⟩ := inserted_cases hraw snippet placement
  · rw [hins, hraw]
    exact ((List.sublist_append_left pre _).append_right _).flatten
  · rw [hins, hraw, ← List.singleton_append, ← List.append_assoc]
    exact ((List.sublist_append_left _ _).append_right _).flatten
  · rw [hins, hraw]
    simp only [List.flatten_append, List.flatten_cons, List.append_assoc]
    refine (List.Sublist.refl _).append ((List.Sublist.refl raw).append ?_)
    exact (List.sublist_append_right _ _).trans (List.sublist_append_right _ _)

/-- Up to line breaks at their ends, the lines after an insertion are those before it and those of
the snippet. -/
theorem mem_map_trimNewlines_inserted {line : Nat} (h : line < d.length) (snippet : Text)
    (placement : Placement) (l : Text) :
    l ∈ (d.inserted line snippet placement).rawLines.map trimNewlines ↔
      l ∈ d.rawLines.map trimNewlines ∨ l ∈ (Text.lines snippet).map trimNewlines := by
  obtain ⟨pre, raw, post, hraw, rfl⟩ := exists_rawLines_eq h
  obtain ⟨e, he, hins | ⟨-, hins⟩ | ⟨-, hins⟩⟩ := inserted_cases hraw snippet placement
  · have hwritten := Text.map_trimNewlines_terminate he (.inr he) (Text.lines snippet)
    rw [hins, hraw]
    simp only [List.map_append, List.map_cons, hwritten, List.mem_append, List.mem_cons]
    grind
  · have hwritten := Text.map_trimNewlines_terminate he (.inr he) (Text.lines snippet)
    rw [hins, hraw]
    simp only [List.map_append, List.map_cons, List.map_nil, hwritten, List.mem_append,
      List.mem_cons]
    grind
  · have hwritten := Text.map_trimNewlines_terminate he (.inl rfl) (Text.lines snippet)
    have hraw' : trimNewlines (raw ++ e) = trimNewlines raw :=
      Text.trimNewlines_append_ending (.inr he)
    rw [hins, hraw]
    simp only [List.map_append, List.map_cons, hwritten, hraw', List.mem_append, List.mem_cons]
    grind

end Document

end LinePatch
