import LinePatch.Document.Basic
import LinePatch.Proofs.Text.Lines

/-!
# Lines of a document

A line of a document, given by the raw lines around it, the terminators that new lines get, and
the documents that slices and splices give.

* `endingAt_isEnding`: new lines are always terminated.
* `sliceText?_eq_some_iff`: the text of a slice.
* `isRawLines_ofText`: the invariant of the raw lines of a document that was read.
* `ofText_toText_eq_iff`: the documents that are read again as they are.
-/

namespace LinePatch.Document

open Text (IsEnding IsRawLines content)

variable {d : Document}

/-! ## Terminators -/

theorem terminator_cases (d : Document) (i : Nat) :
    d.terminator i = [] ∨ IsEnding (d.terminator i) := by
  unfold terminator
  split
  · exact Text.terminator_cases _
  · exact .inl rfl

theorem lineEnding_isEnding (d : Document) : IsEnding d.lineEnding := by
  unfold lineEnding
  cases h : (d.rawLines.map Text.terminator).find? (!·.isEmpty) with
  | none => exact Text.isEnding_newline
  | some e =>
    obtain ⟨raw, -, rfl⟩ := List.mem_map.mp (List.mem_of_find?_eq_some h)
    rcases Text.terminator_cases raw with h' | h'
    · have := List.find?_some h
      simp [h'] at this
    · exact h'

/-- The first raw line gives the terminator of the document, if it is terminated. -/
theorem lineEnding_of_rawLines_eq_cons {raw : Text} {rest : List Text}
    (h : d.rawLines = raw :: rest) (hraw : IsEnding (Text.terminator raw)) :
    d.lineEnding = Text.terminator raw := by
  simp [lineEnding, h, hraw.ne_nil]

theorem endingAt_of_isEnding {i : Nat} (h : IsEnding (d.terminator i)) :
    d.endingAt i = d.terminator i := by
  rw [endingAt, if_neg (by simpa using h.ne_nil)]

theorem endingAt_of_terminator_eq_nil {i : Nat} (h : d.terminator i = []) :
    d.endingAt i = d.lineEnding := by
  rw [endingAt, h]
  rfl

/-- The terminator of new lines is always one, also beside a line that has none. -/
theorem endingAt_isEnding (d : Document) (i : Nat) : IsEnding (d.endingAt i) := by
  rcases terminator_cases d i with h | h
  · rw [endingAt_of_terminator_eq_nil h]
    exact lineEnding_isEnding d
  · rw [endingAt_of_isEnding h]
    exact h

/-- A terminator is that of one of the raw lines, or there is none. -/
theorem exists_of_terminator_ne_nil {i : Nat} (h : d.terminator i ≠ []) :
    ∃ raw ∈ d.rawLines, d.terminator i = Text.terminator raw := by
  unfold terminator at h ⊢
  split at h
  · rename_i raw hraw
    exact ⟨raw, List.mem_of_getElem? hraw, rfl⟩
  · exact absurd rfl h

/-- Where all terminators are alike and some line has one, new lines get this one. -/
theorem endingAt_of_alike {e raw : Text} (he : IsEnding e)
    (hd : ∀ raw ∈ d.rawLines, Text.terminator raw = [] ∨ Text.terminator raw = e)
    (hraw : raw ∈ d.rawLines) (hterminator : Text.terminator raw = e) (i : Nat) :
    d.endingAt i = e := by
  rcases d.terminator_cases i with hi | hi
  · rw [endingAt_of_terminator_eq_nil hi, lineEnding]
    cases hf : (d.rawLines.map Text.terminator).find? (!·.isEmpty) with
    | none =>
      have := List.find?_eq_none.mp hf e (hterminator ▸ List.mem_map_of_mem hraw)
      simp [he.ne_nil] at this
    | some f =>
      obtain ⟨l, hl, rfl⟩ := List.mem_map.mp (List.mem_of_find?_eq_some hf)
      have hne : Text.terminator l ≠ [] := by simpa using List.find?_some hf
      exact (hd l hl).resolve_left hne
  · obtain ⟨l, hl, heq⟩ := exists_of_terminator_ne_nil hi.ne_nil
    rw [endingAt_of_isEnding hi]
    rw [heq] at hi ⊢
    exact (hd l hl).resolve_left hi.ne_nil

/-! ## A line and the lines around it -/

/-- A line splits the lines around it. -/
theorem exists_eq_append_of_getElem? {ls : List Text} {i : Nat} {l : Text} (h : ls[i]? = some l) :
    ∃ pre post, ls = pre ++ l :: post ∧ pre.length = i := by
  obtain ⟨hi, rfl⟩ := List.getElem?_eq_some_iff.mp h
  refine ⟨ls.take i, ls.drop (i + 1), ?_, List.length_take_of_le (Nat.le_of_lt hi)⟩
  rw [← List.drop_eq_getElem_cons hi, List.take_append_drop]

/-- A line that exists splits the raw lines. -/
theorem exists_rawLines_eq {i : Nat} (h : i < d.length) :
    ∃ pre raw post, d.rawLines = pre ++ raw :: post ∧ pre.length = i := by
  obtain ⟨pre, post, hraw, hpre⟩ := exists_eq_append_of_getElem? (List.getElem?_eq_getElem h)
  exact ⟨pre, _, post, hraw, hpre⟩

section Position

variable {pre post : List Text} {raw : Text}

theorem line?_of_rawLines_eq (h : d.rawLines = pre ++ raw :: post) :
    d.line? pre.length = some (content raw) := by
  simp [line?, lines, h]

theorem terminator_of_rawLines_eq (h : d.rawLines = pre ++ raw :: post) :
    d.terminator pre.length = Text.terminator raw := by
  simp [terminator, rawLine?, h]

end Position

/-! ## Slices and splices -/

theorem sliceText?_eq_some_iff {start stop : Nat} {text : Text} :
    d.sliceText? start stop = some text ↔
      start ≤ stop ∧ stop ≤ d.length ∧
        ((d.rawLines.drop start).take (stop - start)).flatten = text := by
  unfold sliceText? slice?
  split
  · rename_i h
    simp [h]
  · rename_i h
    simp only [Option.map_none, reduceCtorEq, false_iff]
    exact fun h' => h ⟨h'.1, h'.2.1⟩

/-- The text of the middle of three runs of raw lines. -/
theorem sliceText?_of_rawLines_eq (pre mid post : List Text)
    (h : d.rawLines = pre ++ mid ++ post) :
    d.sliceText? pre.length (pre.length + mid.length) = some mid.flatten := by
  rw [sliceText?_eq_some_iff]
  refine ⟨Nat.le_add_right _ _, ?_, ?_⟩
  · simp [length, h]
  · rw [h, List.append_assoc, List.drop_left, Nat.add_sub_cancel_left, List.take_left]

/-- The text of the first lines. -/
theorem sliceText?_zero {pre post : List Text} (h : d.rawLines = pre ++ post) :
    d.sliceText? 0 pre.length = some pre.flatten := by
  simpa using sliceText?_of_rawLines_eq [] pre post (by simpa using h)

theorem rawLines_splice_of_rawLines_eq (pre mid post : List Text)
    (h : d.rawLines = pre ++ mid ++ post) (newLines : List Text) :
    (d.splice pre.length (pre.length + mid.length) newLines).rawLines =
      pre ++ newLines ++ post := by
  simp only [splice, h]
  rw [List.append_assoc pre mid post, List.take_left, ← List.append_assoc pre mid post,
    ← List.length_append, List.drop_left]

theorem length_splice (d : Document) {start stop : Nat} (h : start ≤ stop) (hstop : stop ≤ d.length)
    (newLines : List Text) :
    (d.splice start stop newLines).length + (stop - start) = d.length + newLines.length := by
  unfold length at hstop ⊢
  simp only [splice, List.length_append, List.length_take, List.length_drop]
  omega

section Replaced

variable {d' : Document} {pre old new post : List Text}

/-- The lines in front of a run of lines do not depend on it. -/
theorem lines_in_front (hd : d.rawLines = pre ++ old ++ post)
    (hd' : d'.rawLines = pre ++ new ++ post) {j : Nat} (hj : j < pre.length) :
    d'.lines[j]? = d.lines[j]? := by
  simp [lines, hd, hd', List.getElem?_append_left, hj]

theorem lines_inside (hd' : d'.rawLines = pre ++ new ++ post) {j : Nat} (hj : j < new.length) :
    d'.lines[pre.length + j]? = new[j]?.map content := by
  simp [lines, hd', List.getElem?_append_right, List.getElem?_append_left, hj]

/-- The lines behind a run of lines do not depend on it. -/
theorem lines_behind (hd : d.rawLines = pre ++ old ++ post)
    (hd' : d'.rawLines = pre ++ new ++ post) (k : Nat) :
    d'.lines[pre.length + new.length + k]? = d.lines[pre.length + old.length + k]? := by
  simp [lines, hd, hd', List.getElem?_append_right, Nat.add_assoc]

end Replaced

/-- Two bounds inside a document cut its raw lines in three. -/
theorem exists_rawLines_eq_append {start stop : Nat} (h : start ≤ stop) (hstop : stop ≤ d.length) :
    ∃ pre mid post, d.rawLines = pre ++ mid ++ post ∧ pre.length = start ∧
      pre.length + mid.length = stop := by
  refine ⟨d.rawLines.take start, (d.rawLines.drop start).take (stop - start),
    (d.rawLines.drop start).drop (stop - start), ?_, ?_, ?_⟩
  · rw [List.append_assoc, List.take_append_drop, List.take_append_drop]
  · exact List.length_take_of_le (Nat.le_trans h hstop)
  · unfold length at hstop
    simp only [List.length_take, List.length_drop]
    omega

/-! ## Documents that were read -/

theorem isRawLines_ofText (t : Text) : IsRawLines (ofText t).rawLines :=
  (Text.isRawLines_rawLines t).1

/-- A text of raw lines is read as these lines, but for an empty rest. -/
theorem mem_rawLines_ofText_toText (h : IsRawLines d.rawLines) {raw : Text}
    (hraw : raw ∈ d.rawLines) (hne : raw ≠ []) : raw ∈ (ofText d.toText).rawLines := by
  simp only [ofText, toText, Text.rawLines_flatten_eq_filter h, List.mem_filter]
  exact ⟨hraw, by simpa using hne⟩

/-- The documents that are read again from their texts as they are. -/
theorem ofText_toText_eq_iff :
    ofText d.toText = d ↔ IsRawLines d.rawLines ∧ [] ∉ d.rawLines := by
  constructor
  · intro h
    rw [← h]
    exact Text.isRawLines_rawLines d.toText
  · rintro ⟨hd, hne⟩
    rw [ofText, toText, Text.rawLines_flatten hd hne]

/-- The lines of the text of a slice are those of the document, but for empty raw lines. -/
theorem lines_of_sliceText? (h : IsRawLines d.rawLines) {start stop : Nat} {text : Text}
    (ht : d.sliceText? start stop = some text) :
    Text.lines text =
      (((d.rawLines.drop start).take (stop - start)).filter (!·.isEmpty)).map content := by
  obtain ⟨-, -, rfl⟩ := sliceText?_eq_some_iff.mp ht
  rw [Text.lines, Text.rawLines_flatten_eq_filter ((h.drop start).take (stop - start))]

/-- A document ends as its last raw line does, if that is not empty. -/
theorem getLast?_toText {init : List Text} {raw : Text} (h : d.rawLines = init ++ [raw])
    (hne : raw ≠ []) : d.toText.getLast? = raw.getLast? := by
  obtain ⟨c, hc⟩ := Option.ne_none_iff_exists'.mp (mt List.getLast?_eq_none_iff.mp hne)
  rw [toText, h, List.flatten_concat, List.getLast?_append, hc, Option.some_or]

/-- Line contents hold no newline. -/
theorem newline_not_mem_line (h : IsRawLines d.rawLines) {i : Nat} {l : Text}
    (hl : d.lines[i]? = some l) : '\n' ∉ l := by
  obtain ⟨raw, hraw, rfl⟩ := List.mem_map.mp (List.mem_of_getElem? hl)
  exact Text.newline_not_mem_content (h.mem hraw)

end LinePatch.Document
