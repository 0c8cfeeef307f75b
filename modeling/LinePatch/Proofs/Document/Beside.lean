import LinePatch.Proofs.Document.Insertion
import LinePatch.Proofs.Document.Search
import LinePatch.Proofs.Text.Plain

/-!
# Insertions into plain documents

The lines of a plain document are read as they were written. After an insertion they are the lines
of the document with those of the snippet among them, and new lines still get the same terminator.
So what another insertion finds and writes at its own line is the same before and after.

* `rawLines_inserted`: the raw lines in the place of the anchor line, in all shapes at once.
* `mem_lines_inserted`, `lineEnding_inserted`: what a plain document keeps.
* `locate_eq_some_iff_finds`: the line of an anchor by the lines around it.
-/

namespace LinePatch.Document

open Text (IsEnding IsRawLines content terminate)

variable {d d' : Document} {pre post : List Text} {raw e : Text}

/-! ## In the place of the anchor line -/

/-- The raw lines in the place of the line `raw` after an insertion beside it. The last line behind
it is terminated as `raw` was. -/
def beside (e snippet raw : Text) : Placement → List Text
  | .before => terminate e e (Text.lines snippet) ++ [raw]
  | .after => (content raw ++ e) :: terminate e (Text.terminator raw) (Text.lines snippet)

theorem rawLines_inserted (h : d.rawLines = pre ++ raw :: post) (snippet : Text)
    (placement : Placement) :
    (d.inserted pre.length snippet placement).rawLines =
      pre ++ beside (d.endingAt pre.length) snippet raw placement ++ post := by
  cases placement with
  | before =>
    rw [rawLines_inserted_before h, beside]
    simp only [List.append_assoc, List.singleton_append]
  | after =>
    have hraw := Text.content_append_terminator raw
    rw [beside]
    by_cases ht : Text.terminator raw = []
    · rw [rawLines_inserted_after_unterminated h ht, ht]
      rw [ht, List.append_nil] at hraw
      rw [hraw]
    · have hterminator := terminator_of_rawLines_eq h
      have he : d.endingAt pre.length = Text.terminator raw := by
        have hraw' := (Text.terminator_cases raw).resolve_left ht
        rw [endingAt_of_isEnding (hterminator ▸ hraw'), hterminator]
      rw [rawLines_inserted_after h ht, he, hraw]
      simp only [List.append_assoc, List.cons_append, List.nil_append]

/-- New lines beside a line get the same terminator in two documents that agree on the line and on
the terminator of new lines. -/
theorem endingAt_congr {pre' post' : List Text} (h : d.rawLines = pre ++ raw :: post)
    (h' : d'.rawLines = pre' ++ raw :: post') (he : d'.lineEnding = d.lineEnding) :
    d'.endingAt pre'.length = d.endingAt pre.length := by
  rw [endingAt, endingAt, terminator_of_rawLines_eq h, terminator_of_rawLines_eq h', he]

/-- Beside the first line, new lines are terminated as they are in the whole document. -/
theorem endingAt_zero (h : d.rawLines = raw :: post) : d.endingAt 0 = d.lineEnding := by
  have hterminator : d.terminator ([] : List Text).length = Text.terminator raw :=
    terminator_of_rawLines_eq h
  rw [List.length_nil] at hterminator
  rcases Text.terminator_cases raw with ht | ht
  · exact endingAt_of_terminator_eq_nil (hterminator.trans ht)
  · rw [endingAt_of_isEnding (hterminator ▸ ht), hterminator, lineEnding_of_rawLines_eq_cons h ht]

/-! ## Plain documents -/

/-- A document of raw lines, each of which is read as it was written. -/
structure HasPlainLines (d : Document) : Prop where
  isRawLines : IsRawLines d.rawLines
  content : ∀ raw ∈ d.rawLines, Text.IsPlain (content raw)

theorem hasPlainLines_ofText {t : Text} (h : Text.ReturnsBeforeNewlines t) :
    (ofText t).HasPlainLines where
  isRawLines := isRawLines_ofText t
  content _ hraw := Text.isPlain_of_mem_lines h (List.mem_map_of_mem hraw)

section Plain

variable {snippet : Text} {placement : Placement}

theorem mem_map_content_beside (he : IsEnding e) (hraw : Text.IsPlain (content raw))
    (hsnippet : ∀ c ∈ Text.lines snippet, Text.IsPlain c) (c : Text) :
    c ∈ (beside e snippet raw placement).map content ↔
      c = content raw ∨ c ∈ Text.lines snippet := by
  cases placement with
  | before =>
    rw [beside, List.map_append, Text.map_content_terminate hsnippet he (.inr he)]
    simp only [List.map_cons, List.map_nil, List.mem_append, List.mem_singleton]
    exact or_comm
  | after =>
    rw [beside, List.map_cons, hraw.content_append he,
      Text.map_content_terminate hsnippet he (Text.terminator_cases raw), List.mem_cons]

/-- What neither the anchor line nor the snippet contains is not beside the line either. -/
theorem not_infix_beside (he : IsEnding e) (hraw : Text.IsPlain (content raw))
    (hsnippet : ∀ c ∈ Text.lines snippet, Text.IsPlain c) {s : Text} (hs : ¬ s <:+: content raw)
    (hno : ∀ c ∈ Text.lines snippet, ¬ s <:+: c) :
    ∀ l ∈ beside e snippet raw placement, ¬ s <:+: content l := by
  intro l hl
  have hmem := (mem_map_content_beside he hraw hsnippet _).mp (List.mem_map_of_mem hl)
  rcases hmem with heq | hmem
  · rwa [heq]
  · exact hno _ hmem

/-- The lines after an insertion are those before it and those of the snippet. -/
theorem mem_lines_inserted (hd : d.HasPlainLines)
    (hsnippet : ∀ c ∈ Text.lines snippet, Text.IsPlain c) {line : Nat} (h : line < d.length)
    (c : Text) :
    c ∈ (d.inserted line snippet placement).lines ↔ c ∈ d.lines ∨ c ∈ Text.lines snippet := by
  obtain ⟨pre, raw, post, hraw, rfl⟩ := exists_rawLines_eq h
  have hplain := hd.content raw (by simp [hraw])
  unfold lines
  rw [rawLines_inserted hraw, hraw, List.map_append, List.map_append, List.map_append,
    List.map_cons, List.mem_append, List.mem_append, List.mem_append, List.mem_cons,
    mem_map_content_beside (endingAt_isEnding d _) hplain hsnippet]
  grind

/-- An insertion does not change the terminator that new lines get. -/
theorem lineEnding_inserted (hd : d.HasPlainLines)
    (hsnippet : ∀ c ∈ Text.lines snippet, Text.IsPlain c) {line : Nat} (h : line < d.length) :
    (d.inserted line snippet placement).lineEnding = d.lineEnding := by
  obtain ⟨pre, raw, post, hraw, rfl⟩ := exists_rawLines_eq h
  have hins := rawLines_inserted hraw snippet placement
  cases pre with
  | cons p ps =>
    -- The first line decides in both documents.
    have hp := ((hraw ▸ hd.isRawLines).left p List.mem_cons_self).isEnding
    rw [lineEnding_of_rawLines_eq_cons hraw hp, lineEnding_of_rawLines_eq_cons hins hp]
  | nil =>
    have hplain := hd.content raw (by simp [hraw])
    have he := lineEnding_isEnding d
    rw [List.length_nil, endingAt_zero hraw] at hins
    rw [List.length_nil]
    cases placement with
    | before =>
      cases hlines : Text.lines snippet with
      | nil =>
        rw [beside, hlines] at hins
        have hsame : (d.inserted 0 snippet .before).rawLines = d.rawLines := by
          rw [hins, hraw]
          rfl
        unfold lineEnding
        rw [hsame]
      | cons c cs =>
        have hc := hsnippet c (hlines ▸ List.mem_cons_self)
        rw [beside, Text.terminate_self, hlines] at hins
        rw [lineEnding_of_rawLines_eq_cons hins ((hc.terminator_append he).symm ▸ he),
          hc.terminator_append he]
    | after =>
      rw [beside] at hins
      rw [lineEnding_of_rawLines_eq_cons hins ((hplain.terminator_append he).symm ▸ he),
        hplain.terminator_append he]

end Plain

/-! ## The line of an anchor -/

/-- The line `raw`, between `pre` and `post`, is the first that contains a pattern. -/
structure Finds (d : Document) (pattern : Text) (pre : List Text) (raw : Text)
    (post : List Text) : Prop where
  rawLines_eq : d.rawLines = pre ++ raw :: post
  ne_nil : pattern ≠ []
  contains : pattern <:+: content raw
  first : ∀ l ∈ pre, ¬ pattern <:+: content l

theorem lineContains_iff_of_rawLines_eq (h : d.rawLines = pre ++ raw :: post) {pattern : Text} :
    d.LineContains pattern pre.length ↔ pattern <:+: content raw := by
  have hline : d.lines[pre.length]? = some (content raw) := line?_of_rawLines_eq h
  simp [LineContains, hline]

theorem locate_eq_some_iff_finds {pattern : Text} {k : Nat} :
    d.locate pattern = some k ↔ ∃ pre raw post, d.Finds pattern pre raw post ∧ pre.length = k := by
  rw [locate_eq_some_iff]
  constructor
  · rintro ⟨hne, hk, hfirst⟩
    obtain ⟨pre, raw, post, hraw, rfl⟩ := exists_rawLines_eq hk.lt_length
    refine ⟨pre, raw, post, ⟨hraw, hne, (lineContains_iff_of_rawLines_eq hraw).mp hk, ?_⟩, rfl⟩
    intro l hl hin
    obtain ⟨as, bs, rfl⟩ := List.append_of_mem hl
    rw [List.append_assoc, List.cons_append] at hraw
    exact hfirst as.length (by simp) ((lineContains_iff_of_rawLines_eq hraw).mpr hin)
  · rintro ⟨pre, raw, post, h, rfl⟩
    refine ⟨h.ne_nil, (lineContains_iff_of_rawLines_eq h.rawLines_eq).mpr h.contains, ?_⟩
    rintro j hj ⟨l, hl, hin⟩
    rw [lines, h.rawLines_eq, List.getElem?_map, List.getElem?_append_left hj,
      List.getElem?_eq_getElem hj, Option.map_some] at hl
    cases hl
    exact h.first _ (List.getElem_mem hj) hin

theorem Finds.locate_eq {pattern : Text} (h : d.Finds pattern pre raw post) :
    d.locate pattern = some pre.length := locate_eq_some_iff_finds.mpr ⟨pre, raw, post, h, rfl⟩

end LinePatch.Document
