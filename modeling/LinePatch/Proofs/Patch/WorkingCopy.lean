import LinePatch.Proofs.Block.Nesting
import LinePatch.Proofs.Patch.Replacement

/-!
# The raw lines of a working copy

A run hands its working copy from one operation to the next without reading it again. It stays a
list of raw lines. Of these the last may be empty, and then the text does not show it: a snippet
whose last line is empty leaves such a line when it is inserted behind a line without terminator.

* `SnippetInsertion.rawLines_of_apply`, `BlockReplacement.rawLines_of_apply`: the step, for each
  kind of operation.
* `rawLines_of_runFrom`: the same for a run.
-/

namespace LinePatch

open Text (IsRawLines)

/-! ## Insertions -/

/-- The insertion leaves an empty line that no terminator shows: it goes behind a line without
terminator, and the last line of its snippet is empty. -/
structure SnippetInsertion.LeavesEmptyLine (i : SnippetInsertion) (d : Document) : Prop where
  placement : i.placement = .after
  snippet : (Text.lines i.snippet).getLast? = some []
  sentinel : ∃ s, i.effectiveSentinel = some s ∧ d.contains s = false
  anchor : ∃ line, d.locate i.anchor = some line ∧ d.terminator line = []

/-- An insertion keeps to raw lines. -/
theorem SnippetInsertion.rawLines_of_apply {i : SnippetInsertion} {d d' : Document}
    (hd : IsRawLines d.rawLines) {status : Status} (h : i.apply d = .ok (status, d')) :
    IsRawLines d'.rawLines ∧ ([] ∈ d'.rawLines ↔ [] ∈ d.rawLines ∨ i.LeavesEmptyLine d) := by
  have hresult := i.apply_result d
  rw [h] at hresult
  cases hresult with
  | @present s hs hc =>
    refine ⟨hd, (or_iff_left ?_).symm⟩
    rintro ⟨-, -, ⟨s', hs', hc'⟩, -⟩
    cases hs.symm.trans hs'
    rw [hc] at hc'
    cases hc'
  | @inserted s line hs hc ha =>
    obtain ⟨hne, ⟨l, hl, hin⟩, -⟩ := Document.locate_eq_some_iff.mp ha
    have hlt := Document.lt_length_of_locate ha
    refine ⟨Document.isRawLines_inserted hd hlt _ _, ?_⟩
    obtain ⟨pre, raw, post, hraw, rfl⟩ := Document.exists_rawLines_eq hlt
    have hne : raw ≠ [] := by
      rintro rfl
      cases (Document.line?_of_rawLines_eq hraw).symm.trans hl
      exact hne (List.infix_nil.mp hin)
    rw [Document.nil_mem_rawLines_inserted hraw hne]
    refine or_congr_right ⟨fun ⟨hplacement, hterminator, hsnippet⟩ => ?_, fun hleaves => ?_⟩
    · rw [← Document.terminator_of_rawLines_eq hraw] at hterminator
      exact ⟨hplacement, hsnippet, ⟨s, hs, hc⟩, _, ha, hterminator⟩
    · obtain ⟨line, ha', hterminator⟩ := hleaves.anchor
      cases ha.symm.trans ha'
      rw [Document.terminator_of_rawLines_eq hraw] at hterminator
      exact ⟨hleaves.placement, hterminator, hleaves.snippet⟩

/-! ## Block replacements -/

namespace Document.Replaces

variable {d d' : Document} {pre old post : List Text} {replacement : Text}

/-- In the place of some lines of a document the lines of a text leave raw lines. -/
theorem isRawLines_right (h : Replaces d d' pre old post replacement) (hold : old ≠ []) :
    IsRawLines d'.rawLines := by
  obtain ⟨ending, last, he, hlast, hpost, hd'⟩ := h.written
  have hlines : ∀ c ∈ Text.lines replacement, '\n' ∉ c := fun c => Text.newline_not_mem_of_mem_lines
  obtain ⟨o, os, rfl⟩ := List.exists_cons_of_ne_nil hold
  have hd := h.isRawLines
  rw [h.rawLines_eq, List.append_assoc, List.cons_append] at hd
  rw [hd', List.append_assoc]
  refine .append hd.left ?_
  by_cases hnil : post = []
  · rw [hnil, List.append_nil]
    exact Text.isRawLines_terminate hlines he hlast
  · exact .append (Text.isTerminated_of_mem_terminate hlines he (hpost hnil)) hd.right.tail.right

/-- They leave an empty piece only where there was one, if the last line is not empty in either
place. -/
theorem nil_mem_iff (h : Replaces d d' pre old post replacement)
    (hold : old.getLast? ≠ some []) (hnew : (Text.lines replacement).getLast? ≠ some []) :
    [] ∈ d'.rawLines ↔ [] ∈ d.rawLines := by
  obtain ⟨ending, last, he, -, -, hd'⟩ := h.written
  have hold : [] ∉ old := by
    intro hmem
    obtain ⟨as, bs, rfl⟩ := List.append_of_mem hmem
    cases bs with
    | nil => simp at hold
    | cons b bs =>
      have hd := h.isRawLines
      rw [h.rawLines_eq, List.append_assoc, List.append_assoc] at hd
      exact (hd.right.right.head (by simp)).ne_nil rfl
  rw [hd', h.rawLines_eq]
  simp [Text.nil_mem_terminate_iff he.ne_nil, hnew, hold]

end Document.Replaces

namespace BlockReplacement

variable {r : BlockReplacement} {d d' : Document} {block : Block}

/-- The last line of a block is not empty, and neither is that of a replacement. -/
theorem getLast?_ne (ht : r.target d = .ok block) {pre old post : List Text}
    (hraw : d.rawLines = pre ++ old ++ post) (hfirst : pre.length = block.first)
    (hstop : pre.length + old.length = block.stop) :
    old.getLast? ≠ some [] ∧ (Text.lines r.replacement).getLast? ≠ some [] := by
  obtain ⟨-, boundary, hb, hx, hspans⟩ := target_eq_ok ht
  rw [Block.stop] at hstop
  have hle := block.first_le_last
  constructor
  · intro hlast
    obtain ⟨l, hl, hne⟩ := exists_last_line hb hx
    rw [List.getLast?_eq_getElem?] at hlast
    have hindex : block.last = pre.length + (old.length - 1) := by omega
    rw [hindex, Document.lines_inside hraw (by omega), hlast] at hl
    cases hl
    exact hne rfl
  · intro hlast
    obtain ⟨alone, hx', -, hend⟩ := spansWholeBlock_iff.mp hspans
    obtain ⟨l, hl, hne⟩ := exists_last_line hb hx'
    rw [List.getLast?_eq_getElem?, ← hend, Nat.add_sub_cancel] at hlast
    cases hl.symm.trans (line_standalone hlast _)
    exact hne rfl

/-- The edit of a block replacement keeps to raw lines and leaves no empty line. -/
theorem rawLines_splice (hd : IsRawLines d.rawLines) (ht : r.target d = .ok block) :
    IsRawLines (d.splice block.first block.stop (r.newLines d block.last)).rawLines ∧
      ([] ∈ (d.splice block.first block.stop (r.newLines d block.last)).rawLines ↔
        [] ∈ d.rawLines) := by
  obtain ⟨pre, old, post, hfirst, hstop, hreplaces⟩ := replaces_splice hd ht
  obtain ⟨hold, hnew⟩ := getLast?_ne ht hreplaces.rawLines_eq hfirst hstop
  have hne : old ≠ [] := by
    rintro rfl
    rw [Block.stop, List.length_nil] at hstop
    have := block.first_le_last
    omega
  exact ⟨hreplaces.isRawLines_right hne, hreplaces.nil_mem_iff hold hnew⟩

theorem rawLines_of_apply (hd : IsRawLines d.rawLines) {status : Status}
    (h : r.apply d = .ok (status, d')) :
    IsRawLines d'.rawLines ∧ ([] ∈ d'.rawLines ↔ [] ∈ d.rawLines) := by
  have hresult := r.apply_result d
  rw [h] at hresult
  cases hresult with
  | same => exact ⟨hd, Iff.rfl⟩
  | replaced ht => exact rawLines_splice hd ht

end BlockReplacement

/-! ## Runs -/

/-- The operation leaves an empty line that no terminator shows. -/
def Operation.LeavesEmptyLine : Operation → Document → Prop
  | .insert i, d => i.LeavesEmptyLine d
  | .replace _, _ => False

/-- Some operation of a run leaves an empty line that no terminator shows. -/
inductive LeavesEmptyLine : List Operation → Document → Prop
  | first {op : Operation} {ops : List Operation} {d : Document} (h : op.LeavesEmptyLine d) :
    LeavesEmptyLine (op :: ops) d
  | later {op : Operation} {ops : List Operation} {d d' : Document} {status : Status}
    (hop : op.apply d = .ok (status, d')) (h : LeavesEmptyLine ops d') :
    LeavesEmptyLine (op :: ops) d

theorem Operation.rawLines_of_apply {op : Operation} {d d' : Document} (hd : IsRawLines d.rawLines)
    {status : Status} (h : op.apply d = .ok (status, d')) :
    IsRawLines d'.rawLines ∧ ([] ∈ d'.rawLines ↔ [] ∈ d.rawLines ∨ op.LeavesEmptyLine d) := by
  cases op with
  | insert i => exact i.rawLines_of_apply hd h
  | replace r =>
    obtain ⟨hd', hiff⟩ := BlockReplacement.rawLines_of_apply hd h
    exact ⟨hd', by rw [hiff, LeavesEmptyLine, or_false]⟩

/-- A run keeps to raw lines. An empty line is left at the end if some operation leaves one. -/
theorem rawLines_of_runFrom {ops : List Operation} {k : Nat} {d : Document} {r : RunResult}
    (hd : IsRawLines d.rawLines) (h : runFrom k ops d = .ok r) :
    IsRawLines r.document.rawLines ∧
      ([] ∈ r.document.rawLines ↔ [] ∈ d.rawLines ∨ LeavesEmptyLine ops d) := by
  induction ops generalizing k d r with
  | nil =>
    cases h
    exact ⟨hd, (or_iff_left nofun).symm⟩
  | cons op ops ih =>
    obtain ⟨status, d', rest, hop, hrest, rfl⟩ := runFrom_cons_eq_ok_iff.mp h
    obtain ⟨hd', hiff⟩ := op.rawLines_of_apply hd hop
    obtain ⟨hrest, hiff'⟩ := ih hd' hrest
    refine ⟨hrest, ?_⟩
    rw [hiff', hiff, or_assoc]
    refine or_congr_right ⟨fun hleaves => ?_, fun hleaves => ?_⟩
    · rcases hleaves with hfirst | hlater
      · exact .first hfirst
      · exact .later hop hlater
    · cases hleaves with
      | first hfirst => exact .inl hfirst
      | later hop' hlater =>
        cases hop.symm.trans hop'
        exact .inr hlater

end LinePatch
