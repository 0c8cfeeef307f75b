import LinePatch.Proofs.Block.Standalone
import LinePatch.Proofs.Patch.Effect
import LinePatch.Proofs.Patch.Run

/-!
# Replaced blocks are found again

A replacement is judged on its own: written with `\n` and with one line behind it, it must be found
as one whole block. In a document it stands between other lines and may be written with other
terminators. There it is found again as the same block.

The lines that are read of the two forms differ, if at all, in carriage returns at their ends. The
brace-depth boundary does not see these. The next-marker boundary might, through a marker that ends
in a carriage return, but then the line behind the replacement would not hold the marker.

* `Document.extract_replaced`: the block of a written replacement, in any document that had a block
  in its place.
* `extract_after_run`: the same for a run of one block replacement.
-/

namespace LinePatch

open Text (IsEnding IsRawLines IsTerminated IsInline content terminate trimNewlines)

/-! ## The replacement in a document -/

namespace Document

/-- `d'` is the document `d` with the lines of a text in the place of its lines `old`. -/
structure Replaces (d d' : Document) (pre old post : List Text) (replacement : Text) : Prop where
  rawLines_eq : d.rawLines = pre ++ old ++ post
  isRawLines : IsRawLines d.rawLines
  written : ∃ ending last, IsEnding ending ∧ (last = [] ∨ IsEnding last) ∧
    (post ≠ [] → IsEnding last) ∧
    d'.rawLines = pre ++ terminate ending last (Text.lines replacement) ++ post

namespace Replaces

variable {d d' : Document} {pre old post : List Text} {replacement declaration : Text}

/-- The new lines are those of the replacement, up to line breaks at their ends. -/
theorem exists_new (h : Replaces d d' pre old post replacement) :
    ∃ new, d'.rawLines = pre ++ new ++ post ∧
      new.length = (Text.lines replacement).length ∧
      (new.map content).map trimNewlines = (Text.lines replacement).map trimNewlines ∧
      (post ≠ [] → ∀ l ∈ new, IsTerminated l) := by
  obtain ⟨ending, last, he, hlast, hpost, hd'⟩ := h.written
  refine ⟨_, hd', Text.length_terminate _ _ _, ?_, fun hne => ?_⟩
  · rw [Text.map_trimNewlines_content, Text.map_trimNewlines_terminate he hlast]
  · have hlines : ∀ c ∈ Text.lines replacement, '\n' ∉ c := fun c =>
      Text.newline_not_mem_of_mem_lines
    exact Text.isTerminated_of_mem_terminate hlines he (hpost hne)

/-- A line of the written replacement goes on where the line of the replacement on its own ends. -/
theorem exists_line (h : Replaces d d' pre old post replacement) {j : Nat} {c : Text}
    (hc : (Text.lines replacement)[j]? = some c) :
    ∃ l, d'.lines[pre.length + j]? = some l ∧ content (c ++ ['\n']) <+: l ∧
      trimNewlines l = trimNewlines c := by
  obtain ⟨ending, last, he, hlast, -, hd'⟩ := h.written
  have hlt := (List.getElem?_eq_some_iff.mp hc).1
  have hending : ∀ f, f = last ∨ f = ending → f = [] ∨ IsEnding f := by
    rintro f (rfl | rfl)
    · exact hlast
    · exact .inr he
  have hif : (if j + 1 = (Text.lines replacement).length then last else ending) = last ∨
      (if j + 1 = (Text.lines replacement).length then last else ending) = ending := by
    split
    · exact .inl rfl
    · exact .inr rfl
  refine ⟨_, ?_, Text.content_append_newline_prefix ?_ (hending _ hif), ?_⟩
  · rw [lines_inside hd' (by simpa using hlt), Text.getElem?_terminate, hc]
    rfl
  · exact Text.newline_not_mem_of_mem_lines (List.mem_of_getElem? hc)
  · rw [Text.trimNewlines_content, Text.trimNewlines_append_ending (hending _ hif)]

/-- The lines behind the replacement are those behind the lines in its place. -/
theorem line_behind (h : Replaces d d' pre old post replacement) (k : Nat) :
    d'.lines[pre.length + (Text.lines replacement).length + k]? =
      d.lines[pre.length + old.length + k]? := by
  obtain ⟨new, hd', hlen, -⟩ := h.exists_new
  rw [← hlen, lines_behind h.rawLines_eq hd']

/-- The declaration stays on the first line of the block. -/
theorem locate_eq (h : Replaces d d' pre old post replacement)
    (hd : d.locate declaration = some pre.length) {c : Text}
    (hc : (Text.lines replacement)[0]? = some c) (hin : declaration <:+: content (c ++ ['\n'])) :
    d'.locate declaration = some pre.length := by
  obtain ⟨hne, -, hfirst⟩ := locate_eq_some_iff.mp hd
  obtain ⟨new, hd', -⟩ := h.exists_new
  obtain ⟨l, hl, hprefix, -⟩ := h.exists_line hc
  refine locate_eq_some_iff.mpr ⟨hne, ⟨l, hl, hin.trans hprefix.isInfix⟩, fun j hj => ?_⟩
  rintro ⟨l, hl, hin⟩
  rw [lines_in_front h.rawLines_eq hd' hj] at hl
  exact hfirst j hj ⟨l, hl, hin⟩

/-- The brace-depth boundary sees the same nesting as in the replacement on its own. -/
theorem blockEnd_braceDepth (h : Replaces d d' pre old post replacement) {e : Nat}
    (hlast : e + 1 = (Text.lines replacement).length)
    (hend : Boundary.braceDepth.blockEnd (standalone replacement none) 0 = .ok e) :
    Boundary.braceDepth.blockEnd d' pre.length = .ok (pre.length + e) := by
  obtain ⟨new, hd', hlen, htrim, -⟩ := h.exists_new
  have hdrop : d'.lines.drop pre.length = new.map content ++ post.map content := by
    simp [Document.lines, hd']
  have hnesting : ∀ k ≤ e + 1, Nesting.start.lines ((d'.lines.drop pre.length).take k) =
      Nesting.start.lines (((standalone replacement none).lines.drop 0).take k) := by
    intro k hk
    apply Nesting.start_lines_congr
    rw [hdrop, lines_standalone, List.drop_zero, List.take_append_of_le_length (by simp; omega),
      List.take_append_of_le_length (by simp; omega), List.map_take, List.map_take, htrim,
      map_trimNewlines_standalone]
  obtain ⟨-, -, hunder, hclosed, hfirst⟩ := Boundary.blockEnd_braceDepth_iff.mp hend
  rw [Nat.sub_zero] at hunder hclosed hfirst
  rw [Boundary.blockEnd_braceDepth_iff, Nat.add_sub_cancel_left, hnesting (e + 1) (by omega)]
  refine ⟨Nat.le_add_right _ _, ?_, hunder, hclosed, fun j hj => ?_⟩
  · rw [hdrop, List.length_append, List.length_map]
    omega
  · rw [hnesting (j + 1) (by omega)]
    exact hfirst j hj

/-- A balanced replacement is balanced as it is written in front of other lines. -/
theorem isBalanced_flatten (hbal : isBalanced replacement = true) {new : List Text}
    (hnew : ∀ l ∈ new, IsTerminated l)
    (htrim : (new.map content).map trimNewlines = (Text.lines replacement).map trimNewlines) :
    isBalanced new.flatten = true := by
  have hne : [] ∉ new := fun hmem => (hnew [] hmem).ne_nil rfl
  rw [LinePatch.isBalanced_flatten (Text.isRawLines_of_isTerminated hnew) hne,
    isBalancedLines_congr htrim]
  exact hbal

/-- The first marker behind the declaration is the one that was there, if no line of the replacement
holds the marker. -/
theorem upperBound_eq (h : Replaces d d' pre old post replacement) {marker : Text} {k : Nat}
    (hold : 0 < old.length) (hpos : 0 < (Text.lines replacement).length) (hinline : IsInline marker)
    (hno : ∀ j c, 1 ≤ j → (Text.lines replacement)[j]? = some c → ¬ marker <:+: trimNewlines c)
    (hu : Boundary.upperBound d pre.length marker = some (pre.length + old.length + k)) :
    Boundary.upperBound d' pre.length marker =
      some (pre.length + (Text.lines replacement).length + k) := by
  obtain ⟨hne, -, ⟨l, hline, hin⟩, hfirst⟩ := locateFrom_eq_some_iff.mp hu
  refine locateFrom_eq_some_iff.mpr ⟨hne, by omega, ⟨l, ?_, hin⟩, fun j hj hjlt => ?_⟩
  · rw [h.line_behind, hline]
  · rintro ⟨l, hl, hin⟩
    by_cases hinside : j < pre.length + (Text.lines replacement).length
    · obtain ⟨i, rfl⟩ := Nat.exists_eq_add_of_le (show pre.length ≤ j by omega)
      have hc := List.getElem?_eq_getElem (show i < (Text.lines replacement).length by omega)
      obtain ⟨l', hl', -, htrim⟩ := h.exists_line hc
      cases hl.symm.trans hl'
      rw [← Text.infix_trimNewlines_iff hinline, htrim] at hin
      exact hno i _ (by omega) hc hin
    · obtain ⟨i, rfl⟩ := Nat.exists_eq_add_of_le
        (show pre.length + (Text.lines replacement).length ≤ j by omega)
      rw [h.line_behind] at hl
      exact hfirst _ (by omega) (by omega) ⟨l, hl, hin⟩

/-- The last lone brace in front of a line behind the block is the last line of the replacement, if
it was the last line of the block before. -/
theorem lastLoneBrace_eq (h : Replaces d d' pre old post replacement) {e e₀ k : Nat} {c : Text}
    (hold : e₀ + 1 = pre.length + old.length)
    (hl : Boundary.lastLoneBrace d pre.length (pre.length + old.length + k) = some e₀)
    (hlast : e + 1 = (Text.lines replacement).length) (hpos : 0 < e)
    (hc : (Text.lines replacement)[e]? = some c) (hbrace : Boundary.isLoneBrace c = true) :
    Boundary.lastLoneBrace d' pre.length (pre.length + (Text.lines replacement).length + k) =
      some (pre.length + e) := by
  obtain ⟨-, -, -, hnone⟩ := Boundary.lastLoneBrace_eq_some_iff.mp hl
  refine Boundary.lastLoneBrace_eq_some_iff.mpr ⟨by omega, by omega, ?_, fun j hj hjlt => ?_⟩
  · obtain ⟨l, hline, -, htrim⟩ := h.exists_line hc
    refine ⟨l, hline, ?_⟩
    rw [← Boundary.isLoneBrace_trimNewlines, htrim, Boundary.isLoneBrace_trimNewlines, hbrace]
  · obtain ⟨i, rfl⟩ := Nat.exists_eq_add_of_le
      (show pre.length + (Text.lines replacement).length ≤ j by omega)
    rintro ⟨l, hline, hlone⟩
    rw [h.line_behind] at hline
    exact hnone _ (by omega) (by omega) ⟨l, hline, hlone⟩

/-- The next-marker boundary finds the marker behind the block where it was, and in front of it the
last line of the replacement. -/
theorem blockEnd_nextMarker (h : Replaces d d' pre old post replacement) {marker : Text}
    {e e₀ : Nat} (hbal : isBalanced replacement = true)
    (hlast₀ : e₀ + 1 = pre.length + old.length)
    (hend₀ : (Boundary.nextMarker marker).blockEnd d pre.length = .ok e₀)
    (hlast : e + 1 = (Text.lines replacement).length)
    (hend : (Boundary.nextMarker marker).blockEnd (standalone replacement (some marker)) 0 =
      .ok e) :
    (Boundary.nextMarker marker).blockEnd d' pre.length = .ok (pre.length + e) := by
  obtain ⟨upper₀, -, hu₀, hl₀, -, -⟩ := Boundary.blockEnd_nextMarker_iff.mp hend₀
  obtain ⟨upper, -, hu, hl, -, -⟩ := Boundary.blockEnd_nextMarker_iff.mp hend
  obtain ⟨hne, -, ⟨l₀, hline₀, hin₀⟩, -⟩ := locateFrom_eq_some_iff.mp hu₀
  obtain ⟨hgt₀, hlt₀, -, -⟩ := Boundary.lastLoneBrace_eq_some_iff.mp hl₀
  obtain ⟨hgt, hlt, ⟨l, hline, hbrace⟩, -⟩ := Boundary.lastLoneBrace_eq_some_iff.mp hl
  obtain ⟨new, hd', hlen, htrim, hterminated⟩ := h.exists_new
  obtain ⟨k, rfl⟩ : ∃ k, upper₀ = pre.length + old.length + k :=
    Nat.exists_eq_add_of_le (by omega)
  have hmarker : '\n' ∉ marker := fun hmem =>
    newline_not_mem_line h.isRawLines hline₀ (hin₀.subset hmem)
  obtain ⟨hinline, hno⟩ := isInline_of_locateFrom_standalone hmarker hu (by omega)
  have hpost : post ≠ [] := by
    rintro rfl
    have hlength := (List.getElem?_eq_some_iff.mp hline₀).1
    simp only [length_lines, length, h.rawLines_eq, List.append_nil, List.length_append] at hlength
    omega
  have hinside : e < (Text.lines replacement).length := by omega
  have hc := List.getElem?_eq_getElem hinside
  have hlone : Boundary.isLoneBrace (Text.lines replacement)[e] = true := by
    cases hline.symm.trans (line_standalone hc _)
    rwa [← Boundary.isLoneBrace_trimNewlines, Text.trimNewlines_content,
      Text.trimNewlines_append_ending (.inr Text.isEnding_newline),
      Boundary.isLoneBrace_trimNewlines] at hbrace
  have htext := sliceText?_of_rawLines_eq pre new post hd'
  rw [show pre.length + new.length = pre.length + e + 1 by omega] at htext
  exact Boundary.blockEnd_nextMarker_iff.mpr
    ⟨_, new.flatten, h.upperBound_eq (by omega) (by omega) hinline hno hu₀,
      h.lastLoneBrace_eq hlast₀ hl₀ hlast hgt hc hlone, htext,
      isBalanced_flatten hbal (hterminated hpost) htrim⟩

/-- **The block of a written replacement.** Where a document had a block, a replacement that is one
whole block on its own is found again as that block. -/
theorem extract_eq (h : Replaces d d' pre old post replacement) {kind : Boundary.Kind}
    {marker : Option Text} {boundary : Boundary} {block : Block}
    (hbal : isBalanced replacement = true) (hb : kind.boundary? marker = some boundary)
    (hx : d.extract declaration boundary = .ok block) (hfirst : pre.length = block.first)
    (hstop : pre.length + old.length = block.stop)
    (hspans : spansWholeBlock replacement declaration boundary (kind.follower marker) = true) :
    ∃ found, d'.extract declaration boundary = .ok found ∧ found.first = block.first ∧
      found.last + 1 = block.first + (Text.lines replacement).length := by
  obtain ⟨hl₀, hend₀, -⟩ := extract_eq_ok_iff.mp hx
  obtain ⟨alone, hx', hzero, hlast⟩ := spansWholeBlock_iff.mp hspans
  obtain ⟨hl, hend, -⟩ := extract_eq_ok_iff.mp hx'
  rw [hzero] at hl hend
  rw [← hfirst] at hl₀ hend₀ ⊢
  have hdeclaration : d'.locate declaration = some pre.length := by
    obtain ⟨c, hc, hin⟩ := exists_first_line hl (by omega)
    exact h.locate_eq hl₀ hc hin
  have hboundary : boundary.blockEnd d' pre.length = .ok (pre.length + alone.last) := by
    rcases Boundary.Kind.boundary?_eq_some hb with ⟨m, rfl, rfl, -, rfl⟩ | ⟨rfl, rfl⟩
    · exact h.blockEnd_nextMarker hbal (by rw [hstop, Block.stop]) hend₀ hlast hend
    · exact h.blockEnd_braceDepth hlast hend
  obtain ⟨new, hd', hlen, -, -⟩ := h.exists_new
  have hinside : pre.length + alone.last < d'.length := by
    simp only [length, hd', List.length_append]
    omega
  exact ⟨⟨pre.length, pre.length + alone.last, Nat.le_add_right _ _⟩,
    extract_eq_ok_iff.mpr ⟨hdeclaration, hboundary, hinside⟩, rfl, by simp only []; omega⟩

end Replaces

end Document

namespace BlockReplacement

variable {r : BlockReplacement} {d : Document} {block : Block}

/-- The edit of a block replacement puts the new lines in the place of the block. -/
theorem exists_rawLines_splice (ht : r.target d = .ok block) :
    ∃ pre old post, pre.length = block.first ∧ pre.length + old.length = block.stop ∧
      d.rawLines = pre ++ old ++ post ∧
      (d.splice block.first block.stop (r.newLines d block.last)).rawLines =
        pre ++ r.newLines d block.last ++ post := by
  obtain ⟨pre, old, post, hraw, hfirst, hstop⟩ :=
    Document.exists_rawLines_eq_append (Nat.le_succ_of_le block.first_le_last)
      (last_lt_of_target ht)
  refine ⟨pre, old, post, hfirst, hstop, hraw, ?_⟩
  have := Document.rawLines_splice_of_rawLines_eq pre old post hraw (r.newLines d block.last)
  rwa [hstop, hfirst] at this

/-- These are the lines of the replacement. Only on the last line of a document may they end without
a terminator. -/
theorem replaces_splice (hd : IsRawLines d.rawLines) (ht : r.target d = .ok block) :
    ∃ pre old post, pre.length = block.first ∧ pre.length + old.length = block.stop ∧
      d.Replaces (d.splice block.first block.stop (r.newLines d block.last)) pre old post
        r.replacement := by
  obtain ⟨pre, old, post, hfirst, hstop, hraw, hsplice⟩ := exists_rawLines_splice ht
  refine ⟨pre, old, post, hfirst, hstop, hraw, hd, d.endingAt block.last, d.terminator block.last,
    d.endingAt_isEnding _, d.terminator_cases _, fun hpost => ?_, hsplice⟩
  obtain ⟨front, raw, behind, hraw', hfront⟩ :=
    Document.exists_rawLines_eq (last_lt_of_target ht)
  have hsplit : front ++ [raw] ++ behind = pre ++ old ++ post := by
    rw [← hraw, hraw', List.append_assoc, List.singleton_append]
  have hbehind : behind = post :=
    (List.append_inj hsplit (by simp [hfront, hstop, Block.stop])).2
  rw [hraw', hbehind] at hd
  rw [← hfront, Document.terminator_of_rawLines_eq hraw']
  exact (hd.right.head hpost).isEnding

end BlockReplacement

/-- **A replaced block is found again**, by the same boundary, as the lines of the replacement. -/
theorem extract_after_run (t : Text) (r : BlockReplacement) {d : Document} {block : Block} {n : Nat}
    (h : run [.replace r] (.ofText t) = .ok ⟨d, [⟨0, "replace_block", .replaced block n⟩]⟩) :
    ∃ boundary found, r.boundary? = some boundary ∧ d.extract r.declaration boundary = .ok found ∧
      found.first = block.first ∧ found.last = block.first + n - 1 ∧ 0 < n := by
  obtain ⟨status, d', hop, heq⟩ := run_singleton_eq_ok_iff.mp h
  have hresult := r.apply_result (.ofText t)
  rw [show r.apply (.ofText t) = .ok (status, d') from hop] at hresult
  cases hresult with
  | same => cases heq
  | replaced ht =>
    cases heq
    obtain ⟨hbal, boundary, hb, hx, hspans⟩ := BlockReplacement.target_eq_ok ht
    obtain ⟨pre, old, post, hfirst, hstop, hreplaces⟩ :=
      BlockReplacement.replaces_splice (Document.isRawLines_ofText t) ht
    obtain ⟨found, hfound, hff, hfl⟩ := hreplaces.extract_eq hbal hb hx hfirst hstop hspans
    have hn : (r.newLines (.ofText t) block.last).length = (Text.lines r.replacement).length :=
      Text.length_terminate _ _ _
    have hle := found.first_le_last
    rw [hn]
    exact ⟨boundary, found, hb, hfound, hff, by omega, by omega⟩

/-- The block of `f` is written again in a document with `\r\n`. A line of the replacement ends in a
carriage return of its own, and the line behind the block holds the marker. -/
theorem extract_after_run_return_newline :
    let t := "a\r\nf\x7b\r\n\x7d\r\n#\n".toList
    let r : BlockReplacement :=
      { declaration := "f".toList, marker := some "#".toList,
        replacement := "f\x7b\r\r\nx\n\x7d".toList }
    let d : Document := ⟨["a\r\n".toList, "f\x7b\r\r\n".toList, "x\r\n".toList, "\x7d\r\n".toList,
      "#\n".toList]⟩
    run [.replace r] (.ofText t) = .ok ⟨d, [⟨0, "replace_block", .replaced ⟨1, 2, by decide⟩ 3⟩]⟩ ∧
      ∃ boundary found, r.boundary? = some boundary ∧
        d.extract r.declaration boundary = .ok found ∧ found.first = 1 ∧ found.last = 1 + 3 - 1 ∧
        0 < 3 := by
  intro t r d
  have h : run [.replace r] (.ofText t) =
      .ok ⟨d, [⟨0, "replace_block", .replaced ⟨1, 2, by decide⟩ 3⟩]⟩ := rfl
  exact ⟨h, extract_after_run t r h⟩

end LinePatch
