import LinePatch.Proofs.Patch.WorkingCopy

/-!
# The text that a replacement leaves

A block replacement writes its own lines in the place of the lines of the block and touches nothing
else. Its last line is ended exactly as the last line of the block was, so that a document without
a last newline stays without one; the lines before it are ended alike, or, where the block ends
without terminator, as the document ends its lines.

* `BlockReplacement.exists_newLines`: the lines that take the place of a block.
* `BlockReplacement.getLast?_toText_splice_iff`: a last newline stays, and none comes.
* `run_replacement`: the text after a run of one block replacement.
-/

namespace LinePatch

open Text (IsRawLines)

namespace BlockReplacement

variable {r : BlockReplacement} {d : Document} {block : Block}

/-! ## The lines of a block -/

/-- The raw lines of a block have a last one, which gives the terminator of the block. -/
theorem exists_last_rawLine {pre old post : List Text} (hraw : d.rawLines = pre ++ old ++ post)
    (hfirst : pre.length = block.first) (hstop : pre.length + old.length = block.stop) :
    ∃ init raw, old = init ++ [raw] ∧ d.terminator block.last = Text.terminator raw := by
  have hle := block.first_le_last
  unfold Block.stop at hstop
  rcases List.eq_nil_or_concat old with rfl | ⟨init, raw, rfl⟩
  · rw [List.length_nil] at hstop
    omega
  · rw [List.concat_eq_append] at hraw hstop ⊢
    refine ⟨init, raw, rfl, ?_⟩
    have hsplit : d.rawLines = (pre ++ init) ++ raw :: post := by
      simpa only [List.append_assoc, List.singleton_append] using hraw
    have hlast : block.last = (pre ++ init).length := by
      simp only [List.length_append, List.length_singleton] at hstop ⊢
      omega
    rw [hlast, Document.terminator_of_rawLines_eq hsplit]

/-- The lines that take the place of a block: they end as the last line of the block does, and the
last of them exactly so. -/
theorem exists_newLines (ht : r.target d = .ok block) :
    ∃ ls l, Text.lines r.replacement = ls ++ [l] ∧
      r.newLines d block.last =
        ls.map (· ++ d.endingAt block.last) ++ [l ++ d.terminator block.last] := by
  obtain ⟨-, boundary, -, -, hspans⟩ := target_eq_ok ht
  obtain ⟨alone, -, -, hlength⟩ := spansWholeBlock_iff.mp hspans
  rcases List.eq_nil_or_concat (Text.lines r.replacement) with hnil | ⟨ls, l, hls⟩
  · rw [hnil] at hlength
    cases hlength
  · rw [List.concat_eq_append] at hls
    exact ⟨ls, l, hls, by rw [newLines, Text.terminatedLines, hls, Text.terminate_concat]⟩

/-- A document ends with a newline after a replacement if it did before. -/
theorem getLast?_toText_splice_iff (hd : IsRawLines d.rawLines) (hne : [] ∉ d.rawLines)
    (ht : r.target d = .ok block) :
    (d.splice block.first block.stop (r.newLines d block.last)).toText.getLast? = some '\n' ↔
      d.toText.getLast? = some '\n' := by
  obtain ⟨pre, old, post, hfirst, hstop, hraw, hraw'⟩ := exists_rawLines_splice ht
  rcases List.eq_nil_or_concat post with rfl | ⟨behind, raw, rfl⟩
  · -- The block is the end of the document, so its last line and the last new line decide.
    obtain ⟨init, raw, rfl, hterminator⟩ := exists_last_rawLine hraw hfirst hstop
    obtain ⟨ls, l, hls, hnew⟩ := exists_newLines ht
    have hl : l ≠ [] := by
      rintro rfl
      exact (getLast?_ne ht hraw hfirst hstop).2 (by simp [hls])
    have hno : '\n' ∉ l := Text.newline_not_mem_of_mem_lines (t := r.replacement) (by simp [hls])
    rw [List.append_nil, ← List.append_assoc] at hraw
    have hwritten := hraw'.trans (by rw [List.append_nil, hnew, ← List.append_assoc])
    have hraw_ne : raw ≠ [] := fun h => hne (by simp [hraw, h])
    rw [Document.getLast?_toText hraw hraw_ne, Document.getLast?_toText hwritten (by simp [hl]),
      hterminator]
    exact Text.getLast?_append_terminator_iff hno (hd.mem (by simp [hraw]))
  · -- The last line is behind the block and stays.
    rw [List.concat_eq_append, ← List.append_assoc] at hraw hraw'
    have hraw_ne : raw ≠ [] := fun h => hne (by simp [hraw, h])
    rw [Document.getLast?_toText hraw hraw_ne, Document.getLast?_toText hraw' hraw_ne]

end BlockReplacement

/-! ## Runs -/

/-- **The text after a replacement.** If an operation reports that it has replaced a block, that is
the block of its declaration. The raw lines around it stay, and in its place stand the lines of the
replacement, with another text: the last is ended as the last line of the block was, and those
before it are ended alike, or as the document ends its lines where the block had no terminator. A
last newline stays, and none comes. -/
theorem run_replacement (t : Text) (r : BlockReplacement) (result : RunResult) (block : Block)
    (count : Nat) (h : run [.replace r] (.ofText t) = .ok result)
    (hreport : result.report.map (·.status) = [.replaced block count]) :
    (∃ boundary, r.boundary? = some boundary ∧
        (Document.ofText t).extract r.declaration boundary = .ok block) ∧
      count = (Text.lines r.replacement).length ∧
      (∃ pre old new post ls l,
        pre.length = block.first ∧ pre.length + old.length = block.last + 1 ∧
        (Document.ofText t).rawLines = pre ++ old ++ post ∧
        result.document.rawLines = pre ++ new ++ post ∧
        Text.lines r.replacement = ls ++ [l] ∧
        new = ls.map (· ++ (Document.ofText t).endingAt block.last) ++
          [l ++ (Document.ofText t).terminator block.last] ∧
        new.flatten ≠ old.flatten) ∧
      (result.document.toText.getLast? = some '\n' ↔ t.getLast? = some '\n') := by
  obtain ⟨hd, hne⟩ : IsRawLines (Document.ofText t).rawLines ∧ [] ∉ (Document.ofText t).rawLines :=
    Text.isRawLines_rawLines t
  obtain ⟨status, d, hop, rfl⟩ := run_singleton_eq_ok_iff.mp h
  have hresult := r.apply_result (.ofText t)
  rw [show r.apply (.ofText t) = .ok (status, d) from hop] at hresult
  cases hresult with
  | same => cases hreport
  | @replaced _ _ current ht _ htext hnew =>
    cases hreport
    obtain ⟨-, boundary, hb, hx, -⟩ := BlockReplacement.target_eq_ok ht
    obtain ⟨pre, old, post, hfirst, hstop, hraw, hraw'⟩ :=
      BlockReplacement.exists_rawLines_splice ht
    obtain ⟨ls, l, hls, hlines⟩ := BlockReplacement.exists_newLines ht
    have hlast := BlockReplacement.getLast?_toText_splice_iff hd hne ht
    rw [Document.toText_ofText] at hlast
    have hcurrent : current = old.flatten := by
      have hslice := Document.sliceText?_of_rawLines_eq pre old post hraw
      rw [hstop, hfirst] at hslice
      exact Option.some.inj (htext.symm.trans hslice)
    exact ⟨⟨boundary, hb, hx⟩, Text.length_terminate _ _ _,
      ⟨pre, old, _, post, ls, l, hfirst, hstop, hraw, hraw', hls, hlines,
        fun heq => hnew (hcurrent.trans heq.symm)⟩, hlast⟩

/-- The block is the end of a document without a last newline, so its lines take their terminators
from the first line of the document. -/
theorem run_replacement_unterminated :
    let t := "a\r\nf\x7b\n\x7d".toList
    let r : BlockReplacement :=
      { declaration := "f".toList, kind := .braceDepth, replacement := "f\x7b\nx\n\x7d\n".toList }
    let result : RunResult :=
      ⟨⟨["a\r\n".toList, "f\x7b\r\n".toList, "x\r\n".toList, "\x7d".toList]⟩,
        [⟨0, "replace_block", .replaced ⟨1, 2, by decide⟩ 3⟩]⟩
    run [.replace r] (.ofText t) = .ok result ∧
      (Document.ofText t).extract r.declaration .braceDepth = .ok ⟨1, 2, by decide⟩ ∧
      (∃ pre old post, pre.length = 1 ∧ (Document.ofText t).rawLines = pre ++ old ++ post ∧
        result.document.rawLines =
          pre ++ ["f\x7b\r\n".toList, "x\r\n".toList, "\x7d".toList] ++ post) ∧
      result.document.toText.getLast? ≠ some '\n' := by
  intro t r result
  have h : run [.replace r] (.ofText t) = .ok result := by rfl
  obtain ⟨⟨boundary, hb, hx⟩, -, ⟨pre, old, new, post, ls, l, hfirst, -, hraw, hraw', hls, hnew, -⟩,
    hlast⟩ := run_replacement t r result ⟨1, 2, by decide⟩ 3 h rfl
  cases hb
  obtain ⟨rfl, rfl⟩ : ls = ["f\x7b".toList, "x".toList] ∧ l = "\x7d".toList := by
    have hls : ["f\x7b".toList, "x".toList] ++ ["\x7d".toList] = ls ++ [l] := hls
    simpa [eq_comm] using List.append_inj' hls rfl
  cases hnew
  exact ⟨h, hx, ⟨pre, old, post, hfirst, hraw, hraw'⟩, mt hlast.mp (by decide)⟩

end LinePatch
