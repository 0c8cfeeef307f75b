import LinePatch.Patch.Issue
import LinePatch.Proofs.Patch.WorkingCopy

/-!
# Block replacements that run again

A replaced block is found again, so the next run compares it with the replacement that it would
write now. It takes the terminator of new lines from the document, as the first run did, but where
that one found old lines it finds new ones. A line that ends in a carriage return of its own and was
written with `\n` is read as one that ends in `\r\n`: if the terminator is taken from that line, the
replacement is written another time.

* `BlockReplacement.MisreadsEnding`: when this is so.
* `BlockReplacement.apply_splice_iff`: otherwise the second run writes nothing.
* `rerun_replacement`: the second run.
-/

namespace LinePatch

open Text (IsEnding IsRawLines terminate)

namespace BlockReplacement

variable {r : BlockReplacement} {d : Document} {block found : Block}

/-- The terminator that is read back is not the one that was written. It is `\n`, and is taken from
the last line of the block, or from the first line of the document where the last line has none; and
the line of the replacement in this place ends in a carriage return. -/
inductive MisreadsEnding (r : BlockReplacement) (d : Document) (block : Block) : Prop
  | last {l : Text} (hterminator : d.terminator block.last = ['\n'])
    (hl : (Text.lines r.replacement).getLast? = some l) (hreturn : l.getLast? = some '\r')
  | first {l l' : Text} {ls : List Text} (hterminator : d.terminator block.last = [])
    (hending : d.lineEnding = ['\n']) (hfirst : block.first = 0)
    (hlines : Text.lines r.replacement = l :: l' :: ls) (hreturn : l.getLast? = some '\r')

/-- The block of a replacement that was written. -/
theorem target_splice (hd : IsRawLines d.rawLines) (ht : r.target d = .ok block) :
    ∃ found, r.target (d.splice block.first block.stop (r.newLines d block.last)) = .ok found ∧
      found.first = block.first ∧
      found.last + 1 = block.first + (Text.lines r.replacement).length := by
  obtain ⟨hbal, boundary, hb, hx, hspans⟩ := target_eq_ok ht
  obtain ⟨pre, old, post, hfirst, hstop, hreplaces⟩ := replaces_splice hd ht
  obtain ⟨found, hfound, hff, hfl⟩ := hreplaces.extract_eq hbal hb hx hfirst hstop hspans
  exact ⟨found, target_of_extract hbal hb hfound hspans, hff, hfl⟩

/-! ## Terminators of a written replacement -/

section Written

variable {d' : Document} {pre old post : List Text} (hraw : d.rawLines = pre ++ old ++ post)
  (hraw' : d'.rawLines = pre ++ r.newLines d block.last ++ post) (hfirst : pre.length = block.first)
  (hfl : found.last + 1 = block.first + (Text.lines r.replacement).length)

include hraw' hfirst hfl in
/-- The terminator of the last line is read behind the last line of the replacement. -/
theorem terminator_last {l : Text} (hl : (Text.lines r.replacement).getLast? = some l) :
    d'.terminator found.last = Text.terminator (l ++ d.terminator block.last) := by
  obtain ⟨ls, hls⟩ := List.getLast?_eq_some_iff.mp hl
  have hsplit : d'.rawLines =
      (pre ++ ls.map (· ++ d.endingAt block.last)) ++ (l ++ d.terminator block.last) :: post := by
    rw [hraw', newLines, Text.terminatedLines, hls, Text.terminate_concat, ← List.append_assoc,
      List.append_assoc _ [_] post, List.singleton_append]
  have hlast : found.last = (pre ++ ls.map (· ++ d.endingAt block.last)).length := by
    rw [hls, List.length_append, List.length_singleton] at hfl
    rw [List.length_append, List.length_map]
    omega
  rw [hlast, Document.terminator_of_rawLines_eq hsplit]

include hraw hraw' in
/-- Lines in front of the block keep the terminator of the document. -/
theorem lineEnding_of_lines_in_front (hd : IsRawLines d.rawLines) (hold : old ≠ [])
    (hpre : pre ≠ []) : d'.lineEnding = d.lineEnding := by
  obtain ⟨raw, pre, rfl⟩ := List.exists_cons_of_ne_nil hpre
  have hraw₀ : d.rawLines = raw :: (pre ++ old ++ post) := by simpa using hraw
  rw [hraw₀] at hd
  have hraw₀' : d'.rawLines = raw :: (pre ++ r.newLines d block.last ++ post) := by
    simpa using hraw'
  have hterminated := (hd.head (by simp [hold])).isEnding
  rw [Document.lineEnding_of_rawLines_eq_cons hraw₀ hterminated,
    Document.lineEnding_of_rawLines_eq_cons hraw₀' hterminated]

include hraw' in
/-- Without such lines, the terminator is read behind the first line of the replacement. -/
theorem lineEnding_of_first (hpre : pre = []) {l l' : Text} {ls : List Text}
    (hlines : Text.lines r.replacement = l :: l' :: ls) :
    d'.lineEnding = Text.terminator (l ++ d.endingAt block.last) := by
  rw [hpre, newLines, Text.terminatedLines, hlines,
    Text.terminate.eq_3 _ _ _ _ (List.cons_ne_nil l' ls)] at hraw'
  exact Document.lineEnding_of_rawLines_eq_cons hraw'
    (Text.isEnding_terminator_append (d.endingAt_isEnding _))

include hraw hraw' hfirst in
/-- The terminators of a replacement that ends its document without one. -/
theorem lineEnding_eq_iff (hd : IsRawLines d.rawLines) (hold : old ≠ [])
    (hterminator : d.terminator block.last = []) :
    (terminate d.lineEnding [] (Text.lines r.replacement)).flatten =
        (terminate d'.lineEnding [] (Text.lines r.replacement)).flatten ↔
      ¬ r.MisreadsEnding d block := by
  have hlast : d.terminator block.last ≠ ['\n'] := by simp [hterminator]
  rcases hls : Text.lines r.replacement with _ | ⟨l, _ | ⟨l', ls⟩⟩
  · refine iff_of_true rfl fun h => ?_
    cases h with
    | last hnewline => exact hlast hnewline
    | first _ _ _ hlines => cases hls.symm.trans hlines
  · refine iff_of_true rfl fun h => ?_
    cases h with
    | last hnewline => exact hlast hnewline
    | first _ _ _ hlines => cases hls.symm.trans hlines
  rw [Text.flatten_terminate_nil_inj d.lineEnding_isEnding d'.lineEnding_isEnding (by simp)]
  by_cases hpre : pre = []
  · have hzero : block.first = 0 := by rw [← hfirst, hpre, List.length_nil]
    rw [lineEnding_of_first hraw' hpre hls, Document.endingAt_of_terminator_eq_nil hterminator,
      eq_comm, Text.terminator_append_ending_eq_iff d.lineEnding_isEnding]
    refine not_congr ⟨fun h => .first hterminator h.1 hzero hls h.2, fun h => ?_⟩
    cases h with
    | last hnewline => exact absurd hnewline hlast
    | first _ hnewline _ hlines hreturn =>
      cases hls.symm.trans hlines
      exact ⟨hnewline, hreturn⟩
  · rw [lineEnding_of_lines_in_front hraw hraw' hd hold hpre]
    refine iff_of_true rfl fun h => ?_
    cases h with
    | last hnewline => exact hlast hnewline
    | first _ _ hzero => exact hpre (List.length_eq_zero_iff.mp (hfirst.trans hzero))

include hraw hraw' hfirst hfl in
/-- A second run would write what the first run wrote, if the terminator is read back. -/
theorem newLines_eq_iff (hd : IsRawLines d.rawLines) (hold : old ≠ [])
    (hne : Text.lines r.replacement ≠ []) :
    (r.newLines d block.last).flatten = (r.newLines d' found.last).flatten ↔
      ¬ r.MisreadsEnding d block := by
  obtain ⟨l, hl⟩ := Option.ne_none_iff_exists'.mp (mt List.getLast?_eq_none_iff.mp hne)
  have hlast := terminator_last hraw' hfirst hfl hl
  rcases d.terminator_cases block.last with hterminator | hterminator
  · have hno : '\n' ∉ l := Text.newline_not_mem_of_mem_lines (List.mem_of_getLast? hl)
    rw [hterminator, List.append_nil, Text.terminator_of_not_mem hno] at hlast
    rw [newLines, newLines, Text.terminatedLines, Text.terminatedLines, hterminator, hlast,
      Document.endingAt_of_terminator_eq_nil hterminator,
      Document.endingAt_of_terminator_eq_nil hlast]
    exact lineEnding_eq_iff hraw hraw' hfirst hd hold hterminator
  · have hlast' : IsEnding (d'.terminator found.last) := by
      rw [hlast]
      exact Text.isEnding_terminator_append hterminator
    rw [newLines, newLines, Text.terminatedLines, Text.terminatedLines,
      Document.endingAt_of_isEnding hterminator, Document.endingAt_of_isEnding hlast',
      Text.flatten_terminate_self_inj hterminator hlast' hne, hlast, eq_comm,
      Text.terminator_append_ending_eq_iff hterminator]
    refine not_congr ⟨fun h => .last h.1 hl h.2, fun h => ?_⟩
    cases h with
    | last hnewline hl' hreturn =>
      cases hl.symm.trans hl'
      exact ⟨hnewline, hreturn⟩
    | first hnil => exact absurd hnil hterminator.ne_nil

end Written

/-- After a replacement, the next one finds its work done if the terminator is read back. -/
theorem apply_splice_iff (hd : IsRawLines d.rawLines) (ht : r.target d = .ok block)
    {guard : Option Guard} (hg : r.guard = .ok guard) {d' : Document}
    (hd' : d' = d.splice block.first block.stop (r.newLines d block.last)) :
    r.apply d' = .ok (.alreadyApplied, d') ↔ ¬ r.MisreadsEnding d block := by
  obtain ⟨found, hfound, hff, hfl⟩ := target_splice hd ht
  obtain ⟨pre, old, post, hfirst, hstop, hraw, hraw'⟩ := exists_rawLines_splice ht
  rw [← hd'] at hfound hraw'
  have hlen : (r.newLines d block.last).length = (Text.lines r.replacement).length :=
    Text.length_terminate _ _ _
  have htext : found.text? d' = some (r.newLines d block.last).flatten := by
    have htext := Document.sliceText?_of_rawLines_eq pre _ post hraw'
    rwa [hlen, hfirst, ← hfl, ← hff] at htext
  have hold : old ≠ [] := by
    rintro rfl
    have := block.first_le_last
    rw [Block.stop, List.length_nil] at hstop
    omega
  have hne : Text.lines r.replacement ≠ [] := by
    intro hnil
    have := found.first_le_last
    rw [hnil, List.length_nil] at hfl
    omega
  rw [apply_eq_alreadyApplied_iff hfound hg htext]
  exact newLines_eq_iff hraw hraw' hfirst hfl hd hold hne

end BlockReplacement

/-! ## Runs -/

/-- **The next run of a block replacement.** It finds its work done and changes nothing, unless the
first run has replaced the block and the terminator that it wrote is read back as another one. -/
theorem rerun_replacement (t : Text) (r : BlockReplacement) (result : RunResult)
    (h : run [.replace r] (.ofText t) = .ok result) :
    (∃ again, run [.replace r] (.ofText result.document.toText) = .ok again ∧
        again.report.map (·.status) = [.alreadyApplied] ∧
        again.document.toText = result.document.toText) ↔
      ∀ block n, result.report.map (·.status) = [.replaced block n] →
        ¬ r.MisreadsEnding (.ofText t) block := by
  obtain ⟨hd, hne⟩ : IsRawLines (Document.ofText t).rawLines ∧ [] ∉ (Document.ofText t).rawLines :=
    Text.isRawLines_rawLines t
  obtain ⟨status, d', hop, rfl⟩ := run_singleton_eq_ok_iff.mp h
  rw [run_singleton_alreadyApplied_iff]
  have hresult := r.apply_result (.ofText t)
  rw [show r.apply (.ofText t) = .ok (status, d') from hop] at hresult
  cases hresult with
  | same =>
    simp only [Document.toText_ofText]
    exact iff_of_true hop nofun
  | @replaced block _ _ ht hg =>
    obtain ⟨hraw, hiff⟩ := BlockReplacement.rawLines_splice hd ht
    have hread := Document.ofText_toText_eq_iff.mpr ⟨hraw, fun hmem => hne (hiff.mp hmem)⟩
    have happly := BlockReplacement.apply_splice_iff hd ht hg rfl
    simp only [hread]
    refine happly.trans ⟨fun hno block' n heq => ?_, fun hno => hno _ _ rfl⟩
    cases heq
    exact hno

/-- A line inside the replacement ends in a carriage return. No terminator is read from it. -/
theorem rerun_replacement_return_inside :
    let t := "f\x7b\na\n\x7d\n#\n".toList
    let r : BlockReplacement :=
      { declaration := "f".toList, marker := some "#".toList,
        replacement := "f\x7b\nb\r\r\n\x7d".toList }
    let result : RunResult :=
      ⟨⟨["f\x7b\n".toList, "b\r\n".toList, "\x7d\n".toList, "#\n".toList]⟩,
        [⟨0, "replace_block", .replaced ⟨0, 2, by decide⟩ 3⟩]⟩
    run [.replace r] (.ofText t) = .ok result ∧
      ∃ again, run [.replace r] (.ofText result.document.toText) = .ok again ∧
        again.report.map (·.status) = [.alreadyApplied] ∧
        again.document.toText = result.document.toText := by
  intro t r result
  have h : run [.replace r] (.ofText t) = .ok result := by rfl
  refine ⟨h, (rerun_replacement t r result h).mpr fun block n heq hmisreads => ?_⟩
  cases heq
  cases hmisreads with
  | last _ hl hreturn =>
    cases hl
    cases hreturn
  | first hterminator => cases hterminator

/-- The replacement ends in a carriage return, and is written with `\n`. That is read as `\r\n`, so
the next run writes it with `\r\n`. -/
theorem replaced_twice :
    let t := "f\x7b\na\n\x7d\n#\n".toList
    let r : BlockReplacement :=
      { declaration := "f".toList, marker := some "#".toList,
        replacement := "f\x7b\n\x7d\r".toList }
    let result : RunResult :=
      ⟨⟨["f\x7b\n".toList, "\x7d\r\n".toList, "#\n".toList]⟩,
        [⟨0, "replace_block", .replaced ⟨0, 2, by decide⟩ 2⟩]⟩
    issues [.replace r] = [] ∧ run [.replace r] (.ofText t) = .ok result ∧
      run [.replace r] (.ofText result.document.toText) =
        .ok ⟨⟨["f\x7b\r\n".toList, "\x7d\r\r\n".toList, "#\n".toList]⟩,
          [⟨0, "replace_block", .replaced ⟨0, 1, by decide⟩ 2⟩]⟩ := by
  exact ⟨by rfl, by rfl, by rfl⟩

end LinePatch
