import LinePatch.Proofs.Document.Search
import LinePatch.Proofs.Patch.Defects
import LinePatch.Proofs.Patch.Effect
import LinePatch.Proofs.Patch.Run

/-!
# Insertions that run again

An insertion that validation admits leaves its sentinel in one line of the document, and no later
insertion takes a line away or changes more of it than its terminator. So the next run finds the
sentinel of each insertion, also after the document was written and read again.

* `SnippetInsertion.apply_grows`: what one insertion keeps and adds.
* `runFrom_insertions_grows`: the same for a run of insertions.
* `rerun_insertions`: the next run changes nothing.
-/

namespace LinePatch

open Text (IsInline IsRawLines trimNewlines)

/-! ## Texts in a document -/

namespace Document

/-- `d'` is a document of raw lines and contains the texts that `d` contains, as far as terminators
take no part in them. -/
structure Grows (d d' : Document) : Prop where
  isRawLines : IsRawLines d'.rawLines
  contains : ∀ s, IsInline s → d.contains s = true → d'.contains s = true

theorem Grows.refl {d : Document} (h : IsRawLines d.rawLines) : d.Grows d := ⟨h, fun _ _ => id⟩

theorem Grows.trans {d d' d'' : Document} (h : d.Grows d') (h' : d'.Grows d'') : d.Grows d'' :=
  ⟨h'.isRawLines, fun s hs hc => h'.contains s hs (h.contains s hs hc)⟩

variable {d : Document} {line : Nat} {s : Text}

theorem grows_inserted (hd : IsRawLines d.rawLines) (h : line < d.length) (snippet : Text)
    (placement : Placement) : d.Grows (d.inserted line snippet placement) := by
  refine ⟨isRawLines_inserted hd h snippet placement, fun s hs hc => ?_⟩
  obtain ⟨hne, l, hl, hin⟩ := (contains_iff_of_isInline hs).mp hc
  exact (contains_iff_of_isInline hs).mpr
    ⟨hne, l, (mem_map_trimNewlines_inserted h snippet placement l).mpr (.inl hl), hin⟩

/-- What occurs in a snippet is found in the document with the snippet. -/
theorem contains_inserted (hs : IsInline s) (hne : s ≠ []) {snippet : Text} (hin : s <:+: snippet)
    (h : line < d.length) (placement : Placement) :
    (d.inserted line snippet placement).contains s = true := by
  obtain ⟨c, hc, hin⟩ := Text.exists_line_of_infix hs hne hin
  refine (contains_iff_of_isInline hs).mpr ⟨hne, trimNewlines c, ?_, ?_⟩
  · exact (mem_map_trimNewlines_inserted h snippet placement _).mpr (.inr (List.mem_map_of_mem hc))
  · exact (Text.infix_trimNewlines_iff hs).mpr hin

/-- What was found in a document is found when its text is read again. -/
theorem contains_ofText_toText (hd : IsRawLines d.rawLines) (hs : IsInline s)
    (hc : d.contains s = true) : (ofText d.toText).contains s = true := by
  obtain ⟨hne, raw, hraw, hin⟩ := (contains_iff_of_not_mem hs.1).mp hc
  refine (contains_iff_of_not_mem hs.1).mpr ⟨hne, raw, mem_rawLines_ofText_toText hd hraw ?_, hin⟩
  rintro rfl
  exact hne (List.infix_nil.mp hin)

end Document

/-! ## Insertions -/

namespace SnippetInsertion

variable {i : SnippetInsertion} {d d' : Document}

/-- An insertion that succeeds takes no text away and leaves its sentinel. -/
theorem apply_grows (hd : IsRawLines d.rawLines) (hvalid : i.defects = [])
    (hinline : ∀ s, i.effectiveSentinel = some s → IsInline s) {status : Status}
    (h : i.apply d = .ok (status, d')) :
    d.Grows d' ∧ ∃ s, i.effectiveSentinel = some s ∧ d'.contains s = true := by
  obtain ⟨s, hs, hne, hin⟩ := exists_sentinel hvalid
  have hresult := i.apply_result d
  rw [h] at hresult
  cases hresult with
  | present hs hc => exact ⟨.refl hd, _, hs, hc⟩
  | inserted _ _ ha =>
    have hlt := Document.lt_length_of_locate ha
    exact ⟨Document.grows_inserted hd hlt _ _, s, hs,
      Document.contains_inserted (hinline s hs) hne hin hlt _⟩

end SnippetInsertion

/-! ## Runs of insertions -/

/-- A run of insertions takes no text away and leaves the sentinel of each. -/
theorem runFrom_insertions_grows {insertions : List SnippetInsertion} {k : Nat} {d : Document}
    {r : RunResult} (hd : IsRawLines d.rawLines)
    (hvalid : ∀ i ∈ insertions, i.defects = [] ∧ ∀ s, i.effectiveSentinel = some s → IsInline s)
    (h : runFrom k (insertions.map .insert) d = .ok r) :
    d.Grows r.document ∧
      ∀ i ∈ insertions, ∃ s, i.effectiveSentinel = some s ∧ r.document.contains s = true := by
  induction insertions generalizing k d r with
  | nil =>
    cases h
    exact ⟨.refl hd, by simp⟩
  | cons i insertions ih =>
    obtain ⟨status, d', rest, hop, hrest, rfl⟩ := runFrom_cons_eq_ok_iff.mp h
    obtain ⟨hvalid₀, hinline⟩ := hvalid i List.mem_cons_self
    obtain ⟨hstep, s, hs, hc⟩ := i.apply_grows hd hvalid₀ hinline hop
    obtain ⟨hgrows, hsentinels⟩ :=
      ih hstep.isRawLines (fun j hj => hvalid j (List.mem_cons_of_mem i hj)) hrest
    refine ⟨hstep.trans hgrows, fun j hj => ?_⟩
    rcases List.mem_cons.mp hj with rfl | hj
    · exact ⟨s, hs, hgrows.contains s (hinline s hs) hc⟩
    · exact hsentinels j hj

/-- Where the sentinels of all insertions are found, a run changes nothing. -/
theorem runFrom_insertions_of_contains {insertions : List SnippetInsertion} {d : Document}
    (h : ∀ i ∈ insertions, ∃ s, i.effectiveSentinel = some s ∧ d.contains s = true) (k : Nat) :
    ∃ report, runFrom k (insertions.map .insert) d = .ok ⟨d, report⟩ ∧
      report.map (·.status) = insertions.map fun _ => .alreadyApplied := by
  induction insertions generalizing k with
  | nil => exact ⟨[], rfl, rfl⟩
  | cons i insertions ih =>
    obtain ⟨s, hs, hc⟩ := h i List.mem_cons_self
    obtain ⟨report, hrun, hreport⟩ := ih (fun j hj => h j (List.mem_cons_of_mem i hj)) (k + 1)
    have hop : i.apply d = .ok (.alreadyApplied, d) :=
      (SnippetInsertion.Result.present hs hc).apply_eq
    refine ⟨_, runFrom_cons_eq_ok_iff.mpr ⟨_, _, _, hop, hrun, rfl⟩, ?_⟩
    rw [List.map_cons, List.map_cons, hreport]

/-- **The next run of insertions changes nothing.** It is enough that the sentinels that were given
lie in one line and end in no carriage return; the others always do. -/
theorem rerun_insertions :
    (∀ (i : SnippetInsertion) (s : Text), i.sentinel = none → i.effectiveSentinel = some s →
      IsInline s) ∧
    ∀ (t : Text) (insertions : List SnippetInsertion) (r : RunResult),
      (∀ i ∈ insertions, i.defects = [] ∧ ∀ s, i.effectiveSentinel = some s → IsInline s) →
      run (insertions.map .insert) (.ofText t) = .ok r →
      ∃ again, run (insertions.map .insert) (.ofText r.document.toText) = .ok again ∧
        again.report.map (·.status) = insertions.map (fun _ => .alreadyApplied) ∧
        again.document.toText = r.document.toText := by
  refine ⟨fun i s => i.isInline_of_sentinel_eq_none, fun t insertions r hvalid h => ?_⟩
  obtain ⟨hgrows, hsentinels⟩ :=
    runFrom_insertions_grows (Document.isRawLines_ofText t) hvalid h
  have hagain : ∀ i ∈ insertions, ∃ s, i.effectiveSentinel = some s ∧
      (Document.ofText r.document.toText).contains s = true := by
    intro i hi
    obtain ⟨s, hs, hc⟩ := hsentinels i hi
    exact ⟨s, hs, Document.contains_ofText_toText hgrows.isRawLines ((hvalid i hi).2 s hs) hc⟩
  obtain ⟨report, hrun, hreport⟩ := runFrom_insertions_of_contains hagain 0
  exact ⟨_, hrun, hreport, Document.toText_ofText _⟩

/-- A line without terminator is written again and an empty line is left behind it, which the text
does not show. The second snippet goes in front of the first. -/
theorem rerun_insertions_unterminated :
    let t := "a\r\nb".toList
    let insertions : List SnippetInsertion :=
      [{ placement := .after, anchor := "b".toList, snippet := " x\n\n".toList },
        { placement := .before, anchor := "x".toList, snippet := "y".toList,
          sentinel := some "y".toList }]
    let r : RunResult :=
      ⟨⟨["a\r\n".toList, "b\r\n".toList, "y\r\n".toList, " x\r\n".toList, []]⟩,
        [⟨0, "insert_after", .inserted 2 2⟩, ⟨1, "insert_before", .inserted 2 1⟩]⟩
    run (insertions.map .insert) (.ofText t) = .ok r ∧
      ∃ again, run (insertions.map .insert) (.ofText r.document.toText) = .ok again ∧
        again.report.map (·.status) = insertions.map (fun _ => .alreadyApplied) ∧
        again.document.toText = r.document.toText := by
  intro t insertions r
  have hvalid : ∀ i ∈ insertions,
      i.defects = [] ∧ ∀ s, i.effectiveSentinel = some s → IsInline s := by
    intro i hi
    rcases List.mem_cons.mp hi with rfl | hi
    · exact ⟨by decide, fun s hs => rerun_insertions.1 _ s rfl hs⟩
    · cases List.mem_singleton.mp hi
      refine ⟨by decide, fun s hs => ?_⟩
      cases hs
      exact ⟨by decide, by decide⟩
  have h : run (insertions.map .insert) (.ofText t) = .ok r := by rfl
  exact ⟨h, rerun_insertions.2 t insertions r hvalid h⟩

end LinePatch
