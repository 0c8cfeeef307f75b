import LinePatch.Proofs.Document.Search
import LinePatch.Proofs.Patch.Effect

/-!
# The text that an insertion adds

An insertion cuts the text of a document between two lines and writes the lines of the snippet into
the cut. Each is ended as the anchor line is, or as the document ends its lines where the anchor
line has no terminator. Behind a last line without terminator the text is not cut but goes on: the
line is ended first, and the last line of the snippet is not.

* `Document.addedText`: the text that is added.
* `Document.exists_toText_inserted_eq`: the text of a document after an insertion.
* `run_insertion`: the same for a run.
-/

namespace LinePatch

open Text (IsRawLines terminate)

/-! ## Insertions into a document -/

namespace Document

/-- The text that an insertion beside a line adds. -/
def addedText (d : Document) (line : Nat) (snippet : Text) (placement : Placement) : Text :=
  let ending := d.endingAt line
  if placement = .after ∧ d.terminator line = [] then
    ending ++ ending.intercalate (Text.lines snippet)
  else ((Text.lines snippet).map (· ++ ending)).flatten

variable {d : Document} {line : Nat}

theorem addedText_before (d : Document) (line : Nat) (snippet : Text) :
    d.addedText line snippet .before =
      (terminate (d.endingAt line) (d.endingAt line) (Text.lines snippet)).flatten := by
  rw [addedText, if_neg (by simp), Text.terminate_self]

theorem addedText_after (h : d.terminator line ≠ []) (snippet : Text) :
    d.addedText line snippet .after =
      (terminate (d.endingAt line) (d.endingAt line) (Text.lines snippet)).flatten := by
  rw [addedText, if_neg (by simp [h]), Text.terminate_self]

theorem addedText_after_unterminated (h : d.terminator line = []) (snippet : Text) :
    d.addedText line snippet .after =
      d.endingAt line ++ (terminate (d.endingAt line) [] (Text.lines snippet)).flatten := by
  rw [addedText, if_pos ⟨rfl, h⟩, Text.flatten_terminate_nil]

/-- An insertion cuts the text in front of the first line that it adds, and adds to it there. -/
theorem exists_toText_inserted_eq (hd : IsRawLines d.rawLines) (hline : line < d.length)
    (snippet : Text) (placement : Placement) :
    ∃ p q, d.sliceText? 0 (placement.firstLine line) = some p ∧ p ++ q = d.toText ∧
      (d.inserted line snippet placement).toText =
        p ++ d.addedText line snippet placement ++ q ∧
      (placement = .after → d.terminator line = [] → q = []) := by
  obtain ⟨pre, raw, post, hraw, rfl⟩ := exists_rawLines_eq hline
  have hterminator := terminator_of_rawLines_eq hraw
  cases placement with
  | before =>
    refine ⟨pre.flatten, (raw :: post).flatten, sliceText?_zero hraw, ?_, ?_, nofun⟩
    · rw [toText, hraw, List.flatten_append]
    · rw [toText, rawLines_inserted_before hraw, addedText_before, List.flatten_append,
        List.flatten_append]
  | after =>
    have hraw' : d.rawLines = pre ++ [raw] ++ post := by rw [hraw, List.append_assoc]; rfl
    have hslice : d.sliceText? 0 (pre.length + 1) = some (pre ++ [raw]).flatten := by
      simpa using sliceText?_zero hraw'
    refine ⟨(pre ++ [raw]).flatten, post.flatten, hslice, ?_, ?_, fun _ ht => ?_⟩
    · rw [toText, hraw', ← List.flatten_append]
    · by_cases ht : Text.terminator raw = []
      · rw [toText, rawLines_inserted_after_unterminated hraw ht,
          addedText_after_unterminated (hterminator.trans ht)]
        simp only [List.flatten_append, List.flatten_cons, List.flatten_nil, List.append_assoc,
          List.nil_append]
      · rw [toText, rawLines_inserted_after hraw ht, addedText_after (hterminator ▸ ht),
          List.flatten_append, List.flatten_append]
    · -- Only the last line of a document may lack its terminator.
      rw [hraw] at hd
      rw [hd.eq_nil_of_terminator (hterminator ▸ ht), List.flatten_nil]

end Document

/-! ## Runs -/

/-- **The text after an insertion.** If an operation reports that it has inserted lines, these are
the lines of the snippet, beside the first line that contains the anchor. The text is cut in front
of the first of them, or goes on behind its end, and all of it is kept. -/
theorem run_insertion (t : Text) (i : SnippetInsertion) (result : RunResult) (first count : Nat)
    (h : run [.insert i] (.ofText t) = .ok result)
    (hreport : result.report.map (·.status) = [.inserted first count]) :
    ∃ line, (Document.ofText t).LineContains i.anchor line ∧
      (∀ j < line, ¬ (Document.ofText t).LineContains i.anchor j) ∧
      first = i.placement.firstLine line ∧ count = (Text.lines i.snippet).length ∧
      (∃ p q, (Document.ofText t).sliceText? 0 first = some p ∧ p ++ q = t ∧
        result.document.toText =
          p ++ (Document.ofText t).addedText line i.snippet i.placement ++ q ∧
        (i.placement = .after → (Document.ofText t).terminator line = [] → q = [])) ∧
      t.Sublist result.document.toText := by
  obtain ⟨status, d, hop, rfl⟩ := run_singleton_eq_ok_iff.mp h
  have hresult := i.apply_result (.ofText t)
  rw [show i.apply (.ofText t) = .ok (status, d) from hop] at hresult
  cases hresult with
  | present => cases hreport
  | @inserted _ line _ _ hanchor =>
    cases hreport
    obtain ⟨-, hcontains, hfirst⟩ := Document.locate_eq_some_iff.mp hanchor
    have htext := Document.exists_toText_inserted_eq (Document.isRawLines_ofText t)
      hcontains.lt_length i.snippet i.placement
    have hsublist :=
      Document.toText_sublist_inserted hcontains.lt_length i.snippet i.placement
    rw [Document.toText_ofText] at htext hsublist
    exact ⟨line, hcontains, hfirst, rfl, rfl, htext, hsublist⟩

/-- A snippet with an empty line, behind a last line that has no terminator. -/
theorem run_insertion_unterminated :
    let t := "a\r\nb".toList
    let i : SnippetInsertion :=
      { placement := .after, anchor := "b".toList, snippet := "x\n\ny\n".toList }
    let result : RunResult :=
      ⟨⟨["a\r\n".toList, "b\r\n".toList, "x\r\n".toList, "\r\n".toList, "y".toList]⟩,
        [⟨0, "insert_after", .inserted 2 3⟩]⟩
    run [.insert i] (.ofText t) = .ok result ∧
      (Document.ofText t).addedText 1 i.snippet .after = "\r\nx\r\n\r\ny".toList ∧
      ∃ line p q, (Document.ofText t).LineContains i.anchor line ∧ 2 = line + 1 ∧
        (Document.ofText t).sliceText? 0 2 = some p ∧ p ++ q = t ∧
        result.document.toText =
          p ++ (Document.ofText t).addedText line i.snippet .after ++ q := by
  intro t i result
  have h : run [.insert i] (.ofText t) = .ok result := by rfl
  obtain ⟨line, hline, -, hfirst, -, ⟨p, q, hp, hpq, htext, -⟩, -⟩ :=
    run_insertion t i result 2 3 h rfl
  exact ⟨h, by rfl, line, p, q, hline, hfirst, hp, hpq, htext⟩

end LinePatch
