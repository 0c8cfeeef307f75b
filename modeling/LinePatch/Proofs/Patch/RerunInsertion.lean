import LinePatch.Proofs.Document.Joined
import LinePatch.Proofs.Patch.Defects
import LinePatch.Proofs.Patch.Effect

/-!
# Insertions with a sentinel of several lines

A sentinel is a part of its snippet, but it is looked for in the lines of the document. Between the
two, the lines of the snippet are written with the terminator of the document and read again. A
sentinel in one line passes this unchanged. One of several lines may hold parts of terminators, or
end in the newline at the end of the document, and then it is not found again.

* `SnippetInsertion.KeepsSentinel`: when it is found again.
* `SnippetInsertion.KeepsSentinel.occursInside_inserted`: the sentinel in the document with the
  snippet.
* `rerun_multiline_insertion`: the next run of such an insertion.
-/

namespace LinePatch

open Text (IsBreak IsEnding IsRawLines terminate unifyNewlines)

/-- The sentinel `s` of an insertion beside a line stands in the document with the snippet. -/
structure SnippetInsertion.KeepsSentinel (i : SnippetInsertion) (d : Document) (line : Nat)
    (s : Text) : Prop where
  /-- It does not end inside of a terminator. -/
  noReturn : s.getLast? ≠ some '\r'
  /-- If a line in it ends in a carriage return of its own, new lines end in `\r\n`. -/
  ending : ['\r', '\r', '\n'] <:+: s → d.endingAt line = ['\r', '\n']
  /-- If it ends in a newline, more of the snippet than line breaks goes on behind it, or some line
  of the document stands behind the snippet. -/
  followed : (∃ v, s ++ v <:+: i.snippet ∧ ∀ x, (s ++ v).getLast? = some x → ¬ IsBreak x) ∨
    i.placement = .before ∨ line + 1 < d.length

namespace Document

variable {d : Document} {line : Nat}

/-- The text after an insertion, with the written snippet in the middle. Where a line follows, the
snippet is terminated. -/
theorem exists_toText_inserted (hd : IsRawLines d.rawLines) (hne : [] ∉ d.rawLines)
    (hline : line < d.length) (snippet : Text) (placement : Placement) :
    ∃ p last q, (d.inserted line snippet placement).toText =
        p ++ (terminate (d.endingAt line) last (Text.lines snippet)).flatten ++ q ∧
      (last = d.endingAt line ∨ last = [] ∧ q = []) ∧
      (placement = .before ∨ line + 1 < d.length → last = d.endingAt line ∧ q ≠ []) := by
  obtain ⟨pre, raw, post, hraw, rfl⟩ := exists_rawLines_eq hline
  have hlength : d.length = pre.length + (post.length + 1) := by simp [length, hraw]
  cases placement with
  | before =>
    have hnil : raw ≠ [] := fun h => hne (by simp [hraw, h])
    refine ⟨pre.flatten, d.endingAt pre.length, (raw :: post).flatten, ?_, .inl rfl,
      fun _ => ⟨rfl, by simp [hnil]⟩⟩
    rw [toText, rawLines_inserted_before hraw, List.flatten_append, List.flatten_append]
  | after =>
    by_cases ht : Text.terminator raw = []
    · rw [hraw] at hd
      have hpost := hd.eq_nil_of_terminator ht
      refine ⟨(pre ++ [raw ++ d.endingAt pre.length]).flatten, [], [], ?_, .inr ⟨rfl, rfl⟩, ?_⟩
      · rw [toText, rawLines_inserted_after_unterminated hraw ht, hpost]
        simp
      · rintro (h | h)
        · cases h
        · rw [hlength, hpost, List.length_nil] at h
          omega
    · refine ⟨(pre ++ [raw]).flatten, d.endingAt pre.length, post.flatten, ?_, .inl rfl, ?_⟩
      · rw [toText, rawLines_inserted_after hraw ht, List.flatten_append, List.flatten_append]
      · rintro (h | h)
        · cases h
        · cases post with
          | nil =>
            rw [hlength, List.length_nil] at h
            omega
          | cons l post =>
            have hnil : l ≠ [] := fun h => hne (by simp [hraw, h])
            exact ⟨rfl, by simp [hnil]⟩

end Document

namespace SnippetInsertion.KeepsSentinel

variable {i : SnippetInsertion} {d : Document} {line : Nat} {s : Text}

/-- The sentinel in the joined lines of the snippet, with the last terminator where there is one.
Either these go on behind it, or the document goes on behind them with `q`. -/
theorem exists_append (h : i.KeepsSentinel d line s) (hin : s <:+: i.snippet) {last q : Text}
    (hfollowed : i.placement = .before ∨ line + 1 < d.length → IsEnding last ∧ q ≠ []) :
    ∃ a b, Document.joinLines (Text.lines i.snippet) ++ unifyNewlines last =
        a ++ unifyNewlines s ++ b ∧ (s.getLast? = some '\n' → b ≠ [] ∨ q ≠ []) := by
  rcases h.followed with ⟨v, hv, hbreak⟩ | hline
  · have hend : ∀ x, IsBreak x → (s ++ v).getLast? ≠ some x := fun x hx hlast =>
      hbreak x hlast hx
    have hoccurs : (unifyNewlines (s ++ v)).OccursInside (unifyNewlines i.snippet) := by
      obtain ⟨a, b, hab⟩ := Text.isInfix_unifyNewlines (hend '\r' (.inl rfl)) hv
      refine ⟨a, b, hab.symm, fun hnewline => absurd ?_ (hend '\n' (.inr rfl))⟩
      rwa [Text.getLast?_unifyNewlines] at hnewline
    obtain ⟨a, b, hab⟩ := Document.infix_joinLines_iff.mpr hoccurs
    rw [Text.unifyNewlines_append fun hreturn => absurd hreturn h.noReturn] at hab
    refine ⟨a, unifyNewlines v ++ b ++ unifyNewlines last, ?_, fun hnewline => .inl ?_⟩
    · rw [← hab]
      simp only [List.append_assoc]
    · have hv : v ≠ [] := by
        rintro rfl
        rw [List.append_nil] at hend
        exact hend '\n' (.inr rfl) hnewline
      simp [hv]
  · obtain ⟨hlast, hq⟩ := hfollowed hline
    obtain ⟨a, b, hab⟩ := (Text.isInfix_unifyNewlines h.noReturn hin).trans
      (Document.unifyNewlines_prefix_joinLines i.snippet).isInfix
    rw [hlast.unifyNewlines_eq]
    exact ⟨a, b, hab.symm, fun _ => .inr hq⟩

/-- The sentinel with one kind of newline passes the terminators of new lines unchanged. -/
theorem unified (h : i.KeepsSentinel d line s) :
    d.endingAt line = ['\r', '\n'] ∨
      unifyNewlines (unifyNewlines s) = unifyNewlines s := by
  by_cases hdouble : ['\r', '\r', '\n'] <:+: s
  · exact .inl (h.ending hdouble)
  · exact .inr (Text.unifyNewlines_unifyNewlines hdouble)

/-- A sentinel that is kept occurs inside of the text with the snippet. -/
theorem occursInside_inserted (h : i.KeepsSentinel d line s) (hd : IsRawLines d.rawLines)
    (hne : [] ∉ d.rawLines) (hline : line < d.length) (hs : s ≠ []) (hin : s <:+: i.snippet) :
    (unifyNewlines s).OccursInside
      (unifyNewlines (d.inserted line i.snippet i.placement).toText) := by
  obtain ⟨p, last, q, htext, hlast, hfollowed⟩ :=
    Document.exists_toText_inserted hd hne hline i.snippet i.placement
  have he := d.endingAt_isEnding line
  have hlines : Text.lines i.snippet ≠ [] := fun hnil => by
    rw [Text.lines_eq_nil_iff.mp hnil] at hin
    exact hs (List.infix_nil.mp hin)
  have hreturn : (unifyNewlines s).getLast? ≠ some '\r' := by
    rw [Text.getLast?_unifyNewlines]
    exact h.noReturn
  obtain ⟨a, b, hab, hb⟩ := h.exists_append hin fun hline => by
    obtain ⟨hlast, hq⟩ := hfollowed hline
    exact ⟨hlast ▸ he, hq⟩
  obtain ⟨a', b', hwritten, hb'⟩ := Document.exists_unifyNewlines_terminate he
    (hlast.symm.imp_left And.left) hlines (fun c => Text.newline_not_mem_of_mem_lines)
    (mt Text.unifyNewlines_eq_nil_iff.mp hs) hreturn h.unified hab
  rw [htext]
  refine Text.occursInside_unifyNewlines_append p q (fun hend => ?_) hwritten fun hnewline => ?_
  · rcases hlast with rfl | ⟨-, rfl⟩
    · rw [Document.flatten_terminate hlines, Text.getLast?_append_ending he] at hend
      cases hend
    · exact nofun
  · rw [Text.getLast?_unifyNewlines] at hnewline
    exact (hb hnewline).imp_left hb'

end SnippetInsertion.KeepsSentinel

/-! ## Runs -/

/-- **The next run of an insertion with a sentinel of several lines.** It finds its work done and
changes nothing if and only if the sentinel occurs inside of the text, with one kind of newline in
both. This is so after each run of a valid insertion that keeps its sentinel. -/
theorem rerun_multiline_insertion (t : Text) (i : SnippetInsertion) (s : Text) (result : RunResult)
    (hs : i.effectiveSentinel = some s) (hmem : '\n' ∈ s)
    (h : run [.insert i] (.ofText t) = .ok result) :
    ((∃ again, run [.insert i] (.ofText result.document.toText) = .ok again ∧
        again.report.map (·.status) = [.alreadyApplied] ∧
        again.document.toText = result.document.toText) ↔
      (unifyNewlines s).OccursInside (unifyNewlines result.document.toText)) ∧
    (i.defects = [] →
      (∀ line, (Document.ofText t).locate i.anchor = some line →
        i.KeepsSentinel (.ofText t) line s) →
      (unifyNewlines s).OccursInside (unifyNewlines result.document.toText)) := by
  rw [run_singleton_alreadyApplied_iff]
  refine ⟨(i.apply_eq_alreadyApplied_iff hs).trans (Document.contains_ofText_iff_of_mem hmem),
    fun hvalid hkeeps => ?_⟩
  obtain ⟨hd, hne⟩ : IsRawLines (Document.ofText t).rawLines ∧ [] ∉ (Document.ofText t).rawLines :=
    Text.isRawLines_rawLines t
  obtain ⟨s', hs', -, hin⟩ := i.exists_sentinel hvalid
  cases hs.symm.trans hs'
  obtain ⟨status, d', hop, rfl⟩ := run_singleton_eq_ok_iff.mp h
  have hresult := i.apply_result (.ofText t)
  rw [show i.apply (.ofText t) = .ok (status, d') from hop] at hresult
  cases hresult with
  | present hs' hc =>
    cases hs.symm.trans hs'
    rw [Document.toText_ofText]
    exact (Document.contains_ofText_iff_of_mem hmem).mp hc
  | inserted _ _ ha =>
    exact (hkeeps _ ha).occursInside_inserted hd hne (Document.lt_length_of_locate ha)
      (List.ne_nil_of_mem hmem) hin

/-- A snippet behind a last line without terminator, in a document with `\r\n`. A line of the
sentinel ends in a carriage return of its own. -/
theorem rerun_multiline_insertion_unterminated :
    let t := "x\r\ny".toList
    let i : SnippetInsertion :=
      { placement := .after, anchor := "y".toList, snippet := "a\r\r\nb\n".toList,
        sentinel := some "a\r\r\nb".toList }
    let result : RunResult :=
      ⟨⟨["x\r\n".toList, "y\r\n".toList, "a\r\r\n".toList, "b".toList]⟩,
        [⟨0, "insert_after", .inserted 2 2⟩]⟩
    i.defects = [] ∧ run [.insert i] (.ofText t) = .ok result ∧
      ∃ again, run [.insert i] (.ofText result.document.toText) = .ok again ∧
        again.report.map (·.status) = [.alreadyApplied] ∧
        again.document.toText = result.document.toText := by
  intro t i result
  have hvalid : i.defects = [] := by rfl
  have h : run [.insert i] (.ofText t) = .ok result := by rfl
  obtain ⟨hiff, hkept⟩ :=
    rerun_multiline_insertion t i "a\r\r\nb".toList result rfl (by decide) h
  refine ⟨hvalid, h, hiff.mpr (hkept hvalid fun line ha => ?_)⟩
  have hone : (Document.ofText t).locate i.anchor = some 1 := by rfl
  cases hone.symm.trans ha
  refine ⟨by decide, fun _ => by rfl, .inl ⟨[], ⟨[], ['\n'], by rfl⟩, fun x hx => ?_⟩⟩
  have hlast : ("a\r\r\nb".toList ++ []).getLast? = some 'b' := by rfl
  cases hlast.symm.trans hx
  simp [IsBreak]

/-- The sentinel takes in the last newline of the document, which is not looked at. -/
theorem inserted_twice :
    let t := "x\n".toList
    let i : SnippetInsertion :=
      { placement := .after, anchor := "x".toList, snippet := "b\n".toList,
        sentinel := some "b\n".toList }
    let result : RunResult :=
      ⟨⟨["x\n".toList, "b\n".toList]⟩, [⟨0, "insert_after", .inserted 1 1⟩]⟩
    i.defects = [] ∧ run [.insert i] (.ofText t) = .ok result ∧
      run [.insert i] (.ofText result.document.toText) =
        .ok ⟨⟨["x\n".toList, "b\n".toList, "b\n".toList]⟩,
          [⟨0, "insert_after", .inserted 1 1⟩]⟩ := by
  exact ⟨by rfl, by rfl, by rfl⟩

/-- A carriage return at the end of a line of the sentinel is lost with `\n`. -/
example :
    let i : SnippetInsertion :=
      { placement := .after, anchor := "x".toList, snippet := "a\r\r\nb".toList,
        sentinel := some "a\r\r\nb".toList }
    (run [.insert i] (.ofText "x\n".toList)).toOption.map (·.document.toText) =
        some "x\na\r\nb\n".toList ∧
      (Document.ofText "x\na\r\nb\n".toList).contains "a\r\r\nb".toList = false := by
  exact ⟨by rfl, by rfl⟩

/-- A sentinel that ends between `\r` and `\n` is not found where the two are a terminator. -/
example :
    let i : SnippetInsertion :=
      { placement := .after, anchor := "x".toList, snippet := "a\nb\r\nc".toList,
        sentinel := some "a\nb\r".toList }
    (run [.insert i] (.ofText "x\n".toList)).toOption.map (·.document.toText) =
        some "x\na\nb\nc\n".toList ∧
      (Document.ofText "x\na\nb\nc\n".toList).contains "a\nb\r".toList = false := by
  exact ⟨by rfl, by rfl⟩

end LinePatch
