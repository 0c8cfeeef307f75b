import LinePatch.Proofs.Block.Nesting
import LinePatch.Proofs.Text.Newlines

/-!
# Scans of lines with and without terminators

The brace-depth boundary scans the lines of a document without their terminators, the balance of a
block is judged by its text, which is cut into lines again. Both give the same nesting: line breaks
behind a line change nothing, not even where a scan looks one character ahead or skips one.

* `Reachable`: the nestings that a scan is in between two lines.
* `line_append_breaks`: the step, for one line.
* `lines_map_content_filter`, `lines_sliceText?`: the same for raw lines and for a part of a
  document. An empty raw line, which no text shows, changes nothing either.
* `scan_ignores_terminators`: scans see no terminators.
-/

namespace LinePatch

open Text (IsRawLines content trimNewlines unifyNewlines)

/-- Up to line breaks at their ends, the lines of a text do not depend on the kind of newline. -/
theorem Text.map_trimNewlines_lines_unifyNewlines (t : Text) :
    (lines (unifyNewlines t)).map trimNewlines = (lines t).map trimNewlines := by
  induction t using line_induction with
  | last u hu => rw [unifyNewlines_of_not_mem hu]
  | line c u hc ih =>
    have hcontent : '\n' ∉ content (c ++ ['\n']) := newline_not_mem_content (.inl ⟨c, hc, rfl⟩)
    rw [unifyNewlines_line hc, lines_append_newline hcontent, lines_append_newline hc,
      List.map_cons, List.map_cons, ih, trimNewlines_content,
      trimNewlines_append_ending (.inr isEnding_newline)]

namespace Nesting

/-- The nestings that a scan is in between two lines, whatever they are. -/
inductive Reachable : Nesting → Prop
  | start : Reachable start
  | line {n : Nesting} (h : Reachable n) (l : Text) : Reachable (n.line l)

variable {n : Nesting} {e : Text}

theorem Reachable.isProper (hn : n.Reachable) : n.mode.IsProper := by
  induction hn with
  | start => trivial
  | line _ l ih => exact isProper_line ih

/-- No single-quoted literal is open between two lines. -/
theorem Reachable.endLine_eq (hn : n.Reachable) : n.mode.endLine = n.mode := by
  cases hn with
  | start => rfl
  | line _ l => exact Brace.Mode.endLine_endLine _

/-- Line breaks behind a line do not change the nesting after it. -/
theorem line_append_breaks (h : n.mode.IsProper) (he : ∀ x ∈ e, Text.IsBreak x) (l : Text) :
    n.line (l ++ e) = n.line l := by
  rw [← line_trimNewlines h, Text.trimNewlines_append he, line_trimNewlines h]

/-- Empty raw lines change nothing. -/
theorem lines_map_content_filter (h : n.mode.endLine = n.mode) (raws : List Text) :
    n.lines ((raws.filter (!·.isEmpty)).map content) = n.lines (raws.map content) := by
  induction raws generalizing n with
  | nil => rfl
  | cons raw raws ih =>
    by_cases hraw : raw = []
    · subst hraw
      have hnil : n.line (content []) = n := by
        change n.line [] = n
        rw [line_nil, h]
      rw [List.filter_cons_of_neg (by simp), ih h, List.map_cons, lines, lines, List.foldl_cons,
        hnil]
    · rw [List.filter_cons_of_pos (by simpa using hraw)]
      exact ih (n := n.line (content raw)) (Brace.Mode.endLine_endLine _)

/-- The nesting over a part of a document is that over its text. -/
theorem lines_sliceText? (h : n.mode.endLine = n.mode) {d : Document} (hd : IsRawLines d.rawLines)
    {start stop : Nat} {text : Text} (ht : d.sliceText? start stop = some text) :
    n.lines (Text.lines text) = n.lines ((d.lines.drop start).take (stop - start)) := by
  rw [Document.lines_of_sliceText? hd ht, lines_map_content_filter h, Document.lines,
    List.map_take, List.map_drop]

/-- **Scans see no terminators.** Line breaks behind a line change nothing in the nesting after it:
not the depth, not the lowest depth, not what was opened and not what is open. So a text has the
same nesting with `\n` for each `\r\n`, and a part of a document has that of its text, which is cut
into lines again. The document is one that was read or that a run leaves, whose last raw line may be
empty. -/
theorem scan_ignores_terminators (hn : n.Reachable) :
    (∀ l e, (∀ x ∈ e, x = '\r' ∨ x = '\n') → n.line (l ++ e) = n.line l) ∧
    (∀ t, n.lines (Text.lines (unifyNewlines t)) = n.lines (Text.lines t) ∧
      isBalanced (unifyNewlines t) = isBalanced t) ∧
    ∀ d : Document, IsRawLines d.rawLines → ∀ start stop, start ≤ stop → stop ≤ d.length →
      ∃ text, d.sliceText? start stop = some text ∧
        n.lines (Text.lines text) = n.lines ((d.lines.drop start).take (stop - start)) ∧
        isBalanced text = isBalancedLines ((d.lines.drop start).take (stop - start)) := by
  refine ⟨fun l e he => line_append_breaks hn.isProper he l, fun t => ?_, ?_⟩
  · have halike := Text.map_trimNewlines_lines_unifyNewlines t
    exact ⟨lines_congr hn.isProper halike, isBalancedLines_congr halike⟩
  · intro d hd start stop hle hstop
    have htext := Document.sliceText?_eq_some_iff.mpr ⟨hle, hstop, rfl⟩
    refine ⟨_, htext, lines_sliceText? hn.endLine_eq hd htext, ?_⟩
    unfold isBalanced isBalancedLines
    rw [lines_sliceText? rfl hd htext]

/-- Inside of a literal, behind a backslash that takes the next character with it; and a document
whose last raw line is empty. -/
theorem scan_ignores_terminators_literal :
    let n := start.line "\"a".toList
    let l := "\x7b\\".toList
    let d : Document := ⟨["b\\\r\n".toList, "\"\x7d\n".toList, []]⟩
    n.Reachable ∧ (∀ x ∈ ['\r', '\n'], x = '\r' ∨ x = '\n') ∧
      n.line (l ++ ['\r', '\n']) = n.line l ∧
      IsRawLines d.rawLines ∧ 0 ≤ 3 ∧ 3 ≤ d.length ∧
      ∃ text, d.sliceText? 0 3 = some text ∧
        n.lines (Text.lines text) = n.lines ((d.lines.drop 0).take (3 - 0)) ∧
        isBalanced text = isBalancedLines ((d.lines.drop 0).take (3 - 0)) := by
  intro n l d
  have hn : n.Reachable := .line .start _
  have he : ∀ x ∈ ['\r', '\n'], x = '\r' ∨ x = '\n' := by simp
  have hd : IsRawLines d.rawLines :=
    .cons ⟨"b\\\r".toList, by decide, rfl⟩
      (.cons ⟨"\"\x7d".toList, by decide, rfl⟩ (.rest (by simp)))
  have hlength : 3 ≤ d.length := by decide
  obtain ⟨hline, -, hslice⟩ := scan_ignores_terminators hn
  exact ⟨hn, he, hline l _ he, hd, by decide, hlength, hslice d hd 0 3 (by decide) hlength⟩

end Nesting

end LinePatch
