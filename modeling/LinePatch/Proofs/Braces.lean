import LinePatch.Braces
import LinePatch.Proofs.Text.LineBreaks

/-!
# Scanning and line breaks

A scan may be given a line with any part of its terminator: it finds the same braces and ends in
the same mode. So the nesting of lines depends only on the lines without the line breaks at their
ends, and whether a text is balanced only on its lines.

* `Brace.codeBraces_append_breaks`: the step, for one line.
* `Nesting.lines_map_trimNewlines`: the same for the nesting of any lines.
* `isBalanced_flatten`: a text given by raw lines is balanced if their contents are.
-/

namespace LinePatch

open Text (IsBreak IsRawLines content lines trimNewlines)

/-! ## Braces of a line -/

namespace Brace

/-- The modes of a scan: a literal is opened by one of the three quotes. -/
def Mode.IsProper : Mode → Prop
  | .literal quote => quote = '"' ∨ quote = '\'' ∨ quote = '`'
  | _ => True

variable {mode : Mode} {l e : Text}

/-- A scan stays in the modes of a scan. -/
theorem isProper_codeBraces (h : mode.IsProper) : (codeBraces mode l).2.IsProper := by
  fun_induction codeBraces mode l with
  | case1 mode => exact h
  | case2 cs ih => exact ih trivial
  | case3 c cs _ ih => exact ih trivial
  | case4 quote c cs ih => exact ih h
  | case5 quote => exact h
  | case6 quote c cs _ _ ih =>
    apply ih
    split
    · trivial
    · exact h
  | case7 cs => trivial
  | case8 cs ih => exact ih trivial
  | case9 cs bs mode hcs ih =>
    rw [hcs] at ih
    exact ih trivial
  | case10 cs bs mode hcs ih =>
    rw [hcs] at ih
    exact ih trivial
  | case11 c cs _ _ _ _ ih =>
    apply ih
    split
    · assumption
    · trivial

theorem Mode.IsProper.endLine (h : mode.IsProper) : mode.endLine.IsProper := by
  unfold Mode.endLine
  split
  · trivial
  · exact h

/-- Line breaks hold no brace and open and close nothing. -/
theorem codeBraces_breaks (h : mode.IsProper) (he : ∀ x ∈ e, IsBreak x) :
    codeBraces mode e = ([], mode) := by
  induction e with
  | nil => rw [codeBraces]
  | cons x e ih =>
    have ih := ih fun y hy => he y (List.mem_cons_of_mem x hy)
    rcases he x List.mem_cons_self with rfl | rfl <;> cases mode with
    | code => simpa [codeBraces] using ih
    | comment => simpa [codeBraces] using ih
    | literal quote => rcases h with rfl | rfl | rfl <;> simpa [codeBraces] using ih

/-- Line breaks behind a line do not make it start with another character. -/
private theorem append_breaks_ne_cons {cs : Text} {y : Char} (hy : ¬ IsBreak y)
    (he : ∀ x ∈ e, IsBreak x) (hcs : ∀ cs', cs ≠ y :: cs') (cs' : Text) : cs ++ e ≠ y :: cs' := by
  intro h
  rcases List.append_eq_cons_iff.mp h with ⟨-, h⟩ | ⟨cs'', h, -⟩
  · exact hy (he y (h ▸ List.mem_cons_self))
  · exact hcs cs'' h

/-- Line breaks behind a line do not change its scan, not even where its last character looks at
the next one: after `/`, `*` or a backslash. -/
theorem codeBraces_append_breaks (h : mode.IsProper) (he : ∀ x ∈ e, IsBreak x) :
    codeBraces mode (l ++ e) = codeBraces mode l := by
  have hslash : ¬ IsBreak '/' := by simp [IsBreak]
  have hstar : ¬ IsBreak '*' := by simp [IsBreak]
  fun_induction codeBraces mode l with
  | case1 mode => rw [List.nil_append, codeBraces_breaks h he]
  | case2 cs ih => rw [List.cons_append, List.cons_append, codeBraces, ih trivial]
  | case3 c cs hno ih =>
    rw [List.cons_append, codeBraces, ih trivial]
    intro cs' hc
    exact append_breaks_ne_cons hslash he (fun cs' => hno cs' hc) cs'
  | case4 quote c cs ih => rw [List.cons_append, List.cons_append, codeBraces, ih h]
  | case5 quote =>
    cases e with
    | nil => rw [List.append_nil, codeBraces]
    | cons x e =>
      rw [List.singleton_append, codeBraces,
        codeBraces_breaks h fun y hy => he y (List.mem_cons_of_mem x hy)]
  | case6 quote c cs hno hno' ih =>
    have hc : c ≠ '\\' := by
      rintro rfl
      cases cs with
      | nil => exact hno' rfl rfl
      | cons c cs => exact hno c cs rfl rfl
    have hproper : (if c = quote then Mode.code else Mode.literal quote).IsProper := by
      split
      · trivial
      · exact h
    rw [List.cons_append, codeBraces, ih hproper]
    · exact fun c' cs' hc' _ => hc hc'
    · exact fun hc' _ => hc hc'
  | case7 cs => rw [List.cons_append, List.cons_append, codeBraces]
  | case8 cs ih => rw [List.cons_append, List.cons_append, codeBraces, ih trivial]
  | case9 cs bs mode hcs ih => rw [List.cons_append, codeBraces, ih trivial, hcs]
  | case10 cs bs mode hcs ih => rw [List.cons_append, codeBraces, ih trivial, hcs]
  | case11 c cs hno hno' hopen hclose ih =>
    have hproper :
        (if c = '"' ∨ c = '\'' ∨ c = '`' then Mode.literal c else Mode.code).IsProper := by
      split
      · assumption
      · trivial
    rw [List.cons_append, codeBraces, ih hproper]
    · intro cs' hc
      exact append_breaks_ne_cons hslash he (fun cs' => hno cs' hc) cs'
    · intro cs' hc
      exact append_breaks_ne_cons hstar he (fun cs' => hno' cs' hc) cs'
    · exact hopen
    · exact hclose

end Brace

/-! ## Nesting of lines -/

namespace Nesting

variable {n : Nesting} {l : Text} {ls : List Text}

theorem isProper_line (h : n.mode.IsProper) : (n.line l).mode.IsProper :=
  (Brace.isProper_codeBraces h).endLine

theorem line_nil (n : Nesting) : n.line [] = { n with mode := n.mode.endLine } := by
  simp [line, Brace.codeBraces]

/-- The nesting after a line does not depend on the line breaks at its end. -/
theorem line_trimNewlines (h : n.mode.IsProper) : n.line (trimNewlines l) = n.line l := by
  obtain ⟨e, he, hl⟩ := Text.exists_append_trimNewlines l
  conv => rhs; rw [hl]
  simp only [line, Brace.codeBraces_append_breaks h he]

theorem lines_map_trimNewlines (h : n.mode.IsProper) :
    n.lines (ls.map trimNewlines) = n.lines ls := by
  induction ls generalizing n with
  | nil => rfl
  | cons l ls ih =>
    simp only [lines, List.map_cons, List.foldl_cons, line_trimNewlines h]
    exact ih (isProper_line h)

/-- The nesting after lines is the same for lines that are alike. -/
theorem lines_congr (h : n.mode.IsProper) {ls' : List Text}
    (hls : ls.map trimNewlines = ls'.map trimNewlines) : n.lines ls = n.lines ls' := by
  rw [← lines_map_trimNewlines h, hls, lines_map_trimNewlines h]

theorem start_lines_congr {ls' : List Text} (h : ls.map trimNewlines = ls'.map trimNewlines) :
    start.lines ls = start.lines ls' := by
  have hstart : start.mode.IsProper := trivial
  exact lines_congr hstart h

end Nesting

/-! ## Balanced texts -/

theorem isBalancedLines_congr {ls ls' : List Text}
    (h : ls.map trimNewlines = ls'.map trimNewlines) :
    isBalancedLines ls = isBalancedLines ls' := by
  unfold isBalancedLines
  rw [Nesting.start_lines_congr h]

theorem isBalanced_flatten {ls : List Text} (h : IsRawLines ls) (hne : [] ∉ ls) :
    isBalanced ls.flatten = isBalancedLines (ls.map content) := by
  unfold isBalanced Text.lines
  rw [Text.rawLines_flatten h hne]

end LinePatch
