import LinePatch.Proofs.Block.Boundary
import LinePatch.Proofs.Document.Lines

/-!
# The nesting over a block

What a scan of a block sees that starts on its first line. No closing brace is ever in excess, and
after the last line all that was opened is closed.

The brace-depth boundary stops where this is so for the first time. The next-marker boundary looks
for a lone brace from the back, and then only asks whether the lines up to it are balanced: its
block may hold several blocks, one behind the other.

* `Nesting.lowest_lines_le`: the step, for the lowest depth.
* `open_of_isBalancedLines`: in front of a lone brace that ends balanced lines, one brace is open.
* `extract_nesting`: the nesting over a block, for either boundary.
* `block_nesting`: the same, and how the blocks of the two boundaries differ.
-/

namespace LinePatch

open Text (IsRawLines isBlank trim)

/-! ## The lowest depth -/

namespace Nesting

variable {n : Nesting} {l : Text} {ls : List Text}

theorem lowest_foldl_brace_le (n : Nesting) (bs : List Brace) :
    (bs.foldl brace n).lowest ≤ n.lowest := by
  induction bs generalizing n with
  | nil => exact Int.le_refl _
  | cons b bs ih =>
    refine Int.le_trans (ih (n.brace b)) ?_
    cases b with
    | opening => exact Int.le_refl _
    | closing => exact Int.min_le_left _ _

theorem lowest_line_le (n : Nesting) (l : Text) : (n.line l).lowest ≤ n.lowest :=
  lowest_foldl_brace_le n _

/-- The lowest depth never rises again. -/
theorem lowest_lines_le (n : Nesting) (ls : List Text) : (n.lines ls).lowest ≤ n.lowest := by
  induction ls generalizing n with
  | nil => exact Int.le_refl _
  | cons l ls ih => exact Int.le_trans (ih (n.line l)) (lowest_line_le n l)

theorem lines_append (n : Nesting) (ls ls' : List Text) :
    n.lines (ls ++ ls') = (n.lines ls).lines ls' := List.foldl_append

/-- If no closing brace is in excess after some lines, none was on the way. -/
theorem underflowed_take (h : (n.lines ls).underflowed = false) (k : Nat) :
    (n.lines (ls.take k)).underflowed = false := by
  rw [← List.take_append_drop k ls, lines_append] at h
  have := lowest_lines_le (n.lines (ls.take k)) (ls.drop k)
  simp only [underflowed, decide_eq_false_iff_not] at h ⊢
  omega

/-! ## What was opened -/

theorem opened_brace (h : 0 < n.depth → n.opened = true) (b : Brace)
    (hb : 0 < (n.brace b).depth) : (n.brace b).opened = true := by
  cases b with
  | opening => rfl
  | closing =>
    apply h
    simp only [brace] at hb
    omega

theorem opened_foldl_brace (h : 0 < n.depth → n.opened = true) (bs : List Brace)
    (hb : 0 < (bs.foldl brace n).depth) : (bs.foldl brace n).opened = true := by
  induction bs generalizing n with
  | nil => exact h hb
  | cons b bs ih => exact ih (opened_brace h b) hb

/-- Where the depth is positive, a block was opened. -/
theorem opened_lines (h : 0 < n.depth → n.opened = true) (ls : List Text)
    (hl : 0 < (n.lines ls).depth) : (n.lines ls).opened = true := by
  induction ls generalizing n with
  | nil => exact h hl
  | cons l ls ih => exact ih (n := n.line l) (opened_foldl_brace h _) hl

end Nesting

/-! ## Lone braces -/

namespace Brace

variable {mode : Mode} {l a : Text}

/-- A blank character holds no brace and opens and closes nothing. -/
theorem codeBraces_cons_of_isBlank (h : mode.IsProper) {x : Char} (hx : isBlank x = true)
    (l : Text) : codeBraces mode (x :: l) = codeBraces mode l := by
  have hne : ∀ c, isBlank c = false → x ≠ c := by
    rintro c hc rfl
    rw [hx] at hc
    cases hc
  have hquotes : ¬ (x = '"' ∨ x = '\'' ∨ x = '`') := by
    simp only [not_or]
    exact ⟨hne _ (by decide), hne _ (by decide), hne _ (by decide)⟩
  cases mode with
  | code =>
    rw [codeBraces, if_neg hquotes]
    · exact fun _ hx' => absurd hx' (hne '/' (by decide))
    · exact fun _ hx' => absurd hx' (hne '/' (by decide))
    · exact hne _ (by decide)
    · exact hne _ (by decide)
  | comment =>
    rw [codeBraces]
    exact fun _ hx' => absurd hx' (hne '*' (by decide))
  | literal quote =>
    have hquote : x ≠ quote := by
      rintro rfl
      exact hquotes h
    rw [codeBraces, if_neg hquote]
    · exact fun _ _ hx' => absurd hx' (hne '\\' (by decide))
    · exact fun hx' => absurd hx' (hne '\\' (by decide))

theorem codeBraces_append_of_isBlank (h : mode.IsProper) (ha : ∀ x ∈ a, isBlank x = true)
    (l : Text) : codeBraces mode (a ++ l) = codeBraces mode l := by
  induction a with
  | nil => rfl
  | cons x a ih =>
    rw [List.cons_append, codeBraces_cons_of_isBlank h (ha x List.mem_cons_self),
      ih fun y hy => ha y (List.mem_cons_of_mem x hy)]

/-- A lone brace closes a block in code, and nothing inside of a comment or a literal. -/
theorem codeBraces_of_isLoneBrace (h : mode.IsProper) (hl : Boundary.isLoneBrace l = true) :
    codeBraces mode l = (if mode = .code then [.closing] else [], mode) := by
  obtain ⟨a, b, ha, hb, hab⟩ := Text.exists_append_trim l
  have htrim : trim l = ['\x7d'] := by simpa [Boundary.isLoneBrace] using hl
  have hblank : codeBraces mode b = ([], mode) := by
    rw [← List.append_nil b, codeBraces_append_of_isBlank h hb, codeBraces]
  rw [hab, htrim, List.append_assoc, codeBraces_append_of_isBlank h ha, List.singleton_append]
  cases mode with
  | code => rw [codeBraces, hblank, if_pos rfl]
  | comment =>
    rw [codeBraces, hblank, if_neg (by simp)]
    simp
  | literal quote =>
    have hquote : '\x7d' ≠ quote := by rcases h with rfl | rfl | rfl <;> decide
    rw [codeBraces, if_neg hquote, hblank, if_neg (by simp)]
    · simp
    · simp

/-- What is open at the end of a line is open at the start of the next. -/
theorem Mode.endLine_endLine (mode : Mode) : mode.endLine.endLine = mode.endLine := by
  fun_cases Mode.endLine mode with
  | case1 => rfl
  | case2 mode h => rw [Mode.endLine]; exact h

end Brace

namespace Nesting

variable {n : Nesting} {l : Text} {ls : List Text}

theorem isProper_lines (h : n.mode.IsProper) (ls : List Text) : (n.lines ls).mode.IsProper := by
  induction ls generalizing n with
  | nil => exact h
  | cons l ls ih => exact ih (n := n.line l) (isProper_line h)

theorem endLine_lines (h : n.mode.endLine = n.mode) (ls : List Text) :
    (n.lines ls).mode.endLine = (n.lines ls).mode := by
  induction ls generalizing n with
  | nil => exact h
  | cons l ls ih => exact ih (n := n.line l) (Brace.Mode.endLine_endLine _)

/-- Where a lone brace leaves no comment or literal open, it stands in code and closes one brace. -/
theorem of_isLoneBrace (hproper : n.mode.IsProper) (hend : n.mode.endLine = n.mode)
    (hl : Boundary.isLoneBrace l = true) (hmode : (n.line l).inLiteral = false) :
    n.mode = .code ∧ (n.line l).opened = n.opened ∧ (n.line l).depth = n.depth - 1 := by
  have hline := Brace.codeBraces_of_isLoneBrace hproper hl
  by_cases hcode : n.mode = .code
  · rw [if_pos hcode] at hline
    refine ⟨hcode, ?_⟩
    simp only [line, hline, List.foldl_cons, List.foldl_nil, brace, and_self]
  · -- The brace is a part of what is open, which then stays open.
    have hmode' : (n.line l).mode = n.mode := by simp only [line, hline, hend]
    simp only [inLiteral, hmode', bne_eq_false_iff_eq] at hmode
    exact absurd hmode hcode

/-- The same for the last of some lines. -/
theorem start_lines_concat (hl : Boundary.isLoneBrace l = true)
    (hmode : (start.lines (ls ++ [l])).inLiteral = false) :
    (start.lines ls).mode = .code ∧
      (start.lines (ls ++ [l])).opened = (start.lines ls).opened ∧
      (start.lines (ls ++ [l])).depth = (start.lines ls).depth - 1 := by
  have hproper : start.mode.IsProper := trivial
  rw [lines_append] at hmode ⊢
  exact of_isLoneBrace (isProper_lines hproper ls) (endLine_lines rfl ls) hl hmode

end Nesting

section LoneBrace

variable {ls : List Text} {l : Text}

/-- In front of a lone brace that ends balanced lines, one brace is open, and no comment or
literal. -/
theorem open_of_isBalancedLines (hl : Boundary.isLoneBrace l = true)
    (h : isBalancedLines (ls ++ [l]) = true) :
    (Nesting.start.lines ls).mode = .code ∧ (Nesting.start.lines ls).opened = true ∧
      (Nesting.start.lines ls).depth = 1 := by
  simp only [isBalancedLines, Bool.and_eq_true, Bool.not_eq_true', beq_iff_eq] at h
  obtain ⟨⟨-, hdepth⟩, hmode⟩ := h
  obtain ⟨hcode, -, hdepth'⟩ := Nesting.start_lines_concat hl hmode
  have hopened : 0 < Nesting.start.depth → Nesting.start.opened = true :=
    fun hpos => absurd hpos (Int.lt_irrefl 0)
  exact ⟨hcode, Nesting.opened_lines hopened ls (by omega), by omega⟩

/-- Balanced lines, the last of which is a lone brace, have opened a block and closed it. -/
theorem closed_of_isBalancedLines (hl : Boundary.isLoneBrace l = true)
    (h : isBalancedLines (ls ++ [l]) = true) :
    (Nesting.start.lines (ls ++ [l])).underflowed = false ∧
      (Nesting.start.lines (ls ++ [l])).closed = true := by
  obtain ⟨-, hopened, -⟩ := open_of_isBalancedLines hl h
  simp only [isBalancedLines, Bool.and_eq_true, Bool.not_eq_true', beq_iff_eq] at h
  obtain ⟨⟨hunder, hdepth⟩, hmode⟩ := h
  obtain ⟨-, hopened', -⟩ := Nesting.start_lines_concat hl hmode
  refine ⟨hunder, ?_⟩
  rw [Nesting.closed, hopened', hopened, hdepth]
  rfl

end LoneBrace

/-! ## Blocks -/

/-- The nesting after line `k` of a scan that starts with line `first`. -/
def Document.nestingAfter (d : Document) (first k : Nat) : Nesting :=
  Nesting.start.lines ((d.lines.drop first).take (k - first + 1))

section Blocks

variable {d : Document} {first last : Nat}

theorem Document.nestingAfter_eq_take {k : Nat} (hk : first ≤ k) (hle : k ≤ last) :
    d.nestingAfter first k =
      Nesting.start.lines
        (((d.lines.drop first).take (last - first + 1)).take (k - first + 1)) := by
  rw [nestingAfter, List.take_take, Nat.min_eq_left (by omega)]

/-- Where no closing brace is in excess after the last line, none is after any line before it. -/
theorem underflowed_nestingAfter (h : (d.nestingAfter first last).underflowed = false) {k : Nat}
    (hk : first ≤ k) (hle : k ≤ last) : (d.nestingAfter first k).underflowed = false := by
  rw [Document.nestingAfter_eq_take hk hle]
  exact Nesting.underflowed_take h _

namespace Boundary

theorem nestingAfter_of_braceDepth (h : braceDepth.blockEnd d first = .ok last) :
    (d.nestingAfter first last).underflowed = false ∧ (d.nestingAfter first last).closed = true ∧
      ∀ k, first ≤ k → k < last → (d.nestingAfter first k).closed = false := by
  obtain ⟨hle, -, hunder, hclosed, hfirst⟩ := blockEnd_braceDepth_iff.mp h
  refine ⟨hunder, hclosed, fun k hk hlt => ?_⟩
  rw [← Bool.not_eq_true]
  exact fun hk' => hfirst (k - first) (by omega) (.inr hk')

/-- The block of the next-marker boundary ends in a lone brace, which balances it. -/
theorem exists_concat_of_nextMarker (hd : IsRawLines d.rawLines) (hne : [] ∉ d.rawLines)
    {marker : Text} (h : (nextMarker marker).blockEnd d first = .ok last) :
    first < last ∧ ∃ l, d.lines[last]? = some l ∧ isLoneBrace l = true ∧
      (d.lines.drop first).take (last - first + 1) =
        (d.lines.drop first).take (last - first) ++ [l] ∧
      isBalancedLines ((d.lines.drop first).take (last - first) ++ [l]) = true := by
  obtain ⟨upper, text, -, hlast, htext, hbal⟩ := blockEnd_nextMarker_iff.mp h
  obtain ⟨hlt, -, ⟨l, hl, hlone⟩, -⟩ := lastLoneBrace_eq_some_iff.mp hlast
  rw [isBalanced_sliceText? hd hne htext, show last + 1 - first = last - first + 1 by omega] at hbal
  have hlines : (d.lines.drop first).take (last - first + 1) =
      (d.lines.drop first).take (last - first) ++ [l] := by
    rw [List.take_add_one, List.getElem?_drop, Nat.add_sub_cancel' (Nat.le_of_lt hlt), hl]
    rfl
  rw [hlines] at hbal
  exact ⟨hlt, l, hl, hlone, hlines, hbal⟩

theorem nestingAfter_of_nextMarker (hd : IsRawLines d.rawLines) (hne : [] ∉ d.rawLines)
    {marker : Text} (h : (nextMarker marker).blockEnd d first = .ok last) :
    (d.nestingAfter first last).underflowed = false ∧
      (d.nestingAfter first last).closed = true := by
  obtain ⟨-, l, -, hlone, hlines, hbal⟩ := exists_concat_of_nextMarker hd hne h
  rw [Document.nestingAfter, hlines]
  exact closed_of_isBalancedLines hlone hbal

end Boundary

/-- No closing brace is in excess in a block, and all that was opened in it is closed at its end. -/
theorem extract_nesting (hd : IsRawLines d.rawLines) (hne : [] ∉ d.rawLines)
    {kind : Boundary.Kind} {marker : Option Text} {boundary : Boundary} {declaration : Text}
    {block : Block} (hb : kind.boundary? marker = some boundary)
    (hx : d.extract declaration boundary = .ok block) :
    (d.nestingAfter block.first block.last).underflowed = false ∧
      (d.nestingAfter block.first block.last).closed = true := by
  obtain ⟨-, hend, -⟩ := extract_eq_ok_iff.mp hx
  rcases Boundary.Kind.boundary?_eq_some hb with ⟨m, -, -, -, rfl⟩ | ⟨-, rfl⟩
  · exact Boundary.nestingAfter_of_nextMarker hd hne hend
  · obtain ⟨hunder, hclosed, -⟩ := Boundary.nestingAfter_of_braceDepth hend
    exact ⟨hunder, hclosed⟩

/-- The last line of a block is not empty. -/
theorem exists_last_line {kind : Boundary.Kind} {marker : Option Text} {boundary : Boundary}
    {declaration : Text} {block : Block} (hb : kind.boundary? marker = some boundary)
    (hx : d.extract declaration boundary = .ok block) :
    ∃ l, d.lines[block.last]? = some l ∧ l ≠ [] := by
  obtain ⟨-, hend, hlt⟩ := extract_eq_ok_iff.mp hx
  rcases Boundary.Kind.boundary?_eq_some hb with ⟨m, -, -, -, rfl⟩ | ⟨-, rfl⟩
  · obtain ⟨upper, text, -, hlast, -⟩ := Boundary.blockEnd_nextMarker_iff.mp hend
    obtain ⟨-, -, ⟨l, hl, hlone⟩, -⟩ := Boundary.lastLoneBrace_eq_some_iff.mp hlast
    refine ⟨l, hl, ?_⟩
    rintro rfl
    cases hlone
  · have hl := List.getElem?_eq_getElem (show block.last < d.lines.length by simpa using hlt)
    refine ⟨_, hl, fun hnil => ?_⟩
    rw [hnil] at hl
    obtain ⟨-, hclosed, hopen⟩ := Boundary.nestingAfter_of_braceDepth hend
    have hle := block.first_le_last
    -- The nesting is closed before an empty line if it is closed behind it.
    have hbefore : (Nesting.start.lines
        ((d.lines.drop block.first).take (block.last - block.first))).closed = true := by
      rw [Document.nestingAfter, List.take_add_one, List.getElem?_drop, Nat.add_sub_cancel' hle, hl,
        Nesting.lines_append] at hclosed
      simpa [Nesting.lines, Nesting.line, Nesting.closed, Brace.codeBraces] using hclosed
    by_cases hfirst : block.last = block.first
    · rw [hfirst, Nat.sub_self] at hbefore
      cases hbefore
    · have := hopen (block.last - 1) (by omega) (by omega)
      rw [Document.nestingAfter,
        show block.last - 1 - block.first + 1 = block.last - block.first by omega, hbefore] at this
      cases this

/-- Of two blocks of one declaration, that of the brace depth ends first. They are one block if
nothing is closed in the other before its last line. -/
theorem extract_braceDepth_le (hd : IsRawLines d.rawLines) (hne : [] ∉ d.rawLines)
    {marker declaration : Text} {outer inner : Block}
    (hx : d.extract declaration (.nextMarker marker) = .ok outer)
    (hx' : d.extract declaration .braceDepth = .ok inner) :
    inner.first = outer.first ∧ inner.last ≤ outer.last ∧
      (inner = outer ↔ ∀ k, outer.first ≤ k → k < outer.last →
        (d.nestingAfter outer.first k).closed = false) := by
  obtain ⟨hl, hend, -⟩ := extract_eq_ok_iff.mp hx
  obtain ⟨hl', hend', -⟩ := extract_eq_ok_iff.mp hx'
  have hfirst : inner.first = outer.first := Option.some.inj (hl'.symm.trans hl)
  rw [hfirst] at hend'
  obtain ⟨-, hclosed⟩ := Boundary.nestingAfter_of_nextMarker hd hne hend
  obtain ⟨-, hclosed', hopen'⟩ := Boundary.nestingAfter_of_braceDepth hend'
  have hle : inner.last ≤ outer.last := by
    by_contra hlt
    have := hopen' outer.last outer.first_le_last (by omega)
    rw [hclosed] at this
    cases this
  refine ⟨hfirst, hle, fun heq => ?_, fun hopen => ?_⟩
  · rwa [heq] at hopen'
  · have hlast : inner.last = outer.last := by
      by_contra hlt
      have := hopen inner.last (by have := inner.first_le_last; omega) (by omega)
      rw [hclosed'] at this
      cases this
    cases inner
    cases outer
    simp_all

end Blocks

/-- **The nesting over a block.** A scan that starts on the first line of a block meets no closing
brace in excess, and after the last line all that was opened is closed. Under the brace-depth
boundary this is so after no earlier line. Under the next-marker boundary it may be, and if so the
brace-depth boundary ends the block of the same declaration earlier. -/
theorem block_nesting (t declaration : Text) :
    (∀ (kind : Boundary.Kind) (marker : Option Text) (boundary : Boundary) (block : Block),
      kind.boundary? marker = some boundary →
      (Document.ofText t).extract declaration boundary = .ok block →
      (∀ k, block.first ≤ k → k ≤ block.last →
        ((Document.ofText t).nestingAfter block.first k).underflowed = false) ∧
      ((Document.ofText t).nestingAfter block.first block.last).closed = true ∧
      (kind = .braceDepth → ∀ k, block.first ≤ k → k < block.last →
        ((Document.ofText t).nestingAfter block.first k).closed = false)) ∧
    ∀ (marker : Text) (outer inner : Block),
      (Document.ofText t).extract declaration (.nextMarker marker) = .ok outer →
      (Document.ofText t).extract declaration .braceDepth = .ok inner →
      inner.first = outer.first ∧ inner.last ≤ outer.last ∧
        (inner = outer ↔ ∀ k, outer.first ≤ k → k < outer.last →
          ((Document.ofText t).nestingAfter outer.first k).closed = false) := by
  obtain ⟨hd, hne⟩ := Text.isRawLines_rawLines t
  refine ⟨fun kind marker boundary block hb hx => ?_, fun marker outer inner hx hx' =>
    extract_braceDepth_le hd hne hx hx'⟩
  obtain ⟨hunder, hclosed⟩ := extract_nesting hd hne hb hx
  refine ⟨fun k hk hle => underflowed_nestingAfter hunder hk hle, hclosed, ?_⟩
  rintro rfl
  cases hb
  obtain ⟨-, hend, -⟩ := extract_eq_ok_iff.mp hx
  exact (Boundary.nestingAfter_of_braceDepth hend).2.2

/-- A block with another one inside, and a brace in a literal. -/
theorem block_nesting_inner_block :
    let t := "f\x7b\n\"\x7d\"\n\x7b\n\x7d\n\x7d\n#".toList
    let d : Document := .ofText t
    let block : Block := ⟨0, 4, by decide⟩
    d.extract "f".toList (.nextMarker "#".toList) = .ok block ∧
      d.extract "f".toList .braceDepth = .ok block ∧
      (∀ k, block.first ≤ k → k ≤ block.last →
        (d.nestingAfter block.first k).underflowed = false) ∧
      (d.nestingAfter block.first block.last).closed = true ∧
      (∀ k, block.first ≤ k → k < block.last →
        (d.nestingAfter block.first k).closed = false) := by
  intro t d block
  have hx : d.extract "f".toList (.nextMarker "#".toList) = .ok block := by rfl
  have hx' : d.extract "f".toList .braceDepth = .ok block := by rfl
  obtain ⟨hunder, hclosed, -⟩ := (block_nesting t "f".toList).1 .nextMarker (some "#".toList)
    (.nextMarker "#".toList) block rfl hx
  obtain ⟨-, -, hsame⟩ := (block_nesting t "f".toList).2 "#".toList block block hx hx'
  exact ⟨hx, hx', hunder, hclosed, hsame.mp rfl⟩

/-- Two blocks, one behind the other: the next-marker boundary takes both for the block of the
first, though all that was opened is closed after its second line. -/
theorem nextMarker_spans_two_blocks :
    let d : Document := .ofText "a\x7b\n\x7d\nb\x7b\n\x7d\n#\n".toList
    d.extract "a".toList (.nextMarker "#".toList) = .ok ⟨0, 3, by decide⟩ ∧
      d.extract "a".toList .braceDepth = .ok ⟨0, 1, by decide⟩ ∧
      (d.nestingAfter 0 1).closed = true := by
  exact ⟨by rfl, by rfl, by rfl⟩

end LinePatch
