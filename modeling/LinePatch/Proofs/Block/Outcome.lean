import LinePatch.Proofs.Block.Nesting
import LinePatch.Proofs.Braces.Lexical
import Mathlib.Data.Nat.Find
import Mathlib.Order.Bounds.Basic

/-!
# Outcomes of the boundaries

What a boundary gives for a block that starts on a given line: the last line, or the reason why
there is none. Each outcome is said by the first or the last line with a property, so that every
document has exactly one, and the search that finds it does not matter.

* `closingLine_of_stops`, `closingLine_of_not_stops`: the search for the line where the nesting is
  closed, with a stop and without.
* `opened_foldl_brace_iff`, `opened_lines_iff`: a block was opened where an opening brace stands in
  code.
* `exists_nextMarkerOutcome`, `exists_braceDepthOutcome`: every document has an outcome.
* `blockEnd_eq_iff_outcome`: a boundary gives the outcome of the document.
-/

namespace LinePatch

open Brace (Lexes)

/-- An opening brace stands in code on line `first` or behind it. -/
def Document.OpensFrom (d : Document) (first : Nat) : Prop :=
  ∃ bs isOpen, Lexes (Text.unlines (d.lines.drop first)) bs isOpen ∧ .opening ∈ bs

namespace Boundary

/-- What the next-marker boundary gives: there is a first line with the marker behind line `first`,
a last lone brace between the two, and the lines up to it are balanced, or one of these fails. -/
inductive NextMarkerOutcome (d : Document) (marker : Text) (first : Nat) :
    Except Failure Nat → Prop
  | found {upper last : Nat} (hupper : IsLeast {u | first < u ∧ d.LineContains marker u} upper)
    (hlast : IsGreatest {e | first < e ∧ e < upper ∧ IsLoneBraceAt d e} last)
    (hbalanced : isBalancedLines ((d.lines.drop first).take (last - first + 1)) = true) :
    NextMarkerOutcome d marker first (.ok last)
  | unbalanced {upper last : Nat}
    (hupper : IsLeast {u | first < u ∧ d.LineContains marker u} upper)
    (hlast : IsGreatest {e | first < e ∧ e < upper ∧ IsLoneBraceAt d e} last)
    (hbalanced : isBalancedLines ((d.lines.drop first).take (last - first + 1)) = false) :
    NextMarkerOutcome d marker first (.error (.unbalanced last))
  | noClosingBrace {upper : Nat}
    (hupper : IsLeast {u | first < u ∧ d.LineContains marker u} upper)
    (hlast : ∀ e, first < e → e < upper → ¬ IsLoneBraceAt d e) :
    NextMarkerOutcome d marker first (.error (.noClosingBrace upper))
  | markerNotFound (hupper : ∀ u, first < u → ¬ d.LineContains marker u) :
    NextMarkerOutcome d marker first (.error (.markerNotFound marker))

/-- What the brace-depth boundary gives: there is a first line after which a closing brace is in
excess or the nesting is closed, or there is none, and a block was opened or not. -/
inductive BraceDepthOutcome (d : Document) (first : Nat) : Except Failure Nat → Prop
  | found {last : Nat}
    (hlast : IsLeast {k | first ≤ k ∧ k < d.length ∧ Stops (d.nestingAfter first k)} last)
    (hunder : (d.nestingAfter first last).underflowed = false) :
    BraceDepthOutcome d first (.ok last)
  | unbalanced {last : Nat}
    (hlast : IsLeast {k | first ≤ k ∧ k < d.length ∧ Stops (d.nestingAfter first k)} last)
    (hunder : (d.nestingAfter first last).underflowed = true) :
    BraceDepthOutcome d first (.error (.unbalanced last))
  | neverClosed (hlast : ∀ k, first ≤ k → k < d.length → ¬ Stops (d.nestingAfter first k))
    (hopens : d.OpensFrom first) : BraceDepthOutcome d first (.error .neverClosed)
  | neverOpened (hlast : ∀ k, first ≤ k → k < d.length → ¬ Stops (d.nestingAfter first k))
    (hopens : ¬ d.OpensFrom first) : BraceDepthOutcome d first (.error .neverOpened)

end Boundary

/-! ## Opening braces in code -/

namespace Nesting

variable {n : Nesting} {bs : List Brace}

/-- A block was opened where there is an opening brace. -/
theorem opened_foldl_brace_iff :
    (bs.foldl brace n).opened = true ↔ n.opened = true ∨ .opening ∈ bs := by
  induction bs generalizing n with
  | nil => simp
  | cons b bs ih =>
    rw [List.foldl_cons, ih]
    cases b with
    | opening => simp [brace]
    | closing => simp [brace]

/-- A scan of lines opens a block where an opening brace stands in code. -/
theorem opened_lines_iff {ls : List Text} (hls : ∀ l ∈ ls, '\n' ∉ l) :
    (start.lines ls).opened = true ↔
      ∃ bs isOpen, Lexes (Text.unlines ls) bs isOpen ∧ .opening ∈ bs := by
  obtain ⟨bs, hlexes, hlines⟩ := exists_lexesFrom (n := .start) trivial rfl hls
  have hopened : (start.lines ls).opened = true ↔ .opening ∈ bs := by
    rw [hlines]
    simp [opened_foldl_brace_iff, start]
  rw [hopened]
  constructor
  · exact fun h => ⟨bs, _, hlexes.lexes, h⟩
  · rintro ⟨bs', isOpen, hlexes', h⟩
    rwa [(hlexes'.unique hlexes.lexes).1] at h

end Nesting

namespace Boundary

variable {d : Document} {marker : Text} {first upper last : Nat} {r : Except Failure Nat}

/-! ## The next marker -/

theorem upperBound_eq_some_iff (hmarker : marker ≠ []) :
    upperBound d first marker = some upper ↔
      IsLeast {u | first < u ∧ d.LineContains marker u} upper := by
  rw [upperBound, Document.locateFrom_eq_some_iff]
  constructor
  · rintro ⟨-, hlt, hupper, hfirst⟩
    refine ⟨⟨hlt, hupper⟩, fun u hu => ?_⟩
    by_contra hnot
    exact hfirst u hu.1 (Nat.lt_of_not_le hnot) hu.2
  · rintro ⟨⟨hlt, hupper⟩, hleast⟩
    refine ⟨hmarker, hlt, hupper, fun u hu hult hin => ?_⟩
    exact absurd (hleast ⟨hu, hin⟩) (Nat.not_le_of_lt hult)

theorem lastLoneBrace_eq_some_iff_isGreatest :
    lastLoneBrace d first upper = some last ↔
      IsGreatest {e | first < e ∧ e < upper ∧ IsLoneBraceAt d e} last := by
  rw [lastLoneBrace_eq_some_iff]
  constructor
  · rintro ⟨hlt, hupper, hlone, hlast⟩
    refine ⟨⟨hlt, hupper, hlone⟩, fun e he => ?_⟩
    by_contra hnot
    exact hlast e (Nat.lt_of_not_le hnot) he.2.1 he.2.2
  · rintro ⟨⟨hlt, hupper, hlone⟩, hgreatest⟩
    refine ⟨hlt, hupper, hlone, fun e he heu hlone' => ?_⟩
    exact absurd (hgreatest ⟨Nat.lt_trans hlt he, heu, hlone'⟩) (Nat.not_le_of_lt he)

theorem line?_any_isLoneBrace_iff {i : Nat} :
    (d.line? i).any isLoneBrace = true ↔ IsLoneBraceAt d i := by
  simp [IsLoneBraceAt, Document.line?, Option.any_eq_true]

theorem lastLoneBrace_eq_none_iff :
    lastLoneBrace d first upper = none ↔
      ∀ e, first < e → e < upper → ¬ IsLoneBraceAt d e := by
  rw [lastLoneBrace, List.find?_eq_none]
  simp only [List.mem_reverse, List.mem_range'_1, line?_any_isLoneBrace_iff]
  constructor
  · intro h e he heu
    exact h e ⟨he, by omega⟩
  · rintro h e ⟨he, heu⟩
    exact h e he (by omega)

/-- An outcome is what the boundary gives. -/
theorem NextMarkerOutcome.blockEnd_eq (hd : Text.IsRawLines d.rawLines) (hne : [] ∉ d.rawLines)
    (hmarker : marker ≠ []) (h : NextMarkerOutcome d marker first r) :
    (nextMarker marker).blockEnd d first = r := by
  -- The lines up to a lone brace in front of the marker have a text, which is judged by its lines.
  have htext : ∀ {upper last}, IsLeast {u | first < u ∧ d.LineContains marker u} upper →
      IsGreatest {e | first < e ∧ e < upper ∧ IsLoneBraceAt d e} last →
      ∃ text, d.sliceText? first (last + 1) = some text ∧
        isBalanced text = isBalancedLines ((d.lines.drop first).take (last - first + 1)) := by
    intro upper last hupper hlast
    obtain ⟨hlt, hlu, -⟩ := hlast.1
    have hlen := hupper.1.2.lt_length
    have hslice := Document.sliceText?_eq_some_iff.mpr
      ⟨show first ≤ last + 1 by omega, show last + 1 ≤ d.length by omega, rfl⟩
    refine ⟨_, hslice, ?_⟩
    rw [isBalanced_sliceText? hd hne hslice, show last + 1 - first = last - first + 1 by omega]
  simp only [nextMarker]
  cases h with
  | found hupper hlast hbalanced =>
    obtain ⟨text, hslice, heq⟩ := htext hupper hlast
    simp only [(upperBound_eq_some_iff hmarker).mpr hupper,
      lastLoneBrace_eq_some_iff_isGreatest.mpr hlast, hslice, heq, hbalanced, if_true]
  | unbalanced hupper hlast hbalanced =>
    obtain ⟨text, hslice, heq⟩ := htext hupper hlast
    simp only [(upperBound_eq_some_iff hmarker).mpr hupper,
      lastLoneBrace_eq_some_iff_isGreatest.mpr hlast, hslice, heq, hbalanced, Bool.false_eq_true,
      if_false]
  | noClosingBrace hupper hlast =>
    simp only [(upperBound_eq_some_iff hmarker).mpr hupper, lastLoneBrace_eq_none_iff.mpr hlast]
  | markerNotFound hupper =>
    simp only [upperBound, (Document.locateFrom_eq_none_iff hmarker).mpr hupper]

/-- Every document has an outcome. -/
theorem exists_nextMarkerOutcome (d : Document) (hmarker : marker ≠ []) (first : Nat) :
    ∃ r, NextMarkerOutcome d marker first r := by
  cases hu : upperBound d first marker with
  | none => exact ⟨_, .markerNotFound ((Document.locateFrom_eq_none_iff hmarker).mp hu)⟩
  | some upper =>
    have hupper := (upperBound_eq_some_iff hmarker).mp hu
    cases hl : lastLoneBrace d first upper with
    | none => exact ⟨_, .noClosingBrace hupper (lastLoneBrace_eq_none_iff.mp hl)⟩
    | some last =>
      have hlast := lastLoneBrace_eq_some_iff_isGreatest.mp hl
      cases hb : isBalancedLines ((d.lines.drop first).take (last - first + 1)) with
      | true => exact ⟨_, .found hupper hlast hb⟩
      | false => exact ⟨_, .unbalanced hupper hlast hb⟩

/-! ## The brace depth -/

section ClosingLine

variable {n : Nesting} {ls : List Text}

/-- The search of the closing line ends at its first stop. -/
theorem closingLine_of_stops (i : Nat) {k : Nat} (hk : k < ls.length)
    (hstops : Stops (n.lines (ls.take (k + 1))))
    (hfirst : ∀ j < k, ¬ Stops (n.lines (ls.take (j + 1)))) :
    closingLine n i ls =
      if (n.lines (ls.take (k + 1))).underflowed then .error (.unbalanced (i + k))
      else .ok (i + k) := by
  induction ls generalizing n i k with
  | nil => exact absurd hk (Nat.not_lt_zero k)
  | cons l ls ih =>
    simp only [closingLine]
    cases k with
    | zero =>
      have hline : n.lines ((l :: ls).take (0 + 1)) = n.line l := rfl
      rw [hline] at hstops ⊢
      rcases hstops with hu | hc
      · simp [hu]
      · simp [hc]
    | succ k =>
      have hno : ¬ Stops (n.line l) := hfirst 0 (Nat.succ_pos k)
      obtain ⟨hu, hc⟩ := not_or.mp hno
      rw [if_neg hu, if_neg hc, ih (n := n.line l) (i + 1) (Nat.lt_of_succ_lt_succ hk) hstops
        fun j hj => hfirst (j + 1) (Nat.succ_lt_succ hj)]
      have hindex : i + 1 + k = i + (k + 1) := by omega
      rw [hindex]
      rfl

/-- The search of the closing line has no stop. -/
theorem closingLine_of_not_stops (i : Nat)
    (hno : ∀ j < ls.length, ¬ Stops (n.lines (ls.take (j + 1)))) :
    closingLine n i ls =
      .error (if (n.lines ls).opened then .neverClosed else .neverOpened) := by
  induction ls generalizing n i with
  | nil => rfl
  | cons l ls ih =>
    have hline : ¬ Stops (n.line l) := hno 0 (Nat.succ_pos _)
    obtain ⟨hu, hc⟩ := not_or.mp hline
    simp only [closingLine]
    rw [if_neg hu, if_neg hc]
    exact ih (n := n.line l) (i + 1) fun j hj => hno (j + 1) (Nat.succ_lt_succ hj)

end ClosingLine

theorem blockEnd_braceDepth_of_stops
    (hlast : IsLeast {k | first ≤ k ∧ k < d.length ∧ Stops (d.nestingAfter first k)} last) :
    braceDepth.blockEnd d first =
      if (d.nestingAfter first last).underflowed then .error (.unbalanced last) else .ok last := by
  obtain ⟨⟨hle, hlt, hstops⟩, hleast⟩ := hlast
  have hlen : (d.lines.drop first).length = d.length - first := by simp
  have hfirst : ∀ j < last - first,
      ¬ Stops (Nesting.start.lines ((d.lines.drop first).take (j + 1))) := by
    intro j hj hstops
    have hj' : Stops (d.nestingAfter first (first + j)) := by
      rwa [Document.nestingAfter, Nat.add_sub_cancel_left]
    have := hleast ⟨Nat.le_add_right first j, by omega, hj'⟩
    omega
  have hend := closingLine_of_stops first (by omega : last - first < (d.lines.drop first).length)
    hstops hfirst
  rwa [Nat.add_sub_cancel' hle] at hend

theorem blockEnd_braceDepth_of_not_stops (hd : Text.IsRawLines d.rawLines)
    (hno : ∀ k, first ≤ k → k < d.length → ¬ Stops (d.nestingAfter first k)) :
    (d.OpensFrom first → braceDepth.blockEnd d first = .error .neverClosed) ∧
      (¬ d.OpensFrom first → braceDepth.blockEnd d first = .error .neverOpened) := by
  have hlen : (d.lines.drop first).length = d.length - first := by simp
  have hend : braceDepth.blockEnd d first = _ := closingLine_of_not_stops first fun j hj => by
    have := hno (first + j) (Nat.le_add_right first j) (by omega)
    rwa [Document.nestingAfter, Nat.add_sub_cancel_left] at this
  have hopened : (Nesting.start.lines (d.lines.drop first)).opened = true ↔ d.OpensFrom first := by
    refine Nesting.opened_lines_iff fun l hl => ?_
    obtain ⟨i, hi⟩ := List.mem_iff_getElem?.mp (List.mem_of_mem_drop hl)
    exact Document.newline_not_mem_line hd hi
  rw [hend]
  exact ⟨fun h => by rw [if_pos (hopened.mpr h)], fun h => by rw [if_neg (mt hopened.mp h)]⟩

/-- An outcome is what the boundary gives. -/
theorem BraceDepthOutcome.blockEnd_eq (hd : Text.IsRawLines d.rawLines)
    (h : BraceDepthOutcome d first r) : braceDepth.blockEnd d first = r := by
  cases h with
  | found hlast hunder => rw [blockEnd_braceDepth_of_stops hlast, if_neg (by simp [hunder])]
  | unbalanced hlast hunder => rw [blockEnd_braceDepth_of_stops hlast, if_pos hunder]
  | neverClosed hlast hopens => exact (blockEnd_braceDepth_of_not_stops hd hlast).1 hopens
  | neverOpened hlast hopens => exact (blockEnd_braceDepth_of_not_stops hd hlast).2 hopens

/-- Every document has an outcome. -/
theorem exists_braceDepthOutcome (d : Document) (first : Nat) :
    ∃ r, BraceDepthOutcome d first r := by
  by_cases hex : ∃ k, first ≤ k ∧ k < d.length ∧ Stops (d.nestingAfter first k)
  · classical
    have hlast : IsLeast {k | first ≤ k ∧ k < d.length ∧ Stops (d.nestingAfter first k)}
        (Nat.find hex) := ⟨Nat.find_spec hex, fun k hk => Nat.find_min' hex hk⟩
    cases hu : (d.nestingAfter first (Nat.find hex)).underflowed with
    | true => exact ⟨_, .unbalanced hlast hu⟩
    | false => exact ⟨_, .found hlast hu⟩
  · have hno : ∀ k, first ≤ k → k < d.length → ¬ Stops (d.nestingAfter first k) :=
      fun k hle hlt hstops => hex ⟨k, hle, hlt, hstops⟩
    by_cases hopens : d.OpensFrom first
    · exact ⟨_, .neverClosed hno hopens⟩
    · exact ⟨_, .neverOpened hno hopens⟩

end Boundary

open Boundary (NextMarkerOutcome BraceDepthOutcome)

/-- **The outcomes of the boundaries.** On every document and from every line, each of the two
boundaries gives the last line or the failure that the outcome of the document says, and no
other. -/
theorem blockEnd_eq_iff_outcome (t : Text) (first : Nat) (r : Except Boundary.Failure Nat) :
    (∀ marker, marker ≠ [] →
      ((Boundary.nextMarker marker).blockEnd (.ofText t) first = r ↔
        NextMarkerOutcome (.ofText t) marker first r)) ∧
    (Boundary.braceDepth.blockEnd (.ofText t) first = r ↔
      BraceDepthOutcome (.ofText t) first r) := by
  have hd : Text.IsRawLines (Document.ofText t).rawLines := Document.isRawLines_ofText t
  have hne : [] ∉ (Document.ofText t).rawLines := (Text.isRawLines_rawLines t).2
  refine ⟨fun marker hmarker => ⟨fun h => ?_, (·.blockEnd_eq hd hne hmarker)⟩,
    fun h => ?_, (·.blockEnd_eq hd)⟩
  · obtain ⟨r', houtcome⟩ := Boundary.exists_nextMarkerOutcome (.ofText t) hmarker first
    rwa [← h, houtcome.blockEnd_eq hd hne hmarker]
  · obtain ⟨r', houtcome⟩ := Boundary.exists_braceDepthOutcome (.ofText t) first
    rwa [← h, houtcome.blockEnd_eq hd]

/-- The last lone brace in front of the marker closes an inner block, and the brace that closes the
outer one has a comment behind it. -/
theorem blockEnd_eq_iff_outcome_inner_block :
    let d : Document := .ofText "f\x7b\n\x7b\n\x7d\n\x7d//\n#".toList
    "#".toList ≠ [] ∧ NextMarkerOutcome d "#".toList 0 (.error (.unbalanced 2)) ∧
      BraceDepthOutcome d 0 (.ok 3) :=
  have hmarker : "#".toList ≠ [] := by decide
  ⟨hmarker, ((blockEnd_eq_iff_outcome _ 0 _).1 _ hmarker).mp (by rfl),
    (blockEnd_eq_iff_outcome _ 0 _).2.mp (by rfl)⟩

end LinePatch
