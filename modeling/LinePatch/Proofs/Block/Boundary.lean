import LinePatch.Block.Extract
import LinePatch.Proofs.Braces
import LinePatch.Proofs.Document.Lines
import LinePatch.Proofs.Document.Search

/-!
# Exact results of the boundaries

When a boundary names a last line, when a block is extracted, and when a text spans a whole block.

* `blockEnd_nextMarker_iff`: the last lone `}` before the first marker, with balanced lines.
* `blockEnd_braceDepth_iff`: the first line after which the nesting is closed.
* `extract_eq_ok_iff`: a block is extracted where its declaration and its boundary are found.
* `extract_congr`: the extraction sees nothing but the lines, where all of them are terminated.
-/

namespace LinePatch

open Text (IsRawLines IsTerminated trimNewlines)

/-! ## The next marker -/

namespace Boundary

/-- Line `i` exists and is a lone closing brace. -/
def IsLoneBraceAt (d : Document) (i : Nat) : Prop :=
  ∃ l, d.lines[i]? = some l ∧ isLoneBrace l = true

/-- Line breaks at its end do not matter for a lone brace. -/
theorem isLoneBrace_trimNewlines (l : Text) : isLoneBrace (trimNewlines l) = isLoneBrace l := by
  unfold isLoneBrace
  rw [Text.trim_trimNewlines]

/-- The search from the back of a range gives the last index that passes. -/
private theorem find?_reverse_range'_eq_some_iff {p : Nat → Bool} {a n e : Nat} :
    (List.range' a n).reverse.find? p = some e ↔
      a ≤ e ∧ e < a + n ∧ p e = true ∧ ∀ j, e < j → j < a + n → p j = false := by
  induction n with
  | zero => simp; omega
  | succ n ih =>
    rw [List.range'_concat, List.reverse_append, List.reverse_singleton, List.singleton_append,
      List.find?_cons, Nat.one_mul]
    cases hp : p (a + n) with
    | true =>
      simp only [Option.some.injEq]
      constructor
      · rintro rfl
        exact ⟨by omega, by omega, hp, fun j _ _ => by omega⟩
      · rintro ⟨-, hlt, -, hlast⟩
        by_cases he : e = a + n
        · exact he.symm
        · have := hlast (a + n) (by omega) (by omega)
          rw [hp] at this
          cases this
    | false =>
      simp only [ih]
      constructor
      · rintro ⟨hle, hlt, he, hlast⟩
        refine ⟨hle, by omega, he, fun j hj hlt' => ?_⟩
        by_cases hja : j = a + n
        · rw [hja, hp]
        · exact hlast j hj (by omega)
      · rintro ⟨hle, hlt, he, hlast⟩
        have hne : e ≠ a + n := fun h => by rw [h, hp] at he; cases he
        exact ⟨hle, by omega, he, fun j hj hlt' => hlast j hj (by omega)⟩

theorem lastLoneBrace_eq_some_iff {d : Document} {first upper e : Nat} :
    lastLoneBrace d first upper = some e ↔
      first < e ∧ e < upper ∧ IsLoneBraceAt d e ∧
        ∀ j, e < j → j < upper → ¬ IsLoneBraceAt d j := by
  have hany : ∀ i, (d.line? i).any isLoneBrace = true ↔ IsLoneBraceAt d i := fun i => by
    simp [IsLoneBraceAt, Document.line?, Option.any_eq_true]
  unfold lastLoneBrace
  rw [find?_reverse_range'_eq_some_iff]
  simp only [hany, ← Bool.not_eq_true]
  constructor
  · rintro ⟨h₁, h₂, h₃, h₄⟩
    exact ⟨h₁, by omega, h₃, fun j hj hlt => h₄ j hj (by omega)⟩
  · rintro ⟨h₁, h₂, h₃, h₄⟩
    exact ⟨h₁, by omega, h₃, fun j hj hlt => h₄ j hj (by omega)⟩

/-- The next-marker boundary names the last lone `}` before the first line after `first` with the
marker, if the lines up to it are balanced. -/
theorem blockEnd_nextMarker_iff {d : Document} {marker : Text} {first e : Nat} :
    (nextMarker marker).blockEnd d first = .ok e ↔
      ∃ upper text, upperBound d first marker = some upper ∧
        lastLoneBrace d first upper = some e ∧ d.sliceText? first (e + 1) = some text ∧
        isBalanced text = true := by
  simp only [nextMarker]
  constructor
  · intro h
    split at h
    · cases h
    · rename_i upper hu
      split at h
      · cases h
      · rename_i last hl
        split at h
        · cases h
        · rename_i text ht
          split at h
          · rename_i hb
            cases h
            exact ⟨upper, text, hu, hl, ht, hb⟩
          · cases h
  · rintro ⟨upper, text, hu, hl, ht, hb⟩
    simp only [hu, hl, ht, if_pos hb]

/-! ## The brace depth -/

/-- The search of the closing line stops after the nesting `n`. -/
def Stops (n : Nesting) : Prop := n.underflowed = true ∨ n.closed = true

/-- The closing line of `ls` is the first one that the search stops after, if no closing brace is
in excess there. -/
theorem closingLine_eq_ok_iff {n : Nesting} {i e : Nat} {ls : List Text} :
    closingLine n i ls = .ok e ↔
      i ≤ e ∧ e - i < ls.length ∧ (n.lines (ls.take (e - i + 1))).underflowed = false ∧
        (n.lines (ls.take (e - i + 1))).closed = true ∧
        ∀ j < e - i, ¬ Stops (n.lines (ls.take (j + 1))) := by
  induction ls generalizing n i with
  | nil =>
    rw [closingLine]
    split <;> simp
  | cons l ls ih =>
    have htake : ∀ k, n.lines ((l :: ls).take (k + 1)) = (n.line l).lines (ls.take k) :=
      fun k => rfl
    have hfirst : (n.line l).lines (ls.take 0) = n.line l := rfl
    simp only [htake]
    simp only [closingLine]
    split
    · rename_i hu
      simp only [reduceCtorEq, false_iff]
      rintro ⟨hle, -, hnot, -, hno⟩
      by_cases he : e - i = 0
      · rw [he, hfirst, hu] at hnot
        cases hnot
      · exact hno 0 (by omega) (.inl hu)
    · rename_i hu
      split
      · rename_i hc
        constructor
        · intro h
          cases h
          rw [Nat.sub_self, hfirst]
          exact ⟨Nat.le_refl _, by simp, by simpa using hu, hc, fun j hj => by omega⟩
        · rintro ⟨hle, -, -, -, hno⟩
          have hzero : ¬ 0 < e - i := fun hpos => hno 0 hpos (.inr hc)
          have he : i = e := by omega
          rw [he]
      · rename_i hc
        rw [ih]
        constructor
        · rintro ⟨hle, hlt, hnot, hcl, hno⟩
          have he : e - i = e - (i + 1) + 1 := by omega
          rw [he]
          refine ⟨by omega, by simpa using hlt, hnot, hcl, fun j hj => ?_⟩
          cases j with
          | zero => exact fun h => h.elim hu hc
          | succ j => exact hno j (by omega)
        · rintro ⟨hle, hlt, hnot, hcl, hno⟩
          by_cases hz : e - i = 0
          · rw [hz] at hcl
            exact absurd hcl hc
          · have he : e - i = e - (i + 1) + 1 := by omega
            rw [he] at hlt hnot hcl hno
            exact ⟨by omega, by simpa using hlt, hnot, hcl, fun j hj => hno (j + 1) (by omega)⟩

/-- The brace-depth boundary names the first line after which the nesting from `first` on is
closed. -/
theorem blockEnd_braceDepth_iff {d : Document} {first e : Nat} :
    braceDepth.blockEnd d first = .ok e ↔
      first ≤ e ∧ e - first < (d.lines.drop first).length ∧
        (Nesting.start.lines ((d.lines.drop first).take (e - first + 1))).underflowed = false ∧
        (Nesting.start.lines ((d.lines.drop first).take (e - first + 1))).closed = true ∧
        ∀ j < e - first, ¬ Stops (Nesting.start.lines ((d.lines.drop first).take (j + 1))) := by
  simp only [braceDepth]
  exact closingLine_eq_ok_iff

/-- The boundaries that a patch can name. -/
theorem Kind.boundary?_eq_some {kind : Kind} {marker : Option Text} {boundary : Boundary}
    (h : kind.boundary? marker = some boundary) :
    (∃ m, kind = .nextMarker ∧ marker = some m ∧ m ≠ [] ∧ boundary = .nextMarker m) ∨
      kind = .braceDepth ∧ boundary = .braceDepth := by
  cases kind with
  | nextMarker =>
    cases marker with
    | none => cases h
    | some m =>
      simp only [Kind.boundary?, Option.ite_none_left_eq_some, Option.some.injEq] at h
      exact .inl ⟨m, rfl, rfl, by simpa using h.1, h.2.symm⟩
  | braceDepth =>
    cases h
    exact .inr ⟨rfl, rfl⟩

/-- A boundary that a patch can name names a line of the document. -/
theorem Kind.lt_length_of_blockEnd {kind : Kind} {marker : Option Text} {boundary : Boundary}
    (hb : kind.boundary? marker = some boundary) {d : Document} {first last : Nat}
    (h : boundary.blockEnd d first = .ok last) : last < d.length := by
  rcases Kind.boundary?_eq_some hb with ⟨m, -, -, -, rfl⟩ | ⟨-, rfl⟩
  · obtain ⟨upper, -, hupper, hlast, -⟩ := blockEnd_nextMarker_iff.mp h
    obtain ⟨-, hlt, -⟩ := lastLoneBrace_eq_some_iff.mp hlast
    exact Nat.lt_trans hlt (Document.locateFrom_eq_some_iff.mp hupper).2.2.1.lt_length
  · obtain ⟨hle, hlt, -⟩ := blockEnd_braceDepth_iff.mp h
    rw [List.length_drop, Document.length_lines] at hlt
    omega

end Boundary

/-! ## Extraction -/

theorem extract_eq_ok_iff {d : Document} {declaration : Text} {boundary : Boundary}
    {block : Block} :
    d.extract declaration boundary = .ok block ↔
      d.locate declaration = some block.first ∧ boundary.blockEnd d block.first = .ok block.last ∧
        block.last < d.length := by
  unfold Document.extract Block.ofBounds?
  constructor
  · intro h
    split at h
    · cases h
    · rename_i first hl
      split at h
      · cases h
      · rename_i last hb
        split at h
        · cases h
        · rename_i hlen
          split at h
          · cases h
          · rename_i block' hof
            obtain ⟨hle, hblock⟩ := Option.dite_none_right_eq_some.mp hof
            cases hblock
            cases h
            exact ⟨hl, hb, Nat.lt_of_not_le hlen⟩
  · rintro ⟨hl, hb, hlt⟩
    simp only [hl, hb, if_neg (Nat.not_le_of_lt hlt), dif_pos block.first_le_last]

/-- A block that was extracted has a text. -/
theorem exists_text?_of_extract {d : Document} {declaration : Text} {boundary : Boundary}
    {block : Block} (h : d.extract declaration boundary = .ok block) :
    ∃ text, block.text? d = some text :=
  ⟨_, Document.sliceText?_eq_some_iff.mpr
    ⟨Nat.le_succ_of_le block.first_le_last, (extract_eq_ok_iff.mp h).2.2, rfl⟩⟩

theorem spansWholeBlock_iff {replacement declaration : Text} {boundary : Boundary}
    {follower : Option Text} :
    spansWholeBlock replacement declaration boundary follower = true ↔
      ∃ block, (standalone replacement follower).extract declaration boundary = .ok block ∧
        block.first = 0 ∧ block.last + 1 = (Text.lines replacement).length := by
  unfold spansWholeBlock
  split
  · rename_i block h
    simp [h]
  · rename_i h
    simp [h]

/-! ## The text of a block -/

/-- Whether the text of a slice is balanced, judged by its lines. -/
theorem isBalanced_sliceText? {d : Document} (hd : IsRawLines d.rawLines) (hne : [] ∉ d.rawLines)
    {start stop : Nat} {text : Text} (h : d.sliceText? start stop = some text) :
    isBalanced text = isBalancedLines ((d.lines.drop start).take (stop - start)) := by
  have hself : ((d.rawLines.drop start).take (stop - start)).filter (!·.isEmpty) =
      (d.rawLines.drop start).take (stop - start) := by
    rw [List.filter_eq_self]
    intro raw hraw
    have hmem := List.mem_of_mem_drop (List.mem_of_mem_take hraw)
    simpa using fun hnil : raw = [] => hne (hnil ▸ hmem)
  rw [isBalanced, Document.lines_of_sliceText? hd h, hself, Document.lines, List.map_take,
    List.map_drop]

/-! ## Documents with the same lines -/

section SameLines

variable {d d' : Document}

theorem map_isBalanced_sliceText? (hd : ∀ raw ∈ d.rawLines, IsTerminated raw) (start stop : Nat) :
    (d.sliceText? start stop).map isBalanced =
      if start ≤ stop ∧ stop ≤ d.length then
        some (isBalancedLines ((d.lines.drop start).take (stop - start)))
      else none := by
  have hne : [] ∉ d.rawLines := fun hmem => (hd [] hmem).ne_nil rfl
  split
  · rename_i hbounds
    have htext := Document.sliceText?_eq_some_iff.mpr ⟨hbounds.1, hbounds.2, rfl⟩
    rw [htext, Option.map_some,
      isBalanced_sliceText? (Text.isRawLines_of_isTerminated hd) hne htext]
  · rename_i hbounds
    simp only [Document.sliceText?, Document.slice?, if_neg hbounds, Option.map_none]

theorem blockEnd_nextMarker_congr (h : d'.lines = d.lines)
    (hd : ∀ raw ∈ d.rawLines, IsTerminated raw) (hd' : ∀ raw ∈ d'.rawLines, IsTerminated raw)
    (marker : Text) (first : Nat) :
    (Boundary.nextMarker marker).blockEnd d' first =
      (Boundary.nextMarker marker).blockEnd d first := by
  have hupper : Boundary.upperBound d' first marker = Boundary.upperBound d first marker :=
    Document.locateFrom_congr h marker (first + 1)
  have hlast : ∀ upper,
      Boundary.lastLoneBrace d' first upper = Boundary.lastLoneBrace d first upper := by
    intro upper
    unfold Boundary.lastLoneBrace Document.line?
    rw [h]
  simp only [Boundary.nextMarker, hupper, hlast]
  split
  · rfl
  · split
    · rfl
    · rename_i last _
      have hbalanced : (d'.sliceText? first (last + 1)).map isBalanced =
          (d.sliceText? first (last + 1)).map isBalanced := by
        rw [map_isBalanced_sliceText? hd, map_isBalanced_sliceText? hd', h,
          Document.length_congr h]
      cases ht : d.sliceText? first (last + 1) <;> cases ht' : d'.sliceText? first (last + 1) <;>
        simp_all [Document.length_congr h]

theorem extract_congr (h : d'.lines = d.lines) (hd : ∀ raw ∈ d.rawLines, IsTerminated raw)
    (hd' : ∀ raw ∈ d'.rawLines, IsTerminated raw) {kind : Boundary.Kind} {marker : Option Text}
    {boundary : Boundary} (hb : kind.boundary? marker = some boundary) (declaration : Text) :
    d'.extract declaration boundary = d.extract declaration boundary := by
  have hend : ∀ first, boundary.blockEnd d' first = boundary.blockEnd d first := by
    intro first
    rcases Boundary.Kind.boundary?_eq_some hb with ⟨m, -, -, -, rfl⟩ | ⟨-, rfl⟩
    · exact blockEnd_nextMarker_congr h hd hd' m first
    · simp only [Boundary.braceDepth, h]
  unfold Document.extract
  simp only [Document.locate_congr h, hend, Document.length_congr h]

end SameLines

end LinePatch
