import LinePatch.Anchor.Nearest
import Mathlib.Algebra.Order.Field.Rat
import Mathlib.Tactic.Linarith

/-!
# The nearest line is the earliest of the best

The search for the line nearest to a missing anchor passes over blank lines and over lines below the
least score, and takes a later line only if its score is greater. So it finds the earliest line of
the greatest score, for scores in any linear order.

* `IsNearest`: the earliest line of the greatest score. There is one at most (`IsNearest.unique`).
* `NearestOutcome.skip`, `NearestOutcome.better`: the step, for one more line.
* `nearestIn_outcome`: the same for the search over any lines.
* `map_nearestIn`: the search sees of a score only how it compares.
* `nearestBy_eq_iff_isNearest`: the search finds the nearest line, or there is none.
-/

namespace LinePatch

open Text (trim)

section Outcome

variable {σ : Type} [LinearOrder σ]

/-- A line of `ls` that is not blank and has at least the least score. No line has a greater score,
and every earlier one has a lower score. -/
structure IsNearest (score : Text → σ) (least : σ) (ls : List Text) (b : NearLine σ) : Prop where
  line : ∃ l, ls[b.index]? = some l ∧ trim l = b.text
  text_ne_nil : b.text ≠ []
  score_eq : b.score = score b.text
  least_le : least ≤ b.score
  le : ∀ l ∈ ls, trim l ≠ [] → score (trim l) ≤ b.score
  lt : ∀ j l, j < b.index → ls[j]? = some l → trim l ≠ [] → score (trim l) < b.score

/-- What a search gives: the nearest line, or nothing where all lines are blank or too different. -/
inductive NearestOutcome (score : Text → σ) (least : σ) (ls : List Text) :
    Option (NearLine σ) → Prop
  | notFound (h : ∀ l ∈ ls, trim l ≠ [] → score (trim l) < least) :
    NearestOutcome score least ls none
  | found {b : NearLine σ} (h : IsNearest score least ls b) :
    NearestOutcome score least ls (some b)

variable {score : Text → σ} {least : σ} {ls : List Text} {l : Text} {b b' : NearLine σ}
  {best : Option (NearLine σ)}

/-! ## The nearest line -/

namespace IsNearest

theorem index_lt (h : IsNearest score least ls b) : b.index < ls.length := by
  obtain ⟨l, hl, -⟩ := h.line
  exact (List.getElem?_eq_some_iff.mp hl).1

/-- The score of the nearest line is one of the scores. -/
theorem exists_mem (h : IsNearest score least ls b) :
    ∃ l ∈ ls, trim l ≠ [] ∧ score (trim l) = b.score := by
  obtain ⟨l, hl, htext⟩ := h.line
  refine ⟨l, List.mem_of_getElem? hl, ?_, ?_⟩
  · rw [htext]
    exact h.text_ne_nil
  · rw [htext, h.score_eq]

/-- A nearest line is not behind another one. -/
theorem index_le (h : IsNearest score least ls b) (h' : IsNearest score least ls b') :
    b.index ≤ b'.index := by
  by_contra hlt
  obtain ⟨l, hl, htext⟩ := h'.line
  have hne : trim l ≠ [] := htext ▸ h'.text_ne_nil
  have hscore : score (trim l) = b'.score := by rw [htext, h'.score_eq]
  have hbelow := h.lt b'.index l (Nat.lt_of_not_le hlt) hl hne
  obtain ⟨c, hc, hcne, hcscore⟩ := h.exists_mem
  have habove := h'.le c hc hcne
  rw [hscore, ← hcscore] at hbelow
  exact absurd habove (not_le_of_gt hbelow)

theorem unique (h : IsNearest score least ls b) (h' : IsNearest score least ls b') : b = b' := by
  have hindex := Nat.le_antisymm (h.index_le h') (h'.index_le h)
  obtain ⟨l, hl, htext⟩ := h.line
  obtain ⟨l', hl', htext'⟩ := h'.line
  rw [hindex, hl'] at hl
  cases hl
  have heq : b.text = b'.text := htext.symm.trans htext'
  have hscore : b.score = b'.score := by rw [h.score_eq, h'.score_eq, heq]
  cases b
  cases b'
  simp_all

/-- The nearest line stays the nearest where one more line has no greater score. -/
theorem concat (h : IsNearest score least ls b) (hl : trim l ≠ [] → score (trim l) ≤ b.score) :
    IsNearest score least (ls ++ [l]) b where
  line := by
    rw [List.getElem?_append_left h.index_lt]
    exact h.line
  text_ne_nil := h.text_ne_nil
  score_eq := h.score_eq
  least_le := h.least_le
  le := by
    intro c hc
    rcases List.mem_append.mp hc with hc | hc
    · exact h.le c hc
    · rw [List.mem_singleton.mp hc]
      exact hl
  lt := by
    intro j c hj hc
    rw [List.getElem?_append_left (Nat.lt_trans hj h.index_lt)] at hc
    exact h.lt j c hj hc

/-- One more line with a greater score than all others is the nearest. -/
theorem of_concat (hne : trim l ≠ []) (hleast : least ≤ score (trim l))
    (hls : ∀ c ∈ ls, trim c ≠ [] → score (trim c) < score (trim l)) :
    IsNearest score least (ls ++ [l]) ⟨ls.length, trim l, score (trim l)⟩ where
  line := ⟨l, by simp, rfl⟩
  text_ne_nil := hne
  score_eq := rfl
  least_le := hleast
  le := by
    intro c hc hcne
    rcases List.mem_append.mp hc with hc | hc
    · exact le_of_lt (hls c hc hcne)
    · rw [List.mem_singleton.mp hc]
  lt := by
    intro j c hj hc hcne
    rw [List.getElem?_append_left hj] at hc
    exact hls c (List.mem_of_getElem? hc) hcne

end IsNearest

/-! ## The search -/

namespace NearestOutcome

/-- A blank line and a line below the least score change nothing. -/
theorem skip (h : NearestOutcome score least ls best)
    (hl : trim l ≠ [] → score (trim l) < least) :
    NearestOutcome score least (ls ++ [l]) best := by
  cases h with
  | notFound h =>
    refine .notFound fun c hc => ?_
    rcases List.mem_append.mp hc with hc | hc
    · exact h c hc
    · rw [List.mem_singleton.mp hc]
      exact hl
  | found h => exact .found (h.concat fun hne => le_of_lt (lt_of_lt_of_le (hl hne) h.least_le))

/-- Any other line is compared with the best so far, and has to be better. -/
theorem better (h : NearestOutcome score least ls best) (hne : trim l ≠ [])
    (hleast : least ≤ score (trim l)) :
    NearestOutcome score least (ls ++ [l])
      (NearLine.better best ⟨ls.length, trim l, score (trim l)⟩) := by
  cases h with
  | notFound h =>
    exact .found (.of_concat hne hleast fun c hc hcne => lt_of_lt_of_le (h c hc hcne) hleast)
  | @found b h =>
    rw [NearLine.better]
    split
    · rename_i hlt
      exact .found (.of_concat hne hleast fun c hc hcne => lt_of_le_of_lt (h.le c hc hcne) hlt)
    · rename_i hnot
      exact .found (h.concat fun _ => le_of_not_gt hnot)

theorem unique {best' : Option (NearLine σ)} (h : NearestOutcome score least ls best)
    (h' : NearestOutcome score least ls best') : best = best' := by
  have hno : (∀ l ∈ ls, trim l ≠ [] → score (trim l) < least) →
      ∀ b, ¬ IsNearest score least ls b := by
    intro hnone b hb
    obtain ⟨l, hl, hne, hscore⟩ := hb.exists_mem
    have hlt := hnone l hl hne
    rw [hscore] at hlt
    exact absurd hb.least_le (not_le_of_gt hlt)
  cases h with
  | notFound h =>
    cases h' with
    | notFound => rfl
    | found h' => exact absurd h' (hno h _)
  | found h =>
    cases h' with
    | notFound h' => exact absurd h (hno h' _)
    | found h' => rw [h.unique h']

theorem eq_none_iff (h : NearestOutcome score least ls best) :
    best = none ↔ ∀ l ∈ ls, trim l ≠ [] → score (trim l) < least := by
  constructor
  · rintro rfl
    cases h with
    | notFound h => exact h
  · exact fun hnone => h.unique (.notFound hnone)

theorem eq_some_iff (h : NearestOutcome score least ls best) :
    best = some b ↔ IsNearest score least ls b := by
  constructor
  · rintro rfl
    cases h with
    | found h => exact h
  · exact fun hb => h.unique (.found hb)

end NearestOutcome

/-- The search over the lines behind those that were seen. -/
theorem nearestIn_outcome {seen : List Text} (h : NearestOutcome score least seen best)
    (ls : List Text) :
    NearestOutcome score least (seen ++ ls)
      (nearestIn score (least ≤ ·) best seen.length ls) := by
  induction ls generalizing seen best with
  | nil =>
    rw [List.append_nil]
    exact h
  | cons l ls ih =>
    have happend : seen ++ l :: ls = (seen ++ [l]) ++ ls := by simp
    have hlength : seen.length + 1 = (seen ++ [l]).length := by simp
    rw [happend]
    simp only [nearestIn, hlength]
    split
    · rename_i hskip
      refine ih (h.skip fun hne => ?_)
      simpa [hne] using hskip
    · rename_i hadmits
      simp only [Bool.or_eq_true, List.isEmpty_iff, Bool.not_eq_true', decide_eq_false_iff_not,
        not_or, not_not] at hadmits
      exact ih (h.better hadmits.1 hadmits.2)

end Outcome

/-! ## Scores that compare alike -/

/-- The line with the score that `f` makes of its score. -/
def NearLine.map {σ τ : Type} (f : σ → τ) (l : NearLine σ) : NearLine τ :=
  ⟨l.index, l.text, f l.score⟩

section Map

variable {σ τ : Type} [LT σ] [DecidableRel (α := σ) (· < ·)] [LT τ]
  [DecidableRel (α := τ) (· < ·)] {f : σ → τ}

namespace NearLine

variable {best : Option (NearLine σ)} {b l : NearLine σ}

theorem map_better (h : ∀ b ∈ best, f b.score < f l.score ↔ b.score < l.score) :
    (better best l).map (map f) = better (best.map (map f)) (l.map f) := by
  cases best with
  | none => rfl
  | some b =>
    have hlt := h b rfl
    simp only [better, map, Option.map_some, hlt]
    split <;> rfl

theorem eq_or_mem_of_mem_better (h : b ∈ better best l) : b = l ∨ b ∈ best := by
  cases best with
  | none => exact .inl (Option.some.inj h).symm
  | some b' =>
    rw [better] at h
    split at h
    · exact .inl (Option.some.inj h).symm
    · exact .inr h

end NearLine

/-- Scores that compare alike, with each other and with the least score, find the same line. -/
theorem map_nearestIn {score : Text → σ} {admits : σ → Bool} {admits' : τ → Bool}
    (hlt : ∀ a b, f (score a) < f (score b) ↔ score a < score b)
    (hadmits : ∀ a, admits' (f (score a)) = admits (score a)) {best : Option (NearLine σ)}
    (hbest : ∀ b ∈ best, ∃ a, b.score = score a) (i : Nat) (ls : List Text) :
    (nearestIn score admits best i ls).map (NearLine.map f) =
      nearestIn (fun a => f (score a)) admits' (best.map (NearLine.map f)) i ls := by
  induction ls generalizing best i with
  | nil => rfl
  | cons l ls ih =>
    simp only [nearestIn, hadmits]
    split
    · exact ih hbest (i + 1)
    · rw [ih _ (i + 1), NearLine.map_better]
      · rfl
      · intro b hb
        obtain ⟨a, ha⟩ := hbest b hb
        rw [ha]
        exact hlt a (trim l)
      · intro b hb
        rcases NearLine.eq_or_mem_of_mem_better hb with rfl | hb
        · exact ⟨trim l, rfl⟩
        · exact hbest b hb

end Map

/-! ## Similarity as a number -/

namespace Similarity

variable {s t : Similarity}

/-- The part of the longer text that agrees. -/
def ratio (s : Similarity) : ℚ := 1 - s.distance / s.length

theorem ratio_lt_ratio_iff (hs : 0 < s.length) (ht : 0 < t.length) :
    s.ratio < t.ratio ↔ s < t := by
  have hs' : (0 : ℚ) < s.length := Nat.cast_pos.mpr hs
  have ht' : (0 : ℚ) < t.length := Nat.cast_pos.mpr ht
  rw [ratio, ratio, sub_lt_sub_iff_left, div_lt_div_iff₀ ht' hs', lt_iff]
  exact_mod_cast Iff.rfl

theorem half_le_ratio_iff (hs : 0 < s.length) : 1 / 2 ≤ s.ratio ↔ s.isNear = true := by
  have hs' : (0 : ℚ) < s.length := Nat.cast_pos.mpr hs
  have hhalf : (1 / 2 : ℚ) ≤ s.ratio ↔ (2 : ℚ) * s.distance ≤ s.length := by
    rw [ratio, le_sub_comm, div_le_iff₀ hs']
    constructor
    · intro h
      linarith
    · intro h
      linarith
  rw [hhalf, isNear, decide_eq_true_iff]
  exact_mod_cast Iff.rfl

theorem length_between_pos {a : List Char} (ha : a ≠ []) (b : List Char) :
    0 < (between a b).length :=
  Nat.lt_of_lt_of_le (List.length_pos_iff.mpr ha) (Nat.le_max_left _ _)

end Similarity

namespace Document

/-- A pattern that is not blank is looked for in all lines. -/
theorem nearestBy_outcome {σ : Type} [LinearOrder σ] (score : Text → Text → σ) (least : σ)
    (d : Document) {pattern : Text} (hp : trim pattern ≠ []) :
    NearestOutcome (score (trim pattern)) least d.lines
      (d.nearestBy score (least ≤ ·) pattern) := by
  have hseen : NearestOutcome (score (trim pattern)) least [] none := .notFound (by simp)
  have houtcome := nearestIn_outcome hseen d.lines
  simpa only [nearestBy, List.isEmpty_iff, if_neg hp, List.nil_append, List.length_nil]
    using houtcome

/-- The line that resembles a pattern most is found by the ratios, which are at least a half. -/
theorem map_ratio_nearest (d : Document) (pattern : Text) :
    (d.nearest pattern).map (NearLine.map Similarity.ratio) =
      d.nearestBy (fun p l => (Similarity.between p l).ratio) (1 / 2 ≤ ·) pattern := by
  unfold nearest nearestBy
  by_cases hp : trim pattern = []
  · simp [hp]
  · have hpos := Similarity.length_between_pos hp
    simp only [List.isEmpty_iff, hp, if_false]
    refine map_nearestIn (fun a b => Similarity.ratio_lt_ratio_iff (hpos a) (hpos b)) (fun a => ?_)
      (by simp) 0 d.lines
    rw [Bool.eq_iff_iff, decide_eq_true_iff, Similarity.half_le_ratio_iff (hpos a)]

/-- **The nearest line.** For any score in a linear order, the search gives nothing for a blank
pattern, and where each line is blank or below the least score. Else it gives the earliest line of
the greatest score, and no other. The line that resembles a missing anchor is found by this search,
with the part of the longer text that agrees as score. -/
theorem nearestBy_eq_iff_isNearest {σ : Type} [LinearOrder σ] (score : Text → Text → σ)
    (least : σ) (d : Document) (pattern : Text) :
    (d.nearestBy score (least ≤ ·) pattern = none ↔
      trim pattern = [] ∨
        ∀ l ∈ d.lines, trim l ≠ [] → score (trim pattern) (trim l) < least) ∧
    (∀ b, d.nearestBy score (least ≤ ·) pattern = some b ↔
      trim pattern ≠ [] ∧ IsNearest (score (trim pattern)) least d.lines b) ∧
    (d.nearest pattern).map (NearLine.map Similarity.ratio) =
      d.nearestBy (fun p l => (Similarity.between p l).ratio) (1 / 2 ≤ ·) pattern := by
  refine ⟨?_, fun b => ?_, map_ratio_nearest d pattern⟩
  · by_cases hp : trim pattern = []
    · simp [nearestBy, hp]
    · rw [or_iff_right hp]
      exact (nearestBy_outcome score least d hp).eq_none_iff
  · by_cases hp : trim pattern = []
    · simp [nearestBy, hp]
    · rw [and_iff_right hp]
      exact (nearestBy_outcome score least d hp).eq_some_iff

/-- Of two lines that agree by half the first is found, behind a blank line and in front of one that
agrees less. -/
theorem nearestBy_eq_iff_isNearest_ratio :
    let d := ofText "\nabxx\n yz\nabyy\n".toList
    let pattern := " abcd".toList
    let b : NearLine Similarity := ⟨1, "abxx".toList, ⟨2, 4⟩⟩
    d.nearest pattern = some b ∧ trim pattern ≠ [] ∧
      IsNearest (fun l => (Similarity.between (trim pattern) l).ratio) (1 / 2) d.lines
        (b.map Similarity.ratio) := by
  intro d pattern b
  have hnearest : d.nearest pattern = some b := by rfl
  obtain ⟨-, hsome, hratio⟩ :=
    nearestBy_eq_iff_isNearest (fun p l => (Similarity.between p l).ratio) (1 / 2) d pattern
  rw [hnearest, Option.map_some] at hratio
  exact ⟨hnearest, (hsome _).mp hratio.symm⟩

end Document

end LinePatch
