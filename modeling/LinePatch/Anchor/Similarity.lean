/-!
# Similarity of texts

The edit distance of two lists, and the similarity that it gives: one less the distance relative
to the longer list. The similarity is kept as a fraction, so that scores compare exactly.

* `Similarity.lt_iff`: scores compare as the fractions they stand for.
-/

namespace LinePatch

/-! ## Edit distance -/

/-- The next row of the distance table. `above` is the previous row from the column on the left
of the current one, `left` the entry just computed. -/
def distanceRow {α : Type} [DecidableEq α] (a : α) : List α → List Nat → Nat → List Nat
  | b :: bs, corner :: above :: row, left =>
    let entry := min (min (left + 1) (above + 1)) (corner + if a = b then 0 else 1)
    entry :: distanceRow a bs (above :: row) entry
  | _, _, _ => []

/-- The last row of the distance table: entry `j` is the distance to the first `j` items. -/
def distanceRows {α : Type} [DecidableEq α] (bs : List α) : List α → Nat → List Nat → List Nat
  | [], _, row => row
  | a :: as, i, row => distanceRows bs as (i + 1) ((i + 1) :: distanceRow a bs row (i + 1))

/-- The least number of insertions, deletions and substitutions between two lists. -/
def editDistance {α : Type} [DecidableEq α] (as bs : List α) : Nat :=
  (distanceRows bs as 0 (List.range (bs.length + 1))).getLast?.getD 0

/-! ## Scores -/

/-- The similarity `1 - distance / length`, where `length` is that of the longer text. -/
structure Similarity where
  distance : Nat
  length : Nat
  deriving DecidableEq, Repr

namespace Similarity

/-- The similarity of two lists of characters. -/
def between (a b : List Char) : Similarity := ⟨editDistance a b, max a.length b.length⟩

instance : LT Similarity where
  lt s t := t.distance * s.length < s.distance * t.length

/-- A score is lower if its distance is the greater part of its length. -/
theorem lt_iff {s t : Similarity} : s < t ↔ t.distance * s.length < s.distance * t.length :=
  Iff.rfl

instance : DecidableRel (α := Similarity) (· < ·) :=
  fun _ _ => decidable_of_iff _ lt_iff.symm

/-- Whether at least half of the longer text agrees. -/
def isNear (s : Similarity) : Bool := 2 * s.distance ≤ s.length

/-- The score as a floating-point number. -/
def toFloat (s : Similarity) : Float :=
  if s.length = 0 then 1.0 else 1.0 - s.distance.toFloat / s.length.toFloat

end Similarity

end LinePatch
