import LinePatch.Diff.Basic

/-!
# Shortest differences

The difference of two lists by divide and conquer: a common start and end is kept, and the rest is
split where a shortest path from its start meets one from its end.
-/

namespace LinePatch.Diff

variable {α : Type} [BEq α]

/-! ## Paths from one end -/

/-- How far the paths of some length reach in the old list, by diagonal. -/
structure Reach where
  center : Nat
  values : Array Nat

namespace Reach

/-- The reach before the first path, for diagonals up to a distance from the center. -/
def start (distance : Nat) : Reach := ⟨distance + 1, Array.replicate (2 * distance + 3) 0⟩

/-- How far the path on a diagonal reaches. -/
def get (r : Reach) (k : Int) : Nat := r.values.getD (r.center + k).toNat 0

/-- The reach with the path on one diagonal changed. -/
def set (r : Reach) (k : Int) (x : Nat) : Reach :=
  { r with values := r.values.setIfInBounds (r.center + k).toNat x }

/-- Where the path of length `d` on diagonal `k` starts its last run of equal items. -/
def next (r : Reach) (d k : Int) : Nat :=
  if k = -d ∨ (k ≠ d ∧ r.get (k - 1) < r.get (k + 1)) then r.get (k + 1) else r.get (k - 1) + 1

end Reach

/-- The diagonals of paths of length `d`, from the highest. -/
def diagonals (d : Nat) : List Int :=
  (List.range (d + 1)).map fun (i : Nat) => (d : Int) - 2 * (i : Int)

/-- The two lists from an index on. -/
def runFrom (old new : List α) (x y : Nat) : Nat := commonLength (old.drop x) (new.drop y)

/-- The paths of length `d` from the start. Stops with the place where one meets a path from the
end. -/
def forward (old new : List α) (backReach : Reach) (d : Nat) :
    List Int → Reach → Except (Nat × Nat) Reach
  | [], reach => .ok reach
  | k :: ks, reach =>
    let delta : Int := old.length - new.length
    let x := reach.next d k
    let y := (x - k : Int).toNat
    let x' := x + runFrom old new x y
    if delta % 2 ≠ 0 ∧ (k - delta).natAbs < d ∧ old.length ≤ x' + backReach.get (delta - k) then
      .error (x, y)
    else forward old new backReach d ks (reach.set k x')

/-- The paths of length `d` from the end, of which the lists are given in reverse. -/
def backward (oldBack newBack : List α) (reach : Reach) (d : Nat) :
    List Int → Reach → Except (Nat × Nat) Reach
  | [], backReach => .ok backReach
  | k :: ks, backReach =>
    let delta : Int := oldBack.length - newBack.length
    let x := backReach.next d k
    let y := (x - k : Int).toNat
    let run := runFrom oldBack newBack x y
    if delta % 2 = 0 ∧ (k - delta).natAbs ≤ d ∧
        oldBack.length ≤ x + run + reach.get (delta - k) then
      .error (oldBack.length - (x + run), newBack.length - (y + run))
    else backward oldBack newBack reach d ks (backReach.set k (x + run))

/-- Where a shortest path from the start meets one from the end, looked for by growing length. -/
def middle (old new : List α) : Nat → Nat → Reach → Reach → Option (Nat × Nat)
  | 0, _, _, _ => none
  | fuel + 1, d, reach, backReach =>
    match forward old new backReach d (diagonals d) reach with
    | .error place => some place
    | .ok reach =>
      match backward old.reverse new.reverse reach d (diagonals d) backReach with
      | .error place => some place
      | .ok backReach => middle old new fuel (d + 1) reach backReach

/-- The greatest length of a path from one end, and one more. -/
def maxPath (old new : List α) : Nat := (old.length + new.length + 1) / 2 + 1

/-- The difference of two lists that stand at given places. Each step handles shorter lists, so
their lengths are fuel enough. -/
def compareAt : Nat → Nat → Nat → List α → List α → List Op
  | 0, _, _, _, _ => []
  | fuel + 1, i, j, old, new =>
    let start := commonLength old new
    let kept : List Op := if start = 0 then [] else [.keep i j start]
    let (i, j, old, new) := (i + start, j + start, old.drop start, new.drop start)
    let stop := commonLength old.reverse new.reverse
    let (n, m) := (old.length - stop, new.length - stop)
    let (old, new) := (old.take n, new.take m)
    let rest : List Op :=
      if n = 0 ∧ m = 0 then []
      else if m = 0 then [.delete i n j]
      else if n = 0 then [.insert i j m]
      else
        let distance := maxPath old new
        match middle old new distance 0 (.start distance) (.start distance) with
        | some (x, y) =>
          compareAt fuel i j (old.take x) (new.take y) ++
            compareAt fuel (i + x) (j + y) (old.drop x) (new.drop y)
        | none => [.delete i n j, .insert i j m]
    kept ++ rest ++ if stop = 0 then [] else [.keep (i + n) (j + m) stop]

/-- The operations that lead from an old list to a new one. -/
def compare (old new : List α) : List Op :=
  compareAt (old.length + new.length + 1) 0 0 old new

end LinePatch.Diff
