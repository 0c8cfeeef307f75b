import LinePatch.Text.Basic

/-!
# Differences of lists

A difference is a list of operations that keep, delete and insert ranges of two lists.
-/

namespace LinePatch.Diff

/-- What an operation does with its ranges. -/
inductive Kind
  | keep
  | delete
  | insert
  /-- A deletion and an insertion at the same place. -/
  | replace
  deriving DecidableEq, Repr

/-- An operation on a range of the old and a range of the new list; a deletion has no new range
but its place, an insertion no old one. -/
structure Op where
  kind : Kind
  oldStart : Nat
  oldLength : Nat
  newStart : Nat
  newLength : Nat
  deriving DecidableEq, Repr

namespace Op

/-- A range of both lists that is the same. -/
def keep (i j n : Nat) : Op := ⟨.keep, i, n, j, n⟩

/-- A range of the old list that the new one has not. -/
def delete (i n j : Nat) : Op := ⟨.delete, i, n, j, 0⟩

/-- A range of the new list that the old one has not. -/
def insert (i j n : Nat) : Op := ⟨.insert, i, 0, j, n⟩

/-- The index behind the old range. -/
def oldStop (op : Op) : Nat := op.oldStart + op.oldLength

/-- The index behind the new range. -/
def newStop (op : Op) : Nat := op.newStart + op.newLength

/-- Whether an operation has no range. -/
def isEmpty (op : Op) : Bool := op.oldLength == 0 && op.newLength == 0

/-- The operation with the lengths of its ranges changed, where it has them. -/
def mapLength (f : Nat → Nat) (op : Op) : Op :=
  match op.kind with
  | .insert => { op with newLength := f op.newLength }
  | .delete => { op with oldLength := f op.oldLength }
  | _ => { op with oldLength := f op.oldLength, newLength := f op.newLength }

/-- The operation with its place changed in both lists. -/
def mapStart (f : Nat → Nat) (op : Op) : Op :=
  { op with oldStart := f op.oldStart, newStart := f op.newStart }

end Op

/-- The number of equal items at the start of two lists. -/
def commonLength {α : Type} [BEq α] : List α → List α → Nat
  | a :: as, b :: bs => if a == b then commonLength as bs + 1 else 0
  | _, _ => 0

/-- The part of a list from an index on, of a given length. -/
def range {α : Type} (items : List α) (start length : Nat) : List α :=
  (items.drop start).take length

end LinePatch.Diff
