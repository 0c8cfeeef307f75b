import LinePatch.Document.Basic

/-!
# Blocks

A block is an inclusive range of lines.

* `length_pos`: a block has at least one line.
-/

namespace LinePatch

/-- The lines from `first` to `last`, both included. -/
structure Block where
  first : Nat
  last : Nat
  first_le_last : first ≤ last := by omega
  deriving DecidableEq, Repr

namespace Block

/-- The block of two bounds, if they are ordered. -/
def ofBounds? (first last : Nat) : Option Block :=
  if h : first ≤ last then some ⟨first, last, h⟩ else none

/-- The index after the last line. -/
def stop (b : Block) : Nat := b.last + 1

/-- The number of lines. -/
def length (b : Block) : Nat := b.last - b.first + 1

theorem length_pos (b : Block) : 0 < b.length := Nat.succ_pos _

/-- The block in a message, with lines counted from one. -/
def message (b : Block) : String := s!"lines {b.first + 1}-{b.last + 1}"

/-- The raw text of a block, where the document has all its lines. -/
def text? (b : Block) (d : Document) : Option Text := d.sliceText? b.first b.stop

end Block

end LinePatch
