import LinePatch.Document.Basic

/-!
# Anchors

An anchor is a text that is looked for line by line; the first line that contains it counts.
-/

namespace LinePatch.Document

/-- The index of the first line of `ls` that contains `pattern`, where `ls` starts at line `i`. -/
def locateIn (pattern : Text) : Nat → List Text → Option Nat
  | _, [] => none
  | i, l :: ls => if Text.occursIn pattern l then some i else locateIn pattern (i + 1) ls

/-- The first line at or after `start` that contains `pattern`; an empty pattern is nowhere. -/
def locateFrom (d : Document) (pattern : Text) (start : Nat) : Option Nat :=
  if pattern.isEmpty then none else locateIn pattern start (d.lines.drop start)

/-- The first line that contains `pattern`. -/
def locate (d : Document) (pattern : Text) : Option Nat := d.locateFrom pattern 0

end LinePatch.Document
