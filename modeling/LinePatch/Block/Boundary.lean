import LinePatch.Anchor.Locate
import LinePatch.Braces

/-!
# Boundaries of blocks

A boundary is a rule that finds the last line of a block from its first one. There are two:

* `nextMarker`: the last lone `}` before the first following line that contains a marker, where
  the lines up to it are balanced;
* `braceDepth`: the line on which the first brace of the block is closed again.
-/

namespace LinePatch

/-- Why a boundary found no last line. -/
inductive Boundary.Failure
  | markerNotFound (marker : Text)
  | noClosingBrace (upper : Nat)
  | unbalanced (last : Nat)
  | neverOpened
  | neverClosed
  | outOfRange (last length : Nat)
  deriving DecidableEq, Repr

/-- The text of a failure, with lines counted from one. -/
def Boundary.Failure.message : Failure → String
  | .markerNotFound marker =>
    s!"next-member marker '{marker.asString}' not found after declaration"
  | .noClosingBrace upper => s!"no lone closing brace before marker at line {upper + 1}"
  | .unbalanced last => s!"closing brace at line {last + 1} leaves the block unbalanced"
  | .neverOpened => "no opening brace after declaration"
  | .neverClosed => "block is never closed"
  | .outOfRange last length =>
    s!"block end line {last + 1} is past the end of the document ({length} lines)"

/-- A rule that finds the last line of the block that starts on a given line. -/
structure Boundary where
  name : String
  blockEnd : Document → Nat → Except Boundary.Failure Nat

namespace Boundary

/-! ## The next marker -/

/-- The first line after `first` that contains the marker. -/
def upperBound (d : Document) (first : Nat) (marker : Text) : Option Nat :=
  d.locateFrom marker (first + 1)

/-- Whether a line holds a closing brace and nothing else. -/
def isLoneBrace (line : Text) : Bool := Text.trim line == ['}']

/-- The last line strictly between `first` and `upper` that is a lone closing brace. -/
def lastLoneBrace (d : Document) (first upper : Nat) : Option Nat :=
  (List.range' (first + 1) (upper - (first + 1))).reverse.find? fun i =>
    (d.line? i).any isLoneBrace

/-- The block ends at the lone `}` closest to the marker, which must balance it. -/
def nextMarker (marker : Text) : Boundary where
  name := "next-marker"
  blockEnd d first :=
    match upperBound d first marker with
    | none => .error (.markerNotFound marker)
    | some upper =>
      match lastLoneBrace d first upper with
      | none => .error (.noClosingBrace upper)
      | some last =>
        match d.sliceText? first (last + 1) with
        | none => .error (.outOfRange last d.length)
        | some text => if isBalanced text then .ok last else .error (.unbalanced last)

/-! ## The brace depth -/

/-- The first line of `ls` on which the nesting, `n` before them, is closed; the first of `ls`
has index `i`. -/
def closingLine (n : Nesting) : Nat → List Text → Except Failure Nat
  | _, [] => .error (if n.opened then .neverClosed else .neverOpened)
  | i, l :: ls =>
    let n := n.line l
    if n.underflowed then .error (.unbalanced i)
    else if n.closed then .ok i
    else closingLine n (i + 1) ls

/-- The block ends where the nesting returns to the depth of its first line. -/
def braceDepth : Boundary where
  name := "brace-depth"
  blockEnd d first := closingLine .start first (d.lines.drop first)

/-! ## The kinds of boundary in a patch -/

/-- The boundaries that a patch can name. -/
inductive Kind
  | nextMarker
  | braceDepth
  deriving DecidableEq, Repr

/-- The name of a kind. -/
def Kind.name : Kind → String
  | .nextMarker => "next-marker"
  | .braceDepth => "brace-depth"

/-- The boundary of a kind; the next-marker kind needs a marker that is not empty. -/
def Kind.boundary? : Kind → Option Text → Option Boundary
  | .nextMarker, some marker => if marker.isEmpty then none else some (.nextMarker marker)
  | .nextMarker, none => none
  | .braceDepth, _ => some .braceDepth

/-- The line that follows a block of a kind, as far as the patch says it. -/
def Kind.follower : Kind → Option Text → Option Text
  | .nextMarker, marker => marker
  | .braceDepth, _ => none

end Boundary

end LinePatch
