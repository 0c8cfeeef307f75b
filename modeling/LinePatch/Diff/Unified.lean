import LinePatch.Diff.Compaction
import LinePatch.Diff.Shortest

/-!
# Unified differences

The difference of two texts by lines, shown in hunks with three lines of context.

* `Diff.unified`: the hunks of two texts.
-/

namespace LinePatch.Diff

/-! ## Lines -/

/-- The lines of a text with their terminators; a carriage return that no newline follows is a
terminator too. -/
def lines : Text → List Text
  | [] => []
  | '\r' :: '\n' :: t => ['\r', '\n'] :: lines t
  | c :: t =>
    if c = '\n' ∨ c = '\r' then [c] :: lines t
    else match lines t with
      | [] => [[c]]
      | l :: ls => (c :: l) :: ls

/-- Whether a line has a terminator. -/
def isTerminated (l : Text) : Bool := l.getLast?.any fun c => c == '\n' || c == '\r'

/-! ## Hunks -/

/-- The number of lines of context. -/
def context : Nat := 3

/-- The operation without what is too far in front of a change. -/
def trimFirst (op : Op) : Op :=
  let n := op.oldLength - context
  if op.kind = .keep then (op.mapStart (· + n)).mapLength (· - n) else op

/-- The operation without what is too far behind a change. -/
def trimLast (op : Op) : Op :=
  if op.kind = .keep then op.mapLength (min · context) else op

/-- Whether a group of operations shows a change. -/
def showsChange : List Op → Bool
  | [] => false
  | [op] => op.kind != .keep
  | _ => true

/-- The groups of operations, split where a kept range is longer than twice the context; `group`
holds the operations of the open group, last first. -/
def groupFrom : List Op → List Op → List (List Op)
  | group, [] => if showsChange group then [group.reverse] else []
  | group, op :: ops =>
    if op.kind = .keep ∧ 2 * context < op.oldLength then
      (trimLast op :: group).reverse :: groupFrom [trimFirst op] ops
    else groupFrom (op :: group) ops

/-- The groups of a difference, each with its context. -/
def groups (ops : List Op) : List (List Op) :=
  let ops := match ops with
    | [] => []
    | op :: ops => trimFirst op :: ops
  match ops.getLast? with
  | none => []
  | some op => groupFrom [] (ops.dropLast ++ [trimLast op])

/-! ## Text -/

/-- A range in the header of a hunk: its first line, counted from one, and its length if that is
not one. An empty range is named by the line before it. -/
def rangeNote (start stop : Nat) : String :=
  let length := stop - start
  if length = 1 then s!"{start + 1}"
  else if length = 0 then s!"{start},0"
  else s!"{start + 1},{length}"

/-- The header of a hunk. -/
def header (group : List Op) : String :=
  match group.head?, group.getLast? with
  | some first, some last =>
    s!"@@ -{rangeNote first.oldStart last.oldStop} +{rangeNote first.newStart last.newStop} @@\n"
  | _, _ => ""

/-- Some lines with a mark in front. A line without terminator gets one, and an empty line behind
it shows that. -/
def marked (mark : Char) (ls : List Text) : Text :=
  (ls.map fun l => mark :: l ++ if isTerminated l then [] else ['\n', '\n']).flatten

/-- The lines of an operation. -/
def opText (old new : List Text) (op : Op) : Text :=
  let deleted := range old op.oldStart op.oldLength
  match op.kind with
  | .keep => marked ' ' deleted
  | _ => marked '-' deleted ++ marked '+' (range new op.newStart op.newLength)

/-- The text of a hunk. -/
def hunk (old new : List Text) (group : List Op) : String :=
  header group ++ Text.asString (group.map (opText old new)).flatten

/-- The operations between the lines of two texts. -/
def ops (old new : List Text) : List Op := joinAll (compact old new (compare old new))

/-- The hunks of the difference of two texts. -/
def unified (old new : Text) : String :=
  let (old, new) := (lines old, lines new)
  String.join ((groups (ops old new)).map (hunk old new))

end LinePatch.Diff
