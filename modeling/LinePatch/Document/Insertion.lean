import LinePatch.Document.Edit

/-!
# Insertion of snippets

A snippet goes in front of a line or behind it, its lines terminated like that line.

* `insertion`: the edit that inserts a snippet.
* `insertionUnless`: the same, unless the document contains the sentinel.
-/

namespace LinePatch

/-- Where a snippet goes relative to its anchor line. -/
inductive Placement
  | before
  | after
  deriving DecidableEq, Repr

namespace Document

/-- The edit that inserts a snippet beside a line. Behind a last line without terminator, that
line is written again with one, and the snippet ends without. -/
def insertion (d : Document) (line : Nat) (snippet : Text) : Placement → Edit
  | .before =>
    let ending := d.endingAt line
    .insertAt line (Text.terminatedLines snippet ending ending)
  | .after =>
    let ending := d.endingAt line
    if (d.terminator line).isEmpty then
      { start := line
        stop := line + 1
        newLines := ((d.line? line).getD [] ++ ending) :: Text.terminatedLines snippet ending [] }
    else .insertAt (line + 1) (Text.terminatedLines snippet ending ending)

/-- The edit that inserts a snippet, or nothing where the document contains the sentinel. -/
def insertionUnless (d : Document) (sentinel : Text) (line : Nat) (snippet : Text)
    (placement : Placement) : Option Edit :=
  if d.contains sentinel then none else some (d.insertion line snippet placement)

end Document

end LinePatch
