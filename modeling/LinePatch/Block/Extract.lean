import LinePatch.Block.Basic
import LinePatch.Block.Boundary

/-!
# Extraction of blocks

A block starts on the first line that contains its declaration and ends where a boundary says.

* `Document.extract`: the block of a declaration.
* `spansWholeBlock`: whether a text, written somewhere, is found again as one whole block.
-/

namespace LinePatch

/-- Why a block was not extracted. -/
inductive ExtractFailure
  | declarationNotFound (declaration : Text)
  | boundaryNotFound (declaration : Text) (line : Nat) (reason : Boundary.Failure)
  deriving DecidableEq, Repr

/-- The text of a failure, with lines counted from one. -/
def ExtractFailure.message : ExtractFailure → String
  | .declarationNotFound declaration => s!"declaration not found: '{declaration.asString}'"
  | .boundaryNotFound declaration line reason =>
    s!"block boundary not found for '{declaration.asString}' declared at line {line + 1}: " ++
      reason.message

/-- The block that starts on the line of a declaration. Whatever last line the boundary names, it
counts only inside the document and not before the first. -/
def Document.extract (d : Document) (declaration : Text) (boundary : Boundary) :
    Except ExtractFailure Block :=
  match d.locate declaration with
  | none => .error (.declarationNotFound declaration)
  | some first =>
    match boundary.blockEnd d first with
    | .error reason => .error (.boundaryNotFound declaration first reason)
    | .ok last =>
      if d.length ≤ last then
        .error (.boundaryNotFound declaration first (.outOfRange last d.length))
      else
        match Block.ofBounds? first last with
        | none => .error (.boundaryNotFound declaration first (.unbalanced last))
        | some block => .ok block

/-- The lines of a replacement as a document of their own, with the line that follows. -/
def standalone (replacement : Text) (follower : Option Text) : Document :=
  .ofText (((Text.lines replacement).map (· ++ ['\n'])).flatten ++
    match follower with
    | none => []
    | some line => line ++ ['\n'])

/-- Whether a replacement is one block from its first line to its last, judged with the line that
follows it. -/
def spansWholeBlock (replacement declaration : Text) (boundary : Boundary)
    (follower : Option Text) : Bool :=
  match (standalone replacement follower).extract declaration boundary with
  | .ok block => block.first == 0 && block.last + 1 == (Text.lines replacement).length
  | .error _ => false

end LinePatch
