import LinePatch.Digest.Basic
import LinePatch.Document.Basic
import LinePatch.Text.Quoted

/-!
# Line edits

An edit replaces a range of lines by raw lines. It may carry a guard, which says what the range
must hold before; a range that already holds the new lines is left alone whatever the guard says.

* `Edit.apply`: the result of an edit on a document.
-/

namespace LinePatch

/-! ## Guards -/

/-- What a range must hold before it is replaced. -/
inductive Guard
  | exact (text : Text)
  | digest (hash : UInt64)
  deriving DecidableEq, Repr

namespace Guard

/-- Whether a text is the guarded one; line terminators at the end do not count. -/
def admits : Guard → Text → Bool
  | .exact expected, text => Text.trimNewlines text == Text.trimNewlines expected
  | .digest hash, text => LinePatch.digest text == hash

/-- The guard of a text: the text itself up to 1024 bytes, its digest beyond. -/
def ofText (t : Text) : Guard :=
  if 1024 < (Text.utf8 t).length then .digest (LinePatch.digest t) else .exact t

/-- The guard in a report. -/
def description : Guard → String
  | .exact text => s!"ExactMatch({(Text.quoted text).asString})"
  | .digest hash => s!"Hash({hash.toNat})"

end Guard

/-! ## Edits -/

/-- The replacement of the lines from `start` up to `stop` by raw lines. -/
structure Edit where
  start : Nat
  stop : Nat
  newLines : List Text
  guard : Option Guard := none
  deriving DecidableEq, Repr

namespace Edit

/-- The insertion of raw lines in front of a line. -/
def insertAt (line : Nat) (newLines : List Text) : Edit := ⟨line, line, newLines, none⟩

/-- Why an edit was not applied. -/
inductive Failure
  | guardMismatch (start stop : Nat) (expected : Guard) (found : Text)
  | invalidRange (start stop length : Nat)
  deriving DecidableEq, Repr

/-- The text of a failure. -/
def Failure.message : Failure → String
  | .guardMismatch start stop _ _ => s!"Before-text verification failed at lines {start}..{stop}"
  | .invalidRange start stop length =>
    s!"Invalid line range: [{start}, {stop}) in document of {length} lines"

/-- What an edit did. -/
inductive Outcome
  | applied (removed inserted : Nat)
  | alreadyApplied
  deriving DecidableEq, Repr

/-- Whether the edit would leave a range that holds `current` as it is. -/
def isNoop (e : Edit) (current : Text) : Bool :=
  e.start != e.stop && current == e.newLines.flatten

/-- The edit on a document: refused outside of the document, without effect where the new lines
are already there, and refused where the guard does not admit the range. -/
def apply (e : Edit) (d : Document) : Except Failure (Outcome × Document) :=
  match d.sliceText? e.start e.stop with
  | none => .error (.invalidRange e.start e.stop d.length)
  | some current =>
    if e.isNoop current then .ok (.alreadyApplied, d)
    else
      match e.guard with
      | some guard =>
        if guard.admits current then
          .ok (.applied (e.stop - e.start) e.newLines.length, d.splice e.start e.stop e.newLines)
        else .error (.guardMismatch e.start e.stop guard current)
      | none =>
        .ok (.applied (e.stop - e.start) e.newLines.length, d.splice e.start e.stop e.newLines)

/-- The results of edits in order; one that is refused leaves the document as it was, and the
next goes on from there. -/
def applyAll : List Edit → Document → List (Except Failure Outcome × Document)
  | [], _ => []
  | e :: es, d =>
    match e.apply d with
    | .ok (outcome, d') => (.ok outcome, d') :: applyAll es d'
    | .error failure => (.error failure, d) :: applyAll es d

end Edit

end LinePatch
