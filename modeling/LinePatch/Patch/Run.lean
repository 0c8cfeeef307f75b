import LinePatch.Anchor.Nearest
import LinePatch.Block.Extract
import LinePatch.Patch.Operation

/-!
# Runs of a patch

A run applies operations in order to a working copy and stops at the first that fails.

* `Operation.apply`: one operation on a document.
* `run`: a list of operations on a document.
-/

namespace LinePatch

/-! ## Reports -/

/-- What an operation did. -/
inductive Status
  /-- A snippet was inserted; `line` is its first line. -/
  | inserted (line count : Nat)
  /-- The block, counted in the document before, was replaced. -/
  | replaced (block : Block) (count : Nat)
  | alreadyApplied
  deriving DecidableEq, Repr

/-- The text of a status, with lines counted from one. -/
def Status.message : Status → String
  | .inserted line count => s!"inserted {count} line(s) at line {line + 1}"
  | .replaced block count => s!"replaced {block.message} with {count} line(s)"
  | .alreadyApplied => "already applied"

/-- The entry of an operation in the report of a run. -/
structure ReportEntry where
  /-- The position of the operation, counted from zero. -/
  index : Nat
  kindName : String
  status : Status
  deriving DecidableEq, Repr

/-- The operation of an entry, counted from one. -/
def ReportEntry.subject (e : ReportEntry) : String := s!"#{e.index + 1} {e.kindName}"

/-- The text of an entry. -/
def ReportEntry.message (e : ReportEntry) : String := s!"{e.subject}: {e.status.message}"

/-- Whether the operation of an entry changed the document. -/
def ReportEntry.isApplied (e : ReportEntry) : Bool := e.status != .alreadyApplied

/-- A run that reached its end: the patched document, and an entry for each operation. -/
structure RunResult where
  document : Document
  report : List ReportEntry
  deriving DecidableEq, Repr

namespace RunResult

/-- Whether an operation changed the document. -/
def changed (r : RunResult) : Bool := r.report.any ReportEntry.isApplied

/-- The number of operations that changed the document. -/
def appliedCount (r : RunResult) : Nat := (r.report.filter ReportEntry.isApplied).length

/-- The number of operations that found their work done. -/
def alreadyAppliedCount (r : RunResult) : Nat := r.report.length - r.appliedCount

end RunResult

/-! ## Failures -/

/-- Why an operation is not one that can be applied to any document. -/
inductive Invalid
  | noSentinel
  | noMarker (kind : Boundary.Kind)
  | malformedDigest (digest : MalformedDigest)
  deriving DecidableEq, Repr

/-- The text of an invalid operation. -/
def Invalid.message : Invalid → String
  | .noSentinel => "snippet is empty and no sentinel was given"
  | .noMarker kind => s!"{kind.name} strategy requires next_marker"
  | .malformedDigest digest => digest.message

/-- Why an operation failed. -/
inductive Failure
  | anchorNotFound (anchor : Text) (nearest : Option (NearLine Similarity))
  | declarationNotFound (declaration : Text) (nearest : Option (NearLine Similarity))
  | boundaryNotFound (declaration : Text) (line : Nat) (reason : Boundary.Failure)
  | verificationFailed (declaration : Text) (block : Block) (found : UInt64)
  | malformedReplacement (declaration : Text)
  | invalidOperation (reason : Invalid)
  | edit (failure : Edit.Failure)
  deriving Repr

/-- The nearest line, if there is one, behind the text of a failure. -/
def nearestHint : Option (NearLine Similarity) → String
  | none => ""
  | some l => s!" (nearest match: {l.message})"

/-- The text of a failure. -/
def Failure.message : Failure → String
  | .anchorNotFound anchor nearest =>
    s!"anchor '{anchor.asString}' not found{nearestHint nearest}"
  | .declarationNotFound declaration nearest =>
    s!"declaration '{declaration.asString}' not found{nearestHint nearest}"
  | .boundaryNotFound declaration line reason =>
    (ExtractFailure.boundaryNotFound declaration line reason).message
  | .verificationFailed declaration block found =>
    s!"block '{declaration.asString}' at {block.message} does not match the expected content " ++
      s!"(found xxh3 {(Digest.literal found).asString})"
  | .malformedReplacement declaration =>
    s!"replacement for '{declaration.asString}' is not exactly one balanced block"
  | .invalidOperation reason => reason.message
  | .edit failure => s!"edit failed: {failure.message}"

/-- The exit code of a failure: 2 where nothing was found, 3 where the block is not the expected
one, 5 where the operation itself is at fault. -/
def Failure.exitCode : Failure → Nat
  | .anchorNotFound _ _ | .declarationNotFound _ _ => 2
  | .boundaryNotFound _ _ _ | .verificationFailed _ _ _ | .edit _ => 3
  | .malformedReplacement _ | .invalidOperation _ => 5

/-- The line closest to a failure, counted from one, where it has one. -/
def Failure.lineNumber? : Failure → Option Nat
  | .anchorNotFound _ nearest | .declarationNotFound _ nearest => nearest.map NearLine.number
  | .boundaryNotFound _ line _ => some (line + 1)
  | .verificationFailed _ block _ => some (block.first + 1)
  | _ => none

/-- The failure of an operation of a run. -/
structure RunFailure where
  /-- The position of the operation, counted from zero. -/
  index : Nat
  failure : Failure
  deriving Repr

/-- The text of the failure, with operations counted from one. -/
def RunFailure.message (f : RunFailure) : String :=
  s!"operation #{f.index + 1}: {f.failure.message}"

/-! ## Operations on a document -/

/-- An insertion on a document. The sentinel is looked for before the anchor, so that a second
run succeeds even where the anchor is gone. -/
def SnippetInsertion.apply (i : SnippetInsertion) (d : Document) :
    Except Failure (Status × Document) :=
  match i.effectiveSentinel with
  | none => .error (.invalidOperation .noSentinel)
  | some sentinel =>
    if d.contains sentinel then .ok (.alreadyApplied, d)
    else
      match d.locate i.anchor with
      | none => .error (.anchorNotFound i.anchor (d.nearest i.anchor))
      | some line =>
        match (d.insertion line i.snippet i.placement).apply d with
        | .error failure => .error (.edit failure)
        | .ok (.alreadyApplied, d') => .ok (.alreadyApplied, d')
        | .ok (.applied _ _, d') =>
          let first := match i.placement with
            | .before => line
            | .after => line + 1
          .ok (.inserted first (Text.lines i.snippet).length, d')

/-- The raw lines of a replacement for a block that ends on line `last`: terminated like that
line, the last one exactly so. -/
def BlockReplacement.newLines (r : BlockReplacement) (d : Document) (last : Nat) : List Text :=
  Text.terminatedLines r.replacement (d.endingAt last) (d.terminator last)

/-- The edit that replaces a block, without its guard. -/
def BlockReplacement.edit (r : BlockReplacement) (d : Document) (block : Block) : Edit where
  start := block.first
  stop := block.stop
  newLines := r.newLines d block.last

/-- The guard of a replacement, if it has one. -/
def BlockReplacement.guard (r : BlockReplacement) : Except MalformedDigest (Option Guard) :=
  match r.verify with
  | none => .ok none
  | some verify =>
    match verify.guard with
    | .ok guard => .ok (some guard)
    | .error digest => .error digest

/-- The block that a replacement replaces. The replacement must itself be one whole block, as
anything beside it would be left behind by the next run. -/
def BlockReplacement.target (r : BlockReplacement) (d : Document) : Except Failure Block :=
  if !isBalanced r.replacement then .error (.malformedReplacement r.declaration)
  else
    match r.boundary? with
    | none => .error (.invalidOperation (.noMarker r.kind))
    | some boundary =>
      match d.extract r.declaration boundary with
      | .error (.declarationNotFound declaration) =>
        .error (.declarationNotFound declaration (d.nearest declaration))
      | .error (.boundaryNotFound declaration line reason) =>
        .error (.boundaryNotFound declaration line reason)
      | .ok block =>
        if spansWholeBlock r.replacement r.declaration boundary r.follower then .ok block
        else .error (.malformedReplacement r.declaration)

/-- A block replacement on a document. -/
def BlockReplacement.apply (r : BlockReplacement) (d : Document) :
    Except Failure (Status × Document) :=
  match r.target d with
  | .error failure => .error failure
  | .ok block =>
    match r.guard with
    | .error digest => .error (.invalidOperation (.malformedDigest digest))
    | .ok guard =>
      match { r.edit d block with guard }.apply d with
      | .ok (.alreadyApplied, d') => .ok (.alreadyApplied, d')
      | .ok (.applied _ inserted, d') => .ok (.replaced block inserted, d')
      | .error (.guardMismatch _ _ _ found) =>
        .error (.verificationFailed r.declaration block (digest found))
      | .error failure => .error (.edit failure)

/-- An operation on a document. -/
def Operation.apply : Operation → Document → Except Failure (Status × Document)
  | .insert i, d => i.apply d
  | .replace r, d => r.apply d

/-! ## Lists of operations -/

/-- Operations on a document, the first of which has a given index. -/
def runFrom : Nat → List Operation → Document → Except RunFailure RunResult
  | _, [], d => .ok ⟨d, []⟩
  | i, op :: ops, d =>
    match op.apply d with
    | .error failure => .error ⟨i, failure⟩
    | .ok (status, d') =>
      match runFrom (i + 1) ops d' with
      | .error failure => .error failure
      | .ok result => .ok ⟨result.document, ⟨i, op.kindName, status⟩ :: result.report⟩

/-- A run of operations on a document, which itself is never changed. -/
def run (ops : List Operation) (d : Document) : Except RunFailure RunResult := runFrom 0 ops d

end LinePatch
