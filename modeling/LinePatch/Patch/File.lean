import LinePatch.Files.Tree
import LinePatch.Patch.Run

/-!
# Patches of files

A patch of a file reads it, runs the operations, and commits the text if it changed.

* `patchFile`: what a patch makes of a file, from what reading it gives.
* `FileOutcome.commit`: the tree after the patch.
-/

namespace LinePatch

/-- Why a file was not patched. -/
inductive FileFailure
  | unreadable (path : Text) (error : FileError)
  | run (failure : RunFailure)
  deriving Repr

namespace FileFailure

/-- The text of a failure. -/
def message : FileFailure → String
  | .unreadable path error => s!"I/O error on {path.asString}: {error.message}"
  | .run failure => failure.message

/-- The exit code of a failure. -/
def exitCode : FileFailure → Nat
  | .unreadable _ _ => 4
  | .run failure => failure.failure.exitCode

end FileFailure

/-- What a patch made of a file. -/
structure FileOutcome where
  path : Text
  /-- The text of the file before. -/
  before : Text
  result : RunResult
  /-- Whether the file is written. -/
  written : Bool
  deriving DecidableEq, Repr

/-- The text of the file after the patch, as it is written. -/
def FileOutcome.after (o : FileOutcome) : Text := o.result.document.toText

/-- What a patch makes of a file that reads as given. It is written if an operation changed it,
but never in a dry run. -/
def patchFile (ops : List Operation) (dryRun : Bool) (path : Text)
    (contents : Except FileError Text) : Except FileFailure FileOutcome :=
  match contents with
  | .error e => .error (.unreadable path e)
  | .ok t =>
    match run ops (.ofText t) with
    | .error failure => .error (.run failure)
    | .ok result => .ok ⟨path, t, result, result.changed && !dryRun⟩

/-- A tree after the outcome of a patch. -/
def FileOutcome.commit (o : FileOutcome) (tree : FileTree) : FileTree :=
  if o.written then tree.writeText o.path o.after else tree

end LinePatch
