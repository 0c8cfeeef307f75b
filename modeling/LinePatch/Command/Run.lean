import LinePatch.Command.Arguments
import LinePatch.Diff.Unified
import LinePatch.Patch.File
import LinePatch.Spec.Load

/-!
# Commands

What a command writes, where it exits, and which file it commits.

* `Command.run`: a command, from what reading files gives.
* `Program.run`: a command line on a file tree.
-/

namespace LinePatch

/-! ## Output -/

/-- The output of a command, its exit code, and the outcome that it commits, if there is one. -/
structure Output where
  exitCode : Nat
  stdout : String := ""
  stderr : String := ""
  outcome : Option FileOutcome := none
  deriving Repr

/-- Lines as a text. -/
def unlines (ls : List String) : String := String.join (ls.map (· ++ "\n"))

/-- The texts of an error and its cause, in one line. An error names its cause already, and the
cause follows once more. -/
def SpecError.chain (e : SpecError) : String :=
  match e.cause? with
  | none => e.message
  | some cause => s!"{e.message}: {cause}"

/-- The output of a command that has no specification. -/
def Output.ofSpecError (e : SpecError) : Output where
  exitCode := e.exitCode
  stderr := unlines [s!"error: {e.chain}"]

namespace Command

/-! ## Reports -/

/-- The lines that name a patch and its target. -/
def headerLines (spec : PatchSpec) (target : Text) : List String :=
  (if spec.info.name.isEmpty then [] else [s!"Patch: {spec.info.name.asString}"]) ++
    (match spec.info.description with
      | none => []
      | some description => [description.asString]) ++
    [s!"Target: {target.asString}", ""]

/-- What is said of a failure of an operation. -/
def diagnosis : Failure → List String
  | .anchorNotFound anchor nearest | .declarationNotFound anchor nearest =>
    ["  CONFLICT: Anchor matched no line", s!"  Anchor: {anchor.asString}"] ++
      (match nearest with
        | none => []
        | some l => [s!"  Nearest: {l.message}"]) ++
      ["  Possible causes:", "    - Target file was updated and the anchor text changed",
        "    - Spec points at the wrong file"]
  | .boundaryNotFound _ line reason =>
    ["  CONFLICT: Block boundary not found", s!"  Declaration: line {line + 1}",
      s!"  Reason: {reason.message}",
      "  Action: Check next_marker, or try strategy = \"brace-depth\""]
  | .verificationFailed _ block found =>
    ["  CONFLICT: Block changed since the patch was written", s!"  Block: {block.message}",
      s!"  Found: xxh3 {(Digest.literal found).asString}"]
  | .edit failure => [s!"  Edit error: {failure.message}"]
  | .malformedReplacement _ | .invalidOperation _ => []

/-- The report of a patch that failed. -/
def failureLines (ops : List Operation) (failure : FileFailure) : List String :=
  [s!"✗ {failure.message}"] ++
    (match failure with
      | .unreadable _ _ => []
      | .run f =>
        (match ops[f.index]? with
          | none => []
          | some op => [s!"  Operation kind: {op.kindName}"]) ++ diagnosis f.failure) ++
    ["  No changes were written"]

/-- The line of an applied operation. -/
def appliedLine (dryRun : Bool) (e : ReportEntry) : String :=
  if !e.isApplied then s!"⊙ {e.message}"
  else if dryRun then s!"✓ {e.message} (dry run)"
  else s!"✓ {e.message}"

/-- The line of an operation that was only checked. -/
def checkedLine (e : ReportEntry) : String :=
  if e.isApplied then s!"⊙ {e.message} (PENDING)" else s!"✓ {e.subject}: APPLIED"

/-- The difference that a patch makes to a file. -/
def diffText (o : FileOutcome) : String :=
  let path := o.path.asString
  unlines ["", s!"--- {path} (original)", s!"+++ {path} (patched)"] ++
    Diff.unified o.before o.after

/-- The summary of a patch. -/
def summaryLines (o : FileOutcome) : List String :=
  ["", "Summary:", s!"  {o.result.appliedCount} applied",
    s!"  {o.result.alreadyAppliedCount} already applied",
    if o.written then s!"  wrote {o.path.asString}" else "  file unchanged"]

/-! ## Commands -/

/-- The specification of a source and the directory that its target is relative to. -/
def loadSource (read : Text → Except FileError Text) :
    SpecSource → Except SpecError (PatchSpec × Text)
  | .file path =>
    match PatchSpec.loadFile path (read path) with
    | .error e => .error e
    | .ok spec => .ok (spec, Path.parent path)
  | .inline t =>
    match PatchSpec.loadInline t with
    | .error fault => .error (.faulty none fault)
    | .ok spec => .ok (spec, [])

/-- The specification of a source and its target. -/
def resolve (read : Text → Except FileError Text) (source : SpecSource) (asked : Option Text) :
    Except SpecError (PatchSpec × Text) :=
  match loadSource read source with
  | .error e => .error e
  | .ok (spec, directory) =>
    match spec.resolveTarget asked directory with
    | .error e => .error e
    | .ok target => .ok (spec, target)

/-- Applies a specification to its target. -/
def runApply (read : Text → Except FileError Text) (spec : PatchSpec) (target : Text)
    (dryRun diff : Bool) : Output :=
  let header := headerLines spec target ++
    if dryRun then ["[DRY RUN - nothing will be written]"] else []
  match patchFile spec.operations dryRun target (read target) with
  | .error failure =>
    { exitCode := failure.exitCode
      stdout := unlines header
      stderr := unlines (failureLines spec.operations failure) }
  | .ok o =>
    { exitCode := 0
      stdout := unlines (header ++ o.result.report.map (appliedLine dryRun)) ++
        (if diff && o.result.changed then diffText o else "") ++ unlines (summaryLines o)
      outcome := some o }

/-- Reports which operations of a specification are pending. -/
def runCheck (read : Text → Except FileError Text) (spec : PatchSpec) (target : Text) : Output :=
  let header := "Patch Status Report" :: headerLines spec target
  match patchFile spec.operations true target (read target) with
  | .error failure =>
    { exitCode := failure.exitCode
      stdout := unlines header
      stderr := unlines (failureLines spec.operations failure) }
  | .ok o =>
    let pending := o.result.appliedCount
    let verdict := if pending = 0 then "All operations applied"
      else s!"{pending} of {o.result.report.length} operation(s) pending"
    { exitCode := if pending = 0 then 0 else 1
      stdout := unlines (header ++ o.result.report.map checkedLine ++ ["", verdict])
      outcome := some o }

/-- The report of a block that was not extracted. -/
def extractFailure (d : Document) (failure : ExtractFailure) : Output :=
  match failure with
  | .declarationNotFound declaration =>
    { exitCode := 2
      stderr := unlines (s!"✗ {failure.message}" :: match d.nearest declaration with
        | none => []
        | some l => [s!"  Nearest: {l.message}"]) }
  | .boundaryNotFound _ _ _ => { exitCode := 3, stderr := unlines [s!"✗ {failure.message}"] }

/-- Prints the block of a declaration. -/
def runExtract (read : Text → Except FileError Text) (target declaration : Text)
    (marker : Option Text) (kind : Boundary.Kind) (showText : Bool) : Output :=
  match kind.boundary? marker with
  | none =>
    { exitCode := 5
      stderr := unlines [s!"error: {kind.name} strategy requires --next-marker"] }
  | some boundary =>
    match read target with
    | .error e =>
      { exitCode := 4
        stderr := unlines [s!"error: failed to read {target.asString}: {e.message}"] }
    | .ok t =>
      let d := Document.ofText t
      match d.extract declaration boundary with
      | .error failure => extractFailure d failure
      | .ok block =>
        let text := (block.text? d).getD []
        let shown := if !showText then ""
          else "\n" ++ text.asString ++ if text.getLast? = some '\n' then "" else "\n"
        { exitCode := 0
          stdout := unlines [s!"Block: {block.message}", s!"Strategy: {kind.name}",
            s!"Lines: {block.length}", s!"xxh3: {(Digest.literal (digest text)).asString}"] ++
            shown }

/-- The file that a command reads first. -/
def firstFile? : Command → Option Text
  | .apply _ (.file path) _ _ | .check _ (.file path) => some path
  | .apply _ (.inline _) _ _ | .check _ (.inline _) => none
  | .extract target _ _ _ _ => some target

/-- The file that a command works on, if it gets there. -/
def target? (read : Text → Except FileError Text) : Command → Option Text
  | .apply asked source _ _ | .check asked source =>
    (resolve read source asked).toOption.map Prod.snd
  | .extract target _ _ _ _ => some target

/-- A command, from what reading a file gives. -/
def run (read : Text → Except FileError Text) : Command → Output
  | .apply asked source dryRun diff =>
    match resolve read source asked with
    | .error e => .ofSpecError e
    | .ok (spec, target) => runApply read spec target dryRun diff
  | .check asked source =>
    match resolve read source asked with
    | .error e => .ofSpecError e
    | .ok (spec, target) => runCheck read spec target
  | .extract target declaration marker kind showText =>
    runExtract read target declaration marker kind showText

end Command

/-! ## The program -/

namespace Program

/-- The usage of the program. -/
def usage : String :=
  unlines ["Usage: anchor-patcher [-v] <COMMAND>", "",
    "Commands:",
    "  apply [TARGET] (--patches FILE | --inline SPEC) [--dry-run] [--diff]",
    "  check [TARGET] (--patches FILE | --inline SPEC)",
    "  extract TARGET --declaration ANCHOR [--next-marker MARKER] [--strategy STRATEGY] [--show]",
    "  help [COMMAND]"]

/-- The output where arguments ask for no command. -/
def stopped : Command.Stop → Output
  | .help => { exitCode := 0, stdout := "Idempotent anchor-based text patching\n\n" ++ usage }
  | .version => { exitCode := 0, stdout := "anchor-patcher 0.1.0\n" }
  | .usage => { exitCode := 5, stderr := usage ++ "\nFor more information, try '--help'.\n" }

/-- The output of the program with some arguments, from what reading a file gives. -/
def output (read : Text → Except FileError Text) (args : List Text) : Output :=
  match Command.ofArguments args with
  | .error stop => stopped stop
  | .ok command => command.run read

/-- The program on a file tree: its output, and the tree that it leaves. -/
def run (args : List Text) (tree : FileTree) : Output × FileTree :=
  let o := output tree.readText args
  (o, match o.outcome with
    | none => tree
    | some outcome => outcome.commit tree)

end Program

end LinePatch
