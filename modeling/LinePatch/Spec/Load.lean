import LinePatch.Files.Tree
import LinePatch.Spec.Basic
import LinePatch.Spec.Format

/-!
# Loading specifications

A specification is read from a text in its format, and refused where its operations have issues.

* `PatchSpec.load`: from a text in a given format.
* `PatchSpec.loadInline`: from a text whose format is sniffed.
* `PatchSpec.loadFile`: from a file, in the format that its name shows.
* `PatchSpec.resolveTarget`: the file to patch.
-/

namespace LinePatch

/-! ## Faults -/

/-- Why a text is not read as JSON specification. -/
inductive JsonFault
  /-- The text is no JSON. -/
  | malformed
  /-- The text ends before the JSON does. -/
  | endOfText
  /-- The JSON is no specification. -/
  | unsuitable
  deriving DecidableEq, Repr

/-- The fault of a text as a specification. -/
def JsonFault.ofFault : Json.Fault → JsonFault
  | .malformed => .malformed
  | .endOfText => .endOfText

/-- What is wrong with the text of a specification. -/
inductive SpecFault
  | toml
  | json (fault : JsonFault)
  | issues (issues : List Issue)
  deriving DecidableEq, Repr

/-- Why there is no specification or no target. -/
inductive SpecError
  | unreadable (path : Text) (error : FileError)
  | faulty (path : Option Text) (fault : SpecFault)
  | missingTarget
  deriving DecidableEq, Repr

namespace SpecError

/-- The file of a specification in a message. -/
def fileNote : Option Text → String
  | none => ""
  | some path => s!" ({path.asString})"

/-- What an error is about. -/
def subject : SpecError → String
  | .unreadable path _ => s!"failed to read patch spec from {path.asString}: "
  | .faulty path .toml => s!"failed to parse patch spec TOML{fileNote path}: "
  | .faulty path (.json _) => s!"failed to parse patch spec JSON{fileNote path}: "
  | .faulty path (.issues _) => s!"invalid patch spec{fileNote path}: "
  | .missingTarget => "no target file: pass one on the command line or set meta.target"

/-- What an error was caused by. -/
def cause? : SpecError → Option String
  | .unreadable _ error => some error.message
  | .faulty _ .toml => some "not a TOML patch specification"
  | .faulty _ (.json .malformed) => some "not JSON"
  | .faulty _ (.json .endOfText) => some "unexpected end of text"
  | .faulty _ (.json .unsuitable) => some "not a patch specification"
  | .faulty _ (.issues issues) => some (Issue.messages issues)
  | .missingTarget => none

/-- The text of an error. -/
def message (e : SpecError) : String := e.subject ++ e.cause?.getD ""

/-- The exit code of an error: 4 for files that cannot be read, 5 for faulty specifications. -/
def exitCode : SpecError → Nat
  | .unreadable _ _ => 4
  | _ => 5

end SpecError

namespace PatchSpec

/-! ## Reading -/

/-- The specification that a TOML text holds. -/
def readToml (t : Text) : Except SpecFault PatchSpec :=
  match (Toml.parse t).bind fun es => ofDatum? true (Toml.table .header es).toDatum with
  | some spec => .ok spec
  | none => .error .toml

/-- The specification that a JSON text holds. What follows the value is looked at last. -/
def readJson (t : Text) : Except SpecFault PatchSpec :=
  match Json.read t with
  | .error fault => .error (.json (.ofFault fault))
  | .ok (v, rest) =>
    match ofJsonDatum? v.toDatum with
    | none => .error (.json .unsuitable)
    | some spec =>
      if (Json.skipSpace rest).isEmpty then .ok spec else .error (.json .malformed)

/-- The specification that a text in a given format holds. -/
def read : SpecFormat → Text → Except SpecFault PatchSpec
  | .toml => readToml
  | .json => readJson

/-- A specification without issues. -/
def validated (spec : PatchSpec) : Except SpecFault PatchSpec :=
  match LinePatch.issues spec.operations with
  | [] => .ok spec
  | found => .error (.issues found)

/-! ## Loading -/

/-- The specification without issues that a text in a given format holds. -/
def load (format : SpecFormat) (t : Text) : Except SpecFault PatchSpec :=
  match read format t with
  | .error fault => .error fault
  | .ok spec => spec.validated

/-- The specification that a text holds whose format is sniffed. -/
def loadInline (t : Text) : Except SpecFault PatchSpec := load (.sniff t) t

/-- The specification in a file that reads as given. -/
def loadFile (path : Text) (contents : Except FileError Text) : Except SpecError PatchSpec :=
  match contents with
  | .error e => .error (.unreadable path e)
  | .ok t =>
    match load (.ofPath path) t with
    | .error fault => .error (.faulty (some path) fault)
    | .ok spec => .ok spec

/-! ## Targets -/

/-- The file to patch: the one asked for, or else the one that the specification names, relative
to its directory. -/
def resolveTarget (spec : PatchSpec) (asked : Option Text) (directory : Text) :
    Except SpecError Text :=
  match asked with
  | some path => .ok path
  | none =>
    match spec.info.target.map Text.trim with
    | none => .error .missingTarget
    | some [] => .error .missingTarget
    | some target => .ok (Path.join directory target)

end PatchSpec

end LinePatch
