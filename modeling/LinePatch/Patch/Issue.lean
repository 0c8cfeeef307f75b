import LinePatch.Block.Extract
import LinePatch.Patch.Operation

/-!
# Issues of a patch

What is wrong with a list of operations, found without any document.

* `Operation.issues`: the issues of one operation, in the order of its fields.
* `issues`: those of a list, which must not be empty.
-/

namespace LinePatch

/-- The fields of an operation that must not be blank. -/
inductive RequiredField
  | anchor
  | snippet
  | sentinel
  | declarationAnchor
  | nextMarker
  | replacement
  deriving DecidableEq, Repr

/-- The name of a field in a patch. -/
def RequiredField.name : RequiredField → String
  | .anchor => "anchor"
  | .snippet => "snippet"
  | .sentinel => "sentinel"
  | .declarationAnchor => "declaration_anchor"
  | .nextMarker => "next_marker"
  | .replacement => "replacement"

/-- What is wrong with one operation. -/
inductive Defect
  | missingField (field : RequiredField)
  | sentinelNotInSnippet (sentinel : Text)
  | anchorNotInReplacement
  | malformedDigest (digest : MalformedDigest)
  | unbalancedReplacement
  | replacementNotWholeBlock
  deriving DecidableEq, Repr

/-- What is wrong with a patch; operations are counted from zero. -/
inductive Issue
  | emptyOperationList
  | operation (index : Nat) (defect : Defect)
  deriving DecidableEq, Repr

/-- The text of an issue, with operations counted from one. -/
def Issue.message : Issue → String
  | .emptyOperationList => "patch spec contains no operations"
  | .operation index defect =>
    let subject := s!"operation #{index + 1}"
    match defect with
    | .missingField field => s!"{subject} missing required field '{field.name}'"
    | .sentinelNotInSnippet sentinel =>
      s!"{subject} has invalid configuration: sentinel '{sentinel.asString}' does not " ++
        "occur in the snippet, so re-runs would insert it again"
    | .anchorNotInReplacement =>
      s!"{subject} has invalid configuration: replacement does not contain " ++
        "the declaration anchor, so re-runs could not find the block"
    | .malformedDigest digest => s!"{subject} has invalid configuration: {digest.message}"
    | .unbalancedReplacement => s!"{subject} replacement body has unbalanced braces"
    | .replacementNotWholeBlock =>
      s!"{subject} replacement must be exactly one block, " ++
        "from the declaration line to its closing brace"

/-- The text of several issues, one a line. -/
def Issue.messages (issues : List Issue) : String :=
  "\n".intercalate (issues.map message)

/-- The defects of an insertion. A blank snippet or sentinel hides what would follow from it. -/
def SnippetInsertion.defects (i : SnippetInsertion) : List Defect :=
  (if Text.isBlankText i.anchor then [.missingField .anchor] else []) ++
    if Text.isBlankText i.snippet then [.missingField .snippet]
    else if i.sentinel.any Text.isBlankText then [.missingField .sentinel]
    else match i.effectiveSentinel with
      | none => []
      | some sentinel =>
        if Text.occursIn sentinel i.snippet then [] else [.sentinelNotInSnippet sentinel]

/-- The defects of a replacement text that is not blank: it must be balanced, contain the
declaration, and be one whole block. -/
def BlockReplacement.textDefects (r : BlockReplacement) : List Defect :=
  let balanced := isBalanced r.replacement
  let named := !Text.isBlankText r.declaration
  let keepsDeclaration := Text.occursIn r.declaration r.replacement
  (if balanced then [] else [.unbalancedReplacement]) ++
    (if named && !keepsDeclaration then [.anchorNotInReplacement] else []) ++
    match r.kind.boundary? r.follower with
    | none => []
    | some boundary =>
      if balanced && named && keepsDeclaration &&
          !spansWholeBlock r.replacement r.declaration boundary r.follower then
        [.replacementNotWholeBlock]
      else []

/-- The defects of a block replacement. -/
def BlockReplacement.defects (r : BlockReplacement) : List Defect :=
  (if Text.isBlankText r.declaration then [.missingField .declarationAnchor] else []) ++
    (if r.kind == .nextMarker && Text.isBlankText (r.marker.getD []) then
      [.missingField .nextMarker] else []) ++
    (if Text.isBlankText r.replacement then [.missingField .replacement] else r.textDefects) ++
    match r.verify with
    | none => []
    | some verify =>
      match verify.guard with
      | .ok _ => []
      | .error digest => [.malformedDigest digest]

/-- The defects of an operation. -/
def Operation.defects : Operation → List Defect
  | .insert i => i.defects
  | .replace r => r.defects

/-- The issues of operations, the first of which has a given index. -/
def issuesFrom : Nat → List Operation → List Issue
  | _, [] => []
  | i, op :: ops => op.defects.map (.operation i) ++ issuesFrom (i + 1) ops

/-- The issues of a list of operations. -/
def issues (ops : List Operation) : List Issue :=
  (if ops.isEmpty then [.emptyOperationList] else []) ++ issuesFrom 0 ops

end LinePatch
