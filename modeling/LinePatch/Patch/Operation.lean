import LinePatch.Block.Boundary
import LinePatch.Document.Insertion

/-!
# Operations

A patch is a list of operations. Each inserts a snippet beside an anchor line, guarded by a
sentinel against a second insertion, or replaces the block of a declaration.
-/

namespace LinePatch

/-- A literal that names no digest. -/
structure MalformedDigest where
  literal : Text
  deriving DecidableEq, Repr

/-- The text of the failure. -/
def MalformedDigest.message (m : MalformedDigest) : String :=
  s!"invalid xxh3 hash value: {m.literal.asString}"

/-- The algorithms of digests. -/
inductive DigestAlgorithm
  | xxh3
  deriving DecidableEq, Repr

/-- What a block must hold before it is replaced, as the patch writes it. -/
inductive Verify
  | exactMatch (expectedText : Text)
  /-- A digest literal; the algorithm may be left out. -/
  | hash (algorithm : Option DigestAlgorithm) (expected : Text)
  deriving DecidableEq, Repr

/-- The guard that a verification stands for; a malformed digest literal stands for none. -/
def Verify.guard : Verify → Except MalformedDigest Guard
  | .exactMatch expectedText => .ok (.exact expectedText)
  | .hash _ expected =>
    match Digest.ofLiteral? expected with
    | some h => .ok (.digest h)
    | none => .error ⟨expected⟩

/-- The insertion of a snippet beside the first line that contains the anchor. -/
structure SnippetInsertion where
  placement : Placement
  anchor : Text
  snippet : Text
  sentinel : Option Text := none
  deriving DecidableEq, Repr

/-- The sentinel that guards an insertion: the given one, or the first line of the snippet that is
not blank, trimmed. -/
def SnippetInsertion.effectiveSentinel (i : SnippetInsertion) : Option Text :=
  match i.sentinel with
  | some sentinel => some sentinel
  | none => ((Text.lines i.snippet).map Text.trim).find? (!·.isEmpty)

/-- The replacement of the block of a declaration. -/
structure BlockReplacement where
  declaration : Text
  marker : Option Text := none
  kind : Boundary.Kind := .nextMarker
  replacement : Text
  verify : Option Verify := none
  deriving DecidableEq, Repr

/-- The boundary of the block; none if the kind needs a marker and there is none. -/
def BlockReplacement.boundary? (r : BlockReplacement) : Option Boundary :=
  r.kind.boundary? r.marker

/-- The line that follows the block, as far as the operation says it. -/
def BlockReplacement.follower (r : BlockReplacement) : Option Text := r.kind.follower r.marker

/-- One step of a patch. -/
inductive Operation
  | insert (insertion : SnippetInsertion)
  | replace (replacement : BlockReplacement)
  deriving DecidableEq, Repr

namespace Operation

/-- The name of what an operation does. -/
def kindName : Operation → String
  | .insert i =>
    match i.placement with
    | .before => "insert_before"
    | .after => "insert_after"
  | .replace _ => "replace_block"

/-- The text that an operation looks for. -/
def anchor : Operation → Text
  | .insert i => i.anchor
  | .replace r => r.declaration

/-- The sentinel that guards an operation; a replacement has none. -/
def sentinel : Operation → Option Text
  | .insert i => i.effectiveSentinel
  | .replace _ => none

end Operation

end LinePatch
