import LinePatch.Patch.Issue
import LinePatch.Spec.Datum

/-!
# Patch specifications

A specification names a patch, may describe it and say its target, and lists its operations.

* `PatchSpec.ofDatum?`: the specification that a datum stands for.
* `PatchSpec.ofJsonDatum?`: the same for JSON, where the list of operations alone will do.
-/

namespace LinePatch

/-- What a specification says about the patch as a whole. -/
structure PatchInfo where
  name : Text := []
  description : Option Text := none
  /-- The file to patch, relative to the directory of the specification. -/
  target : Option Text := none
  deriving DecidableEq, Repr

/-- A patch specification. -/
structure PatchSpec where
  info : PatchInfo := {}
  operations : List Operation := []
  deriving DecidableEq, Repr

/-! ## Reading the parts -/

open Datum

/-- What a datum says about a patch. -/
def PatchInfo.ofDatum? (surplus : Bool) (d : Datum) : Option PatchInfo := do
  match ← d.fields surplus ["name", "description", "target"] with
  | [name, description, target] =>
    return {
      name := ← orDefault [] text? name
      description := ← orDefault none (optional text?) description
      target := ← orDefault none (optional text?) target }
  | _ => none

/-- A verification. -/
def Verify.ofDatum? (d : Datum) : Option Verify := do
  match ← d.tagged "method" ["exact_match", "hash"] with
  | ("exact_match", d) =>
    match ← d.fields false ["expected_text"] with
    | [expected] => return .exactMatch (← required text? expected)
    | _ => none
  | (_, d) =>
    match ← d.fields false ["algorithm", "expected"] with
    | [algorithm, expected] =>
      let algorithm ← orDefault none (optional (plainVariant ["xxh3"])) algorithm
      return .hash (algorithm.map fun _ => .xxh3) (← required text? expected)
    | _ => none

/-- The kind of boundary that a datum names. -/
def Boundary.Kind.ofDatum? (d : Datum) : Option Boundary.Kind :=
  match d.plainVariant ["next-marker", "brace-depth"] with
  | some "next-marker" => some .nextMarker
  | some _ => some .braceDepth
  | none => none

/-- An insertion with a given placement. -/
def SnippetInsertion.ofDatum? (placement : Placement) (d : Datum) : Option SnippetInsertion := do
  match ← d.fields false ["anchor", "snippet", "sentinel"] with
  | [anchor, snippet, sentinel] =>
    return {
      placement
      anchor := ← required text? anchor
      snippet := ← required text? snippet
      sentinel := ← orDefault none (optional text?) sentinel }
  | _ => none

/-- A block replacement. -/
def BlockReplacement.ofDatum? (d : Datum) : Option BlockReplacement := do
  match ← d.fields false
      ["declaration_anchor", "next_marker", "strategy", "replacement", "verify"] with
  | [declaration, marker, kind, replacement, verify] =>
    return {
      declaration := ← required text? declaration
      marker := ← orDefault none (optional text?) marker
      kind := ← orDefault .nextMarker Boundary.Kind.ofDatum? kind
      replacement := ← required text? replacement
      verify := ← orDefault none (optional Verify.ofDatum?) verify }
  | _ => none

/-- An operation. -/
def Operation.ofDatum? (d : Datum) : Option Operation := do
  match ← d.tagged "kind" ["insert_before", "insert_after", "replace_block"] with
  | ("insert_before", d) => return .insert (← SnippetInsertion.ofDatum? .before d)
  | ("insert_after", d) => return .insert (← SnippetInsertion.ofDatum? .after d)
  | (_, d) => return .replace (← BlockReplacement.ofDatum? d)

/-- A list of operations. -/
def operations? : Datum → Option (List Operation)
  | .list items => items.mapM Operation.ofDatum?
  | _ => none

/-! ## Reading a whole -/

/-- A specification; `surplus` says whether a list that stands for its information may be longer
than that. -/
def PatchSpec.ofDatum? (surplus : Bool) (d : Datum) : Option PatchSpec := do
  match ← d.fields false ["meta", "operations"] with
  | [info, operations] =>
    return {
      info := ← orDefault {} (PatchInfo.ofDatum? surplus) info
      operations := ← orDefault [] operations? operations }
  | _ => none

/-- A specification in JSON: a list of operations if it can be one, and else the whole. -/
def PatchSpec.ofJsonDatum? (d : Datum) : Option PatchSpec :=
  match operations? d with
  | some operations => some { operations }
  | none => PatchSpec.ofDatum? false d

end LinePatch
