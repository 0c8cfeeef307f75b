import LinePatch.Json.Reader
import LinePatch.Toml.Document

/-!
# Data of a specification

What a patch specification is read from, whichever format it is written in.

* `Datum.fields`: the fields of a structure, from a record or from a list in their order.
* `Datum.variant`: which of some names a datum selects.
-/

namespace LinePatch

/-- A datum of a specification. Only what a specification can hold is told apart: booleans, dates
and numbers that select nothing are all the same. -/
inductive Datum
  | null
  | natural (n : Nat)
  | text (t : Text)
  | list (items : List Datum)
  | record (fields : List (Text × Datum))
  | other
  deriving Repr

/-! ## From JSON -/

mutual

/-- The datum of a JSON value. -/
def Json.toDatum : Json → Datum
  | .null => .null
  | .bool _ => .other
  | .number literal =>
    match natural? literal with
    | some n => .natural n
    | none => .other
  | .string t => .text t
  | .array items => .list (itemData items)
  | .object members => .record (memberData members)

/-- The data of the items of an array. -/
def Json.itemData : List Json → List Datum
  | [] => []
  | v :: vs => v.toDatum :: itemData vs

/-- The data of the members of an object. -/
def Json.memberData : List (Text × Json) → List (Text × Datum)
  | [] => []
  | (key, v) :: ms => (key, v.toDatum) :: memberData ms

end

/-! ## From TOML -/

mutual

/-- The datum of a TOML value. A date is a record with one field that no structure has. -/
def Toml.toDatum : Toml → Datum
  | .string t => .text t
  | .integer _ => .other
  | .float _ => .other
  | .boolean _ => .other
  | .datetime literal => .record [("datetime".toList, .text literal)]
  | .array items => .list (itemData items)
  | .table _ entries => .record (entryData entries)
  | .tables items => .list (tableData items)

/-- The data of the items of an array. -/
def Toml.itemData : List Toml → List Datum
  | [] => []
  | v :: vs => v.toDatum :: itemData vs

/-- The data of the entries of a table. -/
def Toml.entryData : List (Text × Toml) → List (Text × Datum)
  | [] => []
  | (key, v) :: es => (key, v.toDatum) :: entryData es

/-- The data of the tables of an array. -/
def Toml.tableData : List (List (Text × Toml)) → List Datum
  | [] => []
  | es :: ts => .record (entryData es) :: tableData ts

end

namespace Datum

/-! ## Scalars -/

/-- The text that a datum is. -/
def text? : Datum → Option Text
  | .text t => some t
  | _ => none

/-- A datum that may be null. -/
def optional {α : Type} (read : Datum → Option α) : Datum → Option (Option α)
  | .null => some none
  | d => (read d).map some

/-- A field that may be absent, with its default. -/
def orDefault {α : Type} (default : α) (read : Datum → Option α) : Option Datum → Option α
  | none => some default
  | some d => read d

/-- A field that must be present. -/
def required {α : Type} (read : Datum → Option α) (field : Option Datum) : Option α :=
  field.bind read

/-! ## Structures -/

/-- The value of a field of a record: absent, present once, or repeated, which is refused. -/
def field (name : String) (fields : List (Text × Datum)) : Option (Option Datum) :=
  match fields.filter (·.1 == name.toList) with
  | [] => some none
  | [(_, d)] => some (some d)
  | _ => none

/-- The items of a list by position, as many as there are names; `surplus` says whether more are
allowed. -/
def positions (surplus : Bool) : List String → List Datum → Option (List (Option Datum))
  | [], items => if surplus || items.isEmpty then some [] else none
  | _ :: names, [] => (positions surplus names []).map (none :: ·)
  | _ :: names, d :: ds => (positions surplus names ds).map (some d :: ·)

/-- The fields of a structure with the given names, in their order. Other fields of a record do
not count. -/
def fields (surplus : Bool) (names : List String) : Datum → Option (List (Option Datum))
  | .record fs => names.mapM fun name => field name fs
  | .list items => positions surplus names items
  | _ => none

/-! ## Variants -/

/-- The name that a datum selects, by itself or by position. -/
def variant (names : List String) : Datum → Option String
  | .text t => names.find? (·.toList == t)
  | .natural n => names[n]?
  | _ => none

/-- Whether a datum stands for nothing. -/
def isUnit : Datum → Bool
  | .null => true
  | .record [] => true
  | _ => false

/-- The name that a datum selects, where it may also be the only key of a record that stands for
nothing. -/
def plainVariant (names : List String) : Datum → Option String
  | .text t => variant names (.text t)
  | .record [(key, d)] => if d.isUnit then variant names (.text key) else none
  | _ => none

/-- The variant that a tag selects, and the datum without its tag: the tag is a field of a record
or the first item of a list. -/
def tagged (tag : String) (names : List String) : Datum → Option (String × Datum)
  | .record fs => do
    let name ← (← field tag fs).bind (variant names)
    return (name, .record (fs.filter (·.1 != tag.toList)))
  | .list (d :: ds) => do return (← variant names d, .list ds)
  | _ => none

end Datum

end LinePatch
