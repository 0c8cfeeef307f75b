import LinePatch.Text.Numeral

/-!
# TOML values and tables

A table remembers where it comes from, as that decides what may still be added to it.

* `Toml.addEntry`: one `key = value` line in a table.
* `Toml.addTable`, `Toml.addArrayTable`: a section under its header.
-/

namespace LinePatch

/-- Where a table comes from. -/
inductive Toml.Origin
  /-- A header of its own, or the document. -/
  | header
  /-- The header of a table inside. -/
  | implied
  /-- A dotted key. -/
  | dotted
  /-- Braces in one value; nothing can be added. -/
  | closed
  deriving DecidableEq, Repr

/-- A TOML value; numbers and dates of which only the form matters keep their literals. -/
inductive Toml
  | string (value : Text)
  | integer (value : Int)
  | float (literal : Text)
  | boolean (value : Bool)
  | datetime (literal : Text)
  | array (items : List Toml)
  | table (origin : Toml.Origin) (entries : List (Text × Toml))
  /-- The tables under the headers `[[…]]` of one path. -/
  | tables (items : List (List (Text × Toml)))
  deriving Repr

namespace Toml

/-- The entries of a table, in order. -/
abbrev Entries := List (Text × Toml)

/-- A key of one or more parts. -/
structure Path where
  /-- The parts before the last. -/
  tables : List Text
  key : Text
  deriving DecidableEq, Repr

/-! ## Look-up and change -/

/-- The value of a key. -/
def find? (key : Text) : Entries → Option Toml
  | [] => none
  | (k, v) :: es => if k = key then some v else find? key es

/-- The entries with the value of a key set, at its place or at the end. -/
def set (key : Text) (v : Toml) : Entries → Entries
  | [] => [(key, v)]
  | (k, w) :: es => if k = key then (key, v) :: es else (k, w) :: set key v es

/-- The entries with the table at a path changed. Tables on the way are made where there are
none; of an array of tables the last one counts. A path of a dotted key does not enter tables that
have a header, and no path enters a value. -/
def update (dotted : Bool) (change : Origin → Entries → Option Entries) :
    List Text → Origin → Entries → Option Entries
  | [], origin, es => change origin es
  | key :: path, _, es =>
    match find? key es with
    | none =>
      let origin : Origin := if dotted then .dotted else .implied
      (update dotted change path origin []).map fun sub => set key (.table origin sub) es
    | some (.table origin sub) =>
      if origin = .closed ∨ (dotted ∧ origin = .header) then none
      else (update dotted change path origin sub).map fun sub => set key (.table origin sub) es
    | some (.tables items) =>
      match items.getLast? with
      | none => none
      | some last =>
        (update dotted change path .header last).map fun sub =>
          set key (.tables (items.dropLast ++ [sub])) es
    | some _ => none

/-! ## Building a document -/

/-- The entries of a table with one more. A dotted key goes into tables made by dotted keys only,
and no key is given twice. -/
def addEntry (es : Entries) (path : Path) (v : Toml) : Option Entries :=
  let dotted := !path.tables.isEmpty
  update dotted (fun origin sub =>
    if (origin == .dotted) != dotted then none
    else if (find? path.key sub).isSome then none
    else some (set path.key v sub)) path.tables .header es

/-- The entries of a table with some more. -/
def addEntries (es : Entries) (added : List (Path × Toml)) : Option Entries :=
  added.foldlM (fun es (path, v) => addEntry es path v) es

/-- A document with the section of a header `[path]`: a new table, or one that the headers of
tables inside imply. -/
def addTable (document : Entries) (path : Path) (lines : List (Path × Toml)) : Option Entries :=
  update false (fun _ es =>
    match find? path.key es with
    | none => (addEntries [] lines).map fun sub => set path.key (.table .header sub) es
    | some (.table .implied sub) =>
      (addEntries sub lines).map fun sub => set path.key (.table .header sub) es
    | some _ => none) path.tables .header document

/-- A document with the section of a header `[[path]]`: one more table of the array. -/
def addArrayTable (document : Entries) (path : Path) (lines : List (Path × Toml)) :
    Option Entries :=
  update false (fun _ es =>
    match find? path.key es with
    | none => (addEntries [] lines).map fun sub => set path.key (.tables [sub]) es
    | some (.tables items) =>
      (addEntries [] lines).map fun sub => set path.key (.tables (items ++ [sub])) es
    | some _ => none) path.tables .header document

end Toml

end LinePatch
