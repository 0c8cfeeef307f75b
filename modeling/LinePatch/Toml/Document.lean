import LinePatch.Toml.Scalar

/-!
# Reading TOML

* `Toml.parse`: the table of a whole text.

A document is a list of statements, one a line: headers and entries. Arrays and inline tables nest
at most 80 deep, and keys have at most 80 parts.
-/

namespace LinePatch.Toml

/-! ## Keys -/

/-- One part of a key: bare, or a string of one line. -/
def readKeyPart (t : Text) : Option (Text × Text) :=
  match t.takeWhile isWordChar with
  | [] => readQuoted t
  | word => some (word, t.drop word.length)

/-- The parts of a key from the next part on, with the spaces around the points. Each takes at
least one character, so the length of the text is fuel enough. -/
def readParts : Nat → Reader (List Text)
  | 0, _ => none
  | fuel + 1, t => do
    let (part, t) ← readKeyPart (skipSpace t)
    match skipSpace t with
    | '.' :: t =>
      let (parts, t) ← readParts fuel t
      some (part :: parts, t)
    | t => some ([part], t)

/-- The greatest number of parts of a key. -/
def maxParts : Nat := 80

/-- A key, and what follows the spaces behind it. -/
def readKey (t : Text) : Option (Path × Text) := do
  let (parts, t) ← readParts (t.length + 1) t
  if maxParts < parts.length then none
  else
    match parts.getLast? with
    | none => none
    | some key => some (⟨parts.dropLast, key⟩, t)

/-! ## Values -/

/-- The text without spaces, newlines and comments at its start; `comment` says whether a comment
is open. None where a comment or a newline is malformed. -/
def skipGap : Bool → Text → Option Text
  | _, [] => some []
  | _, '\n' :: t => skipGap false t
  | _, '\r' :: '\n' :: t => skipGap false t
  | true, c :: t => if isPlain c then skipGap true t else none
  | false, '#' :: t => skipGap true t
  | false, c :: t => if isSpace c then skipGap false t else some (c :: t)

/-- A key and its value; `skip` takes away what may stand on either side of the equals sign. -/
def readEntry (skip : Text → Option Text) (item : Reader Toml) (t : Text) :
    Option ((Path × Toml) × Text) := do
  let (path, t) ← readKey t
  match ← skip t with
  | '=' :: t =>
    let (v, t) ← item (← skip t)
    some ((path, v), t)
  | _ => none

/-- Items up to a closing character, with commas between them and perhaps behind the last. -/
def readSequence {α : Type} (close : Char) (item : Reader α) : Nat → Reader (List α)
  | 0, _ => none
  | fuel + 1, t => do
    match ← skipGap false t with
    | [] => none
    | c :: rest =>
      if c = close then some ([], rest)
      else
        let (v, t) ← item (c :: rest)
        match ← skipGap false t with
        | ',' :: t =>
          let (vs, t) ← readSequence close item fuel t
          some (v :: vs, t)
        | d :: t => if d = close then some ([v], t) else none
        | [] => none

/-- An array, after its opening bracket. -/
def readArray (item : Reader Toml) (t : Text) : Option (Toml × Text) :=
  (readSequence ']' item (t.length + 1) t).map fun (vs, t) => (.array vs, t)

/-- An inline table, after its opening brace. Its entries may go over several lines. -/
def readInlineTable (item : Reader Toml) (t : Text) : Option (Toml × Text) := do
  let (entries, t) ← readSequence '}' (readEntry (skipGap false) item) (t.length + 1) t
  return (.table .closed (← addEntries [] entries), t)

/-- The value at the start of a text, where arrays and inline tables may nest to a given depth. -/
def readValueAt : Nat → Reader Toml
  | _, [] => none
  | depth, c :: t =>
    if c = '"' ∨ c = '\'' then (readString (c :: t)).map fun (s, t) => (.string s, t)
    else if c = '[' then
      match depth with
      | 0 => none
      | depth + 1 => readArray (readValueAt depth) t
    else if c = '{' then
      match depth with
      | 0 => none
      | depth + 1 => readInlineTable (readValueAt depth) t
    else readScalar (c :: t)

/-- How deep arrays and inline tables may nest. -/
def maxDepth : Nat := 80

/-- The value at the start of a text. -/
def readValue (t : Text) : Option (Toml × Text) := readValueAt maxDepth t

/-! ## Statements -/

/-- A line of a document. -/
inductive Statement
  | entry (path : Path) (value : Toml)
  | table (path : Path)
  | arrayTable (path : Path)
  deriving Repr

/-- What follows the end of a line, before which only a comment may stand. -/
def afterLine? (t : Text) : Option Text :=
  let t := match skipSpace t with
    | '#' :: t => t.dropWhile isPlain
    | t => t
  match t with
  | [] => some []
  | t => afterNewline? t

/-- A header or an entry. -/
def readStatement : Reader Statement
  | '[' :: '[' :: t => do
    match ← readKey t with
    | (path, ']' :: ']' :: t) => some (.arrayTable path, t)
    | _ => none
  | '[' :: t => do
    match ← readKey t with
    | (path, ']' :: t) => some (.table path, t)
    | _ => none
  | t => (readEntry (some ∘ skipSpace) readValue t).map fun ((path, v), t) => (.entry path v, t)

/-- The statements of a document. Each line takes at least one character, so the length of the
text is fuel enough. -/
def readStatements : Nat → Text → Option (List Statement)
  | 0, _ => none
  | fuel + 1, t =>
    match skipSpace t with
    | [] => some []
    | c :: t =>
      if c = '#' ∨ c = '\n' ∨ c = '\r' then do
        readStatements fuel (← afterLine? (c :: t))
      else do
        let (s, t) ← readStatement (c :: t)
        return s :: (← readStatements fuel (← afterLine? t))

/-! ## Documents -/

/-- The entries at the start of some statements. -/
def leadingEntries : List Statement → List (Path × Toml)
  | .entry path v :: ss => (path, v) :: leadingEntries ss
  | _ => []

/-- The document that statements after its first section make. The entries behind a header belong
to it and are passed over once they are added. -/
def addSections (document : Entries) : List Statement → Option Entries
  | [] => some document
  | .entry _ _ :: ss => addSections document ss
  | .table path :: ss => do addSections (← addTable document path (leadingEntries ss)) ss
  | .arrayTable path :: ss => do
    addSections (← addArrayTable document path (leadingEntries ss)) ss

/-- The document that statements make. -/
def ofStatements (ss : List Statement) : Option Entries := do
  addSections (← addEntries [] (leadingEntries ss)) ss

/-- The text without a byte order mark at its start. -/
def skipMark : Text → Text
  | '\uFEFF' :: t => t
  | t => t

/-- The table of a whole text. -/
def parse (t : Text) : Option Entries := do
  let t := skipMark t
  ofStatements (← readStatements (t.length + 1) t)

end LinePatch.Toml
