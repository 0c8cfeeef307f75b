import LinePatch.Json.Number
import LinePatch.Json.Quoted

/-!
# Reading JSON

* `Json.read`: the value at the start of a text, and what follows it.
* `Json.parse`: the value of a whole text.

Arrays and objects nest at most 127 deep.
-/

namespace LinePatch.Json

/-- A word of which the first letter has been read. -/
def readWord (v : Json) : Text → Reader Json
  | [], rest => .ok (v, rest)
  | _ :: _, [] => .error .endOfText
  | w :: ws, c :: rest => if c = w then readWord v ws rest else .error .malformed

/-- The items of an array from the next item on. Each takes at least one character, so the length
of the text is fuel enough. -/
def readItems (item : Reader Json) : Nat → Reader (List Json)
  | 0, _ => .error .endOfText
  | fuel + 1, t => do
    let (v, rest) ← item t
    match skipSpace rest with
    | [] => .error .endOfText
    | ']' :: rest => .ok ([v], rest)
    | ',' :: rest =>
      match skipSpace rest with
      | [] => .error .endOfText
      | ']' :: _ => .error .malformed
      | rest =>
        let (vs, rest) ← readItems item fuel rest
        .ok (v :: vs, rest)
    | _ => .error .malformed

/-- An array, after its opening bracket. -/
def readArray (item : Reader Json) (t : Text) : Except Fault (Json × Text) :=
  match skipSpace t with
  | [] => .error .endOfText
  | ']' :: rest => .ok (.array [], rest)
  | rest => (readItems item (t.length + 1) rest).map fun (vs, rest) => (.array vs, rest)

/-- The members of an object from the next member on. -/
def readMembers (item : Reader Json) : Nat → Reader (List (Text × Json))
  | 0, _ | _, [] => .error .endOfText
  | fuel + 1, c :: t =>
    if c ≠ '"' then .error .malformed
    else do
      let (key, rest) ← readString t
      match skipSpace rest with
      | [] => .error .endOfText
      | ':' :: rest =>
        let (v, rest) ← item rest
        match skipSpace rest with
        | [] => .error .endOfText
        | '}' :: rest => .ok ([(key, v)], rest)
        | ',' :: rest =>
          let (members, rest) ← readMembers item fuel (skipSpace rest)
          .ok ((key, v) :: members, rest)
        | _ => .error .malformed
      | _ => .error .malformed

/-- An object, after its opening brace. -/
def readObject (item : Reader Json) (t : Text) : Except Fault (Json × Text) :=
  match skipSpace t with
  | '}' :: rest => .ok (.object [], rest)
  | rest => (readMembers item (t.length + 1) rest).map fun (ms, rest) => (.object ms, rest)

/-- The value at the start of a text, where arrays and objects may nest to a given depth. -/
def readAt : Nat → Reader Json
  | depth, t =>
    match skipSpace t with
    | [] => .error .endOfText
    | c :: rest =>
      match c with
      | 'n' => readWord .null ['u', 'l', 'l'] rest
      | 't' => readWord (.bool true) ['r', 'u', 'e'] rest
      | 'f' => readWord (.bool false) ['a', 'l', 's', 'e'] rest
      | '"' => (readString rest).map fun (s, rest) => (.string s, rest)
      | '[' =>
        match depth with
        | 0 => .error .malformed
        | depth + 1 => readArray (readAt depth) rest
      | '{' =>
        match depth with
        | 0 => .error .malformed
        | depth + 1 => readObject (readAt depth) rest
      | _ => if c = '-' ∨ Numeral.isDigit c then readNumber (c :: rest) else .error .malformed

/-- How deep arrays and objects may nest. -/
def maxDepth : Nat := 127

/-- The value at the start of a text, and what follows it. -/
def read (t : Text) : Except Fault (Json × Text) := readAt maxDepth t

/-- The value of a whole text. -/
def parse (t : Text) : Except Fault Json := do
  let (v, rest) ← read t
  if (skipSpace rest).isEmpty then .ok v else .error .malformed

end LinePatch.Json
