import LinePatch.Digest.Basic
import LinePatch.Toml.Basic

/-!
# TOML strings

Basic strings take escapes, literal strings none; each kind has a form over several lines.
Carriage returns count only in front of a newline, and controls other than the tab not at all.
-/

namespace LinePatch.Toml

/-- What reads something from the start of a text, and gives what follows it. -/
abbrev Reader (α : Type) := Text → Option (α × Text)

/-- Whether a character may stand in a comment or a literal string. -/
def isPlain (c : Char) : Bool := c == '\t' || (0x20 ≤ c.toNat && c.toNat ≠ 0x7F)

/-- The spaces between tokens of a line. -/
def isSpace (c : Char) : Bool := c == ' ' || c == '\t'

/-- A text without the spaces at its start. -/
def skipSpace (t : Text) : Text := t.dropWhile isSpace

/-- What follows a newline. -/
def afterNewline? : Text → Option Text
  | '\n' :: t => some t
  | '\r' :: '\n' :: t => some t
  | _ => none

/-! ## Escapes -/

/-- The character with the code point that `n` hexadecimal digits write. -/
def readCodePoint (n : Nat) (t : Text) : Option (Char × Text) := do
  if (t.take n).length < n then none
  else
    let v ← Digest.hexValue? 0 (t.take n)
    if v.isValidChar then some (Char.ofNat v, t.drop n) else none

/-- The character of an escape, after its backslash. -/
def readEscape : Reader Char
  | [] => none
  | c :: t =>
    match c with
    | '"' | '\\' => some (c, t)
    | 'b' => some ('\x08', t)
    | 't' => some ('\t', t)
    | 'n' => some ('\n', t)
    | 'f' => some ('\x0c', t)
    | 'r' => some ('\r', t)
    | 'e' => some ('\x1b', t)
    | 'x' => readCodePoint 2 t
    | 'u' => readCodePoint 4 t
    | 'U' => readCodePoint 8 t
    | _ => none

/-! ## Strings of one line -/

/-- The characters of a basic string up to its closing quote. Each step takes a character, so the
length of the text is fuel enough. -/
def basicChars : Nat → Reader Text
  | 0, _ | _, [] => none
  | fuel + 1, c :: t =>
    if c = '"' then some ([], t)
    else if c = '\\' then do
      let (c, t) ← readEscape t
      let (cs, t) ← basicChars fuel t
      some (c :: cs, t)
    else if isPlain c then do
      let (cs, t) ← basicChars fuel t
      some (c :: cs, t)
    else none

/-- The characters of a literal string up to its closing quote. -/
def literalChars : Reader Text
  | [] => none
  | c :: t =>
    if c = '\'' then some ([], t)
    else if isPlain c then (literalChars t).map fun (cs, t) => (c :: cs, t)
    else none

/-! ## Strings of several lines -/

/-- The text without one newline at its start. -/
def dropNewline (t : Text) : Text := (afterNewline? t).getD t

/-- The text without the spaces and newlines at its start. -/
def skipLines : Text → Text
  | ' ' :: t => skipLines t
  | '\t' :: t => skipLines t
  | '\n' :: t => skipLines t
  | '\r' :: '\n' :: t => skipLines t
  | t => t

/-- The quotes at the start of a text that are content, if the string goes on, or that are content
before the closing three, which may have two more in front. -/
def quoteRun (quote : Char) (t : Text) : Text × Text × Bool :=
  let n := (t.takeWhile (· == quote)).length
  if n < 3 then (List.replicate n quote, t.drop n, false)
  else (List.replicate (min n 5 - 3) quote, t.drop (min n 5), true)

/-- The characters of a basic string of several lines up to its closing quotes. A backslash at
the end of a line hides all blank space up to the next character. -/
def basicLines : Nat → Reader Text
  | 0, _ | _, [] => none
  | fuel + 1, c :: t =>
    if c = '"' then
      match quoteRun '"' (c :: t) with
      | (quotes, t, true) => some (quotes, t)
      | (quotes, t, false) => (basicLines fuel t).map fun (cs, t) => (quotes ++ cs, t)
    else if c = '\\' then
      match afterNewline? (skipSpace t) with
      | some t => basicLines fuel (skipLines t)
      | none => do
        let (c, t) ← readEscape t
        let (cs, t) ← basicLines fuel t
        some (c :: cs, t)
    else if isPlain c || c == '\n' then (basicLines fuel t).map fun (cs, t) => (c :: cs, t)
    else
      match afterNewline? (c :: t) with
      | some t => (basicLines fuel t).map fun (cs, t) => ('\r' :: '\n' :: cs, t)
      | none => none

/-- The characters of a literal string of several lines up to its closing quotes. -/
def literalLines : Nat → Reader Text
  | 0, _ | _, [] => none
  | fuel + 1, c :: t =>
    if c = '\'' then
      match quoteRun '\'' (c :: t) with
      | (quotes, t, true) => some (quotes, t)
      | (quotes, t, false) => (literalLines fuel t).map fun (cs, t) => (quotes ++ cs, t)
    else if isPlain c || c == '\n' then (literalLines fuel t).map fun (cs, t) => (c :: cs, t)
    else
      match afterNewline? (c :: t) with
      | some t => (literalLines fuel t).map fun (cs, t) => ('\r' :: '\n' :: cs, t)
      | none => none

/-! ## All strings -/

/-- A string of one line, with either quote. -/
def readQuoted : Reader Text
  | '"' :: t => basicChars (t.length + 1) t
  | '\'' :: t => literalChars t
  | _ => none

/-- A string of any form. -/
def readString : Reader Text
  | '"' :: '"' :: '"' :: t => basicLines (t.length + 1) (dropNewline t)
  | '\'' :: '\'' :: '\'' :: t => literalLines (t.length + 1) (dropNewline t)
  | t => readQuoted t

end LinePatch.Toml
