import LinePatch.Digest.Basic
import LinePatch.Json.Basic

/-!
# JSON strings

A string holds any characters but controls; a backslash starts an escape. An escape of four
hexadecimal digits is a UTF-16 unit, and two of them make a character beyond the first plane.
-/

namespace LinePatch.Json

/-- The value of four hexadecimal digits. Where fewer than four bytes are left, the text has ended
too early. -/
def readUnit (t : Text) : Except Fault (Nat × Text) :=
  match (t.take 4).mapM Digest.digitValue? with
  | some [a, b, c, d] => .ok (((a * 16 + b) * 16 + c) * 16 + d, t.drop 4)
  | _ => .error (if (Text.utf8 (t.take 4)).length < 4 then .endOfText else .malformed)

/-- The second unit of a pair, after its backslash and letter. -/
def readLowUnit : Reader Nat
  | [] => .error .endOfText
  | '\\' :: [] => .error .endOfText
  | '\\' :: 'u' :: rest => do
    let (low, rest) ← readUnit rest
    if 0xDC00 ≤ low ∧ low ≤ 0xDFFF then .ok (low, rest) else .error .malformed
  | _ => .error .malformed

/-- The character of a `\u` escape, after the letter. -/
def readUnicode (t : Text) : Except Fault (Char × Text) := do
  let (unit, rest) ← readUnit t
  if 0xDC00 ≤ unit ∧ unit ≤ 0xDFFF then .error .malformed
  else if 0xD800 ≤ unit ∧ unit ≤ 0xDBFF then
    let (low, rest) ← readLowUnit rest
    .ok (Char.ofNat (0x10000 + (unit - 0xD800) * 0x400 + (low - 0xDC00)), rest)
  else .ok (Char.ofNat unit, rest)

/-- The character of an escape, after its backslash. -/
def readEscape : Reader Char
  | [] => .error .endOfText
  | 'u' :: rest => readUnicode rest
  | c :: rest =>
    match c with
    | '"' | '\\' | '/' => .ok (c, rest)
    | 'b' => .ok ('\x08', rest)
    | 'f' => .ok ('\x0c', rest)
    | 'n' => .ok ('\n', rest)
    | 'r' => .ok ('\r', rest)
    | 't' => .ok ('\t', rest)
    | _ => .error .malformed

/-- The characters of a string up to its closing quote. Each step takes at least one character, so
the length of the text is fuel enough. -/
def readChars : Nat → Reader Text
  | 0, _ | _, [] => .error .endOfText
  | fuel + 1, c :: rest =>
    if c = '"' then .ok ([], rest)
    else if c = '\\' then do
      let (c, rest) ← readEscape rest
      let (cs, rest) ← readChars fuel rest
      .ok (c :: cs, rest)
    else if c.toNat < 0x20 then .error .malformed
    else do
      let (cs, rest) ← readChars fuel rest
      .ok (c :: cs, rest)

/-- A string, after its opening quote. -/
def readString (t : Text) : Except Fault (Text × Text) := readChars (t.length + 1) t

end LinePatch.Json
