/-!
# Blank characters

The characters with the Unicode property `White_Space`, and trimming by them.

* `isBlank_of_isWhitespace`: every character that is white space in ASCII is blank.
* `trim_nil`: an empty text stays empty.
-/

namespace LinePatch

/-- A text is a list of Unicode scalar values. -/
abbrev Text := List Char

namespace Text

/-- The Unicode property `White_Space`: the controls from tab to carriage return, the space, the
next-line control, and the spaces and separators of the higher blocks. -/
def isBlank (c : Char) : Bool :=
  let n := c.toNat
  (9 ≤ n && n ≤ 13) || n == 0x20 || n == 0x85 || n == 0xA0 || n == 0x1680 ||
    (0x2000 ≤ n && n ≤ 0x200A) || n == 0x2028 || n == 0x2029 || n == 0x202F || n == 0x205F ||
    n == 0x3000

/-- The class of ASCII white space is part of the blank characters. -/
theorem isBlank_of_isWhitespace {c : Char} (h : c.isWhitespace = true) : isBlank c = true := by
  simp only [Char.isWhitespace, Bool.or_eq_true, decide_eq_true_eq] at h
  rcases h with ((h | h) | h) | h <;> subst h <;> decide

/-- The text without the blank characters at its start. -/
def trimStart (t : Text) : Text := t.dropWhile isBlank

/-- The text without the blank characters at its end. -/
def trimEnd (t : Text) : Text := (t.reverse.dropWhile isBlank).reverse

/-- The text without the blank characters at both ends. -/
def trim (t : Text) : Text := trimEnd (trimStart t)

/-- Whether a text holds nothing but blank characters. -/
def isBlankText (t : Text) : Bool := t.all isBlank

@[simp] theorem trim_nil : trim [] = [] := rfl

end Text

end LinePatch
