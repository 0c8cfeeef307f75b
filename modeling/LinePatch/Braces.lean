import LinePatch.Text.Basic

/-!
# Code braces

The braces of a line that stand in code, outside of literals and comments, and the nesting depth
that they lead to.

* `Mode` is what a line starts and ends in: code, a block comment, or an open literal.
* `codeBraces` gives the braces of a line and the mode at its last character.
* `Nesting.line` follows the depth over one more line, `isBalanced` over a whole text.
-/

namespace LinePatch

/-- A brace in code. -/
inductive Brace
  | opening
  | closing
  deriving DecidableEq, Repr

namespace Brace

/-- What the next character belongs to. -/
inductive Mode
  | code
  | comment
  | literal (quote : Char)
  deriving DecidableEq, Repr

/-- The braces in code of a text without line breaks, and the mode after it. `//` hides the rest,
`/*` all up to `*/`, and a quote all up to the next equal quote that no backslash stands before. -/
def codeBraces : Mode → Text → List Brace × Mode
  | mode, [] => ([], mode)
  | .comment, '*' :: '/' :: cs => codeBraces .code cs
  | .comment, _ :: cs => codeBraces .comment cs
  | .literal quote, '\\' :: _ :: cs => codeBraces (.literal quote) cs
  | .literal quote, ['\\'] => ([], .literal quote)
  | .literal quote, c :: cs => codeBraces (if c = quote then .code else .literal quote) cs
  | .code, '/' :: '/' :: _ => ([], .code)
  | .code, '/' :: '*' :: cs => codeBraces .comment cs
  | .code, '{' :: cs => let (bs, mode) := codeBraces .code cs; (.opening :: bs, mode)
  | .code, '}' :: cs => let (bs, mode) := codeBraces .code cs; (.closing :: bs, mode)
  | .code, c :: cs =>
    codeBraces (if c = '"' ∨ c = '\'' ∨ c = '`' then .literal c else .code) cs

/-- The mode in which the next line starts: a single-quoted literal does not outlive its line. -/
def Mode.endLine : Mode → Mode
  | .literal '\'' => .code
  | mode => mode

end Brace

/-- The nesting after some lines: the depth relative to the first, the lowest depth on the way,
and whether an opening brace was met. -/
structure Nesting where
  depth : Int := 0
  lowest : Int := 0
  opened : Bool := false
  mode : Brace.Mode := .code
  deriving DecidableEq, Repr

namespace Nesting

/-- The nesting before any line. -/
def start : Nesting := {}

/-- The nesting after one more brace. -/
def brace (n : Nesting) : Brace → Nesting
  | .opening => { n with depth := n.depth + 1, opened := true }
  | .closing => { n with depth := n.depth - 1, lowest := min n.lowest (n.depth - 1) }

/-- The nesting after one more line, with or without its terminator. -/
def line (n : Nesting) (l : Text) : Nesting :=
  let (bs, mode) := Brace.codeBraces n.mode l
  { bs.foldl brace n with mode := mode.endLine }

/-- The nesting after some lines. -/
def lines (n : Nesting) (ls : List Text) : Nesting := ls.foldl line n

/-- Whether a closing brace had no opening one. -/
def underflowed (n : Nesting) : Bool := n.lowest < 0

/-- Whether a literal or a block comment is open. -/
def inLiteral (n : Nesting) : Bool := n.mode != .code

/-- Whether a block was opened and all that was opened is closed. -/
def closed (n : Nesting) : Bool := n.opened && n.depth == 0

end Nesting

/-- Whether lines close every brace that they open, none that they do not, and end in code. -/
def isBalancedLines (ls : List Text) : Bool :=
  let n := Nesting.start.lines ls
  !n.underflowed && n.depth == 0 && !n.inLiteral

/-- Whether a text closes every brace that it opens, none that it does not, and ends in code. -/
def isBalanced (t : Text) : Bool := isBalancedLines (Text.lines t)

end LinePatch
