import LinePatch.Text.Basic

/-!
# Documents

A document is the list of its raw lines, so what is not touched keeps its terminators.

* `toText_ofText`: a text read as a document is written back unchanged.
* `isSome_slice?_iff`: a slice exists exactly for ordered bounds inside the document.
* `splice_slice`: putting a slice back where it was taken changes nothing.
-/

namespace LinePatch

/-- A text as a list of raw lines; lines are counted from zero. -/
structure Document where
  rawLines : List Text
  deriving DecidableEq, Repr

namespace Document

/-- The document of a text. -/
def ofText (t : Text) : Document := ⟨Text.rawLines t⟩

/-- The text of a document. -/
def toText (d : Document) : Text := d.rawLines.flatten

@[simp] theorem toText_ofText (t : Text) : (ofText t).toText = t := Text.flatten_rawLines t

/-- The number of lines. -/
def length (d : Document) : Nat := d.rawLines.length

/-- The contents of all lines. -/
def lines (d : Document) : List Text := d.rawLines.map Text.content

@[simp] theorem length_lines (d : Document) : d.lines.length = d.length := by
  simp [lines, length]

/-- A line with its terminator. -/
def rawLine? (d : Document) (i : Nat) : Option Text := d.rawLines[i]?

/-- A line without its terminator. -/
def line? (d : Document) (i : Nat) : Option Text := d.lines[i]?

/-- The terminator of a line; empty past the end. -/
def terminator (d : Document) (i : Nat) : Text :=
  match d.rawLine? i with
  | some raw => Text.terminator raw
  | none => []

/-- The terminator of new lines: the first one in the document, `\n` where there is none. -/
def lineEnding (d : Document) : Text :=
  ((d.rawLines.map Text.terminator).find? (!·.isEmpty)).getD ['\n']

/-- The terminator for lines written beside line `i`: its own, or the document's where it has
none. -/
def endingAt (d : Document) (i : Nat) : Text :=
  if (d.terminator i).isEmpty then d.lineEnding else d.terminator i

/-! ## Search -/

/-- Line contents joined by newlines. -/
def joinLines : List Text → Text
  | [] => []
  | [l] => l
  | l :: ls => l ++ '\n' :: joinLines ls

/-- Whether `needle` occurs in the document. A needle without a newline is looked for line by
line; one with a newline in the joined contents, so that it matches any terminator. The empty
needle occurs nowhere. -/
def contains (d : Document) (needle : Text) : Bool :=
  if needle.isEmpty then false
  else if needle.contains '\n' then
    Text.occursIn (Text.unifyNewlines needle) (joinLines d.lines)
  else d.lines.any (Text.occursIn needle)

/-! ## Slices -/

/-- The raw lines from `start` up to but excluding `stop`, for ordered bounds inside the
document. -/
def slice? (d : Document) (start stop : Nat) : Option (List Text) :=
  if start ≤ stop ∧ stop ≤ d.length then some ((d.rawLines.drop start).take (stop - start))
  else none

/-- The text of a slice. -/
def sliceText? (d : Document) (start stop : Nat) : Option Text :=
  (d.slice? start stop).map List.flatten

/-- The document with the raw lines from `start` up to `stop` replaced. -/
def splice (d : Document) (start stop : Nat) (newLines : List Text) : Document :=
  ⟨d.rawLines.take start ++ newLines ++ d.rawLines.drop stop⟩

/-- A slice exists exactly for ordered bounds inside the document. -/
theorem isSome_slice?_iff {d : Document} {start stop : Nat} :
    (d.slice? start stop).isSome = true ↔ start ≤ stop ∧ stop ≤ d.length := by
  unfold slice?
  split <;> simp_all

/-- Putting a slice back where it was taken changes nothing. -/
theorem splice_slice {d : Document} {start stop : Nat} {ls : List Text}
    (h : d.slice? start stop = some ls) : d.splice start stop ls = d := by
  unfold slice? at h
  split at h
  · rename_i hb
    obtain rfl := Option.some.inj h
    have hs : stop = start + (stop - start) := by omega
    cases d
    simp only [splice, mk.injEq]
    conv => lhs; rw [hs, ← List.drop_drop]
    rw [← hs, List.append_assoc, List.take_append_drop, List.take_append_drop]
  · cases h

end Document

end LinePatch
