import LinePatch.Text.Blank

/-!
# Lines and occurrences

A text is cut after each newline. A raw line is a piece with its terminator (`\n`, `\r\n`, or
nothing on a last line that is not terminated); its content is the rest.

* `flatten_rawLines`: the raw lines of a text concatenate to the text.
* `content_append_terminator`: a raw line is its content followed by its terminator.
* `occursIn_iff`: the search for a needle is the decision of the infix relation.
-/

namespace LinePatch.Text

/-! ## Raw lines -/

/-- The pieces of a text, cut after each newline. -/
def rawLines : Text → List Text
  | [] => []
  | c :: cs =>
    if c = '\n' then [c] :: rawLines cs
    else match rawLines cs with
      | [] => [[c]]
      | l :: ls => (c :: l) :: ls

/-- Cutting a text into raw lines loses nothing. -/
@[simp] theorem flatten_rawLines (t : Text) : (rawLines t).flatten = t := by
  induction t with
  | nil => rfl
  | cons c cs ih =>
    rw [rawLines]
    split
    · simp [ih]
    · split
      · rename_i h
        rw [h] at ih
        simp [← ih]
      · rename_i h
        rw [h] at ih
        simp [← ih]

/-! ## Content and terminator -/

/-- A raw line without a final `\n` or `\r\n`. -/
def content (raw : Text) : Text :=
  match raw.reverse with
  | '\n' :: '\r' :: r => r.reverse
  | '\n' :: r => r.reverse
  | _ => raw

/-- The final `\n` or `\r\n` of a raw line, or nothing. -/
def terminator (raw : Text) : Text :=
  match raw.reverse with
  | '\n' :: '\r' :: _ => ['\r', '\n']
  | '\n' :: _ => ['\n']
  | _ => []

/-- A raw line is its content followed by its terminator. -/
@[simp] theorem content_append_terminator (raw : Text) : content raw ++ terminator raw = raw := by
  unfold content terminator
  split
  · rename_i r h
    rw [← List.reverse_reverse raw, h]
    simp
  · rename_i r h
    rw [← List.reverse_reverse raw, h]
    simp
  · simp

/-- The lines of a text: the contents of its raw lines. A final newline opens no further line. -/
def lines (t : Text) : List Text := (rawLines t).map content

/-! ## Lines written with given terminators -/

/-- Raw lines from line contents: each ends with `ending`, only the last with `last`. -/
def terminate (ending last : Text) : List Text → List Text
  | [] => []
  | [l] => [l ++ last]
  | l :: ls => (l ++ ending) :: terminate ending last ls

/-- The lines of a text as raw lines: each ends with `ending`, only the last with `last`. -/
def terminatedLines (t ending last : Text) : List Text := terminate ending last (lines t)

/-- Terminating lines keeps their number. -/
@[simp] theorem length_terminate (ending last : Text) (ls : List Text) :
    (terminate ending last ls).length = ls.length := by
  induction ls with
  | nil => rfl
  | cons l ls ih => cases ls <;> simp_all [terminate]

/-! ## Occurrences -/

/-- Whether `needle` is a contiguous part of a text. -/
def occursIn (needle : Text) : Text → Bool
  | [] => needle.isEmpty
  | c :: cs => needle.isPrefixOf (c :: cs) || occursIn needle cs

/-- The search decides the infix relation. -/
theorem occursIn_iff {needle t : Text} : occursIn needle t = true ↔ needle <:+: t := by
  induction t with
  | nil => simp [occursIn]
  | cons c cs ih =>
    rw [occursIn, Bool.or_eq_true, ih, List.isPrefixOf_iff_prefix, List.infix_cons_iff]

/-- Every `\r\n` written as `\n`; a carriage return elsewhere stays. -/
def unifyNewlines : Text → Text
  | '\r' :: '\n' :: cs => '\n' :: unifyNewlines cs
  | c :: cs => c :: unifyNewlines cs
  | [] => []

/-- The text without the line terminators at its end, however many. -/
def trimNewlines (t : Text) : Text :=
  (t.reverse.dropWhile fun c => c == '\r' || c == '\n').reverse

/-- The text as a string. -/
def asString (t : Text) : String := String.ofList t

end LinePatch.Text
