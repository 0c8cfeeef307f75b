import LinePatch.Toml.Quoted

/-!
# TOML scalars

Booleans, integers of 64 bits, floating-point numbers, dates and times. A scalar is the run of
letters, digits and the signs that can stand in one; a date may be followed by a space and a time.
-/

namespace LinePatch.Toml

open Numeral

/-! ## Digits with underscores -/

/-- The text without the underscores between two digits; none where an underscore stands
elsewhere, or where there is no digit. -/
def plainDigits (isDigit : Char → Bool) : Text → Option Text
  | [] => none
  | [c] => if isDigit c then some [c] else none
  | c :: '_' :: cs => if isDigit c then (plainDigits isDigit cs).map (c :: ·) else none
  | c :: cs => if isDigit c then (plainDigits isDigit cs).map (c :: ·) else none

/-- The decimal digits of a number without leading zeros. -/
def wholeDigits (t : Text) : Option Text :=
  match plainDigits isDigit t with
  | some ['0'] => some ['0']
  | some ('0' :: _) => none
  | ds => ds

/-- Whether a number has a minus, and its text without sign. -/
def splitSign : Text → Bool × Text
  | '+' :: t => (false, t)
  | '-' :: t => (true, t)
  | t => (false, t)

/-! ## Integers -/

/-- The value of digits in a base that is a power of two. -/
def basedValue? (base : Nat) (t : Text) : Option Nat := do
  let ds ← plainDigits (fun c => (Digest.digitValue? c).any (· < base)) t
  return ds.foldl (fun n c => base * n + (Digest.digitValue? c).getD 0) 0

/-- The integer that a scalar writes, without regard to its range. -/
def integerValue? : Text → Option Int
  | '0' :: 'x' :: t => (basedValue? 16 t).map Int.ofNat
  | '0' :: 'o' :: t => (basedValue? 8 t).map Int.ofNat
  | '0' :: 'b' :: t => (basedValue? 2 t).map Int.ofNat
  | t =>
    let (negative, t) := splitSign t
    (wholeDigits t).map fun ds => if negative then -(value ds : Int) else value ds

/-- The integer of 64 bits that a scalar writes. -/
def integer? (t : Text) : Option Int := do
  let n ← integerValue? t
  if Int64.minValue.toInt ≤ n ∧ n ≤ Int64.maxValue.toInt then some n else none

/-! ## Floating-point numbers -/

/-- The exponent that digits with an optional sign write. -/
def exponent? (t : Text) : Option Int :=
  let (negative, t) := splitSign t
  (plainDigits isDigit t).map fun ds => if negative then -(value ds : Int) else value ds

/-- Whether a character opens an exponent. -/
def isExponentMark (c : Char) : Bool := c == 'e' || c == 'E'

/-- Whether a scalar is a floating-point number that does not round to infinity, or one of the
special values. -/
def isFloat (t : Text) : Bool :=
  let (_, t) := splitSign t
  if t = ['i', 'n', 'f'] ∨ t = ['n', 'a', 'n'] then true
  else
    let mantissa := t.takeWhile (!isExponentMark ·)
    let exponent := t.drop mantissa.length
    let integer := mantissa.takeWhile (· ≠ '.')
    let fraction := mantissa.drop integer.length
    let fractionDigits : Option Text := match fraction with
      | [] => some []
      | _ :: ds => plainDigits isDigit ds
    let power : Option Int := match exponent with
      | [] => some 0
      | _ :: t => exponent? t
    if fraction.isEmpty && exponent.isEmpty then false
    else
      match wholeDigits integer, fractionDigits, power with
      | some ds, some fs, some e => !overflows (value (ds ++ fs)) (e - fs.length)
      | _, _, _ => false

/-! ## Dates and times -/

/-- The number that exactly `n` digits at the start of a text write, and what follows. -/
def fixedDigits (n : Nat) (t : Text) : Option (Nat × Text) :=
  if (t.take n).length = n ∧ (t.take n).all isDigit then some (value (t.take n), t.drop n)
  else none

/-- What follows a given character. -/
def after? (c : Char) : Text → Option Text
  | [] => none
  | d :: t => if c = d then some t else none

/-- The number of days in a month. -/
def daysInMonth (year month : Nat) : Nat :=
  if month = 2 then
    if year % 4 = 0 ∧ (year % 100 ≠ 0 ∨ year % 400 = 0) then 29 else 28
  else if month = 4 ∨ month = 6 ∨ month = 9 ∨ month = 11 then 30
  else 31

/-- What follows a date. -/
def afterDate? (t : Text) : Option Text := do
  let (year, t) ← fixedDigits 4 t
  let t ← after? '-' t
  let (month, t) ← fixedDigits 2 t
  let t ← after? '-' t
  let (day, t) ← fixedDigits 2 t
  if 1 ≤ month ∧ month ≤ 12 ∧ 1 ≤ day ∧ day ≤ daysInMonth year month then some t else none

/-- What follows an hour and a minute. -/
def afterMinute? (t : Text) : Option Text := do
  let (hour, t) ← fixedDigits 2 t
  let t ← after? ':' t
  let (minute, t) ← fixedDigits 2 t
  if hour ≤ 23 ∧ minute ≤ 59 then some t else none

/-- What follows a time; its seconds, and their fraction, may be left out. -/
def afterTime? (t : Text) : Option Text := do
  let t ← afterMinute? t
  match t with
  | ':' :: t =>
    let (second, t) ← fixedDigits 2 t
    if 60 < second then none
    else
      match t with
      | '.' :: t => if (digits t).isEmpty then none else some (afterDigits t)
      | t => some t
  | t => some t

/-- Whether a text is an offset from universal time, or nothing. -/
def isOffset : Text → Bool
  | [] => true
  | c :: t =>
    if c = 'Z' ∨ c = 'z' then t.isEmpty
    else if c = '+' ∨ c = '-' then afterMinute? t == some []
    else false

/-- Whether a scalar is a date, a time, or both. -/
def isDatetime (t : Text) : Bool :=
  match afterDate? t with
  | some [] => true
  | some (c :: t) =>
    (c == 'T' || c == 't' || c == ' ') && match afterTime? t with
      | some t => isOffset t
      | none => false
  | none => afterTime? t == some []

/-! ## Scalars -/

/-- The value of a scalar. -/
def scalar? (t : Text) : Option Toml :=
  if t = ['t', 'r', 'u', 'e'] then some (.boolean true)
  else if t = ['f', 'a', 'l', 's', 'e'] then some (.boolean false)
  else
    match integer? t with
    | some n => some (.integer n)
    | none =>
      if isFloat t then some (.float t)
      else if isDatetime t then some (.datetime t)
      else none

/-- Whether a character may stand in a scalar or a bare key. -/
def isWordChar (c : Char) : Bool :=
  isDigit c || ('a' ≤ c && c ≤ 'z') || ('A' ≤ c && c ≤ 'Z') || c == '_' || c == '-'

/-- Whether a character may stand in a scalar. -/
def isScalarChar (c : Char) : Bool := isWordChar c || c == '+' || c == '.' || c == ':'

/-- The scalar at the start of a text, where a date and a time may have one space between them. -/
def readScalar (t : Text) : Option (Toml × Text) :=
  let word := t.takeWhile isScalarChar
  let rest := t.drop word.length
  let (word, rest) := match afterDate? word, rest with
    | some [], ' ' :: c :: r =>
      if isDigit c then
        let time := (c :: r).takeWhile isScalarChar
        (word ++ ' ' :: time, (c :: r).drop time.length)
      else (word, rest)
    | _, _ => (word, rest)
  (scalar? word).map fun v => (v, rest)

end LinePatch.Toml
