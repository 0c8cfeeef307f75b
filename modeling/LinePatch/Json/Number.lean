import LinePatch.Json.Basic

/-!
# JSON numbers

A number is an optional minus, an integer without leading zeros, an optional fraction and an
optional exponent. A number that no 64-bit floating-point number can hold is refused.
-/

namespace LinePatch.Json

/-- At least one digit, and those that follow. -/
def digits1 (t : Text) : Except Fault (Text × Text) :=
  match Numeral.digits t, Numeral.afterDigits t with
  | [], [] => .error .endOfText
  | [], _ => .error .malformed
  | ds, rest => .ok (ds, rest)

/-- The digits of the integer part; a zero stands alone. -/
def integerPart : Reader Text
  | '0' :: rest =>
    match Numeral.digits rest with
    | [] => .ok (['0'], rest)
    | _ => .error .malformed
  | t => digits1 t

/-- The digits of the fraction, none where there is no point. -/
def fractionPart : Reader Text
  | '.' :: rest => digits1 rest
  | t => .ok ([], t)

/-- Whether an exponent is negative, and its digits; `none` where there is no exponent. -/
def exponentPart : Reader (Option (Bool × Text))
  | c :: rest =>
    if c = 'e' ∨ c = 'E' then
      let (negative, rest) := match rest with
        | '+' :: r => (false, r)
        | '-' :: r => (true, r)
        | r => (false, r)
      (digits1 rest).map fun (ds, r) => (some (negative, ds), r)
    else .ok (none, c :: rest)
  | [] => .ok (none, [])

/-- The digits appended to a significand as long as it fits 64 bits, and those left over. -/
def appendDigits : Nat → Text → Nat × Text
  | n, [] => (n, [])
  | n, c :: cs =>
    let n' := 10 * n + Numeral.digitValue c
    if n' < UInt64.size then appendDigits n' cs else (n, c :: cs)

/-- Whether a number is beyond the range: its significand, of as many digits as fit 64 bits, times
the power of ten that the exponent and the other digits give. -/
def outOfRange (integer fraction : Text) (exponent : Option (Bool × Text)) : Bool :=
  let (n, dropped) := appendDigits 0 integer
  let (n, unread) := appendDigits n fraction
  let e : Int := dropped.length - (fraction.length - unread.length : Nat) +
    match exponent with
    | none => 0
    | some (true, ds) => -(Numeral.value ds : Int)
    | some (false, ds) => Numeral.value ds
  if n = 0 || e < 0 then false
  else if 308 < e then true
  else Numeral.productOverflows n (Nat.pow 10 e.toNat)

/-- The number at the start of a text, kept as it is written. -/
def readNumber (t : Text) : Except Fault (Json × Text) := do
  let unsigned := match t with
    | '-' :: r => r
    | r => r
  let (integer, rest) ← integerPart unsigned
  let (fraction, rest) ← fractionPart rest
  let (exponent, rest) ← exponentPart rest
  if outOfRange integer fraction exponent then .error .malformed
  else .ok (.number (t.take (t.length - rest.length)), rest)

end LinePatch.Json
