import LinePatch.Json.Reader
import LinePatch.Proofs.Text.Run

/-!
# The grammar of JSON

The texts that are JSON, and the values that they write. Each rule says what a text starts with, and
what follows it; nothing limits how deep a value nests or how great a number is.

* `Value`, `Items`, `Members`: the rules for values.
* `IsText`: the texts of a value.
* `readAt_sound`: what the reader takes for a value is one.
* `isText_of_parse`: the same for whole texts.
-/

namespace LinePatch.Json.Grammar

open Numeral (isDigit)
open Text (Run)

/-! ## Numbers -/

/-- One digit or more. -/
inductive Digits : Text → Text → Prop
  | mk {c : Char} {t rest : Text} (hc : isDigit c = true) (h : Run isDigit t rest) :
    Digits (c :: t) rest

/-- A zero, or digits that do not start with one. -/
inductive Whole : Text → Text → Prop
  | zero {rest : Text} : Whole ('0' :: rest) rest
  | digits {t rest : Text} (hzero : t.head? ≠ some '0') (h : Digits t rest) : Whole t rest

inductive Fraction : Text → Text → Prop
  | absent {rest : Text} : Fraction rest rest
  | digits {t rest : Text} (h : Digits t rest) : Fraction ('.' :: t) rest

inductive Sign : Text → Text → Prop
  | absent {rest : Text} : Sign rest rest
  | plus {rest : Text} : Sign ('+' :: rest) rest
  | minus {rest : Text} : Sign ('-' :: rest) rest

inductive Exponent : Text → Text → Prop
  | absent {rest : Text} : Exponent rest rest
  | digits {c : Char} {t u rest : Text} (hc : c = 'e' ∨ c = 'E') (hs : Sign t u)
    (h : Digits u rest) : Exponent (c :: t) rest

inductive Number : Text → Text → Prop
  | positive {t u w rest : Text} (hw : Whole t u) (hf : Fraction u w) (he : Exponent w rest) :
    Number t rest
  | negative {t u w rest : Text} (hw : Whole t u) (hf : Fraction u w) (he : Exponent w rest) :
    Number ('-' :: t) rest

/-! ## Strings -/

/-- The escapes of one letter, and what they stand for. -/
def escapes : List (Char × Char) :=
  [('"', '"'), ('\\', '\\'), ('/', '/'), ('b', '\x08'), ('f', '\x0c'), ('n', '\n'), ('r', '\r'),
    ('t', '\t')]

/-- The number that four hexadecimal digits write. -/
inductive CodeUnit : Text → Nat → Text → Prop
  | mk {a b c d : Char} {x y z w : Nat} {rest : Text} (ha : Digest.digitValue? a = some x)
    (hb : Digest.digitValue? b = some y) (hc : Digest.digitValue? c = some z)
    (hd : Digest.digitValue? d = some w) :
    CodeUnit (a :: b :: c :: d :: rest) (((x * 16 + y) * 16 + z) * 16 + w) rest

/-- The first unit of a pair. -/
def IsHigh (n : Nat) : Prop := 0xD800 ≤ n ∧ n ≤ 0xDBFF

/-- The second unit of a pair. -/
def IsLow (n : Nat) : Prop := 0xDC00 ≤ n ∧ n ≤ 0xDFFF

/-- The characters of a string up to its closing quote. -/
inductive Chars : Text → Text → Text → Prop
  | close {rest : Text} : Chars ('"' :: rest) [] rest
  | plain {c : Char} {t s rest : Text} (hquote : c ≠ '"') (hescape : c ≠ '\\')
    (hcontrol : 0x20 ≤ c.toNat) (h : Chars t s rest) : Chars (c :: t) (c :: s) rest
  | escape {e c : Char} {t s rest : Text} (he : (e, c) ∈ escapes) (h : Chars t s rest) :
    Chars ('\\' :: e :: t) (c :: s) rest
  | unit {n : Nat} {t u s rest : Text} (hu : CodeUnit t n u) (hhigh : ¬ IsHigh n)
    (hlow : ¬ IsLow n) (h : Chars u s rest) : Chars ('\\' :: 'u' :: t) (Char.ofNat n :: s) rest
  | pair {n m : Nat} {t u w s rest : Text} (hu : CodeUnit t n ('\\' :: 'u' :: u)) (hhigh : IsHigh n)
    (hl : CodeUnit u m w) (hlow : IsLow m) (h : Chars w s rest) :
    Chars ('\\' :: 'u' :: t)
      (Char.ofNat (0x10000 + (n - 0xD800) * 0x400 + (m - 0xDC00)) :: s) rest
  /-- A unit without the other one of its pair writes no character. It is JSON, and what it is read
  as is left open. -/
  | unpaired {n : Nat} {t u s rest : Text} (hu : CodeUnit t n u) (hn : IsHigh n ∨ IsLow n)
    (c : Char) (h : Chars u s rest) : Chars ('\\' :: 'u' :: t) (c :: s) rest

/-! ## Values -/

/-- Spaces between tokens, any number of them. -/
abbrev Spaces (t rest : Text) : Prop := Run isSpace t rest

mutual

/-- A value. -/
inductive Value : Text → Json → Text → Prop
  | wordNull {rest : Text} : Value ('n' :: 'u' :: 'l' :: 'l' :: rest) .null rest
  | wordTrue {rest : Text} : Value ('t' :: 'r' :: 'u' :: 'e' :: rest) (.bool true) rest
  | wordFalse {rest : Text} : Value ('f' :: 'a' :: 'l' :: 's' :: 'e' :: rest) (.bool false) rest
  | number {t literal rest : Text} (h : Number t rest) (ht : t = literal ++ rest) :
    Value t (.number literal) rest
  | string {t s rest : Text} (h : Chars t s rest) : Value ('"' :: t) (.string s) rest
  | emptyArray {t rest : Text} (h : Spaces t (']' :: rest)) : Value ('[' :: t) (.array []) rest
  | array {t rest : Text} {vs : List Json} (h : Items t vs rest) : Value ('[' :: t) (.array vs) rest
  | emptyObject {t rest : Text} (h : Spaces t ('}' :: rest)) : Value ('{' :: t) (.object []) rest
  | object {t rest : Text} {ms : List (Text × Json)} (h : Members t ms rest) :
    Value ('{' :: t) (.object ms) rest

/-- The items of an array up to its closing bracket. -/
inductive Items : Text → List Json → Text → Prop
  | last {t u w rest : Text} {v : Json} (ha : Spaces t u) (hv : Value u v w)
    (hb : Spaces w (']' :: rest)) : Items t [v] rest
  | cons {t u w x rest : Text} {v : Json} {vs : List Json} (ha : Spaces t u) (hv : Value u v w)
    (hb : Spaces w (',' :: x)) (h : Items x vs rest) : Items t (v :: vs) rest

/-- The members of an object up to its closing brace. -/
inductive Members : Text → List (Text × Json) → Text → Prop
  | last {t u w x y z key rest : Text} {v : Json} (ha : Spaces t ('"' :: u)) (hk : Chars u key w)
    (hb : Spaces w (':' :: x)) (hc : Spaces x y) (hv : Value y v z) (hd : Spaces z ('}' :: rest)) :
    Members t [(key, v)] rest
  | cons {t u w x y z r key rest : Text} {v : Json} {ms : List (Text × Json)}
    (ha : Spaces t ('"' :: u)) (hk : Chars u key w) (hb : Spaces w (':' :: x)) (hc : Spaces x y)
    (hv : Value y v z) (hd : Spaces z (',' :: r)) (h : Members r ms rest) :
    Members t ((key, v) :: ms) rest

end

/-- A text of a value, with spaces around it. -/
def IsText (t : Text) (v : Json) : Prop := ∃ u w, Spaces t u ∧ Value u v w ∧ Spaces w []

/-! ## The reader of numbers -/

section Reader

variable {t u s rest : Text} {c : Char} {n : Nat} {α β : Type}

theorem bind_eq_ok_iff {x : Except Fault α} {f : α → Except Fault β} {b : β} :
    (x >>= f) = .ok b ↔ ∃ a, x = .ok a ∧ f a = .ok b := by
  cases x <;> simp [bind, Except.bind]

theorem map_eq_ok_iff {x : Except Fault α} {f : α → β} {b : β} :
    x.map f = .ok b ↔ ∃ a, x = .ok a ∧ f a = b := by
  cases x <;> simp [Except.map]

theorem Digits.suffix (h : Digits t rest) : rest <:+ t := by
  cases h with
  | mk _ h => exact h.suffix.trans (List.suffix_cons _ _)

theorem Whole.suffix (h : Whole t rest) : rest <:+ t := by
  cases h with
  | zero => exact List.suffix_cons _ _
  | digits _ h => exact h.suffix

theorem Fraction.suffix (h : Fraction t rest) : rest <:+ t := by
  cases h with
  | absent => exact List.suffix_rfl
  | digits h => exact h.suffix.trans (List.suffix_cons _ _)

theorem Sign.suffix (h : Sign t rest) : rest <:+ t := by
  cases h with
  | absent => exact List.suffix_rfl
  | plus => exact List.suffix_cons _ _
  | minus => exact List.suffix_cons _ _

theorem Exponent.suffix (h : Exponent t rest) : rest <:+ t := by
  cases h with
  | absent => exact List.suffix_rfl
  | digits _ hs h =>
    exact (h.suffix.trans hs.suffix).trans (List.suffix_cons _ _)

theorem Number.suffix (h : Number t rest) : rest <:+ t := by
  cases h with
  | positive hw hf he => exact (he.suffix.trans hf.suffix).trans hw.suffix
  | negative hw hf he =>
    exact ((he.suffix.trans hf.suffix).trans hw.suffix).trans (List.suffix_cons _ _)

theorem digits1_sound {ds : Text} (h : digits1 t = .ok (ds, rest)) : Digits t rest := by
  unfold digits1 Numeral.digits Numeral.afterDigits at h
  cases t with
  | nil => cases h
  | cons c t =>
    by_cases hc : isDigit c = true
    · simp only [List.takeWhile_cons_of_pos hc, List.dropWhile_cons_of_pos hc, Except.ok.injEq,
        Prod.mk.injEq] at h
      exact .mk hc (h.2 ▸ Text.run_dropWhile isDigit t)
    · simp only [List.takeWhile_cons_of_neg hc, List.dropWhile_cons_of_neg hc] at h
      cases h

theorem integerPart_sound {ds : Text} (h : integerPart t = .ok (ds, rest)) : Whole t rest := by
  unfold integerPart at h
  split at h
  · split at h
    · cases h
      exact .zero
    · cases h
  · rename_i hzero
    refine .digits (fun hhead => ?_) (digits1_sound h)
    obtain ⟨u, rfl⟩ := List.head?_eq_some_iff.mp hhead
    exact hzero u rfl

theorem fractionPart_sound {ds : Text} (h : fractionPart t = .ok (ds, rest)) :
    Fraction t rest := by
  unfold fractionPart at h
  split at h
  · exact .digits (digits1_sound h)
  · cases h
    exact .absent

theorem exponentPart_sound {e : Option (Bool × Text)} (h : exponentPart t = .ok (e, rest)) :
    Exponent t rest := by
  unfold exponentPart at h
  split at h
  · rename_i c t
    split at h
    · rename_i hc
      split at h
      rename_i negative u hsign
      obtain ⟨⟨ds, w⟩, hds, h⟩ := map_eq_ok_iff.mp h
      cases h
      have hs : Sign t u := by
        split at hsign <;> cases hsign
        · exact .plus
        · exact .minus
        · exact .absent
      exact .digits hc hs (digits1_sound hds)
    · cases h
      exact .absent
  · cases h
    exact .absent

theorem readNumber_sound {v : Json} (h : readNumber t = .ok (v, rest)) : Value t v rest := by
  unfold readNumber at h
  obtain ⟨⟨integer, u⟩, hu, h⟩ := bind_eq_ok_iff.mp h
  obtain ⟨⟨fraction, w⟩, hw, h⟩ := bind_eq_ok_iff.mp h
  obtain ⟨⟨exponent, x⟩, hx, h⟩ := bind_eq_ok_iff.mp h
  simp only at hu hw hx h
  split at h
  · cases h
  · cases h
    have hnumber : Number t rest := by
      split at hu
      · exact .negative (integerPart_sound hu) (fractionPart_sound hw) (exponentPart_sound hx)
      · exact .positive (integerPart_sound hu) (fractionPart_sound hw) (exponentPart_sound hx)
    obtain ⟨literal, rfl⟩ := hnumber.suffix
    have hliteral : (literal ++ rest).take ((literal ++ rest).length - rest.length) = literal := by
      simp
    rw [hliteral]
    exact .number hnumber rfl

/-! ## The reader of strings -/

theorem readUnit_sound (h : readUnit t = .ok (n, rest)) : CodeUnit t n rest := by
  unfold readUnit at h
  split at h
  · rename_i x y z w hdigits
    cases h
    match t, hdigits with
    | a :: b :: c :: d :: t, hdigits =>
      simp only [List.take_succ_cons, List.take_zero, List.mapM_cons, List.mapM_nil,
        Option.bind_eq_bind, Option.bind_eq_some_iff, Option.pure_def, Option.some.injEq,
        exists_eq_left'] at hdigits
      obtain ⟨_, ha, _, ⟨_, hb, _, ⟨_, hc, _, ⟨_, hd, rfl⟩, rfl⟩, rfl⟩, hvalue⟩ := hdigits
      cases hvalue
      exact .mk ha hb hc hd
    | [], hdigits => simp at hdigits
    | [a], hdigits => simp [Option.bind_eq_some_iff] at hdigits
    | [a, b], hdigits => simp [Option.bind_eq_some_iff] at hdigits
    | [a, b, c], hdigits => simp [Option.bind_eq_some_iff] at hdigits
  · cases h

theorem readLowUnit_sound (h : readLowUnit t = .ok (n, rest)) :
    ∃ u, t = '\\' :: 'u' :: u ∧ CodeUnit u n rest ∧ IsLow n := by
  unfold readLowUnit at h
  split at h
  · cases h
  · cases h
  · rename_i u
    obtain ⟨⟨low, rest'⟩, hu, h⟩ := bind_eq_ok_iff.mp h
    simp only at h
    split at h
    · rename_i hlow
      cases h
      exact ⟨u, rfl, readUnit_sound hu, hlow⟩
    · cases h
  · cases h

theorem readUnicode_sound (h : readUnicode t = .ok (c, u)) (hs : Chars u s rest) :
    Chars ('\\' :: 'u' :: t) (c :: s) rest := by
  unfold readUnicode at h
  obtain ⟨⟨n, w⟩, hn, h⟩ := bind_eq_ok_iff.mp h
  simp only at h
  split at h
  · cases h
  · rename_i hlow
    split at h
    · rename_i hhigh
      obtain ⟨⟨m, x⟩, hm, hchar⟩ := bind_eq_ok_iff.mp h
      obtain ⟨y, rfl, hunit, hlow'⟩ := readLowUnit_sound hm
      simp only [Except.ok.injEq, Prod.mk.injEq] at hchar
      obtain ⟨rfl, rfl⟩ := hchar
      exact .pair (readUnit_sound hn) hhigh hunit hlow' hs
    · rename_i hhigh
      cases h
      exact .unit (readUnit_sound hn) hhigh hlow hs

/-- An escape that is read is one, in front of the characters that follow it. -/
theorem readEscape_sound (h : readEscape t = .ok (c, u)) (hs : Chars u s rest) :
    Chars ('\\' :: t) (c :: s) rest := by
  unfold readEscape at h
  split at h
  · cases h
  · exact readUnicode_sound h hs
  · split at h <;> cases h <;> exact .escape (by simp [escapes]) hs

theorem readChars_sound {fuel : Nat} (h : readChars fuel t = .ok (s, rest)) : Chars t s rest := by
  induction fuel generalizing t s rest with
  | zero => simp [readChars] at h
  | succ fuel ih =>
    cases t with
    | nil => simp [readChars] at h
    | cons c t =>
      rw [readChars] at h
      split at h
      · rename_i hquote
        cases h
        exact hquote ▸ .close
      · rename_i hquote
        split at h
        · rename_i hescape
          obtain ⟨⟨c', u⟩, hc', h⟩ := bind_eq_ok_iff.mp h
          obtain ⟨⟨s', rest'⟩, hs', h⟩ := bind_eq_ok_iff.mp h
          cases h
          exact hescape ▸ readEscape_sound hc' (ih hs')
        · rename_i hescape
          split at h
          · cases h
          · rename_i hcontrol
            obtain ⟨⟨s', rest'⟩, hs', h⟩ := bind_eq_ok_iff.mp h
            cases h
            exact .plain hquote hescape (Nat.le_of_not_lt hcontrol) (ih hs')

theorem readString_sound (h : readString t = .ok (s, rest)) : Chars t s rest := readChars_sound h

/-! ## The reader of values -/

theorem readWord_sound {v v' : Json} {w : Text} (h : readWord v w t = .ok (v', rest)) :
    v' = v ∧ t = w ++ rest := by
  induction w generalizing t with
  | nil =>
    cases h
    exact ⟨rfl, rfl⟩
  | cons c w ih =>
    cases t with
    | nil => cases h
    | cons d t =>
      rw [readWord] at h
      split at h
      · rename_i hd
        obtain ⟨rfl, rfl⟩ := ih h
        exact ⟨rfl, by rw [hd]; rfl⟩
      · cases h

theorem spaces_skipSpace (t : Text) : Spaces t (skipSpace t) := Text.run_dropWhile isSpace t

/-- What a reader takes for a value is one, with spaces in front. -/
def IsSound (item : Reader Json) : Prop :=
  ∀ {t v rest}, item t = .ok (v, rest) → ∃ u, Spaces t u ∧ Value u v rest

variable {item : Reader Json} {fuel : Nat}

/-- Spaces in front of items are spaces in front of the first. -/
theorem Items.of_spaces {vs : List Json} (ht : Spaces t u) (h : Items u vs rest) :
    Items t vs rest := by
  cases h with
  | last ha hv hb => exact .last (ht.trans ha) hv hb
  | cons ha hv hb h => exact .cons (ht.trans ha) hv hb h

theorem Members.of_spaces {ms : List (Text × Json)} (ht : Spaces t u) (h : Members u ms rest) :
    Members t ms rest := by
  cases h with
  | last ha hk hb hc hv hd => exact .last (ht.trans ha) hk hb hc hv hd
  | cons ha hk hb hc hv hd h => exact .cons (ht.trans ha) hk hb hc hv hd h

theorem readItems_sound (hitem : IsSound item) {vs : List Json}
    (h : readItems item fuel t = .ok (vs, rest)) : Items t vs rest := by
  induction fuel generalizing t vs with
  | zero => cases h
  | succ fuel ih =>
    rw [readItems] at h
    obtain ⟨⟨v, u⟩, hv, h⟩ := bind_eq_ok_iff.mp h
    obtain ⟨x, hx, hvalue⟩ := hitem hv
    simp only at h
    split at h
    · cases h
    · rename_i r hr
      cases h
      exact .last hx hvalue (hr ▸ spaces_skipSpace u)
    · rename_i r hr
      have hcomma : Spaces u (',' :: r) := hr ▸ spaces_skipSpace u
      split at h
      · cases h
      · cases h
      · obtain ⟨⟨vs', r'⟩, hvs, h⟩ := bind_eq_ok_iff.mp h
        cases h
        exact .cons hx hvalue hcomma ((ih hvs).of_spaces (spaces_skipSpace r))
    · cases h

theorem readArray_sound (hitem : IsSound item) {v : Json} (h : readArray item t = .ok (v, rest)) :
    Value ('[' :: t) v rest := by
  unfold readArray at h
  split at h
  · cases h
  · rename_i r hr
    cases h
    exact .emptyArray (hr ▸ spaces_skipSpace t)
  · obtain ⟨⟨vs, r⟩, hvs, h⟩ := map_eq_ok_iff.mp h
    cases h
    exact .array ((readItems_sound hitem hvs).of_spaces (spaces_skipSpace t))

theorem readMembers_sound (hitem : IsSound item) {ms : List (Text × Json)}
    (h : readMembers item fuel t = .ok (ms, rest)) : Members t ms rest := by
  induction fuel generalizing t ms with
  | zero => simp [readMembers] at h
  | succ fuel ih =>
    cases t with
    | nil => simp [readMembers] at h
    | cons c t =>
      rw [readMembers] at h
      split at h
      · cases h
      · rename_i hc
        obtain rfl : c = '"' := by simpa using hc
        obtain ⟨⟨key, u⟩, hkey, h⟩ := bind_eq_ok_iff.mp h
        simp only at h
        split at h
        · cases h
        · rename_i w hw
          have hcolon : Spaces u (':' :: w) := hw ▸ spaces_skipSpace u
          obtain ⟨⟨v, x⟩, hv, h⟩ := bind_eq_ok_iff.mp h
          obtain ⟨y, hy, hvalue⟩ := hitem hv
          simp only at h
          split at h
          · cases h
          · rename_i r hr
            cases h
            exact .last (.refl _ _) (readString_sound hkey) hcolon hy hvalue
              (hr ▸ spaces_skipSpace x)
          · rename_i r hr
            obtain ⟨⟨ms', r'⟩, hms, h⟩ := bind_eq_ok_iff.mp h
            cases h
            exact .cons (.refl _ _) (readString_sound hkey) hcolon hy hvalue
              (hr ▸ spaces_skipSpace x) ((ih hms).of_spaces (spaces_skipSpace r))
          · cases h
        · cases h

theorem readObject_sound (hitem : IsSound item) {v : Json} (h : readObject item t = .ok (v, rest)) :
    Value ('{' :: t) v rest := by
  unfold readObject at h
  split at h
  · rename_i r hr
    cases h
    exact .emptyObject (hr ▸ spaces_skipSpace t)
  · obtain ⟨⟨ms, r⟩, hms, h⟩ := map_eq_ok_iff.mp h
    cases h
    exact .object ((readMembers_sound hitem hms).of_spaces (spaces_skipSpace t))

/-- The step of the reader: what nests in a value is read with one level less. -/
theorem readAt_step {depth : Nat} (hinner : ∀ k, depth = k + 1 → IsSound (readAt k)) :
    IsSound (readAt depth) := by
  intro t v rest h
  have hspaces := spaces_skipSpace t
  rw [readAt] at h
  split at h
  · cases h
  · rename_i c u hu
    rw [hu] at hspaces
    refine ⟨c :: u, hspaces, ?_⟩
    split at h
    · obtain ⟨rfl, rfl⟩ := readWord_sound h
      exact .wordNull
    · obtain ⟨rfl, rfl⟩ := readWord_sound h
      exact .wordTrue
    · obtain ⟨rfl, rfl⟩ := readWord_sound h
      exact .wordFalse
    · obtain ⟨⟨s, r⟩, hs, h⟩ := map_eq_ok_iff.mp h
      cases h
      exact .string (readString_sound hs)
    · split at h
      · cases h
      · exact readArray_sound (hinner _ rfl) h
    · split at h
      · cases h
      · exact readObject_sound (hinner _ rfl) h
    · split at h
      · exact readNumber_sound h
      · cases h

/-- **The reader is sound.** At any depth, it takes nothing for a value that is none. -/
theorem readAt_sound (depth : Nat) : IsSound (readAt depth) := by
  induction depth with
  | zero => exact readAt_step fun k hk => absurd hk (Nat.succ_ne_zero k).symm
  | succ depth ih => exact readAt_step fun k hk => Nat.succ.inj hk ▸ ih

/-- A text that is read as a whole is one of the value. -/
theorem isText_of_parse {v : Json} (h : parse t = .ok v) : IsText t v := by
  unfold parse at h
  obtain ⟨⟨v', w⟩, hread, h⟩ := bind_eq_ok_iff.mp h
  obtain ⟨u, hu, hvalue⟩ := readAt_sound maxDepth hread
  simp only at h
  split at h
  · rename_i hend
    cases h
    have hw : Spaces w (skipSpace w) := spaces_skipSpace w
    rw [List.isEmpty_iff.mp hend] at hw
    exact ⟨u, w, hu, hvalue, hw⟩
  · cases h

end Reader

end LinePatch.Json.Grammar
