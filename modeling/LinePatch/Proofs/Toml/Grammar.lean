import LinePatch.Proofs.Text.Run
import LinePatch.Toml.Document

/-!
# The grammar of TOML documents

A document is a list of lines, each with a header, an entry or neither, and perhaps a comment. The
rules say what a text starts with, and what follows it. What a value looks like is left open, and so
is what may stand in a comment; nothing limits how many parts a key has. Which keys may be given
twice is not said either, so the grammar has all documents, and more.

* `Key`, `Expression`, `Lines`: the rules for keys, for what stands on a line, and for lines.
* `IsDocument`: the documents, for a given rule of values.
* `readStatement_sound`: what the reader takes for a header or an entry is one.
* `isDocument_of_parse`: the same for whole documents.
-/

namespace LinePatch.Toml.Grammar

open Text (Run)

/-- Spaces and tabs, any number of them. -/
abbrev Spaces (t rest : Text) : Prop := Run isSpace t rest

/-! ## Keys -/

/-- An escape, behind its backslash. -/
inductive Escape : Text → Text → Prop
  | letter {c : Char} {rest : Text} (hc : c ∈ ['"', '\\', 'b', 't', 'n', 'f', 'r', 'e']) :
    Escape (c :: rest) rest
  | code {c : Char} {v : Nat} {ds rest : Text}
    (hc : (c, ds.length) ∈ [('x', 2), ('u', 4), ('U', 8)])
    (hv : Digest.hexValue? 0 ds = some v) (hvalid : v.isValidChar) :
    Escape (c :: (ds ++ rest)) rest

/-- The characters of a basic string up to its closing quote. -/
inductive BasicChars : Text → Text → Prop
  | close {rest : Text} : BasicChars ('"' :: rest) rest
  | plain {c : Char} {t rest : Text} (hquote : c ≠ '"') (hescape : c ≠ '\\')
    (hplain : isPlain c = true) (h : BasicChars t rest) : BasicChars (c :: t) rest
  | escape {t u rest : Text} (he : Escape t u) (h : BasicChars u rest) :
    BasicChars ('\\' :: t) rest

/-- The characters of a literal string up to its closing quote. -/
inductive LiteralChars : Text → Text → Prop
  | close {rest : Text} : LiteralChars ('\'' :: rest) rest
  | plain {c : Char} {t rest : Text} (hquote : c ≠ '\'') (hplain : isPlain c = true)
    (h : LiteralChars t rest) : LiteralChars (c :: t) rest

/-- A part of a key. -/
inductive KeyPart : Text → Text → Prop
  | bare {c : Char} {t rest : Text} (hc : isWordChar c = true) (h : Run isWordChar t rest) :
    KeyPart (c :: t) rest
  | basic {t rest : Text} (h : BasicChars t rest) : KeyPart ('"' :: t) rest
  | literal {t rest : Text} (h : LiteralChars t rest) : KeyPart ('\'' :: t) rest

/-- Parts with points between them. -/
inductive Key : Text → Text → Prop
  | part {t rest : Text} (h : KeyPart t rest) : Key t rest
  | dotted {t u w x rest : Text} (h : KeyPart t u) (ha : Spaces u ('.' :: w)) (hb : Spaces w x)
    (hk : Key x rest) : Key t rest

/-- The characters that a key can start with. -/
def opensKey (c : Char) : Bool := isWordChar c || c == '"' || c == '\''

theorem KeyPart.exists_cons {t rest : Text} (h : KeyPart t rest) :
    ∃ c u, t = c :: u ∧ opensKey c = true := by
  cases h with
  | bare hc _ => exact ⟨_, _, rfl, by simp [opensKey, hc]⟩
  | basic _ => exact ⟨_, _, rfl, rfl⟩
  | literal _ => exact ⟨_, _, rfl, rfl⟩

theorem Key.exists_cons {t rest : Text} (h : Key t rest) :
    ∃ c u, t = c :: u ∧ opensKey c = true := by
  cases h with
  | part h => exact h.exists_cons
  | dotted h _ _ _ => exact h.exists_cons

/-! ## Lines -/

/-- What stands on a line, for a rule of values. -/
inductive Expression (Value : Text → Text → Prop) : Text → Text → Prop
  | blank {rest : Text} : Expression Value rest rest
  | entry {t u w x rest : Text} (hk : Key t u) (ha : Spaces u ('=' :: w)) (hb : Spaces w x)
    (hv : Value x rest) : Expression Value t rest
  | table {t u w rest : Text} (ha : Spaces t u) (hk : Key u w) (hb : Spaces w (']' :: rest)) :
    Expression Value ('[' :: t) rest
  | arrayTable {t u w rest : Text} (ha : Spaces t u) (hk : Key u w)
    (hb : Spaces w (']' :: ']' :: rest)) : Expression Value ('[' :: '[' :: t) rest

/-- A comment at the end of a line, if there is one. -/
inductive Comment : Text → Text → Prop
  | absent {rest : Text} : Comment rest rest
  | present {t rest : Text} (h : Run (· != '\n') t rest) : Comment ('#' :: t) rest

inductive Newline : Text → Text → Prop
  | newline {rest : Text} : Newline ('\n' :: rest) rest
  | returnNewline {rest : Text} : Newline ('\r' :: '\n' :: rest) rest

/-- A list of lines, of which the last ends with the text. -/
inductive Lines (Value : Text → Text → Prop) : Text → Prop
  | last {t u w x : Text} (ha : Spaces t u) (he : Expression Value u w) (hb : Spaces w x)
    (hc : Comment x []) : Lines Value t
  | cons {t u w x y z : Text} (ha : Spaces t u) (he : Expression Value u w) (hb : Spaces w x)
    (hc : Comment x y) (hn : Newline y z) (h : Lines Value z) : Lines Value t

/-- A document, perhaps with a byte order mark in front. -/
inductive IsDocument (Value : Text → Text → Prop) : Text → Prop
  | plain {t : Text} (h : Lines Value t) : IsDocument Value t
  | marked {t : Text} (h : Lines Value t) : IsDocument Value ('\uFEFF' :: t)

/-- The values that the reader finds at the start of a text, however deep they may nest. -/
def ReadsValue (t rest : Text) : Prop := ∃ depth v, readValueAt depth t = some (v, rest)

/-! ## The reader of keys -/

variable {t u s rest : Text} {c : Char} {n fuel : Nat}

theorem spaces_skipSpace (t : Text) : Spaces t (skipSpace t) := Text.run_dropWhile isSpace t

theorem readCodePoint_sound {mark : Char} (hmark : (mark, n) ∈ [('x', 2), ('u', 4), ('U', 8)])
    (h : readCodePoint n t = some (c, rest)) : Escape (mark :: t) rest := by
  unfold readCodePoint at h
  split at h
  · cases h
  · rename_i hlen
    obtain ⟨v, hv, h⟩ := Option.bind_eq_some_iff.mp h
    split at h
    · rename_i hvalid
      cases h
      have hlen : (t.take n).length = n := by
        rw [List.length_take] at hlen ⊢
        omega
      have hescape : Escape (mark :: (t.take n ++ t.drop n)) (t.drop n) :=
        .code (hlen.symm ▸ hmark) hv hvalid
      rwa [List.take_append_drop] at hescape
    · cases h

theorem readEscape_sound (h : readEscape t = some (c, rest)) : Escape t rest := by
  unfold readEscape at h
  split at h
  · cases h
  · split at h
    all_goals first
      | exact readCodePoint_sound (by simp) h
      | (cases h; exact .letter (by simp))
      | cases h

theorem basicChars_sound (h : basicChars fuel t = some (s, rest)) : BasicChars t rest := by
  induction fuel generalizing t s with
  | zero => simp [basicChars] at h
  | succ fuel ih =>
    cases t with
    | nil => simp [basicChars] at h
    | cons c t =>
      rw [basicChars] at h
      split at h
      · rename_i hquote
        cases h
        exact hquote ▸ .close
      · rename_i hquote
        split at h
        · rename_i hescape
          obtain ⟨⟨c', u⟩, hc', h⟩ := Option.bind_eq_some_iff.mp h
          obtain ⟨⟨s', rest'⟩, hs', h⟩ := Option.bind_eq_some_iff.mp h
          cases h
          exact hescape ▸ .escape (readEscape_sound hc') (ih hs')
        · rename_i hescape
          split at h
          · rename_i hplain
            obtain ⟨⟨s', rest'⟩, hs', h⟩ := Option.bind_eq_some_iff.mp h
            cases h
            exact .plain hquote hescape hplain (ih hs')
          · cases h

theorem literalChars_sound (h : literalChars t = some (s, rest)) : LiteralChars t rest := by
  induction t generalizing s with
  | nil => cases h
  | cons c t ih =>
    rw [literalChars] at h
    split at h
    · rename_i hquote
      cases h
      exact hquote ▸ .close
    · rename_i hquote
      split at h
      · rename_i hplain
        obtain ⟨⟨s', rest'⟩, hs', h⟩ := Option.map_eq_some_iff.mp h
        cases h
        exact .plain hquote hplain (ih hs')
      · cases h

theorem readKeyPart_sound (h : readKeyPart t = some (s, rest)) : KeyPart t rest := by
  unfold readKeyPart at h
  split at h
  · unfold readQuoted at h
    split at h
    · exact .basic (basicChars_sound h)
    · exact .literal (literalChars_sound h)
    · cases h
  · rename_i hword
    cases h
    cases t with
    | nil => cases hword rfl
    | cons c t =>
      rw [Text.drop_length_takeWhile]
      cases hc : isWordChar c with
      | false => exact absurd (List.takeWhile_cons_of_neg (by simp [hc])) hword
      | true =>
        rw [List.dropWhile_cons_of_pos hc]
        exact .bare hc (Text.run_dropWhile isWordChar t)

/-- The key that is read has spaces in front and behind. -/
theorem readParts_sound {parts : List Text} (h : readParts fuel t = some (parts, rest)) :
    ∃ u w, Spaces t u ∧ Key u w ∧ Spaces w rest := by
  induction fuel generalizing t parts with
  | zero => cases h
  | succ fuel ih =>
    rw [readParts] at h
    obtain ⟨⟨part, x⟩, hpart, h⟩ := Option.bind_eq_some_iff.mp h
    have hpart := readKeyPart_sound hpart
    simp only at h
    split at h
    · rename_i y hy
      obtain ⟨⟨parts', rest'⟩, hparts, h⟩ := Option.bind_eq_some_iff.mp h
      cases h
      obtain ⟨u, w, hu, hkey, hw⟩ := ih hparts
      have hpoint : Spaces x ('.' :: y) := hy ▸ spaces_skipSpace x
      exact ⟨_, w, spaces_skipSpace t, .dotted hpart hpoint hu hkey, hw⟩
    · cases h
      exact ⟨_, x, spaces_skipSpace t, .part hpart, spaces_skipSpace x⟩

theorem readKey_sound {path : Path} (h : readKey t = some (path, rest)) :
    ∃ u w, Spaces t u ∧ Key u w ∧ Spaces w rest := by
  unfold readKey at h
  obtain ⟨⟨parts, x⟩, hparts, h⟩ := Option.bind_eq_some_iff.mp h
  simp only at h
  split at h
  · cases h
  · split at h
    · cases h
    · cases h
      exact readParts_sound hparts

/-! ## The reader of lines -/

/-- A header or an entry that is read has spaces in front, if any. -/
theorem readStatement_sound {statement : Statement}
    (h : readStatement t = some (statement, rest)) :
    ∃ u, Spaces t u ∧ Expression ReadsValue u rest := by
  unfold readStatement at h
  split at h
  · rename_i t
    obtain ⟨⟨path, x⟩, hpath, h⟩ := Option.bind_eq_some_iff.mp h
    obtain ⟨u, w, hu, hkey, hw⟩ := readKey_sound hpath
    split at h
    · rename_i heq
      cases heq
      cases h
      exact ⟨_, .refl _ _, .arrayTable hu hkey hw⟩
    · cases h
  · rename_i t _
    obtain ⟨⟨path, x⟩, hpath, h⟩ := Option.bind_eq_some_iff.mp h
    obtain ⟨u, w, hu, hkey, hw⟩ := readKey_sound hpath
    split at h
    · rename_i heq
      cases heq
      cases h
      exact ⟨_, .refl _ _, .table hu hkey hw⟩
    · cases h
  · obtain ⟨⟨⟨path, v⟩, x⟩, hentry, h⟩ := Option.map_eq_some_iff.mp h
    cases h
    unfold readEntry at hentry
    obtain ⟨⟨path', y⟩, hpath, hentry⟩ := Option.bind_eq_some_iff.mp hentry
    obtain ⟨u, w, hu, hkey, hw⟩ := readKey_sound hpath
    obtain ⟨z, hz, hentry⟩ := Option.bind_eq_some_iff.mp hentry
    cases hz
    split at hentry
    · rename_i z hz
      obtain ⟨a, ha, hentry⟩ := Option.bind_eq_some_iff.mp hentry
      cases ha
      obtain ⟨⟨v', b⟩, hv, hentry⟩ := Option.bind_eq_some_iff.mp hentry
      cases hentry
      have hequals : Spaces w ('=' :: z) := hz ▸ hw.trans (spaces_skipSpace y)
      exact ⟨u, hu, .entry hkey hequals (spaces_skipSpace z) ⟨maxDepth, v, hv⟩⟩
    · cases hentry

theorem newline_of_afterNewline? (h : afterNewline? t = some rest) : Newline t rest := by
  unfold afterNewline? at h
  split at h
  · cases h
    exact .newline
  · cases h
    exact .returnNewline
  · cases h

theorem comment_dropWhile (t : Text) : Comment ('#' :: t) (t.dropWhile isPlain) := by
  refine .present ((Text.run_dropWhile isPlain t).mono fun c hc => ?_)
  rw [bne_iff_ne]
  rintro rfl
  cases hc

/-- What is read behind the statement of a line: the text ends there, or a newline follows. -/
theorem afterLine?_sound (h : afterLine? t = some rest) :
    ∃ u w, Spaces t u ∧ Comment u w ∧ (w = [] ∨ Newline w rest) := by
  unfold afterLine? at h
  generalize hline : skipSpace t = line at h
  have hspaces : Spaces t line := hline ▸ spaces_skipSpace t
  split at h
  · rename_i x
    refine ⟨_, _, hspaces, comment_dropWhile x, ?_⟩
    simp only at h
    split at h
    · rename_i hend
      exact .inl hend
    · exact .inr (newline_of_afterNewline? h)
  · refine ⟨_, _, hspaces, .absent, ?_⟩
    simp only at h
    split at h
    · rename_i hend
      exact .inl hend
    · exact .inr (newline_of_afterNewline? h)

/-- A line with what is read behind its statement, in front of lines. -/
theorem lines_of_afterLine? {Value : Text → Text → Prop} {w : Text} (ha : Spaces t u)
    (he : Expression Value u w) (h : afterLine? w = some rest) (hrest : Lines Value rest) :
    Lines Value t := by
  obtain ⟨x, y, hb, hc, rfl | hn⟩ := afterLine?_sound h
  · exact .last ha he hb hc
  · exact .cons ha he hb hc hn hrest

theorem readStatements_sound {ss : List Statement} (h : readStatements fuel t = some ss) :
    Lines ReadsValue t := by
  induction fuel generalizing t ss with
  | zero => cases h
  | succ fuel ih =>
    rw [readStatements] at h
    have hspaces := spaces_skipSpace t
    split at h
    · rename_i hend
      exact .last (hend ▸ hspaces) .blank (.refl _ _) .absent
    · rename_i c x hx
      rw [hx] at hspaces
      split at h
      · obtain ⟨y, hy, h⟩ := Option.bind_eq_some_iff.mp h
        exact lines_of_afterLine? hspaces .blank hy (ih h)
      · obtain ⟨⟨statement, y⟩, hstatement, h⟩ := Option.bind_eq_some_iff.mp h
        obtain ⟨z, hz, h⟩ := Option.bind_eq_some_iff.mp h
        obtain ⟨ss', hss', -⟩ := Option.bind_eq_some_iff.mp h
        obtain ⟨u, hu, hexpression⟩ := readStatement_sound hstatement
        exact lines_of_afterLine? (hspaces.trans hu) hexpression hz (ih hss')

/-- **The reader is sound.** A text that is read as a document is one. -/
theorem isDocument_of_parse {es : Entries} (h : parse t = some es) : IsDocument ReadsValue t := by
  unfold parse at h
  obtain ⟨ss, hss, -⟩ := Option.bind_eq_some_iff.mp h
  have hlines := readStatements_sound hss
  unfold skipMark at hlines
  split at hlines
  · exact .marked hlines
  · exact .plain hlines

end LinePatch.Toml.Grammar
