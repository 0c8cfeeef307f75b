import LinePatch.Proofs.Json.Grammar
import LinePatch.Proofs.Toml.Grammar
import LinePatch.Spec.Load

/-!
# Sniffed formats

The format of a text shows in its first characters that are not blank. No list of TOML lines starts
in one of the ways that are taken for JSON: behind the bracket of a header stands another one, or
what a key can start with.

* `TakenForJson`: the values whose texts are taken for JSON.
* `sniff_of_isText`: the format of their texts.
* `sniff_of_isDocument`: the format of TOML documents, whatever their values look like.
* `sniff_of_grammar`: both, and what they say about loading.
-/

namespace LinePatch.SpecFormat

open Text (Run isBlank trimStart)

/-- Objects, and arrays that are empty or start with an object. -/
inductive TakenForJson : Json → Prop
  | object (members : List (Text × Json)) : TakenForJson (.object members)
  | emptyArray : TakenForJson (.array [])
  | objectArray (members : List (Text × Json)) (items : List Json) :
    TakenForJson (.array (.object members :: items))

variable {t u w x rest : Text} {c : Char} {v : Json} {Value : Text → Text → Prop}

/-! ## First characters -/

theorem sniff_of_blank (h : Run isBlank t u) : sniff t = sniff u := by
  have htrim : trimStart t = trimStart u := h.dropWhile_eq
  unfold sniff
  rw [htrim]

theorem sniff_brace (t : Text) : sniff ('{' :: t) = .json := rfl

theorem sniff_bracket_bracket (t : Text) : sniff ('[' :: '[' :: t) = .toml := rfl

theorem sniff_bracket (t : Text) :
    sniff ('[' :: t) = match trimStart t with
      | '{' :: _ => .json
      | ']' :: _ => .json
      | _ => .toml := rfl

theorem sniff_bracket_brace (h : Run isBlank t ('{' :: u)) : sniff ('[' :: t) = .json := by
  have htrim : trimStart t = '{' :: u := h.dropWhile_eq_cons rfl
  simp only [sniff_bracket, htrim]

theorem sniff_bracket_close (h : Run isBlank t (']' :: u)) : sniff ('[' :: t) = .json := by
  have htrim : trimStart t = ']' :: u := h.dropWhile_eq_cons rfl
  simp only [sniff_bracket, htrim]

/-- A character that is neither blank nor a bracket nor a brace opens no JSON. -/
theorem sniff_cons (hblank : isBlank c = false) (hbrace : c ≠ '{') (hbracket : c ≠ '[') :
    sniff (c :: t) = .toml := by
  have htrim : trimStart (c :: t) = c :: t := List.dropWhile_cons_of_neg (by simp [hblank])
  unfold sniff
  rw [htrim]
  split
  · simp_all
  · simp_all
  · rfl

theorem sniff_bracket_cons (h : Run isBlank t (c :: u)) (hblank : isBlank c = false)
    (hbrace : c ≠ '{') (hbracket : c ≠ ']') : sniff ('[' :: t) = .toml := by
  have htrim : trimStart t = c :: u := h.dropWhile_eq_cons hblank
  rw [sniff_bracket, htrim]
  split
  · simp_all
  · simp_all
  · rfl

/-! ## JSON -/

theorem blank_of_jsonSpaces (h : Json.Grammar.Spaces t rest) : Run isBlank t rest := by
  refine h.mono fun c hc => ?_
  simp only [Json.isSpace, Bool.or_eq_true, beq_iff_eq] at hc
  obtain ((rfl | rfl) | rfl) | rfl := hc <;> rfl

theorem sniff_of_value (h : Json.Grammar.Value t v rest) (hv : TakenForJson v) :
    sniff t = .json := by
  cases hv with
  | object => cases h <;> exact sniff_brace _
  | emptyArray =>
    cases h with
    | emptyArray hclose => exact sniff_bracket_close (blank_of_jsonSpaces hclose)
    | array hitems => cases hitems
  | objectArray =>
    cases h with
    | array hitems =>
      -- The first item is an object, so its text starts with a brace.
      cases hitems with
      | last ha hv _ | cons ha hv _ _ =>
        cases hv <;> exact sniff_bracket_brace (blank_of_jsonSpaces ha)

theorem sniff_of_isText (h : Json.Grammar.IsText t v) (hv : TakenForJson v) :
    sniff t = .json := by
  obtain ⟨u, w, hspaces, hvalue, -⟩ := h
  rw [sniff_of_blank (blank_of_jsonSpaces hspaces)]
  exact sniff_of_value hvalue hv

/-! ## TOML -/

open Toml.Grammar

theorem blank_of_tomlSpaces (h : Spaces t rest) : Run isBlank t rest := by
  refine h.mono fun c hc => ?_
  simp only [Toml.isSpace, Bool.or_eq_true, beq_iff_eq] at hc
  obtain rfl | rfl := hc <;> rfl

theorem toNat_of_opensKey (hc : opensKey c = true) : 0x20 < c.toNat ∧ c.toNat < 0x7F := by
  have hle : ∀ {a b : Char}, a ≤ b → a.toNat ≤ b.toNat := fun h => h
  simp only [opensKey, Toml.isWordChar, Numeral.isDigit, Bool.or_eq_true, Bool.and_eq_true,
    decide_eq_true_eq, beq_iff_eq] at hc
  obtain (((((h | h) | h) | rfl) | rfl) | rfl) | rfl := hc
  case inl.inl.inl.inl.inl.inl | inl.inl.inl.inl.inl.inr | inl.inl.inl.inl.inr =>
    have hlow := hle h.1
    have hhigh := hle h.2
    simp only [Char.reduceToNat] at hlow hhigh
    omega
  all_goals decide

theorem isBlank_of_opensKey (hc : opensKey c = true) : isBlank c = false := by
  obtain ⟨hlow, hhigh⟩ := toNat_of_opensKey hc
  rw [Bool.eq_false_iff]
  intro hblank
  simp only [isBlank, Bool.or_eq_true, Bool.and_eq_true, decide_eq_true_eq, beq_iff_eq] at hblank
  omega

theorem ne_of_opensKey (hc : opensKey c = true) : c ≠ '{' ∧ c ≠ '[' ∧ c ≠ ']' := by
  refine ⟨?_, ?_, ?_⟩ <;> rintro rfl <;> revert hc <;> decide

theorem sniff_of_key (h : Key t rest) : sniff t = .toml := by
  obtain ⟨c, u, rfl, hc⟩ := h.exists_cons
  obtain ⟨hbrace, hbracket, -⟩ := ne_of_opensKey hc
  exact sniff_cons (isBlank_of_opensKey hc) hbrace hbracket

theorem sniff_of_header (ha : Spaces t u) (h : Key u rest) : sniff ('[' :: t) = .toml := by
  obtain ⟨c, u, rfl, hc⟩ := h.exists_cons
  obtain ⟨hbrace, -, hbracket⟩ := ne_of_opensKey hc
  exact sniff_bracket_cons (blank_of_tomlSpaces ha) (isBlank_of_opensKey hc) hbrace hbracket

/-- What stands on a line is blank, or shows that the text is TOML. -/
theorem eq_or_sniff_of_expression (h : Expression Value t rest) : t = rest ∨ sniff t = .toml := by
  cases h with
  | blank => exact .inl rfl
  | entry hk _ _ _ => exact .inr (sniff_of_key hk)
  | table ha hk _ => exact .inr (sniff_of_header ha hk)
  | arrayTable _ _ _ => exact .inr (sniff_bracket_bracket _)

theorem eq_or_sniff_of_comment (h : Comment t rest) : t = rest ∨ sniff t = .toml := by
  cases h with
  | absent => exact .inl rfl
  | present _ => exact .inr rfl

/-- A line is blank up to its end, or shows that the text is TOML. -/
theorem blank_or_sniff_of_line (ha : Spaces t u) (he : Expression Value u w) (hb : Spaces w x)
    (hc : Comment x rest) : Run isBlank t rest ∨ sniff t = .toml := by
  have hfront := blank_of_tomlSpaces ha
  obtain rfl | hsniff := eq_or_sniff_of_expression he
  · have hspaces := hfront.trans (blank_of_tomlSpaces hb)
    obtain rfl | hsniff := eq_or_sniff_of_comment hc
    · exact .inl hspaces
    · exact .inr ((sniff_of_blank hspaces).trans hsniff)
  · exact .inr ((sniff_of_blank hfront).trans hsniff)

theorem blank_of_newline (h : Newline t rest) : Run isBlank t rest := by
  cases h with
  | newline => exact .cons rfl (.refl isBlank rest)
  | returnNewline => exact .cons rfl (.cons rfl (.refl isBlank rest))

theorem sniff_of_lines (h : Lines Value t) : sniff t = .toml := by
  induction h with
  | last ha he hb hc =>
    obtain hblank | hsniff := blank_or_sniff_of_line ha he hb hc
    · exact sniff_of_blank hblank
    · exact hsniff
  | cons ha he hb hc hn _ ih =>
    obtain hblank | hsniff := blank_or_sniff_of_line ha he hb hc
    · exact (sniff_of_blank (hblank.trans (blank_of_newline hn))).trans ih
    · exact hsniff

/-- No TOML document is taken for JSON. A byte order mark is not blank, so what stands behind it
does not count. -/
theorem sniff_of_isDocument (h : IsDocument Value t) : sniff t = .toml := by
  cases h with
  | plain h => exact sniff_of_lines h
  | marked h => exact sniff_cons rfl (by decide) (by decide)

/-! ## Texts of either format -/

/-- **The sniffed format is right.** The texts of objects, empty arrays and arrays that start with
an object are taken for JSON, and all TOML documents for TOML, whatever counts as a TOML value; so
they are loaded as in their own format. What the two readers accept is among these texts. -/
theorem sniff_of_grammar (t : Text) :
    (∀ v, Json.Grammar.IsText t v → TakenForJson v →
      sniff t = .json ∧ PatchSpec.loadInline t = PatchSpec.load .json t) ∧
    (∀ Value, IsDocument Value t →
      sniff t = .toml ∧ PatchSpec.loadInline t = PatchSpec.load .toml t) ∧
    (∀ v, Json.parse t = .ok v → Json.Grammar.IsText t v) ∧
    (∀ es, Toml.parse t = some es → IsDocument ReadsValue t) := by
  refine ⟨fun v h hv => ?_, fun Value h => ?_, fun v h => Json.Grammar.isText_of_parse h,
    fun es h => isDocument_of_parse h⟩
  · have hsniff := sniff_of_isText h hv
    exact ⟨hsniff, by rw [PatchSpec.loadInline, hsniff]⟩
  · have hsniff := sniff_of_isDocument h
    exact ⟨hsniff, by rw [PatchSpec.loadInline, hsniff]⟩

theorem sniff_of_grammar_bracketed :
    let json := "\n[ \x7b\x7d ]".toList
    let toml := "# [\n [[ a ]]\n".toList
    (Json.parse json = .ok (.array [.object []]) ∧
      Json.Grammar.IsText json (.array [.object []]) ∧ TakenForJson (.array [.object []]) ∧
      sniff json = .json ∧ PatchSpec.loadInline json = PatchSpec.load .json json) ∧
    Toml.parse toml = some [(['a'], .tables [[]])] ∧ IsDocument ReadsValue toml ∧
      sniff toml = .toml ∧ PatchSpec.loadInline toml = PatchSpec.load .toml toml := by
  intro json toml
  obtain ⟨hjson, -, hjsonText, -⟩ := sniff_of_grammar json
  obtain ⟨-, htoml, -, htomlText⟩ := sniff_of_grammar toml
  have hreadJson : Json.parse json = .ok (.array [.object []]) := by rfl
  have hreadToml : Toml.parse toml = some [(['a'], .tables [[]])] := by rfl
  have htaken : TakenForJson (.array [.object []]) := .objectArray [] []
  have htext := hjsonText _ hreadJson
  have hdocument := htomlText _ hreadToml
  exact ⟨⟨hreadJson, htext, htaken, hjson _ htext htaken⟩, hreadToml, hdocument,
    htoml _ hdocument⟩

end LinePatch.SpecFormat
