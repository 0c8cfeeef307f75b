import LinePatch.Anchor.Locate
import LinePatch.Anchor.Nearest
import LinePatch.Proofs.Document.Lines
import LinePatch.Proofs.Text.LineBreaks

/-!
# Searches in a document

What the two searches find: the search for an anchor gives the first line that contains it, and
the search for a needle without newline looks into every line.

* `locateFrom_eq_some_iff`, `locateFrom_eq_some_iff_append`: the first line that contains a pattern,
  by its index and by the lines around it.
* `contains_iff_of_isInline`: the documents that contain a text that terminators take no part in.
* `contains_congr`, `locate_congr`, `nearest_congr`: searches see nothing but the lines.
-/

namespace LinePatch.Document

open Text (IsInline content occursIn_iff trimNewlines)

/-- Line `i` exists and contains a pattern. -/
def LineContains (d : Document) (pattern : Text) (i : Nat) : Prop :=
  ∃ l, d.lines[i]? = some l ∧ pattern <:+: l

theorem LineContains.lt_length {d : Document} {pattern : Text} {i : Nat}
    (h : d.LineContains pattern i) : i < d.length := by
  obtain ⟨l, hl, -⟩ := h
  simpa using (List.getElem?_eq_some_iff.mp hl).1

/-! ## Anchors -/

theorem locateIn_eq_findIdx? (pattern : Text) (i : Nat) (ls : List Text) :
    locateIn pattern i ls = (ls.findIdx? (Text.occursIn pattern)).map (i + ·) := by
  induction ls generalizing i with
  | nil => rfl
  | cons l ls ih =>
    rw [locateIn, List.findIdx?_cons]
    split
    · rfl
    · rw [ih, Option.map_map]
      congr 1
      funext k
      simp only [Function.comp_apply]
      omega

theorem locateIn_eq_some_iff {pattern : Text} {i k : Nat} {ls : List Text} :
    locateIn pattern i ls = some k ↔
      i ≤ k ∧ (∃ l, ls[k - i]? = some l ∧ pattern <:+: l) ∧
        ∀ j < k - i, ¬ ∃ l, ls[j]? = some l ∧ pattern <:+: l := by
  rw [locateIn_eq_findIdx?, Option.map_eq_some_iff]
  constructor
  · rintro ⟨j, hj, rfl⟩
    obtain ⟨hlt, hin, hfirst⟩ := List.findIdx?_eq_some_iff_getElem.mp hj
    rw [Nat.add_sub_cancel_left]
    refine ⟨Nat.le_add_right i j, ⟨_, List.getElem?_eq_getElem hlt, occursIn_iff.mp hin⟩, ?_⟩
    rintro m hm ⟨l, hl, hin⟩
    obtain ⟨hlt, rfl⟩ := List.getElem?_eq_some_iff.mp hl
    exact hfirst m hm (occursIn_iff.mpr hin)
  · rintro ⟨hle, ⟨l, hl, hin⟩, hfirst⟩
    obtain ⟨hlt, rfl⟩ := List.getElem?_eq_some_iff.mp hl
    refine ⟨k - i, List.findIdx?_eq_some_iff_getElem.mpr ⟨hlt, occursIn_iff.mpr hin, ?_⟩, by omega⟩
    intro m hm hin
    exact hfirst m hm ⟨_, List.getElem?_eq_getElem (by omega), occursIn_iff.mp hin⟩

/-- The first line at or after `start` that contains a pattern. -/
theorem locateFrom_eq_some_iff {d : Document} {pattern : Text} {start k : Nat} :
    d.locateFrom pattern start = some k ↔
      pattern ≠ [] ∧ start ≤ k ∧ d.LineContains pattern k ∧
        ∀ j, start ≤ j → j < k → ¬ d.LineContains pattern j := by
  unfold locateFrom LineContains
  by_cases hne : pattern = []
  · simp [hne]
  rw [if_neg (by simpa using hne), locateIn_eq_some_iff]
  simp only [List.getElem?_drop]
  constructor
  · rintro ⟨hle, hk, hfirst⟩
    rw [Nat.add_sub_cancel' hle] at hk
    refine ⟨hne, hle, hk, fun j hj hlt => ?_⟩
    have := hfirst (j - start) (by omega)
    rwa [Nat.add_sub_cancel' hj] at this
  · rintro ⟨-, hle, hk, hfirst⟩
    rw [Nat.add_sub_cancel' hle]
    exact ⟨hle, hk, fun j hlt => hfirst (start + j) (Nat.le_add_right _ _) (by omega)⟩

/-- A pattern that no line at or behind `start` contains. -/
theorem locateFrom_eq_none_iff {d : Document} {pattern : Text} {start : Nat} (hne : pattern ≠ []) :
    d.locateFrom pattern start = none ↔ ∀ k, start ≤ k → ¬ d.LineContains pattern k := by
  rw [locateFrom, if_neg (by simpa using hne), locateIn_eq_findIdx?, Option.map_eq_none_iff,
    List.findIdx?_eq_none_iff]
  constructor
  · rintro h k hk ⟨l, hl, hin⟩
    rw [← Nat.add_sub_cancel' hk, ← List.getElem?_drop] at hl
    have := h l (List.mem_of_getElem? hl)
    rw [occursIn_iff.mpr hin] at this
    cases this
  · intro h l hl
    obtain ⟨j, hj⟩ := List.mem_iff_getElem?.mp hl
    rw [List.getElem?_drop] at hj
    rw [← Bool.not_eq_true, occursIn_iff]
    exact fun hin => h (start + j) (Nat.le_add_right start j) ⟨l, hj, hin⟩

/-- The first line that contains a pattern. -/
theorem locate_eq_some_iff {d : Document} {pattern : Text} {k : Nat} :
    d.locate pattern = some k ↔
      pattern ≠ [] ∧ d.LineContains pattern k ∧ ∀ j < k, ¬ d.LineContains pattern j := by
  simp [locate, locateFrom_eq_some_iff]

theorem lt_length_of_locate {d : Document} {pattern : Text} {k : Nat}
    (h : d.locate pattern = some k) : k < d.length :=
  (locate_eq_some_iff.mp h).2.1.lt_length

/-- An anchor is found where some line contains it. -/
theorem exists_locate_iff {d : Document} {pattern : Text} :
    (∃ k, d.locate pattern = some k) ↔ pattern ≠ [] ∧ ∃ c ∈ d.lines, pattern <:+: c := by
  by_cases hne : pattern = []
  · simp [locate_eq_some_iff, hne]
  rw [← Option.isSome_iff_exists, locate, locateFrom, if_neg (by simpa using hne),
    locateIn_eq_findIdx?, Option.isSome_map, List.findIdx?_isSome, List.drop_zero]
  simp [hne, Text.occursIn_iff]

/-! ### Anchors by the lines around -/

/-- The first line that contains a pattern, by the lines in front of it. -/
theorem locateIn_eq_some_iff_append {pattern : Text} {i k : Nat} {ls : List Text} :
    locateIn pattern i ls = some k ↔
      ∃ as l bs, ls = as ++ l :: bs ∧ k = i + as.length ∧ pattern <:+: l ∧
        ∀ c ∈ as, ¬ pattern <:+: c := by
  rw [locateIn_eq_some_iff]
  constructor
  · rintro ⟨hle, ⟨l, hl, hin⟩, hfirst⟩
    obtain ⟨as, bs, rfl, hlen⟩ := exists_eq_append_of_getElem? hl
    refine ⟨as, l, bs, rfl, by omega, hin, fun c hc hin => ?_⟩
    obtain ⟨j, hj⟩ := List.mem_iff_getElem?.mp hc
    have hlt := (List.getElem?_eq_some_iff.mp hj).1
    exact hfirst j (by omega) ⟨c, by rw [List.getElem?_append_left hlt, hj], hin⟩
  · rintro ⟨as, l, bs, rfl, rfl, hin, hno⟩
    rw [Nat.add_sub_cancel_left]
    refine ⟨Nat.le_add_right i as.length, ⟨l, by simp, hin⟩, ?_⟩
    rintro j hj ⟨c, hc, hin⟩
    rw [List.getElem?_append_left hj] at hc
    exact hno c (List.mem_of_getElem? hc) hin

theorem locateFrom_eq_some_iff_append {d : Document} {pattern : Text} {pre ls : List Text}
    {k : Nat} (h : d.lines = pre ++ ls) :
    d.locateFrom pattern pre.length = some k ↔
      pattern ≠ [] ∧ ∃ as l bs, ls = as ++ l :: bs ∧ k = pre.length + as.length ∧ pattern <:+: l ∧
        ∀ c ∈ as, ¬ pattern <:+: c := by
  by_cases hne : pattern = []
  · simp [locateFrom, hne]
  · rw [locateFrom, if_neg (by simpa using hne), h, List.drop_left, locateIn_eq_some_iff_append]
    simp [hne]

/-- The first line of some lines behind others is the first that contains the pattern. -/
theorem locate_eq_some_iff_append {d : Document} {pattern : Text} {front ls : List Text}
    (h : d.lines = front ++ ls) :
    d.locate pattern = some front.length ↔
      pattern ≠ [] ∧ (∃ l, ls.head? = some l ∧ pattern <:+: l) ∧
        ∀ c ∈ front, ¬ pattern <:+: c := by
  have h' : d.lines = [] ++ (front ++ ls) := h
  rw [locate, ← List.length_nil, locateFrom_eq_some_iff_append h']
  refine and_congr_right fun _ => ?_
  constructor
  · rintro ⟨as, l, bs, hls, hlen, hin, hno⟩
    obtain ⟨rfl, rfl⟩ := List.append_inj hls (by simpa using hlen)
    exact ⟨⟨l, rfl, hin⟩, hno⟩
  · rintro ⟨⟨l, hl, hin⟩, hno⟩
    obtain ⟨bs, rfl⟩ := List.head?_eq_some_iff.mp hl
    exact ⟨front, l, bs, rfl, by simp, hin, hno⟩

/-! ## Needles -/

/-- A needle without newline is looked for line by line. -/
theorem contains_iff_of_not_mem {d : Document} {s : Text} (hs : '\n' ∉ s) :
    d.contains s = true ↔ s ≠ [] ∧ ∃ raw ∈ d.rawLines, s <:+: content raw := by
  unfold contains lines
  by_cases hne : s = []
  · simp [hne]
  · rw [if_neg (by simpa using hne), if_neg (by simpa using hs)]
    simp [hne, occursIn_iff]

theorem contains_iff_mem_lines {d : Document} {s : Text} (hs : '\n' ∉ s) :
    d.contains s = true ↔ s ≠ [] ∧ ∃ c ∈ d.lines, s <:+: c := by
  rw [contains_iff_of_not_mem hs]
  simp [lines]

/-- A text that terminators take no part in is contained where it stands in a raw line, whatever
the terminator. -/
theorem contains_iff_of_isInline {d : Document} {s : Text} (hs : IsInline s) :
    d.contains s = true ↔ s ≠ [] ∧ ∃ l ∈ d.rawLines.map trimNewlines, s <:+: l := by
  rw [contains_iff_of_not_mem hs.1]
  refine and_congr_right fun _ => ?_
  simp only [List.mem_map, exists_exists_and_eq_and]
  refine exists_congr fun raw => and_congr_right fun _ => ?_
  rw [← Text.trimNewlines_content, Text.infix_trimNewlines_iff hs]

/-! ## Documents with the same lines -/

section SameLines

variable {d d' : Document}

theorem length_congr (h : d'.lines = d.lines) : d'.length = d.length := by
  rw [← length_lines, ← length_lines, h]

theorem contains_congr (h : d'.lines = d.lines) (needle : Text) :
    d'.contains needle = d.contains needle := by
  unfold contains
  rw [h]

theorem locateFrom_congr (h : d'.lines = d.lines) (pattern : Text) (start : Nat) :
    d'.locateFrom pattern start = d.locateFrom pattern start := by
  unfold locateFrom
  rw [h]

theorem locate_congr (h : d'.lines = d.lines) (pattern : Text) :
    d'.locate pattern = d.locate pattern := locateFrom_congr h pattern 0

theorem nearest_congr (h : d'.lines = d.lines) (pattern : Text) :
    d'.nearest pattern = d.nearest pattern := by
  unfold nearest nearestBy
  rw [h]

end SameLines

end LinePatch.Document
