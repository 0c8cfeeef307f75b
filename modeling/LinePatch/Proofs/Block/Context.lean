import LinePatch.Proofs.Block.Nesting
import Mathlib.Data.List.Basic

/-!
# Blocks between other lines

Where a block ends is decided by its own lines and, for the next-marker boundary, by the lines
behind it up to the first one with the marker. All other lines may be any, as long as none in front
declares the block: not even what is open there reaches into it.

* `Boundary.Kind.Delimits`: the lines of a block and the lines behind it that decide.
* `Boundary.Kind.blockEnd_iff_delimits`: a boundary ends a block exactly behind such lines.
* `extract_eq_ok_iff_hasBlock`: the same for the extraction.
* `extract_in_context`: the block of a text is found in every text around it.
-/

namespace LinePatch

open Text (IsRawLines content)

namespace Boundary

/-! ## Lone braces -/

section LoneBraces

variable {d : Document} {pre ls rest : List Text}

theorem isLoneBraceAt_iff {i : Nat} {l : Text} (h : d.lines = pre ++ ls ++ rest)
    (hl : ls[i]? = some l) : IsLoneBraceAt d (pre.length + i) ↔ isLoneBrace l = true := by
  have hi := (List.getElem?_eq_some_iff.mp hl).1
  have hline : d.lines[pre.length + i]? = some l := by
    rw [h, List.append_assoc, List.getElem?_append_right (Nat.le_add_right _ _),
      Nat.add_sub_cancel_left, List.getElem?_append_left hi, hl]
  simp [IsLoneBraceAt, hline]

/-- The lines behind a line, by their distance from it. -/
theorem getElem?_behind (as bs : List Text) (l : Text) (j : Nat) :
    (as ++ l :: bs)[as.length + 1 + j]? = bs[j]? := by
  rw [List.getElem?_append_right (by omega), show as.length + 1 + j - as.length = j + 1 by omega,
    List.getElem?_cons_succ]

/-- The last lone brace of some lines, by the lines behind it. -/
theorem lastLoneBrace_eq_some_iff_append {first e : Nat} (h : d.lines = pre ++ ls ++ rest)
    (hfirst : first + 1 = pre.length) :
    lastLoneBrace d first (pre.length + ls.length) = some e ↔
      ∃ as l bs, ls = as ++ l :: bs ∧ e = pre.length + as.length ∧ isLoneBrace l = true ∧
        ∀ c ∈ bs, isLoneBrace c = false := by
  rw [lastLoneBrace_eq_some_iff]
  constructor
  · rintro ⟨hlt, hupper, hbrace, hno⟩
    obtain ⟨i, rfl⟩ := Nat.exists_eq_add_of_le (show pre.length ≤ e by omega)
    have hl := List.getElem?_eq_getElem (show i < ls.length by omega)
    obtain ⟨as, bs, hls, rfl⟩ := Document.exists_eq_append_of_getElem? hl
    refine ⟨as, _, bs, hls, rfl, (isLoneBraceAt_iff h hl).mp hbrace, fun c hc => ?_⟩
    obtain ⟨j, hj⟩ := List.mem_iff_getElem?.mp hc
    have hlt := (List.getElem?_eq_some_iff.mp hj).1
    rw [← getElem?_behind as bs _ j, ← hls] at hj
    have hlen := congrArg List.length hls
    rw [List.length_append, List.length_cons] at hlen
    have := hno (pre.length + (as.length + 1 + j)) (by omega) (by omega)
    rwa [isLoneBraceAt_iff h hj, Bool.not_eq_true] at this
  · rintro ⟨as, l, bs, rfl, rfl, hbrace, hno⟩
    have hlen : (as ++ l :: bs).length = as.length + bs.length + 1 := by
      rw [List.length_append, List.length_cons, Nat.add_assoc]
    refine ⟨by omega, by omega, ?_, fun j hj hlt => ?_⟩
    · rwa [isLoneBraceAt_iff h (l := l) (by simp)]
    · obtain ⟨k, rfl⟩ := Nat.exists_eq_add_of_le (show pre.length + as.length + 1 ≤ j by omega)
      have hk : k < bs.length := by omega
      have hbs := (getElem?_behind as bs l k).trans (List.getElem?_eq_getElem hk)
      rw [Nat.add_assoc, Nat.add_assoc, ← Nat.add_assoc as.length, isLoneBraceAt_iff h hbs,
        Bool.not_eq_true]
      exact hno _ (List.getElem_mem hk)

end LoneBraces

/-! ## The lines that decide -/

/-- The lines of a block, and the lines behind it that take part in the decision where it ends. -/
inductive Kind.Delimits : Kind → Option Text → List Text → List Text → Prop
  /-- The first line after which the nesting is closed is the last one. -/
  | braceDepth {marker : Option Text} {inner : List Text}
      (hunder : (Nesting.start.lines inner).underflowed = false)
      (hclosed : (Nesting.start.lines inner).closed = true)
      (hfirst : ∀ j, j + 1 < inner.length → ¬ Stops (Nesting.start.lines (inner.take (j + 1)))) :
      Delimits .braceDepth marker inner []
  /-- From the first line on the marker comes only in `upper`, and `brace` is the last lone brace
  in front of it. -/
  | nextMarker {marker head brace upper : Text} {body gap : List Text} (hne : marker ≠ [])
      (hbrace : isLoneBrace brace = true) (hgap : ∀ c ∈ gap, isLoneBrace c = false)
      (hno : ∀ c ∈ body ++ brace :: gap, ¬ marker <:+: c) (hupper : marker <:+: upper)
      (hbalanced : isBalancedLines (head :: body ++ [brace]) = true) :
      Delimits .nextMarker (some marker) (head :: body ++ [brace]) (gap ++ [upper])

theorem Kind.Delimits.ne_nil {kind : Kind} {marker : Option Text} {inner deciding : List Text}
    (h : kind.Delimits marker inner deciding) : inner ≠ [] := by
  cases h with
  | braceDepth _ hclosed _ =>
    rintro rfl
    cases hclosed
  | nextMarker => simp

section BlockEnd

variable {d : Document} {front inner behind : List Text} {last : Nat}

theorem blockEnd_braceDepth_iff_delimits (h : d.lines = front ++ inner ++ behind)
    (hlast : last + 1 = front.length + inner.length) (marker : Option Text) :
    braceDepth.blockEnd d front.length = .ok last ↔
      Kind.braceDepth.Delimits marker inner [] := by
  have hdrop : d.lines.drop front.length = inner ++ behind := by
    rw [h, List.append_assoc, List.drop_left]
  -- The lines up to line `front.length + j` that the search looks at.
  have htake : ∀ j, j + 1 ≤ inner.length → (inner ++ behind).take (j + 1) = inner.take (j + 1) :=
    fun j hj => List.take_append_of_le_length hj
  rw [blockEnd_braceDepth_iff, hdrop]
  constructor
  · rintro ⟨hle, -, hunder, hclosed, hfirst⟩
    rw [htake _ (by omega), List.take_of_length_le (by omega)] at hunder hclosed
    refine .braceDepth hunder hclosed fun j hj => ?_
    rw [← htake j (by omega)]
    exact hfirst j (by omega)
  · intro hdelimits
    have hpos := List.length_pos_iff.mpr hdelimits.ne_nil
    cases hdelimits with
    | braceDepth hunder hclosed hfirst =>
      rw [htake _ (by omega), List.take_of_length_le (show inner.length ≤ _ by omega)]
      refine ⟨by omega, ?_, hunder, hclosed, fun j hj => ?_⟩
      · rw [List.length_append]
        omega
      · rw [htake j (by omega)]
        exact hfirst j (by omega)

/-- The marker is found on the last of the lines that decide. -/
theorem upperBound_of_delimits {marker : Text} {deciding rest : List Text}
    (hdelimits : Kind.nextMarker.Delimits (some marker) inner deciding)
    (h : d.lines = front ++ inner ++ (deciding ++ rest)) {upper : Nat}
    (hupper : upper + 1 = front.length + inner.length + deciding.length) :
    upperBound d front.length marker = some upper := by
  cases hdelimits with
  | @nextMarker _ head brace line body gap hne _ _ hno hin _ =>
    have hlines : d.lines = front ++ [head] ++ (body ++ brace :: gap ++ line :: rest) := by
      simp [h]
    have hpre : front.length + 1 = (front ++ [head]).length := by simp
    rw [upperBound, hpre, Document.locateFrom_eq_some_iff_append hlines]
    refine ⟨hne, _, line, rest, rfl, ?_, hin, hno⟩
    simp only [List.length_append, List.length_cons, List.length_nil] at hupper ⊢
    omega

/-- The text of a block is balanced if its lines are. -/
theorem isBalanced_inner (hd : IsRawLines d.rawLines) (hne : [] ∉ d.rawLines)
    (h : d.lines = front ++ inner ++ behind) (hlast : last + 1 = front.length + inner.length)
    {text : Text} (ht : d.sliceText? front.length (last + 1) = some text) :
    isBalanced text = isBalancedLines inner := by
  rw [isBalanced_sliceText? hd hne ht, h, List.append_assoc, List.drop_left, hlast,
    Nat.add_sub_cancel_left, List.take_left]

/-- The lines behind a block of the next-marker boundary, up to the marker. -/
theorem exists_delimits_of_nextMarker (hd : IsRawLines d.rawLines) (hne : [] ∉ d.rawLines)
    (h : d.lines = front ++ inner ++ behind) (hlast : last + 1 = front.length + inner.length)
    {marker : Text} (hend : (nextMarker marker).blockEnd d front.length = .ok last) :
    ∃ deciding rest, behind = deciding ++ rest ∧
      Kind.nextMarker.Delimits (some marker) inner deciding := by
  obtain ⟨upper, text, hupper, hbrace, ht, hbal⟩ := blockEnd_nextMarker_iff.mp hend
  rw [isBalanced_inner hd hne h hlast ht] at hbal
  have hlt := (lastLoneBrace_eq_some_iff.mp hbrace).1
  cases inner with
  | nil =>
    rw [List.length_nil] at hlast
    omega
  | cons head tail =>
    have hlines : d.lines = front ++ [head] ++ (tail ++ behind) := by simp [h]
    have hpre : front.length + 1 = (front ++ [head]).length := by simp
    rw [upperBound, hpre] at hupper
    obtain ⟨hm, as, upper, rest, hbehind, rfl, hin, hno⟩ :=
      (Document.locateFrom_eq_some_iff_append hlines).mp hupper
    rw [hbehind, ← List.append_assoc] at hlines
    obtain ⟨body, brace, gap, rfl, hlast', hlone, hgap⟩ :=
      (lastLoneBrace_eq_some_iff_append hlines hpre).mp hbrace
    -- Both are the lines behind the first, cut behind the lone brace.
    have hcut : tail ++ behind = body ++ [brace] ++ (gap ++ upper :: rest) := by simp [hbehind]
    simp only [List.length_append, List.length_cons, List.length_nil] at hlast hlast'
    obtain ⟨rfl, rfl⟩ := List.append_inj hcut (by simp; omega)
    exact ⟨gap ++ [upper], rest, by simp, .nextMarker hm hlone hgap hno hin hbal⟩

theorem blockEnd_nextMarker_of_delimits (hd : IsRawLines d.rawLines) (hne : [] ∉ d.rawLines)
    {marker : Text} {deciding rest : List Text} (h : d.lines = front ++ inner ++ (deciding ++ rest))
    (hlast : last + 1 = front.length + inner.length)
    (hdelimits : Kind.nextMarker.Delimits (some marker) inner deciding) :
    (nextMarker marker).blockEnd d front.length = .ok last := by
  have hupper := upperBound_of_delimits hdelimits h
    (show last + deciding.length + 1 = front.length + inner.length + deciding.length by omega)
  have hstop : last + 1 ≤ d.length := by
    rw [← Document.length_lines, h, hlast, ← List.length_append]
    exact (List.prefix_append _ _).length_le
  have hpos := List.length_pos_iff.mpr hdelimits.ne_nil
  have ht := Document.sliceText?_eq_some_iff.mpr ⟨show front.length ≤ last + 1 by omega, hstop, rfl⟩
  have hbalanced := isBalanced_inner hd hne h hlast ht
  refine blockEnd_nextMarker_iff.mpr ⟨_, _, hupper, ?_, ht, ?_⟩
  · cases hdelimits with
    | @nextMarker _ head brace upper body gap _ hlone hgap _ _ _ =>
      simp only [List.length_append, List.length_cons, List.length_nil] at hlast ⊢
      have hlines : d.lines = front ++ [head] ++ (body ++ brace :: gap) ++ upper :: rest := by
        simp [h]
      have hbetween : last + (gap.length + (0 + 1)) =
          (front ++ [head]).length + (body ++ brace :: gap).length := by
        simp only [List.length_append, List.length_cons, List.length_nil]
        omega
      rw [hbetween, lastLoneBrace_eq_some_iff_append hlines (by simp)]
      refine ⟨body, brace, gap, rfl, ?_, hlone, hgap⟩
      rw [List.length_append, List.length_singleton]
      omega
  · rw [hbalanced]
    cases hdelimits with
    | nextMarker _ _ _ _ _ hbal => exact hbal

/-- A block of some lines is found exactly where they and the lines behind them delimit one. -/
theorem Kind.blockEnd_iff_delimits (hd : IsRawLines d.rawLines) (hne : [] ∉ d.rawLines)
    {kind : Kind} {marker : Option Text} {boundary : Boundary}
    (hb : kind.boundary? marker = some boundary) (h : d.lines = front ++ inner ++ behind)
    (hlast : last + 1 = front.length + inner.length) :
    boundary.blockEnd d front.length = .ok last ↔
      ∃ deciding rest, behind = deciding ++ rest ∧ kind.Delimits marker inner deciding := by
  rcases Kind.boundary?_eq_some hb with ⟨m, rfl, rfl, -, rfl⟩ | ⟨rfl, rfl⟩
  · constructor
    · exact exists_delimits_of_nextMarker hd hne h hlast
    · rintro ⟨deciding, rest, rfl, hdelimits⟩
      exact blockEnd_nextMarker_of_delimits hd hne h hlast hdelimits
  · rw [blockEnd_braceDepth_iff_delimits h hlast marker]
    constructor
    · exact fun hdelimits => ⟨[], behind, rfl, hdelimits⟩
    · rintro ⟨deciding, rest, -, hdelimits⟩
      cases hdelimits with
      | braceDepth hunder hclosed hfirst => exact .braceDepth hunder hclosed hfirst

end BlockEnd

end Boundary

/-! ## The lines of a document around a block -/

section HasBlock

variable {d : Document} {declaration : Text} {kind : Boundary.Kind} {marker : Option Text}
  {boundary : Boundary} {front inner deciding rest : List Text} {block : Block}

/-- The lines of a document, cut in front of a block, behind it, and behind the lines that take
part in the decision where it ends. -/
structure Document.HasBlock (d : Document) (declaration : Text) (kind : Boundary.Kind)
    (marker : Option Text) (front inner deciding rest : List Text) : Prop where
  lines_eq : d.lines = front ++ inner ++ (deciding ++ rest)
  ne_nil : declaration ≠ []
  declared : ∃ l, inner.head? = some l ∧ declaration <:+: l
  not_declared : ∀ c ∈ front, ¬ declaration <:+: c
  delimits : kind.Delimits marker inner deciding

theorem extract_eq_ok_iff_hasBlock (hd : IsRawLines d.rawLines) (hne : [] ∉ d.rawLines)
    (hb : kind.boundary? marker = some boundary) :
    d.extract declaration boundary = .ok block ↔
      ∃ front inner deciding rest, d.HasBlock declaration kind marker front inner deciding rest ∧
        block.first = front.length ∧ block.stop = front.length + inner.length := by
  rw [extract_eq_ok_iff]
  constructor
  · rintro ⟨hl, hend, hlt⟩
    have hle : block.first ≤ block.stop := Nat.le_succ_of_le block.first_le_last
    obtain ⟨pre, mid, post, hraw, hpre, hmid⟩ := Document.exists_rawLines_eq_append hle hlt
    have hlines : d.lines = pre.map content ++ mid.map content ++ post.map content := by
      rw [Document.lines, hraw, List.map_append, List.map_append]
    have hfront : block.first = (pre.map content).length := by rw [List.length_map, hpre]
    have hstop : block.stop = (pre.map content).length + (mid.map content).length := by
      rw [List.length_map, List.length_map, hmid]
    rw [hfront] at hend hl
    obtain ⟨deciding, rest, hbehind, hdelimits⟩ :=
      (Boundary.Kind.blockEnd_iff_delimits hd hne hb hlines hstop).mp hend
    obtain ⟨hdeclaration, hdeclared, hno⟩ :=
      (Document.locate_eq_some_iff_append (List.append_assoc _ _ _ ▸ hlines)).mp hl
    rw [List.head?_append_of_ne_nil _ hdelimits.ne_nil] at hdeclared
    exact ⟨_, _, deciding, rest, ⟨hbehind ▸ hlines, hdeclaration, hdeclared, hno, hdelimits⟩,
      hfront, hstop⟩
  · rintro ⟨front, inner, deciding, rest, h, hfront, hstop⟩
    have hpos := List.length_pos_iff.mpr h.delimits.ne_nil
    rw [hfront, (Boundary.Kind.blockEnd_iff_delimits hd hne hb h.lines_eq hstop).mpr
      ⟨deciding, rest, rfl, h.delimits⟩, Document.locate_eq_some_iff_append
      (List.append_assoc _ _ _ ▸ h.lines_eq), List.head?_append_of_ne_nil _ h.delimits.ne_nil]
    refine ⟨⟨h.ne_nil, h.declared, h.not_declared⟩, rfl, ?_⟩
    rw [← Document.length_lines, h.lines_eq]
    simp only [Block.stop, List.length_append] at hstop ⊢
    omega

/-- A block is found with any other lines in front, if they do not declare it, and any other lines
behind those that decide. -/
theorem Document.HasBlock.extract_surround {u : Text} {front' rest' : List Text}
    (hb : kind.boundary? marker = some boundary)
    (h : d.HasBlock declaration kind marker front inner deciding rest)
    (hlines : Text.lines u = front' ++ inner ++ (deciding ++ rest'))
    (hno : ∀ c ∈ front', ¬ declaration <:+: c) (hfirst : block.first = front'.length)
    (hstop : block.stop = front'.length + inner.length) :
    (Document.ofText u).extract declaration boundary = .ok block := by
  obtain ⟨hd, hne⟩ := Text.isRawLines_rawLines u
  exact (extract_eq_ok_iff_hasBlock hd hne hb).mpr
    ⟨front', inner, deciding, rest', { h with lines_eq := hlines, not_declared := hno }, hfirst,
      hstop⟩

/-- A boundary that ends a block is one that a patch can name: its marker is not empty. -/
theorem exists_boundary?_eq_some (hb : boundary = .braceDepth ∨ ∃ m, boundary = .nextMarker m)
    (hx : d.extract declaration boundary = .ok block) :
    ∃ kind marker, Boundary.Kind.boundary? kind marker = some boundary := by
  rcases hb with rfl | ⟨m, rfl⟩
  · exact ⟨.braceDepth, none, rfl⟩
  · obtain ⟨-, hend, -⟩ := extract_eq_ok_iff.mp hx
    obtain ⟨upper, -, hupper, -⟩ := Boundary.blockEnd_nextMarker_iff.mp hend
    have hne := (Document.locateFrom_eq_some_iff.mp hupper).1
    exact ⟨.nextMarker, some m, by simp [Boundary.Kind.boundary?, hne]⟩

end HasBlock

/-- A block, with `k` lines more in front of it. -/
def Block.shift (b : Block) (k : Nat) : Block :=
  ⟨b.first + k, b.last + k, Nat.add_le_add_right b.first_le_last k⟩

@[simp] theorem Block.first_shift (b : Block) (k : Nat) : (b.shift k).first = b.first + k := rfl

@[simp] theorem Block.stop_shift (b : Block) (k : Nat) : (b.shift k).stop = b.stop + k :=
  Nat.add_right_comm b.last k 1

/-- The last line that takes part in the decision where a block ends: the last line of the block, or
the line with the marker behind it. -/
def Boundary.IsDecidedAt (boundary : Boundary) (d : Document) (block : Block) (line : Nat) : Prop :=
  boundary = .braceDepth ∧ line = block.last ∨
    ∃ marker, boundary = .nextMarker marker ∧ upperBound d block.first marker = some line

/-- The lines of a block and those behind it that decide end on the line of the decision. -/
theorem Document.HasBlock.isDecidedAt {d : Document} {declaration : Text} {kind : Boundary.Kind}
    {marker : Option Text} {boundary : Boundary} {front inner deciding rest : List Text}
    {block : Block} {line : Nat} (hb : kind.boundary? marker = some boundary)
    (h : d.HasBlock declaration kind marker front inner deciding rest)
    (hfirst : block.first = front.length) (hstop : block.stop = front.length + inner.length)
    (hline : line + 1 = front.length + inner.length + deciding.length) :
    boundary.IsDecidedAt d block line := by
  rcases Boundary.Kind.boundary?_eq_some hb with ⟨m, rfl, rfl, -, rfl⟩ | ⟨rfl, rfl⟩
  · refine .inr ⟨m, rfl, ?_⟩
    rw [hfirst]
    exact Boundary.upperBound_of_delimits h.delimits h.lines_eq hline
  · refine .inl ⟨rfl, ?_⟩
    cases h.delimits
    exact Nat.succ.inj (hline.trans hstop.symm)

/-- **A block does not depend on what is around it.** A block of a text is found again, as many
lines further down, where lines without its declaration stand in front of the text and any other
lines behind it. More than this, it is found in every text that has the lines from the declaration
to the line of the decision, with no line in front that contains the declaration. What is open in
front of a block does not matter, and what comes after the decision does not either. -/
theorem extract_in_context (t declaration : Text) (boundary : Boundary) (block : Block)
    (hb : boundary = .braceDepth ∨ ∃ marker, boundary = .nextMarker marker)
    (hx : (Document.ofText t).extract declaration boundary = .ok block) :
    (∀ p q : Text, (p = [] ∨ p.getLast? = some '\n') →
      (∀ c ∈ Text.lines p, ¬ declaration <:+: c) → (q = [] ∨ t.getLast? = some '\n') →
      (Document.ofText (p ++ t ++ q)).extract declaration boundary =
        .ok (block.shift (Text.lines p).length)) ∧
    ∃ line, boundary.IsDecidedAt (.ofText t) block line ∧ block.last ≤ line ∧
      ∀ (u : Text) (front rest : List Text),
        Text.lines u =
          front ++ ((Text.lines t).drop block.first).take (line + 1 - block.first) ++ rest →
        (∀ c ∈ front, ¬ declaration <:+: c) →
        ∃ block', (Document.ofText u).extract declaration boundary = .ok block' ∧
          block'.first = front.length ∧ block'.length = block.length := by
  obtain ⟨kind, marker, hkind⟩ := exists_boundary?_eq_some hb hx
  obtain ⟨hd, hne⟩ := Text.isRawLines_rawLines t
  obtain ⟨front, inner, deciding, rest, h, hfirst, hstop⟩ :=
    (extract_eq_ok_iff_hasBlock hd hne hkind).mp hx
  have hlines : Text.lines t = front ++ inner ++ (deciding ++ rest) := h.lines_eq
  have hpos := List.length_pos_iff.mpr h.delimits.ne_nil
  refine ⟨fun p q hp hno hq => ?_, ?_⟩
  · have hq' : Text.lines (t ++ q) = Text.lines t ++ Text.lines q := by
      rcases hq with rfl | hq
      · rw [List.append_nil, Text.lines_eq_nil_iff.mpr rfl, List.append_nil]
      · exact Text.lines_append (.inr hq) q
    have hsurround : Text.lines (p ++ t ++ q) =
        Text.lines p ++ front ++ inner ++ (deciding ++ (rest ++ Text.lines q)) := by
      rw [List.append_assoc, Text.lines_append hp, hq', hlines]
      simp only [List.append_assoc]
    have hnone := List.forall_mem_append.mpr ⟨hno, h.not_declared⟩
    refine h.extract_surround hkind hsurround hnone ?_ ?_
    · rw [Block.first_shift, List.length_append, hfirst, Nat.add_comm]
    · rw [Block.stop_shift, List.length_append, hstop]
      omega
  · have hline : front.length + inner.length + deciding.length - 1 + 1 =
        front.length + inner.length + deciding.length := by omega
    refine ⟨_, h.isDecidedAt hkind hfirst hstop hline, ?_, fun u front' rest' hu hno => ?_⟩
    · simp only [Block.stop] at hstop
      omega
    · have htake : ((Text.lines t).drop block.first).take
          (front.length + inner.length + deciding.length - block.first) = inner ++ deciding := by
        rw [hlines, hfirst, List.append_assoc, List.drop_left, ← List.append_assoc inner]
        exact List.take_left' (by rw [List.length_append]; omega)
      rw [hline, htake, List.append_assoc, List.append_assoc, ← List.append_assoc front'] at hu
      refine ⟨⟨front'.length, front'.length + inner.length - 1, by omega⟩,
        h.extract_surround hkind hu hno rfl ?_, rfl, ?_⟩
      · simp only [Block.stop]
        omega
      · simp only [Block.length, Block.stop] at hstop ⊢
        omega

/-- A block behind an open comment and a brace in excess, in front of one more marker. -/
theorem extract_in_context_open_comment :
    let t := "g\nf\x7b\n\x7d\n#\n".toList
    let p := "/* \"\n\x7d\n#\n".toList
    let q := "\x7d\n#".toList
    let boundary := Boundary.nextMarker "#".toList
    let block : Block := ⟨1, 2, by decide⟩
    (Document.ofText t).extract "f".toList boundary = .ok block ∧
      (Document.ofText (p ++ t ++ q)).extract "f".toList boundary = .ok (block.shift 3) ∧
      ∃ line, boundary.IsDecidedAt (.ofText t) block line ∧ block.last ≤ line := by
  intro t p q boundary block
  have hx : (Document.ofText t).extract "f".toList boundary = .ok block := by rfl
  obtain ⟨hshift, line, hline, hle, -⟩ :=
    extract_in_context t "f".toList boundary block (.inr ⟨_, rfl⟩) hx
  exact ⟨hx, hshift p q (.inr (by rfl)) (by decide +kernel) (.inr (by rfl)), line, hline, hle⟩

end LinePatch
