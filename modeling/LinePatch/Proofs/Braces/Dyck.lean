import LinePatch.Proofs.Braces.Lexical

/-!
# Well-nested braces

A text is balanced if its braces in code are well nested and nothing is left open. The depth is a
counter with its lowest value; that it is enough is shown by cutting the braces where the depth
falls for the last time below each level.

* `IsDyck`: the words of well-nested braces, by their grammar.
* `Descends`: the words that close `k` braces more than they open.
* `isDyck_iff`: the counter accepts the words of the grammar.
* `isBalanced_iff_isDyck`: the same for texts.
-/

namespace LinePatch

namespace Brace

/-- The words of the grammar with the rules `S → ε` and `S → { S } S`. -/
inductive IsDyck : List Brace → Prop
  | nil : IsDyck []
  | nest {as bs : List Brace} (ha : IsDyck as) (hb : IsDyck bs) :
    IsDyck (.opening :: as ++ .closing :: bs)

/-- Well-nested words with `k` closing braces between them. -/
inductive Descends : Nat → List Brace → Prop
  | zero {bs : List Brace} (h : IsDyck bs) : Descends 0 bs
  | succ {k : Nat} {as bs : List Brace} (ha : IsDyck as) (hb : Descends k bs) :
    Descends (k + 1) (as ++ .closing :: bs)

/-- The first of the closing braces may close a brace in front of the word. -/
theorem Descends.opening {k : Nat} {bs : List Brace} (h : Descends (k + 1) bs) :
    Descends k (.opening :: bs) := by
  cases h with
  | succ ha hb =>
    cases hb with
    | zero hb => exact .zero (.nest ha hb)
    | succ ha' hb =>
      have := Descends.succ (ha.nest ha') hb
      rwa [List.append_assoc] at this

end Brace

namespace Nesting

open Brace (IsDyck Descends)

variable {n : Nesting} {bs : List Brace}

@[simp] theorem depth_brace_opening (n : Nesting) : (n.brace .opening).depth = n.depth + 1 := rfl

@[simp] theorem depth_brace_closing (n : Nesting) : (n.brace .closing).depth = n.depth - 1 := rfl

@[simp] theorem lowest_brace_opening (n : Nesting) : (n.brace .opening).lowest = n.lowest := rfl

@[simp] theorem lowest_brace_closing (n : Nesting) :
    (n.brace .closing).lowest = min n.lowest (n.depth - 1) := rfl

/-- A well-nested word returns to the depth it starts at, and goes no lower. -/
theorem foldl_brace_of_isDyck (h : IsDyck bs) (hdepth : 0 ≤ n.depth) (hlowest : 0 ≤ n.lowest) :
    (bs.foldl brace n).depth = n.depth ∧ 0 ≤ (bs.foldl brace n).lowest := by
  induction h generalizing n with
  | nil => exact ⟨rfl, hlowest⟩
  | @nest as bs _ _ iha ihb =>
    rw [List.cons_append, List.foldl_cons, List.foldl_append, List.foldl_cons]
    have hopened : 0 ≤ (n.brace .opening).depth := by
      rw [depth_brace_opening]
      omega
    obtain ⟨hin, hlow⟩ := iha hopened hlowest
    -- Behind the closing brace the depth is that in front of the opening one.
    have hback : ((as.foldl brace (n.brace .opening)).brace .closing).depth = n.depth := by
      rw [depth_brace_closing, hin, depth_brace_opening]
      omega
    have hlow' : 0 ≤ ((as.foldl brace (n.brace .opening)).brace .closing).lowest := by
      rw [depth_brace_closing] at hback
      rw [lowest_brace_closing]
      omega
    obtain ⟨hout, hlow⟩ := ihb (hback ▸ hdepth) hlow'
    exact ⟨hout.trans hback, hlow⟩

/-- Where the depth falls by `k` to zero and never below, the word closes `k` braces more than it
opens. -/
theorem descends_of_foldl_brace {k : Nat} (hk : n.depth = k)
    (hdepth : (bs.foldl brace n).depth = 0) (hlowest : 0 ≤ (bs.foldl brace n).lowest) :
    Descends k bs := by
  induction bs generalizing n k with
  | nil =>
    have hk : k = 0 := by
      rw [List.foldl_nil, hk] at hdepth
      exact Int.natCast_eq_zero.mp hdepth
    rw [hk]
    exact .zero .nil
  | cons b bs ih =>
    rw [List.foldl_cons] at hdepth hlowest
    cases b with
    | opening =>
      refine (ih (k := k + 1) ?_ hdepth hlowest).opening
      rw [depth_brace_opening, hk]
      rfl
    | closing =>
      have hle := lowest_foldl_brace_le (n.brace .closing) bs
      rw [lowest_brace_closing] at hle
      obtain ⟨k, rfl⟩ : ∃ k', k = k' + 1 := ⟨k - 1, by omega⟩
      refine .succ .nil (ih ?_ hdepth hlowest)
      rw [depth_brace_closing]
      omega

/-- A word is well nested where its depth ends at zero and is never below. -/
theorem isDyck_iff :
    IsDyck bs ↔ (bs.foldl brace start).depth = 0 ∧ 0 ≤ (bs.foldl brace start).lowest := by
  constructor
  · intro h
    exact foldl_brace_of_isDyck h (Int.le_refl 0) (Int.le_refl 0)
  · rintro ⟨hdepth, hlowest⟩
    cases descends_of_foldl_brace (k := 0) rfl hdepth hlowest with
    | zero h => exact h

end Nesting

open Brace (IsDyck Lexes)

/-- **Balanced texts.** The braces of a text that stand in code are determined by a grammar of
comments and literals. The text is balanced if they are well nested, and if no comment and no
literal is open at its end. -/
theorem isBalanced_iff_isDyck (t : Text) :
    (∃! p : List Brace × Bool, Lexes (Text.unlines (Text.lines t)) p.1 p.2) ∧
      (isBalanced t = true ↔
        ∃ bs, Lexes (Text.unlines (Text.lines t)) bs false ∧ IsDyck bs) := by
  obtain ⟨bs, hlexes, hlines⟩ := Nesting.exists_lexesFrom (n := .start) trivial rfl
    fun l hl => Text.newline_not_mem_of_mem_lines hl
  have hlexes := hlexes.lexes
  have hbalanced : isBalanced t = true ↔
      (Nesting.start.lines (Text.lines t)).inLiteral = false ∧ IsDyck bs := by
    have hdepth : (Nesting.start.lines (Text.lines t)).depth =
        (bs.foldl Nesting.brace .start).depth := by rw [hlines]
    have hlowest : (Nesting.start.lines (Text.lines t)).lowest =
        (bs.foldl Nesting.brace .start).lowest := by rw [hlines]
    rw [Nesting.isDyck_iff, ← hdepth, ← hlowest]
    simp only [isBalanced, isBalancedLines, Nesting.underflowed, Bool.and_eq_true,
      Bool.not_eq_true', decide_eq_false_iff_not, beq_iff_eq, Int.not_lt]
    tauto
  refine ⟨⟨⟨bs, _⟩, hlexes, fun p hp => Prod.ext_iff.mpr (hp.unique hlexes)⟩, ?_⟩
  rw [hbalanced]
  constructor
  · rintro ⟨hopen, hdyck⟩
    rw [hopen] at hlexes
    exact ⟨bs, hlexes, hdyck⟩
  · rintro ⟨bs', hlexes', hdyck⟩
    obtain ⟨rfl, hopen⟩ := hlexes'.unique hlexes
    exact ⟨hopen.symm, hdyck⟩

/-- The slash of `/*/` ends no comment, and the literal ends with its line. -/
example : isBalanced "/*/\x7d\n*/'\x7b\n\x7b\"\x7d\n\\\"\"\x7d//\x7b".toList = true := by rfl

end LinePatch
