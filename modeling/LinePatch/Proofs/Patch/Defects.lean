import LinePatch.Patch.Issue
import LinePatch.Patch.Run
import LinePatch.Proofs.Block.Standalone

/-!
# What validation admits

The operations that validation has nothing to say about, by conditions on their fields, and the
sentinel and boundary that such operations have.

* `SnippetInsertion.defects_eq_nil_iff`, `BlockReplacement.defects_eq_nil_iff`: the operations
  without defects.
* `SnippetInsertion.exists_sentinel`: an insertion without defects has a sentinel, which occurs in
  its snippet.
* `SnippetInsertion.isInline_of_sentinel_eq_none`: a sentinel that was not given lies in one line.
* `issues_eq_nil_iff`: the lists of operations without issues.
-/

namespace LinePatch

open Text (IsInline isBlankText occursIn_iff trim)

/-! ## Insertions -/

namespace SnippetInsertion

variable {i : SnippetInsertion}

/-- A sentinel that was not given is a trimmed line, so it lies in one line. -/
theorem isInline_of_sentinel_eq_none {s : Text} (hnone : i.sentinel = none)
    (h : i.effectiveSentinel = some s) : IsInline s := by
  simp only [effectiveSentinel, hnone] at h
  obtain ⟨c, hc, rfl⟩ := List.mem_map.mp (List.mem_of_find?_eq_some h)
  exact Text.isInline_of_trim (Text.newline_not_mem_of_mem_lines hc)

theorem exists_effectiveSentinel (h : isBlankText i.snippet = false) :
    ∃ s, i.effectiveSentinel = some s := by
  unfold effectiveSentinel
  split
  · exact ⟨_, rfl⟩
  · obtain ⟨c, hc, hblank⟩ := Text.exists_line_of_isBlankText h
    rw [← Option.isSome_iff_exists, List.find?_isSome]
    exact ⟨trim c, List.mem_map_of_mem hc, by simpa using Text.trim_ne_nil hblank⟩

/-- The insertions that validation admits. -/
theorem defects_eq_nil_iff :
    i.defects = [] ↔ isBlankText i.anchor = false ∧ isBlankText i.snippet = false ∧
      (∀ s, i.sentinel = some s → isBlankText s = false) ∧
        ∀ s, i.effectiveSentinel = some s → s <:+: i.snippet := by
  unfold defects
  rw [List.append_eq_nil_iff]
  apply and_congr (by simp)
  by_cases hsnippet : isBlankText i.snippet = true
  · simp [hsnippet]
  · rw [if_neg hsnippet]
    rw [Bool.not_eq_true] at hsnippet
    simp only [hsnippet, true_and]
    cases hs : i.sentinel with
    | none =>
      obtain ⟨s, heff⟩ := exists_effectiveSentinel hsnippet
      simp [heff, occursIn_iff]
    | some s =>
      have heff : i.effectiveSentinel = some s := by simp [effectiveSentinel, hs]
      by_cases hblank : isBlankText s = true
      · simp [hblank]
      · simp [heff, hblank, occursIn_iff]

/-- An insertion without defects has a sentinel, which is found once its snippet is there. -/
theorem exists_sentinel (h : i.defects = []) :
    ∃ s, i.effectiveSentinel = some s ∧ s ≠ [] ∧ s <:+: i.snippet := by
  obtain ⟨-, hsnippet, hgiven, hin⟩ := defects_eq_nil_iff.mp h
  obtain ⟨s, hs⟩ := exists_effectiveSentinel hsnippet
  refine ⟨s, hs, ?_, hin s hs⟩
  unfold effectiveSentinel at hs
  split at hs
  · rename_i given hgiven'
    cases hs
    exact Text.ne_nil_of_isBlankText (hgiven _ hgiven')
  · have := List.find?_some hs
    simpa using this

end SnippetInsertion

/-! ## Block replacements -/

namespace BlockReplacement

variable {r : BlockReplacement}

/-- Validation judges a replacement by the boundary that a run uses. -/
theorem boundary?_follower (r : BlockReplacement) :
    r.kind.boundary? r.follower = r.boundary? := by
  unfold follower boundary?
  cases r.kind <;> rfl

/-- A marker that is not blank gives a boundary; a kind that needs none has one anyway. -/
theorem exists_boundary (h : r.kind = .nextMarker → isBlankText (r.marker.getD []) = false) :
    ∃ boundary, r.boundary? = some boundary := by
  unfold boundary?
  cases hk : r.kind with
  | braceDepth => exact ⟨_, rfl⟩
  | nextMarker =>
    have hmarker := Text.ne_nil_of_isBlankText (h hk)
    cases hm : r.marker with
    | none => simp [hm] at hmarker
    | some marker =>
      rw [hm, Option.getD_some] at hmarker
      exact ⟨.nextMarker marker, by simp [Boundary.Kind.boundary?, hmarker]⟩

/-- The replacement texts that validation admits, for a declaration that is not blank. -/
theorem textDefects_eq_nil_iff (h : isBlankText r.declaration = false) :
    r.textDefects = [] ↔ isBalanced r.replacement = true ∧ r.declaration <:+: r.replacement ∧
      ∀ boundary, r.boundary? = some boundary →
        spansWholeBlock r.replacement r.declaration boundary r.follower = true := by
  unfold textDefects
  rw [boundary?_follower, List.append_eq_nil_iff, List.append_eq_nil_iff, and_assoc]
  by_cases hbal : isBalanced r.replacement = true
  · by_cases hin : r.declaration <:+: r.replacement
    · cases hb : r.boundary? with
      | none => simp [hbal, hin, occursIn_iff]
      | some boundary => simp [hbal, hin, h, occursIn_iff]
    · simp [hbal, hin, h, occursIn_iff]
  · simp [hbal]

/-- Where a defect of a block replacement comes from. -/
theorem mem_defects_iff {defect : Defect} :
    defect ∈ r.defects ↔
      isBlankText r.declaration = true ∧ defect = .missingField .declarationAnchor ∨
      (r.kind = .nextMarker ∧ isBlankText (r.marker.getD []) = true) ∧
        defect = .missingField .nextMarker ∨
      (isBlankText r.replacement = true ∧ defect = .missingField .replacement ∨
        isBlankText r.replacement = false ∧ defect ∈ r.textDefects) ∨
      ∃ digest, r.guard = .error digest ∧ defect = .malformedDigest digest := by
  unfold defects guard
  rw [List.mem_append, List.mem_append, List.mem_append, or_assoc, or_assoc]
  refine or_congr ?_ (or_congr ?_ (or_congr ?_ ?_))
  · cases isBlankText r.declaration <;> simp
  · by_cases h : r.kind = .nextMarker ∧ isBlankText (r.marker.getD []) = true
    · simp [h]
    · rw [if_neg (by simpa using h)]
      simp [h]
  · cases isBlankText r.replacement <;> simp
  · cases r.verify with
    | none => simp
    | some verify => cases hg : verify.guard <;> simp [hg]

/-- The block replacements that validation admits. -/
theorem defects_eq_nil_iff :
    r.defects = [] ↔ isBlankText r.declaration = false ∧
      (r.kind = .nextMarker → isBlankText (r.marker.getD []) = false) ∧
      isBlankText r.replacement = false ∧ r.textDefects = [] ∧ ∃ guard, r.guard = .ok guard := by
  rw [List.eq_nil_iff_forall_not_mem, List.eq_nil_iff_forall_not_mem]
  simp only [mem_defects_iff]
  constructor
  · intro h
    have hreplacement : isBlankText r.replacement = false := by
      rw [← Bool.not_eq_true]
      exact fun hblank => h _ (.inr (.inr (.inl (.inl ⟨hblank, rfl⟩))))
    refine ⟨?_, fun hk => ?_, hreplacement, fun defect hmem => ?_, ?_⟩
    · rw [← Bool.not_eq_true]
      exact fun hblank => h _ (.inl ⟨hblank, rfl⟩)
    · rw [← Bool.not_eq_true]
      exact fun hblank => h _ (.inr (.inl ⟨⟨hk, hblank⟩, rfl⟩))
    · exact h _ (.inr (.inr (.inl (.inr ⟨hreplacement, hmem⟩))))
    · cases hg : r.guard with
      | ok guard => exact ⟨guard, rfl⟩
      | error digest => exact absurd (.inr (.inr (.inr ⟨digest, hg, rfl⟩))) (h _)
  · rintro ⟨hdeclaration, hmarker, hreplacement, htext, guard, hg⟩ defect
    rintro (⟨hblank, -⟩ | ⟨⟨hk, hblank⟩, -⟩ | (⟨hblank, -⟩ | ⟨-, hmem⟩) | ⟨digest, herr, -⟩)
    · simp [hdeclaration] at hblank
    · simp [hmarker hk] at hblank
    · simp [hreplacement] at hblank
    · exact htext defect hmem
    · cases hg.symm.trans herr

end BlockReplacement

/-! ## Lists of operations -/

theorem issuesFrom_eq_nil_iff {k : Nat} {ops : List Operation} :
    issuesFrom k ops = [] ↔ ∀ op ∈ ops, op.defects = [] := by
  induction ops generalizing k with
  | nil => simp [issuesFrom]
  | cons op ops ih => simp [issuesFrom, ih]

/-- The lists of operations that validation admits. -/
theorem issues_eq_nil_iff {ops : List Operation} :
    issues ops = [] ↔ ops ≠ [] ∧ ∀ op ∈ ops, op.defects = [] := by
  simp [issues, issuesFrom_eq_nil_iff]

end LinePatch
