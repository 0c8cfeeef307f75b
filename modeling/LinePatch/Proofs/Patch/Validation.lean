import LinePatch.Proofs.Patch.Defects
import LinePatch.Proofs.Patch.Effect
import LinePatch.Proofs.Patch.Run

/-!
# Validation and runs agree

Validation and a run check the same rules in a different order, and a run has a document in between.

* `Operation.isAboutDocument_of_apply`: an operation that validation admits fails only for what a
  document holds or lacks.
* `BlockReplacement.not_isAboutReplacement_of_apply`: a block replacement that succeeds on some
  document has a replacement and a digest that validation admits.
* `validation_agrees`: both for runs.
-/

namespace LinePatch

open Text (isBlankText)

/-- The failures that a document is to blame for: something was not found in it, or is not what was
expected there. The others are the fault of an operation. -/
def Failure.IsAboutDocument : Failure → Prop
  | .anchorNotFound _ _ | .declarationNotFound _ _ | .boundaryNotFound _ _ _
  | .verificationFailed _ _ _ => True
  | .malformedReplacement _ | .invalidOperation _ | .edit _ => False

/-- The defects of the replacement of an operation, or of what it says about the block before. -/
def Defect.IsAboutReplacement : Defect → Prop
  | .missingField field => field = .replacement
  | .unbalancedReplacement | .anchorNotInReplacement | .replacementNotWholeBlock
  | .malformedDigest _ => True
  | .sentinelNotInSnippet _ => False

/-! ## Admitted operations -/

theorem SnippetInsertion.isAboutDocument_of_apply {i : SnippetInsertion} {d : Document}
    {failure : Failure} (hvalid : i.defects = []) (h : i.apply d = .error failure) :
    failure.IsAboutDocument := by
  obtain ⟨s, hs, -, -⟩ := exists_sentinel hvalid
  have hresult := i.apply_result d
  rw [h] at hresult
  cases hresult with
  | noSentinel hnone => cases hs.symm.trans hnone
  | noAnchor => trivial

namespace BlockReplacement

variable {r : BlockReplacement} {d : Document} {failure : Failure}

theorem isAboutDocument_of_target (hvalid : r.defects = []) (h : r.target d = .error failure) :
    failure.IsAboutDocument := by
  obtain ⟨hdeclaration, hmarker, -, htext, -⟩ := defects_eq_nil_iff.mp hvalid
  obtain ⟨hbal, -, hspans⟩ := (textDefects_eq_nil_iff hdeclaration).mp htext
  obtain ⟨boundary, hb⟩ := exists_boundary hmarker
  have hresult := r.target_result d
  rw [h] at hresult
  cases hresult with
  | unbalanced hbal' => simp [hbal] at hbal'
  | noMarker _ hnone => cases hb.symm.trans hnone
  | noDeclaration => trivial
  | noBoundary => trivial
  | notWhole _ hb' _ hspans' => simp [hspans _ hb'] at hspans'

theorem isAboutDocument_of_apply (hvalid : r.defects = []) (h : r.apply d = .error failure) :
    failure.IsAboutDocument := by
  obtain ⟨-, -, -, -, guard, hg⟩ := defects_eq_nil_iff.mp hvalid
  have hresult := r.apply_result d
  rw [h] at hresult
  cases hresult with
  | noTarget ht => exact isAboutDocument_of_target hvalid ht
  | noGuard _ herr => cases hg.symm.trans herr
  | refused => trivial

/-- A block replacement that succeeds has found its block and has a guard. -/
theorem exists_of_apply {status : Status} {d' : Document} (h : r.apply d = .ok (status, d')) :
    (∃ block, r.target d = .ok block) ∧ ∃ guard, r.guard = .ok guard := by
  have hresult := r.apply_result d
  rw [h] at hresult
  cases hresult with
  | same ht hg => exact ⟨⟨_, ht⟩, _, hg⟩
  | replaced ht hg => exact ⟨⟨_, ht⟩, _, hg⟩

/-- What succeeds on some document has a replacement and a digest that validation admits. -/
theorem not_isAboutReplacement_of_apply {status : Status} {d' : Document}
    (hdeclaration : isBlankText r.declaration = false) (h : r.apply d = .ok (status, d'))
    {defect : Defect} (hmem : defect ∈ r.defects) : ¬ defect.IsAboutReplacement := by
  obtain ⟨⟨block, ht⟩, guard, hg⟩ := exists_of_apply h
  obtain ⟨hbal, boundary, hb, -, hspans⟩ := target_eq_ok ht
  have hin := infix_of_spansWholeBlock hspans
  have htext : r.textDefects = [] := by
    refine (textDefects_eq_nil_iff hdeclaration).mpr ⟨hbal, hin, fun boundary' hb' => ?_⟩
    cases hb.symm.trans hb'
    exact hspans
  have hreplacement := Text.isBlankText_of_infix hin hdeclaration
  rcases mem_defects_iff.mp hmem with
    ⟨-, rfl⟩ | ⟨-, rfl⟩ | (⟨hblank, -⟩ | ⟨-, hmem⟩) | ⟨digest, herr, -⟩
  · simp [Defect.IsAboutReplacement]
  · simp [Defect.IsAboutReplacement]
  · simp [hreplacement] at hblank
  · simp [htext] at hmem
  · cases hg.symm.trans herr

end BlockReplacement

/-- An operation that validation admits fails only for what a document holds or lacks. -/
theorem Operation.isAboutDocument_of_apply {op : Operation} {d : Document} {failure : Failure}
    (hvalid : op.defects = []) (h : op.apply d = .error failure) : failure.IsAboutDocument := by
  cases op with
  | insert i => exact SnippetInsertion.isAboutDocument_of_apply hvalid h
  | replace r => exact BlockReplacement.isAboutDocument_of_apply hvalid h

/-! ## Runs -/

theorem runFrom_isAboutDocument {ops : List Operation} {k : Nat} {d : Document} {f : RunFailure}
    (hvalid : ∀ op ∈ ops, op.defects = []) (h : runFrom k ops d = .error f) :
    f.failure.IsAboutDocument := by
  induction ops generalizing k d with
  | nil => cases h
  | cons op ops ih =>
    rcases runFrom_cons_eq_error_iff.mp h with ⟨failure, hop, rfl⟩ | ⟨status, d', -, hrest⟩
    · exact Operation.isAboutDocument_of_apply (hvalid op List.mem_cons_self) hop
    · exact ih (fun op' hop' => hvalid op' (List.mem_cons_of_mem op hop')) hrest

/-- **Validation and runs agree.** A run of operations without issues fails only for what the
document holds or lacks. A block replacement with an issue about its replacement or its digest
fails on every document, if its declaration is not blank. -/
theorem validation_agrees :
    (∀ (ops : List Operation) (d : Document), issues ops = [] →
      (∃ r, run ops d = .ok r) ∨ ∃ f, run ops d = .error f ∧ f.failure.IsAboutDocument) ∧
    ∀ (r : BlockReplacement) (defect : Defect) (d : Document),
      isBlankText r.declaration = false → .operation 0 defect ∈ issues [.replace r] →
      defect.IsAboutReplacement → ∃ f, run [.replace r] d = .error f := by
  constructor
  · intro ops d hvalid
    cases h : run ops d with
    | ok r => exact .inl ⟨r, rfl⟩
    | error f =>
      exact .inr ⟨f, rfl, runFrom_isAboutDocument (issues_eq_nil_iff.mp hvalid).2 h⟩
  · intro r defect d hdeclaration hissue habout
    have hmem : defect ∈ r.defects := by
      simpa [issues, issuesFrom, Operation.defects] using hissue
    cases h : run [.replace r] d with
    | error f => exact ⟨f, rfl⟩
    | ok result =>
      obtain ⟨status, d', hop, -⟩ := run_singleton_eq_ok_iff.mp h
      exact absurd habout (BlockReplacement.not_isAboutReplacement_of_apply hdeclaration hop hmem)

/-- A patch without issues, and a replacement that is not balanced. -/
theorem validation_agrees_at_block :
    let insertion : SnippetInsertion :=
      { placement := .before, anchor := "f".toList, snippet := "x".toList }
    let whole : BlockReplacement :=
      { declaration := "f".toList, marker := some "#".toList,
        replacement := "f\x7b\n\x7d".toList, verify := some (.exactMatch "f".toList) }
    let broken : BlockReplacement := { whole with replacement := "f\x7b\n".toList }
    let d : Document := .ofText "f\x7b\na\n\x7d\n#".toList
    issues [.insert insertion, .replace whole] = [] ∧
      Issue.operation 0 .unbalancedReplacement ∈ issues [.replace broken] ∧
      ((∃ r, run [.insert insertion, .replace whole] d = .ok r) ∨
        ∃ f, run [.insert insertion, .replace whole] d = .error f ∧ f.failure.IsAboutDocument) ∧
      ∃ f, run [.replace broken] d = .error f := by
  intro insertion whole broken d
  have hvalid : issues [.insert insertion, .replace whole] = [] := by rfl
  have hissue : Issue.operation 0 .unbalancedReplacement ∈ issues [.replace broken] := by decide
  have hdeclaration : isBlankText broken.declaration = false := by rfl
  exact ⟨hvalid, hissue, validation_agrees.1 _ d hvalid,
    validation_agrees.2 broken .unbalancedReplacement d hdeclaration hissue trivial⟩

end LinePatch
