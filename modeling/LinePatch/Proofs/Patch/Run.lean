import LinePatch.Patch.Run

/-!
# Runs step by step

A run succeeds if each of its operations does on the document that the ones before it left, and
fails with the first failure.

* `runFrom_cons_eq_ok_iff`, `runFrom_cons_eq_error_iff`: the first step of a run.
* `run_singleton_eq_ok_iff`, `run_singleton_eq_error_iff`: a run of one operation.
-/

namespace LinePatch

variable {i : Nat} {op : Operation} {ops : List Operation} {d : Document}

theorem runFrom_cons_eq_ok_iff {result : RunResult} :
    runFrom i (op :: ops) d = .ok result ↔
      ∃ status d' rest, op.apply d = .ok (status, d') ∧ runFrom (i + 1) ops d' = .ok rest ∧
        result = ⟨rest.document, ⟨i, op.kindName, status⟩ :: rest.report⟩ := by
  rw [runFrom]
  constructor
  · intro h
    split at h
    · cases h
    · rename_i status d' hop
      split at h
      · cases h
      · rename_i rest hrest
        cases h
        exact ⟨status, d', rest, hop, hrest, rfl⟩
  · rintro ⟨status, d', rest, hop, hrest, rfl⟩
    simp only [hop, hrest]

theorem runFrom_cons_eq_error_iff {failure : RunFailure} :
    runFrom i (op :: ops) d = .error failure ↔
      (∃ f, op.apply d = .error f ∧ failure = ⟨i, f⟩) ∨
        ∃ status d', op.apply d = .ok (status, d') ∧ runFrom (i + 1) ops d' = .error failure := by
  rw [runFrom]
  constructor
  · intro h
    split at h
    · rename_i f hop
      cases h
      exact .inl ⟨f, hop, rfl⟩
    · rename_i status d' hop
      split at h
      · rename_i hrest
        cases h
        exact .inr ⟨status, d', hop, hrest⟩
      · cases h
  · rintro (⟨f, hop, rfl⟩ | ⟨status, d', hop, hrest⟩)
    · simp only [hop]
    · simp only [hop, hrest]

theorem run_singleton_eq_ok_iff {result : RunResult} :
    run [op] d = .ok result ↔
      ∃ status d', op.apply d = .ok (status, d') ∧ result = ⟨d', [⟨0, op.kindName, status⟩]⟩ := by
  unfold run
  rw [runFrom_cons_eq_ok_iff]
  constructor
  · rintro ⟨status, d', rest, hop, hrest, rfl⟩
    rw [runFrom] at hrest
    cases hrest
    exact ⟨status, d', hop, rfl⟩
  · rintro ⟨status, d', hop, rfl⟩
    exact ⟨status, d', ⟨d', []⟩, hop, rfl, rfl⟩

theorem run_singleton_eq_error_iff {failure : RunFailure} :
    run [op] d = .error failure ↔ ∃ f, op.apply d = .error f ∧ failure = ⟨0, f⟩ := by
  unfold run
  rw [runFrom_cons_eq_error_iff]
  refine or_iff_left ?_
  rintro ⟨status, d', -, hrest⟩
  cases hrest

end LinePatch
