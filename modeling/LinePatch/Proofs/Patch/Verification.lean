import LinePatch.Proofs.Patch.Effect

/-!
# Verification of blocks

What a replacement says about the block before decides only whether the block is replaced. The
block is searched as it would be without, and where it holds the new lines already nobody asks what
it was to hold before.

* `Verify.Accepts`: the texts that a verification accepts, line breaks at the end aside.
* `BlockReplacement.apply_verified`: a replacement against the same one without verification.
* `run_verified`: the same for runs.
-/

namespace LinePatch

open Text (trimNewlines)

/-! ## Accepted texts -/

/-- The text of a block is the expected one, or has the expected digest. -/
def Verify.Accepts : Verify → Text → Prop
  | .exactMatch expected, text => trimNewlines text = trimNewlines expected
  | .hash _ expected, text => Digest.ofLiteral? expected = some (digest text)

instance (v : Verify) (text : Text) : Decidable (v.Accepts text) :=
  match v with
  | .exactMatch _ => inferInstanceAs (Decidable (_ = _))
  | .hash _ _ => inferInstanceAs (Decidable (_ = _))

theorem Verify.admits_iff_accepts {v : Verify} {guard : Guard} (hg : v.guard = .ok guard)
    (text : Text) : guard.admits text = true ↔ v.Accepts text := by
  cases v with
  | exactMatch expected =>
    cases hg
    exact beq_iff_eq
  | hash algorithm expected =>
    simp only [Verify.guard] at hg
    split at hg
    · rename_i h hh
      cases hg
      rw [Accepts, Guard.admits, hh, beq_iff_eq, Option.some.injEq, eq_comm]
    · cases hg

namespace BlockReplacement

variable {r : BlockReplacement} {d : Document}

/-- The text of a block is what the replacement expects, if it expects anything. -/
def Accepts (r : BlockReplacement) (text : Text) : Prop := ∀ v, r.verify = some v → v.Accepts text

theorem admits_iff_accepts {guard : Option Guard} (hg : r.guard = .ok guard) (text : Text) :
    (∀ g, guard = some g → g.admits text = true) ↔ r.Accepts text := by
  unfold BlockReplacement.guard at hg
  unfold Accepts
  split at hg
  · rename_i hv
    cases hg
    simp [hv]
  · rename_i v hv
    split at hg
    · rename_i g hguard
      cases hg
      simp [hv, Verify.admits_iff_accepts hguard]
    · cases hg

theorem not_accepts {g : Guard} {text : Text} (hg : r.guard = .ok (some g))
    (ha : g.admits text = false) : ¬ r.Accepts text := by
  intro haccepts
  rw [(admits_iff_accepts hg text).mpr haccepts g rfl] at ha
  cases ha

/-! ## One replacement -/

/-- The replacement without its verification. -/
def unverified (r : BlockReplacement) : BlockReplacement := { r with verify := none }

/-- How a replacement ends, by how it ends without its verification. -/
inductive Verified (r : BlockReplacement) (d : Document) :
    Except Failure (Status × Document) → Except Failure (Status × Document) → Prop
  | failed (failure : Failure) : Verified r d (.error failure) (.error failure)
  | same : Verified r d (.ok (.alreadyApplied, d)) (.ok (.alreadyApplied, d))
  | accepted {block : Block} {count : Nat} {d' : Document} {text : Text}
    (htext : block.text? d = some text) (ha : r.Accepts text) :
    Verified r d (.ok (.replaced block count, d')) (.ok (.replaced block count, d'))
  | refused {block : Block} {count : Nat} {d' : Document} {text : Text}
    (htext : block.text? d = some text) (ha : ¬ r.Accepts text) :
    Verified r d (.ok (.replaced block count, d'))
      (.error (.verificationFailed r.declaration block (digest text)))

theorem apply_verified {guard : Option Guard} (hg : r.guard = .ok guard) (d : Document) :
    r.Verified d (r.unverified.apply d) (r.apply d) := by
  have hresult := r.apply_result d
  generalize r.apply d = result at hresult
  cases hresult with
  | noTarget ht =>
    rw [(Result.noTarget (r := r.unverified) ht).apply_eq]
    exact .failed _
  | noGuard _ hg' => cases hg.symm.trans hg'
  | same ht _ htext hsame =>
    rw [(Result.same (r := r.unverified) ht rfl htext hsame).apply_eq]
    exact .same
  | refused ht hg' htext hnew ha =>
    rw [(Result.replaced (r := r.unverified) ht rfl htext hnew nofun).apply_eq]
    exact .refused htext (not_accepts hg' ha)
  | replaced ht hg' htext hnew ha =>
    rw [(Result.replaced (r := r.unverified) ht rfl htext hnew nofun).apply_eq]
    exact .accepted htext ((admits_iff_accepts hg' _).mp ha)

/-- A replacement is refused for what its block holds: neither the new lines nor what is
expected. -/
theorem apply_eq_verificationFailed_iff {declaration : Text} {block : Block} {found : UInt64} :
    r.apply d = .error (.verificationFailed declaration block found) ↔
      declaration = r.declaration ∧ r.target d = .ok block ∧ (∃ guard, r.guard = .ok guard) ∧
        ∃ text, block.text? d = some text ∧ text ≠ (r.newLines d block.last).flatten ∧
          ¬ r.Accepts text ∧ found = digest text := by
  constructor
  · intro h
    have hresult := r.apply_result d
    rw [h] at hresult
    cases hresult with
    | noTarget ht =>
      have htarget := r.target_result d
      rw [ht] at htarget
      cases htarget
    | refused ht hg htext hnew ha =>
      exact ⟨rfl, ht, ⟨_, hg⟩, _, htext, hnew, not_accepts hg ha, rfl⟩
  · rintro ⟨rfl, ht, ⟨guard, hg⟩, text, htext, hnew, ha, rfl⟩
    rw [← admits_iff_accepts hg] at ha
    cases guard with
    | none => exact absurd nofun ha
    | some g => exact (Result.refused ht hg htext hnew (by simpa using ha)).apply_eq

/-- A replacement of an accepted text succeeds. -/
theorem exists_apply_of_accepts {block : Block} {guard : Option Guard} {text : Text}
    (ht : r.target d = .ok block) (hg : r.guard = .ok guard) (htext : block.text? d = some text)
    (ha : r.Accepts text) : ∃ status d', r.apply d = .ok (status, d') := by
  by_cases hnew : text = (r.newLines d block.last).flatten
  · exact ⟨_, _, (Result.same ht hg htext hnew).apply_eq⟩
  · exact ⟨_, _, (Result.replaced ht hg htext hnew ((admits_iff_accepts hg text).mpr ha)).apply_eq⟩

end BlockReplacement

/-! ## Runs -/

/-- **Verification only guards.** A replacement whose verification can be read fails where it fails
without it, with the same failure, and finds its work done where it does without. Where it would
replace a block, it does the same if its verification accepts the text of the block, and otherwise
it is refused with the digest of that text. -/
theorem run_verified (r : BlockReplacement) (d : Document) (guard : Option Guard)
    (hg : r.guard = .ok guard) :
    (∀ f, run [.replace r.unverified] d = .error f → run [.replace r] d = .error f) ∧
      ∀ result, run [.replace r.unverified] d = .ok result →
        (result.report.map (·.status) = [.alreadyApplied] ∧ run [.replace r] d = .ok result) ∨
          ∃ block count text, result.report.map (·.status) = [.replaced block count] ∧
            block.text? d = some text ∧
            (r.Accepts text → run [.replace r] d = .ok result) ∧
            (¬ r.Accepts text → run [.replace r] d =
              .error ⟨0, .verificationFailed r.declaration block (digest text)⟩) := by
  have hverified := BlockReplacement.apply_verified hg d
  constructor
  · intro f hplain
    obtain ⟨failure, hop, rfl⟩ := run_singleton_eq_error_iff.mp hplain
    rw [show r.unverified.apply d = .error failure from hop] at hverified
    generalize happly : r.apply d = verified at hverified
    cases hverified with
    | failed => exact run_singleton_eq_error_iff.mpr ⟨failure, happly, rfl⟩
  · intro result hplain
    obtain ⟨status, d', hop, rfl⟩ := run_singleton_eq_ok_iff.mp hplain
    rw [show r.unverified.apply d = .ok (status, d') from hop] at hverified
    generalize happly : r.apply d = verified at hverified
    cases hverified with
    | same => exact .inl ⟨rfl, run_singleton_eq_ok_iff.mpr ⟨_, _, happly, rfl⟩⟩
    | accepted htext ha =>
      have hrun : run [.replace r] d = .ok _ := run_singleton_eq_ok_iff.mpr ⟨_, _, happly, rfl⟩
      exact .inr ⟨_, _, _, rfl, htext, fun _ => hrun, absurd ha⟩
    | refused htext ha =>
      have hrun : run [.replace r] d = .error _ := run_singleton_eq_error_iff.mpr ⟨_, happly, rfl⟩
      exact .inr ⟨_, _, _, rfl, htext, fun haccepts => absurd haccepts ha, fun _ => hrun⟩

/-- The expected text is the new one, with more line breaks behind it, and the block holds another
text. -/
theorem run_verified_mismatch :
    let d := Document.ofText "f\x7b\na\n\x7d\n#\n".toList
    let r : BlockReplacement :=
      { declaration := "f".toList
        marker := some "#".toList
        replacement := "f\x7b\nb\n\x7d".toList
        verify := some (.exactMatch "f\x7b\nb\n\x7d\n\r\n".toList) }
    let text := "f\x7b\na\n\x7d\n".toList
    r.guard = .ok (some (.exact "f\x7b\nb\n\x7d\n\r\n".toList)) ∧ ¬ r.Accepts text ∧
      (∃ result, run [.replace r.unverified] d = .ok result ∧
        result.report.map (·.status) = [.replaced ⟨0, 2, by decide⟩ 3]) ∧
      run [.replace r] d =
        .error ⟨0, .verificationFailed "f".toList ⟨0, 2, by decide⟩ (digest text)⟩ := by
  intro d r text
  have hg : r.guard = .ok (some (.exact "f\x7b\nb\n\x7d\n\r\n".toList)) := by rfl
  have hrefused : ¬ r.Accepts text := fun haccepts => by
    have htext := haccepts _ rfl
    revert htext
    decide
  have hplain : ∃ result, run [.replace r.unverified] d = .ok result ∧
      result.report.map (·.status) = [.replaced ⟨0, 2, by decide⟩ 3] := ⟨_, rfl, rfl⟩
  refine ⟨hg, hrefused, hplain, ?_⟩
  obtain ⟨result, hplain, hreport⟩ := hplain
  rcases (run_verified r d _ hg).2 result hplain with
    ⟨hsame, -⟩ | ⟨block, count, text', hreplaced, htext, -, hverified⟩
  · cases hreport.symm.trans hsame
  · cases hreport.symm.trans hreplaced
    cases htext
    exact hverified hrefused

end LinePatch
