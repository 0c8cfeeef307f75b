import LinePatch.Proofs.Patch.Effect
import LinePatch.Proofs.Patch.Run

/-!
# Operations on two documents

When an operation does the same to two documents: it has the same status on both and leaves them in
a relation, or it fails alike on both. What each kind of operation asks of the documents is listed
here once, for any relation.

* `SnippetInsertion.apply_alike`: an insertion. It looks for its sentinel and its anchor.
* `BlockReplacement.apply_alike`: a block replacement. It looks for its block and at its text.
* `runFrom_alike`: a run of operations that each keep to the relation.
-/

namespace LinePatch

/-- Two ends of an operation: the same status and documents in a relation, or the same failure. -/
inductive Alike (R : Document → Document → Prop) :
    Except Failure (Status × Document) → Except Failure (Status × Document) → Prop
  | done {status : Status} {d d' : Document} (h : R d d') :
    Alike R (.ok (status, d)) (.ok (status, d'))
  | failed {failure : Failure} : Alike R (.error failure) (.error failure)

variable {R : Document → Document → Prop} {d d' : Document}

/-! ## Insertions -/

theorem SnippetInsertion.apply_alike {i : SnippetInsertion} (h : R d d')
    (hcontains : ∀ s, i.effectiveSentinel = some s → d'.contains s = d.contains s)
    (hlocate : d'.locate i.anchor = d.locate i.anchor)
    (hnearest : d'.nearest i.anchor = d.nearest i.anchor)
    (hinserted : ∀ line < d.length,
      R (d.inserted line i.snippet i.placement) (d'.inserted line i.snippet i.placement)) :
    Alike R (i.apply d) (i.apply d') := by
  have hresult := i.apply_result d
  generalize i.apply d = result at hresult
  cases hresult with
  | noSentinel hs =>
    rw [(Result.noSentinel hs).apply_eq]
    exact .failed
  | present hs hc =>
    have hc' := (hcontains _ hs).trans hc
    rw [(Result.present hs hc').apply_eq]
    exact .done h
  | noAnchor hs hc ha =>
    have hc' := (hcontains _ hs).trans hc
    rw [(Result.noAnchor hs hc' (hlocate.trans ha)).apply_eq, hnearest]
    exact .failed
  | inserted hs hc ha =>
    have hc' := (hcontains _ hs).trans hc
    rw [(Result.inserted hs hc' (hlocate.trans ha)).apply_eq]
    exact .done (hinserted _ (Document.lt_length_of_locate ha))

/-! ## Block replacements -/

namespace BlockReplacement

variable {r : BlockReplacement}

/-- The same block is found in both documents, or the same failure. -/
theorem target_congr
    (hextract : ∀ boundary, r.boundary? = some boundary →
      d'.extract r.declaration boundary = d.extract r.declaration boundary)
    (hnearest : ∀ pattern, d'.nearest pattern = d.nearest pattern) :
    r.target d' = r.target d := by
  unfold target
  cases hb : r.boundary? with
  | none => rfl
  | some boundary => simp only [hextract boundary hb, hnearest]

theorem apply_alike (h : R d d') (htarget : r.target d' = r.target d)
    (hsame : ∀ block current current', r.target d = .ok block → block.text? d = some current →
      block.text? d' = some current' →
      (current' = (r.newLines d' block.last).flatten ↔
        current = (r.newLines d block.last).flatten))
    (hguard : ∀ guard block current current', r.guard = .ok (some guard) →
      r.target d = .ok block → block.text? d = some current → block.text? d' = some current' →
      guard.admits current' = guard.admits current ∧ digest current' = digest current)
    (hsplice : ∀ block, r.target d = .ok block →
      R (d.splice block.first block.stop (r.newLines d block.last))
        (d'.splice block.first block.stop (r.newLines d' block.last))) :
    Alike R (r.apply d) (r.apply d') := by
  have hresult := r.apply_result d
  generalize r.apply d = result at hresult
  cases hresult with
  | noTarget ht =>
    rw [(Result.noTarget (htarget.trans ht)).apply_eq]
    exact .failed
  | noGuard ht hg =>
    rw [(Result.noGuard (htarget.trans ht) hg).apply_eq]
    exact .failed
  | same ht hg htext hnew =>
    obtain ⟨current', htext'⟩ := text?_of_target (htarget.trans ht)
    have hnew' := (hsame _ _ _ ht htext htext').mpr hnew
    rw [(Result.same (htarget.trans ht) hg htext' hnew').apply_eq]
    exact .done h
  | refused ht hg htext hnew ha =>
    obtain ⟨current', htext'⟩ := text?_of_target (htarget.trans ht)
    have hnew' := mt (hsame _ _ _ ht htext htext').mp hnew
    obtain ⟨hadmits, hdigest⟩ := hguard _ _ _ _ hg ht htext htext'
    rw [(Result.refused (htarget.trans ht) hg htext' hnew' (hadmits.trans ha)).apply_eq, hdigest]
    exact .failed
  | @replaced block guard current ht hg htext hnew ha =>
    obtain ⟨current', htext'⟩ := text?_of_target (htarget.trans ht)
    have hnew' := mt (hsame _ _ _ ht htext htext').mp hnew
    have ha' : ∀ g, guard = some g → g.admits current' = true := by
      rintro g rfl
      exact (hguard _ _ _ _ hg ht htext htext').1.trans (ha g rfl)
    have hlen : ∀ d, (r.newLines d block.last).length = (Text.lines r.replacement).length :=
      fun d => Text.length_terminate _ _ _
    rw [(Result.replaced (htarget.trans ht) hg htext' hnew' ha').apply_eq, hlen, hlen]
    exact .done (hsplice _ ht)

end BlockReplacement

/-! ## Runs -/

/-- If each operation keeps two documents in a relation, a run does, up to the same failure. -/
theorem runFrom_alike {ops : List Operation}
    (hops : ∀ op ∈ ops, ∀ d d', R d d' → Alike R (op.apply d) (op.apply d')) (h : R d d')
    (k : Nat) :
    (∃ r r', runFrom k ops d = .ok r ∧ runFrom k ops d' = .ok r' ∧ r'.report = r.report ∧
        R r.document r'.document) ∨
      ∃ f, runFrom k ops d = .error f ∧ runFrom k ops d' = .error f := by
  induction ops generalizing k d d' with
  | nil => exact .inl ⟨⟨d, []⟩, ⟨d', []⟩, rfl, rfl, rfl, h⟩
  | cons op ops ih =>
    obtain ⟨hop, hops⟩ := List.forall_mem_cons.mp hops
    have halike := hop d d' h
    generalize hstep : op.apply d = result, hstep' : op.apply d' = result' at halike
    cases halike with
    | failed =>
      exact .inr ⟨_, runFrom_cons_eq_error_iff.mpr (.inl ⟨_, hstep, rfl⟩),
        runFrom_cons_eq_error_iff.mpr (.inl ⟨_, hstep', rfl⟩)⟩
    | done hrel =>
      rcases ih hops hrel (k + 1) with ⟨r, r', hrest, hrest', hreport, hdocument⟩ |
        ⟨f, hrest, hrest'⟩
      · refine .inl ⟨_, _, runFrom_cons_eq_ok_iff.mpr ⟨_, _, _, hstep, hrest, rfl⟩,
          runFrom_cons_eq_ok_iff.mpr ⟨_, _, _, hstep', hrest', rfl⟩, ?_, hdocument⟩
        rw [hreport]
      · exact .inr ⟨f, runFrom_cons_eq_error_iff.mpr (.inr ⟨_, _, hstep, hrest⟩),
          runFrom_cons_eq_error_iff.mpr (.inr ⟨_, _, hstep', hrest'⟩)⟩

end LinePatch
