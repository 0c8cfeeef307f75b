import LinePatch.Patch.Run
import LinePatch.Proofs.Block.Boundary
import LinePatch.Proofs.Document.Insertion
import LinePatch.Proofs.Patch.Run

/-!
# How an operation can end

Each step of a run is described by a relation with one case for each way in which it can end, which
names all that was checked on the way there. A function that takes the step gives a case of its
relation, so that a proof about the step is a case analysis and looks into no function.

* `Edit.apply_result`: an edit on a document.
* `SnippetInsertion.apply_result`: an insertion. Its edit always takes place.
* `BlockReplacement.target_result`: the search for the block to replace.
* `BlockReplacement.apply_result`: a block replacement. Its edit is always inside the document.
* `run_singleton_alreadyApplied_iff`: a run that finds its work done.
-/

namespace LinePatch

/-! ## Edits -/

/-- How an edit can end. -/
inductive Edit.Result (e : Edit) (d : Document) :
    Except Edit.Failure (Edit.Outcome × Document) → Prop
  | outside (htext : d.sliceText? e.start e.stop = none) :
    Result e d (.error (.invalidRange e.start e.stop d.length))
  | noop {current : Text} (htext : d.sliceText? e.start e.stop = some current)
    (hnoop : e.isNoop current = true) : Result e d (.ok (.alreadyApplied, d))
  | refused {current : Text} {guard : Guard} (htext : d.sliceText? e.start e.stop = some current)
    (hnoop : e.isNoop current = false) (hguard : e.guard = some guard)
    (hadmits : guard.admits current = false) :
    Result e d (.error (.guardMismatch e.start e.stop guard current))
  | applied {current : Text} (htext : d.sliceText? e.start e.stop = some current)
    (hnoop : e.isNoop current = false)
    (hadmits : ∀ guard, e.guard = some guard → guard.admits current = true) :
    Result e d
      (.ok (.applied (e.stop - e.start) e.newLines.length, d.splice e.start e.stop e.newLines))

theorem Edit.apply_result (e : Edit) (d : Document) : e.Result d (e.apply d) := by
  unfold Edit.apply
  split
  · rename_i htext
    exact .outside htext
  · rename_i current htext
    split
    · rename_i hnoop
      exact .noop htext hnoop
    · rename_i hnoop
      have hnoop : e.isNoop current = false := by simpa using hnoop
      split
      · rename_i guard hguard
        split
        · rename_i hadmits
          exact .applied htext hnoop (by simp [hguard, hadmits])
        · rename_i hadmits
          exact .refused htext hnoop hguard (by simpa using hadmits)
      · rename_i hguard
        exact .applied htext hnoop (by simp [hguard])

/-! ## Insertions -/

/-- How an insertion can end. -/
inductive SnippetInsertion.Result (i : SnippetInsertion) (d : Document) :
    Except Failure (Status × Document) → Prop
  | noSentinel (hs : i.effectiveSentinel = none) :
    Result i d (.error (.invalidOperation .noSentinel))
  | present {s : Text} (hs : i.effectiveSentinel = some s) (hc : d.contains s = true) :
    Result i d (.ok (.alreadyApplied, d))
  | noAnchor {s : Text} (hs : i.effectiveSentinel = some s) (hc : d.contains s = false)
    (ha : d.locate i.anchor = none) :
    Result i d (.error (.anchorNotFound i.anchor (d.nearest i.anchor)))
  | inserted {s : Text} {line : Nat} (hs : i.effectiveSentinel = some s)
    (hc : d.contains s = false) (ha : d.locate i.anchor = some line) :
    Result i d (.ok (.inserted (i.placement.firstLine line) (Text.lines i.snippet).length,
      d.inserted line i.snippet i.placement))

theorem SnippetInsertion.apply_result (i : SnippetInsertion) (d : Document) :
    i.Result d (i.apply d) := by
  unfold SnippetInsertion.apply
  split
  · rename_i hs
    exact .noSentinel hs
  · rename_i s hs
    split
    · rename_i hc
      exact .present hs hc
    · rename_i hc
      have hc : d.contains s = false := by simpa using hc
      split
      · rename_i ha
        exact .noAnchor hs hc ha
      · rename_i line ha
        obtain ⟨removed, added, happly⟩ :=
          Document.insertion_apply (Document.lt_length_of_locate ha) i.snippet i.placement
        simp only [happly]
        exact .inserted hs hc ha

/-- A case of the relation is the result. -/
theorem SnippetInsertion.Result.apply_eq {i : SnippetInsertion} {d : Document}
    {result : Except Failure (Status × Document)} (h : i.Result d result) : i.apply d = result := by
  have h' := i.apply_result d
  generalize i.apply d = result' at h' ⊢
  cases h <;> cases h' <;> simp_all

/-- An insertion finds its work done where the document contains its sentinel. -/
theorem SnippetInsertion.apply_eq_alreadyApplied_iff {i : SnippetInsertion} {d : Document}
    {s : Text} (hs : i.effectiveSentinel = some s) :
    i.apply d = .ok (.alreadyApplied, d) ↔ d.contains s = true := by
  have hresult := i.apply_result d
  generalize i.apply d = result at hresult
  cases hresult with
  | noSentinel hs' => cases hs.symm.trans hs'
  | present hs' hc =>
    cases hs.symm.trans hs'
    exact iff_of_true rfl hc
  | noAnchor hs' hc =>
    cases hs.symm.trans hs'
    exact iff_of_false nofun (by simp [hc])
  | inserted hs' hc =>
    cases hs.symm.trans hs'
    exact iff_of_false nofun (by simp [hc])

/-! ## Block replacements -/

/-- How the search for the block of a replacement can end. -/
inductive BlockReplacement.TargetResult (r : BlockReplacement) (d : Document) :
    Except Failure Block → Prop
  | unbalanced (hbal : isBalanced r.replacement = false) :
    TargetResult r d (.error (.malformedReplacement r.declaration))
  | noMarker (hbal : isBalanced r.replacement = true) (hb : r.boundary? = none) :
    TargetResult r d (.error (.invalidOperation (.noMarker r.kind)))
  | noDeclaration {boundary : Boundary} {declaration : Text}
    (hbal : isBalanced r.replacement = true) (hb : r.boundary? = some boundary)
    (hx : d.extract r.declaration boundary = .error (.declarationNotFound declaration)) :
    TargetResult r d (.error (.declarationNotFound declaration (d.nearest declaration)))
  | noBoundary {boundary : Boundary} {declaration : Text} {line : Nat} {reason : Boundary.Failure}
    (hbal : isBalanced r.replacement = true) (hb : r.boundary? = some boundary)
    (hx : d.extract r.declaration boundary = .error (.boundaryNotFound declaration line reason)) :
    TargetResult r d (.error (.boundaryNotFound declaration line reason))
  | notWhole {boundary : Boundary} {block : Block}
    (hbal : isBalanced r.replacement = true) (hb : r.boundary? = some boundary)
    (hx : d.extract r.declaration boundary = .ok block)
    (hspans : spansWholeBlock r.replacement r.declaration boundary r.follower = false) :
    TargetResult r d (.error (.malformedReplacement r.declaration))
  | found {boundary : Boundary} {block : Block}
    (hbal : isBalanced r.replacement = true) (hb : r.boundary? = some boundary)
    (hx : d.extract r.declaration boundary = .ok block)
    (hspans : spansWholeBlock r.replacement r.declaration boundary r.follower = true) :
    TargetResult r d (.ok block)

/-- How a block replacement can end. -/
inductive BlockReplacement.Result (r : BlockReplacement) (d : Document) :
    Except Failure (Status × Document) → Prop
  | noTarget {failure : Failure} (ht : r.target d = .error failure) : Result r d (.error failure)
  | noGuard {block : Block} {digest : MalformedDigest} (ht : r.target d = .ok block)
    (hg : r.guard = .error digest) :
    Result r d (.error (.invalidOperation (.malformedDigest digest)))
  | same {block : Block} {guard : Option Guard} {current : Text} (ht : r.target d = .ok block)
    (hg : r.guard = .ok guard) (htext : block.text? d = some current)
    (hsame : current = (r.newLines d block.last).flatten) : Result r d (.ok (.alreadyApplied, d))
  | refused {block : Block} {guard : Guard} {current : Text} (ht : r.target d = .ok block)
    (hg : r.guard = .ok (some guard)) (htext : block.text? d = some current)
    (hnew : current ≠ (r.newLines d block.last).flatten) (ha : guard.admits current = false) :
    Result r d (.error (.verificationFailed r.declaration block (digest current)))
  | replaced {block : Block} {guard : Option Guard} {current : Text} (ht : r.target d = .ok block)
    (hg : r.guard = .ok guard) (htext : block.text? d = some current)
    (hnew : current ≠ (r.newLines d block.last).flatten)
    (ha : ∀ g, guard = some g → g.admits current = true) :
    Result r d (.ok (.replaced block (r.newLines d block.last).length,
      d.splice block.first block.stop (r.newLines d block.last)))

namespace BlockReplacement

variable {r : BlockReplacement} {d : Document} {block : Block}

theorem target_result (r : BlockReplacement) (d : Document) : r.TargetResult d (r.target d) := by
  unfold target
  split
  · rename_i hbal
    exact .unbalanced (by simpa using hbal)
  · rename_i hbal
    have hbal : isBalanced r.replacement = true := by simpa using hbal
    split
    · rename_i hb
      exact .noMarker hbal hb
    · rename_i boundary hb
      split
      · rename_i hx
        exact .noDeclaration hbal hb hx
      · rename_i hx
        exact .noBoundary hbal hb hx
      · rename_i hx
        split
        · rename_i hspans
          exact .found hbal hb hx hspans
        · rename_i hspans
          exact .notWhole hbal hb hx (by simpa using hspans)

/-- What is known of a block that was found. -/
theorem target_eq_ok (h : r.target d = .ok block) :
    isBalanced r.replacement = true ∧ ∃ boundary, r.boundary? = some boundary ∧
      d.extract r.declaration boundary = .ok block ∧
      spansWholeBlock r.replacement r.declaration boundary r.follower = true := by
  have hresult := r.target_result d
  rw [h] at hresult
  cases hresult with
  | found hbal hb hx hspans => exact ⟨hbal, _, hb, hx, hspans⟩

theorem target_of_extract {boundary : Boundary} (hbal : isBalanced r.replacement = true)
    (hb : r.boundary? = some boundary) (hx : d.extract r.declaration boundary = .ok block)
    (hspans : spansWholeBlock r.replacement r.declaration boundary r.follower = true) :
    r.target d = .ok block := by
  simp only [target, hbal, hb, hx, hspans, Bool.not_true, Bool.false_eq_true, ↓reduceIte]

/-- A block that was found is inside the document. -/
theorem last_lt_of_target (h : r.target d = .ok block) : block.last < d.length := by
  obtain ⟨-, boundary, -, hx, -⟩ := target_eq_ok h
  exact (extract_eq_ok_iff.mp hx).2.2

theorem text?_of_target (h : r.target d = .ok block) :
    ∃ current, block.text? d = some current := by
  obtain ⟨-, boundary, -, hx, -⟩ := target_eq_ok h
  exact exists_text?_of_extract hx

theorem isNoop_edit (r : BlockReplacement) (d : Document) (block : Block) (guard : Option Guard)
    (current : Text) :
    ({ r.edit d block with guard } : Edit).isNoop current = true ↔
      current = (r.newLines d block.last).flatten := by
  have hne : block.first ≠ block.stop := Nat.ne_of_lt (Nat.lt_succ_of_le block.first_le_last)
  simp [Edit.isNoop, edit, hne]

theorem apply_result (r : BlockReplacement) (d : Document) : r.Result d (r.apply d) := by
  unfold apply
  split
  · rename_i ht
    exact .noTarget ht
  · rename_i block ht
    split
    · rename_i hg
      exact .noGuard ht hg
    · rename_i guard hg
      obtain ⟨current, htext⟩ := text?_of_target ht
      have hnoop := isNoop_edit r d block guard current
      have hresult := ({ r.edit d block with guard } : Edit).apply_result d
      generalize ({ r.edit d block with guard } : Edit).apply d = result at hresult
      cases hresult with
      | outside htext' => cases htext.symm.trans htext'
      | noop htext' hn =>
        cases htext.symm.trans htext'
        exact .same ht hg htext (hnoop.mp hn)
      | @refused _ guard htext' hn hguard ha =>
        cases htext.symm.trans htext'
        cases hguard
        exact .refused ht hg htext (fun h => by simp [hnoop.mpr h] at hn) ha
      | applied htext' hn ha =>
        cases htext.symm.trans htext'
        exact .replaced ht hg htext (fun h => by simp [hnoop.mpr h] at hn) ha

/-- A case of the relation is the result. -/
theorem Result.apply_eq {result : Except Failure (Status × Document)} (h : r.Result d result) :
    r.apply d = result := by
  have h' := r.apply_result d
  generalize r.apply d = result' at h' ⊢
  cases h <;> cases h' <;> simp_all

/-- A replacement finds its work done where the block has its text. -/
theorem apply_eq_alreadyApplied_iff {guard : Option Guard} {current : Text}
    (ht : r.target d = .ok block) (hg : r.guard = .ok guard)
    (htext : block.text? d = some current) :
    r.apply d = .ok (.alreadyApplied, d) ↔ current = (r.newLines d block.last).flatten := by
  have hresult := r.apply_result d
  generalize r.apply d = result at hresult
  cases hresult with
  | noTarget ht' => cases ht.symm.trans ht'
  | noGuard _ hg' => cases hg.symm.trans hg'
  | same ht' _ htext' hsame =>
    cases ht.symm.trans ht'
    cases htext.symm.trans htext'
    exact iff_of_true rfl hsame
  | refused ht' _ htext' hnew =>
    cases ht.symm.trans ht'
    cases htext.symm.trans htext'
    exact iff_of_false nofun hnew
  | replaced ht' _ htext' hnew =>
    cases ht.symm.trans ht'
    cases htext.symm.trans htext'
    exact iff_of_false nofun hnew

end BlockReplacement

/-! ## Operations that find their work done -/

theorem Operation.eq_of_alreadyApplied {op : Operation} {d d' : Document}
    (h : op.apply d = .ok (.alreadyApplied, d')) : d' = d := by
  cases op with
  | insert i =>
    have hresult := i.apply_result d
    rw [show i.apply d = .ok (.alreadyApplied, d') from h] at hresult
    cases hresult with
    | present => rfl
  | replace r =>
    have hresult := r.apply_result d
    rw [show r.apply d = .ok (.alreadyApplied, d') from h] at hresult
    cases hresult with
    | same => rfl

/-- A run of one operation finds its work done if the operation does. -/
theorem run_singleton_alreadyApplied_iff {op : Operation} {t : Text} :
    (∃ again, run [op] (.ofText t) = .ok again ∧
        again.report.map (·.status) = [.alreadyApplied] ∧ again.document.toText = t) ↔
      op.apply (.ofText t) = .ok (.alreadyApplied, .ofText t) := by
  constructor
  · rintro ⟨again, hrun, hreport, -⟩
    obtain ⟨status, d', hop, rfl⟩ := run_singleton_eq_ok_iff.mp hrun
    cases hreport
    rw [hop, Operation.eq_of_alreadyApplied hop]
  · intro hop
    exact ⟨_, run_singleton_eq_ok_iff.mpr ⟨_, _, hop, rfl⟩, rfl, Document.toText_ofText t⟩

end LinePatch
