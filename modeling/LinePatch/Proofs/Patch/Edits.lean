import LinePatch.Proofs.Patch.Effect

/-!
# Sequences of edits

Edits are applied in order to one document, and a refused one does not stop the next. Each of them
either replaces its range by its new lines, or leaves the document as it was and says why. What it
does is decided in this order: the range must be inside the document, a range that holds the new
lines already is left alone, and then the guard is asked.

* `Edit.exists_step`, `Edit.Step.unique`: every edit takes exactly one step.
* `Edit.Step.again`: an edit that was applied finds its work done.
* `Edit.applyAll_eq_iff_steps`, `Edit.getElem?_applyAll_again`: the same for sequences.
* `applyAll_steps`: the three together.
-/

namespace LinePatch.Edit

variable {e : Edit} {es : List Edit} {d d' d₁ d₂ : Document} {r r₁ r₂ : Except Failure Outcome}

/-- The raw lines in the range of an edit. -/
def span (e : Edit) (d : Document) : List Text := (d.rawLines.drop e.start).take (e.stop - e.start)

/-- The range of an edit has ordered bounds inside the document. -/
def InRange (e : Edit) (d : Document) : Prop := e.start ≤ e.stop ∧ e.stop ≤ d.length

/-- The range of an edit is not empty and has the text of the new lines, however it is cut into
lines. -/
def IsDone (e : Edit) (d : Document) : Prop :=
  e.start < e.stop ∧ (e.span d).flatten = e.newLines.flatten

/-- What an edit answers on a document, and the document after it. -/
inductive Step (e : Edit) (d : Document) : Except Failure Outcome → Document → Prop
  | invalidRange (hrange : e.stop < e.start ∨ d.length < e.stop) :
    Step e d (.error (.invalidRange e.start e.stop d.length)) d
  | alreadyApplied (hrange : e.InRange d) (hdone : e.IsDone d) : Step e d (.ok .alreadyApplied) d
  | guardMismatch {guard : Guard} (hrange : e.InRange d) (hdone : ¬ e.IsDone d)
    (hguard : e.guard = some guard) (hadmits : guard.admits (e.span d).flatten = false) :
    Step e d (.error (.guardMismatch e.start e.stop guard (e.span d).flatten)) d
  | applied (hrange : e.InRange d) (hdone : ¬ e.IsDone d)
    (hadmits : ∀ guard, e.guard = some guard → guard.admits (e.span d).flatten = true) :
    Step e d (.ok (.applied (e.stop - e.start) e.newLines.length))
      ⟨d.rawLines.take e.start ++ e.newLines ++ d.rawLines.drop e.stop⟩

/-- The steps of edits one after the other, each on the document that the one before it left. -/
inductive Steps : List Edit → Document → List (Except Failure Outcome × Document) → Prop
  | nil {d : Document} : Steps [] d []
  | cons {e : Edit} {es : List Edit} {d d' : Document} {r : Except Failure Outcome}
    {rs : List (Except Failure Outcome × Document)} (hstep : e.Step d r d')
    (hsteps : Steps es d' rs) : Steps (e :: es) d ((r, d') :: rs)

/-! ## One edit -/

theorem not_inRange_iff : ¬ e.InRange d ↔ e.stop < e.start ∨ d.length < e.stop := by
  unfold InRange
  omega

theorem sliceText?_eq_some_iff_span {current : Text} :
    d.sliceText? e.start e.stop = some current ↔ e.InRange d ∧ (e.span d).flatten = current := by
  rw [Document.sliceText?_eq_some_iff, InRange, and_assoc]
  rfl

theorem isNoop_iff_isDone (hrange : e.InRange d) :
    e.isNoop (e.span d).flatten = true ↔ e.IsDone d := by
  have hlt : e.start ≠ e.stop ↔ e.start < e.stop := by
    have := hrange.1
    omega
  simp [isNoop, IsDone, hlt]

/-- An edit takes a step, and the edits behind it go on from there. -/
theorem exists_step (e : Edit) (d : Document) :
    ∃ r d', e.Step d r d' ∧ ∀ es, applyAll (e :: es) d = (r, d') :: applyAll es d' := by
  have hresult := e.apply_result d
  generalize happly : e.apply d = result at hresult
  cases hresult with
  | outside htext =>
    refine ⟨_, _, .invalidRange (not_inRange_iff.mp fun hrange => ?_), fun es => ?_⟩
    · rw [sliceText?_eq_some_iff_span.mpr ⟨hrange, rfl⟩] at htext
      cases htext
    · rw [applyAll, happly]
  | noop htext hnoop =>
    obtain ⟨hrange, rfl⟩ := sliceText?_eq_some_iff_span.mp htext
    refine ⟨_, _, .alreadyApplied hrange ((isNoop_iff_isDone hrange).mp hnoop), fun es => ?_⟩
    rw [applyAll, happly]
  | refused htext hnoop hguard hadmits =>
    obtain ⟨hrange, rfl⟩ := sliceText?_eq_some_iff_span.mp htext
    refine ⟨_, _, .guardMismatch hrange (fun hdone => ?_) hguard hadmits, fun es => ?_⟩
    · rw [(isNoop_iff_isDone hrange).mpr hdone] at hnoop
      cases hnoop
    · rw [applyAll, happly]
  | applied htext hnoop hadmits =>
    obtain ⟨hrange, rfl⟩ := sliceText?_eq_some_iff_span.mp htext
    refine ⟨_, _, .applied hrange (fun hdone => ?_) hadmits, fun es => ?_⟩
    · rw [(isNoop_iff_isDone hrange).mpr hdone] at hnoop
      cases hnoop
    · rw [applyAll, happly]
      rfl

/-- No document and no edit meet the conditions of two steps. -/
theorem Step.unique (h₁ : e.Step d r₁ d₁) (h₂ : e.Step d r₂ d₂) : r₁ = r₂ ∧ d₁ = d₂ := by
  cases h₁ with
  | invalidRange hrange =>
    cases h₂ with
    | invalidRange => exact ⟨rfl, rfl⟩
    | alreadyApplied hrange' => exact absurd hrange' (not_inRange_iff.mpr hrange)
    | guardMismatch hrange' => exact absurd hrange' (not_inRange_iff.mpr hrange)
    | applied hrange' => exact absurd hrange' (not_inRange_iff.mpr hrange)
  | alreadyApplied hrange hdone =>
    cases h₂ with
    | invalidRange hrange' => exact absurd hrange (not_inRange_iff.mpr hrange')
    | alreadyApplied => exact ⟨rfl, rfl⟩
    | guardMismatch _ hdone' => exact absurd hdone hdone'
    | applied _ hdone' => exact absurd hdone hdone'
  | guardMismatch hrange hdone hguard hadmits =>
    cases h₂ with
    | invalidRange hrange' => exact absurd hrange (not_inRange_iff.mpr hrange')
    | alreadyApplied _ hdone' => exact absurd hdone' hdone
    | guardMismatch _ _ hguard' =>
      obtain rfl := Option.some.inj (hguard.symm.trans hguard')
      exact ⟨rfl, rfl⟩
    | applied _ _ hadmits' =>
      rw [hadmits' _ hguard] at hadmits
      cases hadmits
  | applied hrange hdone hadmits =>
    cases h₂ with
    | invalidRange hrange' => exact absurd hrange (not_inRange_iff.mpr hrange')
    | alreadyApplied _ hdone' => exact absurd hdone' hdone
    | guardMismatch _ _ hguard hadmits' =>
      rw [hadmits _ hguard] at hadmits'
      cases hadmits'
    | applied => exact ⟨rfl, rfl⟩

/-- Where an edit has put as many lines as it took away, it finds them in its range. -/
theorem Step.again {n : Nat} (hn : 0 < n) (h : e.Step d (.ok (.applied n n)) d') :
    e.Step d' (.ok .alreadyApplied) d' := by
  generalize hr : (Except.ok (.applied n n) : Except Failure Outcome) = r at h
  cases h with
  | invalidRange => cases hr
  | alreadyApplied => cases hr
  | guardMismatch => cases hr
  | applied hrange hdone hadmits =>
    simp only [Except.ok.injEq, Outcome.applied.injEq] at hr
    obtain ⟨rfl, hlen⟩ := hr
    obtain ⟨hle, hstop⟩ := hrange
    obtain ⟨pre, mid, post, hraw, hpre, hmid⟩ := Document.exists_rawLines_eq_append hle hstop
    have htake : d.rawLines.take e.start = pre := by
      rw [hraw, List.append_assoc, ← hpre, List.take_left]
    have hdrop : d.rawLines.drop e.stop = post := by
      rw [hraw, ← hmid, ← List.length_append, List.drop_left]
    rw [htake, hdrop]
    refine .alreadyApplied ⟨hle, ?_⟩ ⟨by omega, ?_⟩
    · simp only [Document.length, List.length_append]
      omega
    · rw [span, List.append_assoc, ← hpre, List.drop_left, hpre, hlen, List.take_left]

/-! ## Sequences -/

/-- The answers to edits are those of their steps. -/
theorem applyAll_eq_iff_steps {rs : List (Except Failure Outcome × Document)} :
    applyAll es d = rs ↔ Steps es d rs := by
  constructor
  · rintro rfl
    induction es generalizing d with
    | nil => exact .nil
    | cons e es ih =>
      obtain ⟨r, d', hstep, happly⟩ := exists_step e d
      rw [happly]
      exact .cons hstep ih
  · intro h
    induction h with
    | nil => rfl
    | cons hstep _ ih =>
      obtain ⟨r, d', hstep', happly⟩ := exists_step _ _
      obtain ⟨rfl, rfl⟩ := hstep.unique hstep'
      rw [happly, ih]

/-- The second of two equal edits in a row finds its work done, at any place of a sequence. -/
theorem getElem?_applyAll_again {i n : Nat} (hn : 0 < n) (he : es[i]? = some e)
    (he' : es[i + 1]? = some e)
    (h : (applyAll es d)[i]? = some (.ok (.applied n n), d')) :
    (applyAll es d)[i + 1]? = some (.ok .alreadyApplied, d') := by
  induction es generalizing d i with
  | nil => cases he
  | cons e₀ es ih =>
    obtain ⟨r, d₁, hstep, happly⟩ := exists_step e₀ d
    rw [happly] at h ⊢
    cases i with
    | zero =>
      obtain rfl : e₀ = e := by simpa using he
      obtain ⟨rfl, rfl⟩ : r = .ok (.applied n n) ∧ d₁ = d' := by simpa using h
      cases es with
      | nil => simp at he'
      | cons e₁ es =>
        obtain rfl : e₁ = e₀ := by simpa using he'
        obtain ⟨r, d₂, hstep', happly'⟩ := exists_step e₁ d₁
        obtain ⟨rfl, rfl⟩ := hstep'.unique (hstep.again hn)
        simp [happly']
    | succ i => exact ih he he' h

/-- **Sequences of edits.** The answers to a sequence of edits, and the document after each of them,
are those of the steps one after the other. Every edit takes exactly one step on every document. An
edit that was applied, with as many new lines as old ones, and is applied once more right away is
answered as already applied, whatever its guard says, and leaves the document as it is. -/
theorem applyAll_steps (es : List Edit) (d : Document) :
    (∀ rs, applyAll es d = rs ↔ Steps es d rs) ∧
    (∀ (e : Edit) (d : Document),
      ∃! p : Except Failure Outcome × Document, e.Step d p.1 p.2) ∧
    ∀ (i n : Nat) (e : Edit) (d' : Document), es[i]? = some e → es[i + 1]? = some e → 0 < n →
      (applyAll es d)[i]? = some (.ok (.applied n n), d') →
      (applyAll es d)[i + 1]? = some (.ok .alreadyApplied, d') := by
  refine ⟨fun rs => applyAll_eq_iff_steps, fun e d => ?_,
    fun i n e d' he he' hn h => getElem?_applyAll_again hn he he' h⟩
  obtain ⟨r, d', hstep, -⟩ := exists_step e d
  exact ⟨(r, d'), hstep, fun p hp => Prod.ext_iff.mpr (hp.unique hstep)⟩

/-- A range outside of the document, and an edit that is applied twice. Its guard would refuse the
lines that it has written. -/
theorem applyAll_steps_guarded :
    let e : Edit := ⟨0, 1, ["x\n".toList], some (.exact "a".toList)⟩
    let es : List Edit := [⟨2, 1, [], none⟩, e, e]
    let d : Document := .ofText "a\nb".toList
    let d' : Document := .ofText "x\nb".toList
    es[1]? = some e ∧ es[2]? = some e ∧ 0 < 1 ∧
      (applyAll es d)[1]? = some (.ok (.applied 1 1), d') ∧
      (applyAll es d)[2]? = some (.ok .alreadyApplied, d') ∧
      Steps es d [(.error (.invalidRange 2 1 2), d), (.ok (.applied 1 1), d'),
        (.ok .alreadyApplied, d')] := by
  intro e es d d'
  have h : applyAll es d = [(.error (.invalidRange 2 1 2), d), (.ok (.applied 1 1), d'),
      (.ok .alreadyApplied, d')] := by rfl
  have hfirst : (applyAll es d)[1]? = some (.ok (.applied 1 1), d') := by rw [h]; rfl
  obtain ⟨hsteps, -, hagain⟩ := applyAll_steps es d
  exact ⟨rfl, rfl, Nat.one_pos, hfirst, hagain 1 1 e d' rfl rfl Nat.one_pos hfirst, (hsteps _).mp h⟩

end LinePatch.Edit
