import LinePatch.Proofs.Patch.Effect

/-!
# Bounds of slices

A range of lines that is not in the document has no slice. Here a run is stated a second time, such
that it stops without a result at the first such range that it takes a slice of or replaces. It
never stops there: each range comes from searches in the document that it is used on, or is looked
at before.

* `Edit.applyChecked_eq`, `Boundary.nextMarkerSearch_eq`: the places that use a range.
* `BlockReplacement.targetChecked_eq`: the search for a block, which uses such places twice.
* `runChecked_eq`: the whole run.
* `run_ne_edit_failure`: no run fails with an edit that is out of bounds.
* `run_in_bounds`: this, and the bounds of a block for any boundary.
-/

namespace LinePatch

/-! ## Edits -/

namespace Document

variable {d : Document} {start stop : Nat} {text : Text}

/-- The document with a range of its lines replaced, for ordered bounds inside the document. -/
def splice? (d : Document) (start stop : Nat) (newLines : List Text) : Option Document :=
  if start ≤ stop ∧ stop ≤ d.length then some (d.splice start stop newLines) else none

/-- The ranges without a slice. -/
theorem outside_iff : stop < start ∨ d.length < stop ↔ d.sliceText? start stop = none := by
  rw [sliceText?, Option.map_eq_none_iff, ← Option.not_isSome_iff_eq_none, isSome_slice?_iff]
  omega

/-- A range that has a slice can be replaced. -/
theorem splice?_of_sliceText? (h : d.sliceText? start stop = some text) (newLines : List Text) :
    d.splice? start stop newLines = some (d.splice start stop newLines) := by
  obtain ⟨hle, hstop, -⟩ := sliceText?_eq_some_iff.mp h
  exact if_pos ⟨hle, hstop⟩

end Document

/-- An edit with its slice and its splice checked. -/
def Edit.applyChecked (e : Edit) (d : Document) : Option (Except Failure (Outcome × Document)) :=
  if e.stop < e.start ∨ d.length < e.stop then
    some (.error (.invalidRange e.start e.stop d.length))
  else
    (d.sliceText? e.start e.stop).bind fun current =>
      if e.isNoop current then some (.ok (.alreadyApplied, d))
      else
        match e.guard.filter (!·.admits current) with
        | some guard => some (.error (.guardMismatch e.start e.stop guard current))
        | none =>
          (d.splice? e.start e.stop e.newLines).map fun d' =>
            .ok (.applied (e.stop - e.start) e.newLines.length, d')

theorem Edit.applyChecked_eq (e : Edit) (d : Document) : e.applyChecked d = some (e.apply d) := by
  unfold applyChecked
  simp only [Document.outside_iff]
  have hresult := e.apply_result d
  generalize e.apply d = result at hresult
  cases hresult with
  | outside htext => rw [if_pos htext]
  | noop htext hnoop => simp [htext, hnoop]
  | @refused current guard htext hnoop hguard hadmits =>
    have hfilter : e.guard.filter (!·.admits current) = some guard := by
      simp [hguard, Option.filter, hadmits]
    simp [htext, hnoop, hfilter]
  | @applied current htext hnoop hadmits =>
    have hfilter : e.guard.filter (!·.admits current) = none := by
      rw [Option.filter_eq_none_iff]
      intro guard hguard
      simp [hadmits guard hguard]
    simp [htext, hnoop, hfilter, Document.splice?_of_sliceText? htext]

/-! ## Boundaries -/

namespace Boundary

/-- A search for the last line of a block from its first one, which has no result where a slice is
out of bounds. -/
def Search : Type := Document → Nat → Option (Except Failure Nat)

/-- A boundary as a search that takes no slice. -/
def search (boundary : Boundary) : Search := fun d first => some (boundary.blockEnd d first)

/-- The boundary that names one last line for all blocks. -/
def fixed (last : Except Failure Nat) : Boundary := ⟨"fixed", fun _ _ => last⟩

/-- The search for the end of a block in front of a marker, with its slice checked. -/
def nextMarkerSearch (marker : Text) : Search := fun d first =>
  match upperBound d first marker with
  | none => some (.error (.markerNotFound marker))
  | some upper =>
    match lastLoneBrace d first upper with
    | none => some (.error (.noClosingBrace upper))
    | some last =>
      (d.sliceText? first (last + 1)).map fun text =>
        if isBalanced text then .ok last else .error (.unbalanced last)

theorem nextMarkerSearch_eq (marker : Text) :
    nextMarkerSearch marker = (nextMarker marker).search := by
  funext d first
  simp only [nextMarkerSearch, search, nextMarker]
  cases upperBound d first marker with
  | none => rfl
  | some upper =>
    cases hlast : lastLoneBrace d first upper with
    | none => simp only [hlast]
    | some last =>
      -- The last line was found in the document, behind the first.
      obtain ⟨hlt, -, ⟨l, hl, -⟩, -⟩ := lastLoneBrace_eq_some_iff.mp hlast
      have hlength : last < d.length := by simpa using (List.getElem?_eq_some_iff.mp hl).1
      have htext := Document.sliceText?_eq_some_iff.mpr
        ⟨Nat.le_of_lt (Nat.lt_succ_of_lt hlt), hlength, rfl⟩
      simp only [hlast, htext, Option.map_some]

/-- The search of a kind; the one by depth takes no slice. -/
def Kind.search? : Kind → Option Text → Option Search
  | .nextMarker, some marker => if marker.isEmpty then none else some (nextMarkerSearch marker)
  | .nextMarker, none => none
  | .braceDepth, _ => some Boundary.braceDepth.search

theorem Kind.search?_eq (kind : Kind) (marker : Option Text) :
    kind.search? marker = (kind.boundary? marker).map search := by
  cases kind with
  | braceDepth => rfl
  | nextMarker =>
    cases marker with
    | none => rfl
    | some marker =>
      rw [search?, boundary?]
      split
      · rfl
      · rw [Option.map_some, nextMarkerSearch_eq]

end Boundary

/-! ## Extraction -/

/-- The block of a declaration, by a search with its slices checked. -/
def Document.extractChecked (d : Document) (declaration : Text) (search : Boundary.Search) :
    Option (Except ExtractFailure Block) :=
  match d.locate declaration with
  | none => some (.error (.declarationNotFound declaration))
  | some first => (search d first).map fun last => d.extract declaration (.fixed last)

theorem Document.extractChecked_eq (d : Document) (declaration : Text) (boundary : Boundary) :
    d.extractChecked declaration boundary.search =
      some (d.extract declaration boundary) := by
  simp only [extractChecked, extract]
  cases d.locate declaration with
  | none => rfl
  | some first => rfl

/-- Whether a replacement is one whole block, by a search with its slices checked. -/
def spansWholeBlockChecked (replacement declaration : Text) (search : Boundary.Search)
    (follower : Option Text) : Option Bool :=
  ((standalone replacement follower).extractChecked declaration search).map fun
    | .ok block => block.first == 0 && block.last + 1 == (Text.lines replacement).length
    | .error _ => false

theorem spansWholeBlockChecked_eq (replacement declaration : Text) (boundary : Boundary)
    (follower : Option Text) :
    spansWholeBlockChecked replacement declaration boundary.search follower =
      some (spansWholeBlock replacement declaration boundary follower) := by
  rw [spansWholeBlockChecked, Document.extractChecked_eq]
  unfold spansWholeBlock
  cases (standalone replacement follower).extract declaration boundary with
  | error failure => rfl
  | ok block => rfl

/-! ## Operations -/

/-- An insertion with its slices checked. -/
def SnippetInsertion.applyChecked (i : SnippetInsertion) (d : Document) :
    Option (Except Failure (Status × Document)) :=
  match i.effectiveSentinel with
  | none => some (.error (.invalidOperation .noSentinel))
  | some sentinel =>
    if d.contains sentinel then some (.ok (.alreadyApplied, d))
    else
      match d.locate i.anchor with
      | none => some (.error (.anchorNotFound i.anchor (d.nearest i.anchor)))
      | some line =>
        ((d.insertion line i.snippet i.placement).applyChecked d).map fun
          | .error failure => .error (.edit failure)
          | .ok (.alreadyApplied, d') => .ok (.alreadyApplied, d')
          | .ok (.applied _ _, d') =>
            .ok (.inserted (i.placement.firstLine line) (Text.lines i.snippet).length, d')

theorem SnippetInsertion.applyChecked_eq (i : SnippetInsertion) (d : Document) :
    i.applyChecked d = some (i.apply d) := by
  unfold applyChecked apply
  cases i.effectiveSentinel with
  | none => rfl
  | some sentinel =>
    by_cases hc : d.contains sentinel = true
    · simp only [if_pos hc]
    · simp only [if_neg hc]
      cases d.locate i.anchor with
      | none => rfl
      | some line =>
        simp only [Edit.applyChecked_eq]
        rfl

namespace BlockReplacement

/-- The search of a replacement for the end of its block. -/
def search? (r : BlockReplacement) : Option Boundary.Search := r.kind.search? r.marker

theorem search?_eq (r : BlockReplacement) : r.search? = r.boundary?.map Boundary.search :=
  r.kind.search?_eq r.marker

/-- The block that a replacement replaces, with the slices checked. -/
def targetChecked (r : BlockReplacement) (d : Document) : Option (Except Failure Block) :=
  if !isBalanced r.replacement then some (.error (.malformedReplacement r.declaration))
  else
    match r.search? with
    | none => some (.error (.invalidOperation (.noMarker r.kind)))
    | some search =>
      (d.extractChecked r.declaration search).bind fun
        | .error (.declarationNotFound declaration) =>
          some (.error (.declarationNotFound declaration (d.nearest declaration)))
        | .error (.boundaryNotFound declaration line reason) =>
          some (.error (.boundaryNotFound declaration line reason))
        | .ok block =>
          (spansWholeBlockChecked r.replacement r.declaration search r.follower).map fun
            | true => .ok block
            | false => .error (.malformedReplacement r.declaration)

/-- A block replacement with its slices checked. -/
def applyChecked (r : BlockReplacement) (d : Document) :
    Option (Except Failure (Status × Document)) :=
  (r.targetChecked d).bind fun
    | .error failure => some (.error failure)
    | .ok block =>
      match r.guard with
      | .error digest => some (.error (.invalidOperation (.malformedDigest digest)))
      | .ok guard =>
        (({ r.edit d block with guard } : Edit).applyChecked d).map fun
          | .ok (.alreadyApplied, d') => .ok (.alreadyApplied, d')
          | .ok (.applied _ inserted, d') => .ok (.replaced block inserted, d')
          | .error (.guardMismatch _ _ _ found) =>
            .error (.verificationFailed r.declaration block (digest found))
          | .error failure => .error (.edit failure)

theorem targetChecked_eq (r : BlockReplacement) (d : Document) :
    r.targetChecked d = some (r.target d) := by
  have hresult := r.target_result d
  generalize r.target d = result at hresult
  cases hresult with
  | unbalanced hbal => simp [targetChecked, hbal]
  | noMarker hbal hb => simp [targetChecked, hbal, search?_eq, hb]
  | noDeclaration hbal hb hx =>
    simp [targetChecked, hbal, search?_eq, hb, Document.extractChecked_eq, hx]
  | noBoundary hbal hb hx =>
    simp [targetChecked, hbal, search?_eq, hb, Document.extractChecked_eq, hx]
  | notWhole hbal hb hx hspans =>
    simp [targetChecked, hbal, search?_eq, hb, Document.extractChecked_eq, hx,
      spansWholeBlockChecked_eq, hspans]
  | found hbal hb hx hspans =>
    simp [targetChecked, hbal, search?_eq, hb, Document.extractChecked_eq, hx,
      spansWholeBlockChecked_eq, hspans]

theorem applyChecked_eq (r : BlockReplacement) (d : Document) :
    r.applyChecked d = some (r.apply d) := by
  rw [applyChecked, targetChecked_eq, Option.bind_some, apply]
  cases r.target d with
  | error failure => rfl
  | ok block =>
    simp only
    cases r.guard with
    | error digest => rfl
    | ok guard =>
      simp only [Edit.applyChecked_eq]
      rfl

end BlockReplacement

/-- An operation with its slices checked. -/
def Operation.applyChecked : Operation → Document → Option (Except Failure (Status × Document))
  | .insert i, d => i.applyChecked d
  | .replace r, d => r.applyChecked d

theorem Operation.applyChecked_eq (op : Operation) (d : Document) :
    op.applyChecked d = some (op.apply d) :=
  match op with
  | .insert i => i.applyChecked_eq d
  | .replace r => r.applyChecked_eq d

/-! ## Runs -/

/-- Operations on a document with their slices checked. -/
def runFromChecked : Nat → List Operation → Document → Option (Except RunFailure RunResult)
  | _, [], d => some (.ok ⟨d, []⟩)
  | i, op :: ops, d =>
    (op.applyChecked d).bind fun
      | .error failure => some (.error ⟨i, failure⟩)
      | .ok (status, d') =>
        (runFromChecked (i + 1) ops d').map fun
          | .error failure => .error failure
          | .ok result => .ok ⟨result.document, ⟨i, op.kindName, status⟩ :: result.report⟩

/-- A run with its slices checked. -/
def runChecked (ops : List Operation) (d : Document) : Option (Except RunFailure RunResult) :=
  runFromChecked 0 ops d

theorem runFromChecked_eq (i : Nat) (ops : List Operation) (d : Document) :
    runFromChecked i ops d = some (runFrom i ops d) := by
  induction ops generalizing i d with
  | nil => rfl
  | cons op ops ih =>
    rw [runFromChecked, Operation.applyChecked_eq, Option.bind_some, runFrom]
    cases op.apply d with
    | error failure => rfl
    | ok result =>
      simp only [ih]
      rfl

theorem runChecked_eq (ops : List Operation) (d : Document) : runChecked ops d = some (run ops d) :=
  runFromChecked_eq 0 ops d

/-! ## Refused edits -/

theorem Operation.apply_ne_edit_failure (op : Operation) (d : Document) (failure : Edit.Failure) :
    op.apply d ≠ .error (.edit failure) := by
  intro h
  cases op with
  | insert i =>
    have hresult := i.apply_result d
    rw [show i.apply d = .error (.edit failure) from h] at hresult
    cases hresult
  | replace r =>
    have hresult := r.apply_result d
    rw [show r.apply d = .error (.edit failure) from h] at hresult
    cases hresult with
    | noTarget ht =>
      have htarget := r.target_result d
      rw [ht] at htarget
      cases htarget

theorem runFrom_ne_edit_failure (i : Nat) (ops : List Operation) (d : Document) (j : Nat)
    (failure : Edit.Failure) : runFrom i ops d ≠ .error ⟨j, .edit failure⟩ := by
  induction ops generalizing i d with
  | nil => nofun
  | cons op ops ih =>
    intro h
    rcases runFrom_cons_eq_error_iff.mp h with ⟨f, hop, hf⟩ | ⟨status, d', -, hrest⟩
    · cases hf
      exact op.apply_ne_edit_failure d failure hop
    · exact ih (i + 1) d' hrest

/-- A run never fails with a refused edit: no range is outside of the document, and a text that is
not the expected one has a failure of its own. -/
theorem run_ne_edit_failure (ops : List Operation) (d : Document) (j : Nat)
    (failure : Edit.Failure) : run ops d ≠ .error ⟨j, .edit failure⟩ :=
  runFrom_ne_edit_failure 0 ops d j failure

/-! ## Runs in bounds -/

/-- **Runs stay in bounds.** Whatever the boundary, a block starts on the first line that contains
its declaration and ends inside the document. A run takes slices in bounds only and replaces nothing
else, whatever its operations, and never fails with a refused edit. -/
theorem run_in_bounds :
    (∀ (d : Document) (declaration : Text) (boundary : Boundary) (block : Block),
      d.extract declaration boundary = .ok block →
        d.LineContains declaration block.first ∧
          (∀ i < block.first, ¬ d.LineContains declaration i) ∧
          block.first ≤ block.last ∧ block.last < d.length) ∧
      ∀ (ops : List Operation) (d : Document),
        runChecked ops d = some (run ops d) ∧
          ∀ i failure, run ops d ≠ .error ⟨i, .edit failure⟩ := by
  constructor
  · intro d declaration boundary block hx
    obtain ⟨hlocate, -, hlast⟩ := extract_eq_ok_iff.mp hx
    obtain ⟨-, hfirst, hno⟩ := Document.locate_eq_some_iff.mp hlocate
    exact ⟨hfirst, hno, block.first_le_last, hlast⟩
  · intro ops d
    exact ⟨runChecked_eq ops d, fun i failure => run_ne_edit_failure ops d i failure⟩

/-- A boundary that names a line whatever is on it, and operations of which the first inserts no
line, the second replaces a block in front of its marker, and the third has an empty marker. -/
theorem run_in_bounds_fixed :
    let d := Document.ofText "a\nf\x7b\n\x7d\n#\nb".toList
    let ops : List Operation :=
      [.insert { placement := .after, anchor := "b".toList, snippet := [], sentinel := some ['!'] },
        .replace
          { declaration := "f".toList, marker := some ['#'],
            replacement := "f\x7b\nx\n\x7d\n".toList }]
    let noMarker : Operation :=
      .replace { declaration := "f".toList, marker := some [], replacement := "f\x7b\x7d".toList }
    d.extract "f".toList (.fixed (.ok 3)) = .ok ⟨1, 3, by decide⟩ ∧
      (d.LineContains "f".toList 1 ∧ (∀ i < 1, ¬ d.LineContains "f".toList i) ∧ 3 < d.length) ∧
      runChecked ops d = some (.ok
        ⟨.ofText "a\nf\x7b\nx\n\x7d\n#\nb\n".toList,
          [⟨0, "insert_after", .inserted 5 0⟩,
            ⟨1, "replace_block", .replaced ⟨1, 2, by decide⟩ 3⟩]⟩) ∧
      runChecked (ops ++ [noMarker]) d =
        some (.error ⟨2, .invalidOperation (.noMarker .nextMarker)⟩) := by
  intro d ops noMarker
  have hx : d.extract "f".toList (.fixed (.ok 3)) = .ok ⟨1, 3, by decide⟩ := by rfl
  obtain ⟨hfirst, hno, -, hlast⟩ := run_in_bounds.1 d _ _ _ hx
  exact ⟨hx, ⟨hfirst, hno, hlast⟩, (run_in_bounds.2 ops d).1,
    (run_in_bounds.2 (ops ++ [noMarker]) d).1⟩

end LinePatch
