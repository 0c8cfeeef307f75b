import LinePatch.Patch.Issue
import LinePatch.Proofs.Document.Joined
import LinePatch.Proofs.Patch.Alike
import LinePatch.Proofs.Patch.WorkingCopy

/-!
# Documents that are read again

What a run does to its working copy, and what it does to the document that is read from its text.
They are one document unless the working copy ends in an empty line that no terminator shows. That
line holds no anchor, no marker and no brace, so each operation does the same to both documents,
unless it looks for a sentinel that ends in a newline.

* `Document.Padded`: the two documents, where they differ.
* `Operation.apply_padded`: an operation keeps to this relation, or fails alike on both.
* `run_reloaded`: a run that goes on with either document.
-/

namespace LinePatch

open Text (IsRawLines IsTerminated content)

/-! ## Documents with an empty last line -/

namespace Document

/-- The second document is the first one with an empty line behind its last, which is terminated. -/
structure Padded (d d' : Document) : Prop where
  isRawLines : IsRawLines d'.rawLines
  rawLines_eq : d'.rawLines = d.rawLines ++ [[]]

/-- Without its empty line a document is read from its text. -/
theorem padded_ofText_toText {d : Document} (hd : IsRawLines d.rawLines) (h : [] ∈ d.rawLines) :
    (ofText d.toText).Padded d := by
  obtain ⟨pre, post, hraw⟩ := List.append_of_mem h
  have hpost : post = [] := by
    by_contra hne
    rw [hraw] at hd
    exact (hd.right.head hne).ne_nil rfl
  rw [hpost] at hraw
  refine ⟨hd, ?_⟩
  rw [hraw] at hd
  have hpre := hd.left
  rw [ofText, toText, hraw, List.flatten_append, List.flatten_singleton, List.append_nil,
    Text.rawLines_flatten (Text.isRawLines_of_isTerminated hpre)
      fun hmem => (hpre [] hmem).ne_nil rfl]

namespace Padded

variable {d d' : Document} (h : d.Padded d')

include h

theorem toText_eq : d'.toText = d.toText := by
  simp [toText, h.rawLines_eq]

theorem length_eq : d'.length = d.length + 1 := by
  simp [length, h.rawLines_eq]

theorem lines_eq : d'.lines = d.lines ++ [[]] := by
  rw [lines, h.rawLines_eq, List.map_append]
  rfl

theorem rawLine?_eq {i : Nat} (hi : i < d.length) : d'.rawLine? i = d.rawLine? i := by
  rw [rawLine?, h.rawLines_eq, List.getElem?_append_left hi, rawLine?]

theorem terminator_eq {i : Nat} (hi : i < d.length) : d'.terminator i = d.terminator i := by
  rw [terminator, h.rawLine?_eq hi, terminator]

theorem endingAt_eq {i : Nat} (hi : i < d.length) : d'.endingAt i = d.endingAt i := by
  have hending : d'.lineEnding = d.lineEnding := by
    simp [lineEnding, h.rawLines_eq, List.find?_append, Text.terminator]
  rw [endingAt, h.terminator_eq hi, hending, endingAt]

/-! ### Searches -/

/-- An empty line holds no pattern. -/
theorem lineContains_iff {pattern : Text} (hne : pattern ≠ []) {i : Nat} :
    d'.LineContains pattern i ↔ d.LineContains pattern i := by
  unfold LineContains
  rw [h.lines_eq, List.getElem?_append]
  split
  · rfl
  · rename_i hi
    rw [List.getElem?_eq_none (Nat.le_of_not_lt hi)]
    constructor
    · rintro ⟨l, hl, hin⟩
      have hl : l = [] := List.mem_singleton.mp (List.mem_of_getElem? hl)
      rw [hl] at hin
      exact absurd (List.infix_nil.mp hin) hne
    · rintro ⟨l, hl, -⟩
      cases hl

theorem locateFrom_eq (pattern : Text) (start : Nat) :
    d'.locateFrom pattern start = d.locateFrom pattern start := by
  apply Option.ext
  intro k
  simp only [locateFrom_eq_some_iff]
  refine and_congr_right fun hne => ?_
  simp only [h.lineContains_iff hne]

omit h in
theorem nearestIn_append_nil {σ : Type} [LT σ] [DecidableRel (α := σ) (· < ·)] (score : Text → σ)
    (admits : σ → Bool) (best : Option (NearLine σ)) (i : Nat) (ls : List Text) :
    nearestIn score admits best i (ls ++ [[]]) = nearestIn score admits best i ls := by
  induction ls generalizing best i with
  | nil => rfl
  | cons l ls ih => simp only [List.cons_append, nearestIn, ih]

theorem nearest_eq (pattern : Text) : d'.nearest pattern = d.nearest pattern := by
  simp only [nearest, nearestBy, h.lines_eq, nearestIn_append_nil]

/-- A needle that ends in no newline takes no part in an empty last line. -/
theorem contains_eq {s : Text} (hs : s.getLast? ≠ some '\n') : d'.contains s = d.contains s := by
  rw [Bool.eq_iff_iff]
  by_cases hmem : '\n' ∈ s
  · rw [contains_iff_of_mem hmem, contains_iff_of_mem hmem, h.lines_eq]
    by_cases hnil : d.lines = []
    · rw [hnil]
      rfl
    · rw [joinLines_append hnil (by simp), joinLines, List.infix_concat_iff,
        List.suffix_concat_iff]
      refine or_iff_right ?_
      rintro (hs' | ⟨u, hu, -⟩)
      · rw [Text.unifyNewlines_eq_nil_iff.mp hs'] at hmem
        cases hmem
      · rw [← Text.getLast?_unifyNewlines, hu, List.getLast?_concat] at hs
        exact hs rfl
  · rw [contains_iff_of_not_mem hmem, contains_iff_of_not_mem hmem, h.rawLines_eq]
    refine and_congr_right fun hne => ?_
    have hempty : ¬ s <:+: content [] := fun hin => hne (List.infix_nil.mp hin)
    simp only [List.mem_append, List.mem_singleton, or_and_right, exists_or, exists_eq_left, hempty,
      or_false]

theorem sliceText?_eq {start stop : Nat} (hstop : stop ≤ d.length) :
    d'.sliceText? start stop = d.sliceText? start stop := by
  apply Option.ext
  intro text
  have hstop' : stop ≤ d'.length := by
    rw [h.length_eq]
    omega
  rw [sliceText?_eq_some_iff, sliceText?_eq_some_iff]
  refine and_congr_right fun hle => ?_
  have hdrop : start ≤ d.rawLines.length := Nat.le_trans hle hstop
  rw [h.rawLines_eq, List.drop_append_of_le_length hdrop, List.take_append_of_le_length]
  · simp only [hstop, hstop', true_and]
  · rw [List.length_drop]
    unfold length at hstop
    omega

/-! ### Blocks -/

theorem lastLoneBrace_eq (first upper : Nat) :
    Boundary.lastLoneBrace d' first upper = Boundary.lastLoneBrace d first upper := by
  have hline : ∀ i,
      (d'.line? i).any Boundary.isLoneBrace = (d.line? i).any Boundary.isLoneBrace := by
    intro i
    rw [line?, h.lines_eq, List.getElem?_append, line?]
    split
    · rfl
    · rename_i hi
      rw [List.getElem?_eq_none (Nat.le_of_not_lt hi), List.getElem?_singleton]
      split <;> rfl
  simp only [Boundary.lastLoneBrace, hline]

theorem blockEnd_nextMarker_eq (marker : Text) (first : Nat) :
    (Boundary.nextMarker marker).blockEnd d' first =
      (Boundary.nextMarker marker).blockEnd d first := by
  simp only [Boundary.nextMarker, Boundary.upperBound, h.locateFrom_eq, h.lastLoneBrace_eq]
  split
  · rfl
  · rename_i upper hupper
    split
    · rfl
    · rename_i last hlast
      have hlt := (locateFrom_eq_some_iff.mp hupper).2.2.1.lt_length
      obtain ⟨hgt, hlast, -⟩ := Boundary.lastLoneBrace_eq_some_iff.mp hlast
      have hbounds : first ≤ last + 1 ∧ last + 1 ≤ d.length := by omega
      have htext := sliceText?_eq_some_iff.mpr ⟨hbounds.1, hbounds.2, rfl⟩
      rw [h.sliceText?_eq hbounds.2, htext]

omit h in
/-- An empty line closes nothing. -/
theorem closingLine_append_nil {n : Nesting} (hunder : n.underflowed = false)
    (hclosed : n.closed = false) (i : Nat) (ls : List Text) :
    Boundary.closingLine n i (ls ++ [[]]) = Boundary.closingLine n i ls := by
  induction ls generalizing n i with
  | nil =>
    have hunder' : (n.line []).underflowed = false := by rw [n.line_nil]; exact hunder
    have hclosed' : (n.line []).closed = false := by rw [n.line_nil]; exact hclosed
    have hopened' : (n.line []).opened = n.opened := by rw [n.line_nil]
    simp only [List.nil_append, Boundary.closingLine, hunder', hclosed', hopened',
      Bool.false_eq_true, ↓reduceIte]
  | cons l ls ih =>
    simp only [List.cons_append, Boundary.closingLine]
    split
    · rfl
    · split
      · rfl
      · rename_i hunder hclosed
        exact ih (by simpa using hunder) (by simpa using hclosed) (i + 1)

theorem blockEnd_braceDepth_eq {first : Nat} (hfirst : first ≤ d.length) :
    Boundary.braceDepth.blockEnd d' first = Boundary.braceDepth.blockEnd d first := by
  rw [← length_lines] at hfirst
  simp only [Boundary.braceDepth, h.lines_eq, List.drop_append_of_le_length hfirst]
  exact closingLine_append_nil rfl rfl _ _

theorem extract_eq {kind : Boundary.Kind} {marker : Option Text} {boundary : Boundary}
    (hb : kind.boundary? marker = some boundary) (declaration : Text) :
    d'.extract declaration boundary = d.extract declaration boundary := by
  unfold extract locate
  rw [h.locateFrom_eq]
  cases hl : d.locateFrom declaration 0 with
  | none => rfl
  | some first =>
    have hend : boundary.blockEnd d' first = boundary.blockEnd d first := by
      rcases Boundary.Kind.boundary?_eq_some hb with ⟨m, -, -, -, rfl⟩ | ⟨-, rfl⟩
      · exact h.blockEnd_nextMarker_eq m first
      · exact h.blockEnd_braceDepth_eq (Nat.le_of_lt (lt_length_of_locate hl))
    simp only [hend]
    cases hlast : boundary.blockEnd d first with
    | error reason => rfl
    | ok last =>
      have hlt := Boundary.Kind.lt_length_of_blockEnd hb hlast
      have hlt' : last < d'.length := by
        rw [h.length_eq]
        omega
      simp only [if_neg (Nat.not_le_of_lt hlt), if_neg (Nat.not_le_of_lt hlt')]

/-! ### Edits -/

theorem inserted {line : Nat} (hline : line < d.length) (snippet : Text) (placement : Placement) :
    (d.inserted line snippet placement).Padded (d'.inserted line snippet placement) := by
  have hline' : line < d'.length := by
    rw [h.length_eq]
    omega
  refine ⟨isRawLines_inserted h.isRawLines hline' snippet placement, ?_⟩
  have hending := h.endingAt_eq hline
  have hterminated : ∀ l ∈ d.rawLines, IsTerminated l := by
    have hd' := h.isRawLines
    rw [h.rawLines_eq] at hd'
    exact hd'.left
  obtain ⟨pre, raw, post, hraw, rfl⟩ := exists_rawLines_eq hline
  have hraw' : d'.rawLines = pre ++ raw :: (post ++ [[]]) := by
    rw [h.rawLines_eq, hraw, List.append_assoc, List.cons_append]
  cases placement with
  | before =>
    rw [rawLines_inserted_before hraw, rawLines_inserted_before hraw', hending]
    simp only [List.append_assoc, List.cons_append]
  | after =>
    have hne : Text.terminator raw ≠ [] := (hterminated raw (by simp [hraw])).isEnding.ne_nil
    rw [rawLines_inserted_after hraw hne, rawLines_inserted_after hraw' hne, hending]
    simp only [List.append_assoc]

theorem rawLines_splice_eq {start stop : Nat} (hle : start ≤ stop) (hstop : stop ≤ d.length)
    (new : List Text) :
    (d'.splice start stop new).rawLines = (d.splice start stop new).rawLines ++ [[]] := by
  have hstart : start ≤ d.rawLines.length := Nat.le_trans hle hstop
  simp only [splice, h.rawLines_eq, List.take_append_of_le_length hstart,
    List.drop_append_of_le_length hstop, List.append_assoc]

end Padded

end Document

/-! ## Operations -/

section Operations

variable {d d' : Document}

theorem SnippetInsertion.apply_padded (h : d.Padded d') {i : SnippetInsertion}
    (hs : ∀ s, i.effectiveSentinel = some s → s.getLast? ≠ some '\n') :
    Alike Document.Padded (i.apply d) (i.apply d') :=
  apply_alike h (fun s hs' => h.contains_eq (hs s hs')) (h.locateFrom_eq _ _) (h.nearest_eq _)
    fun _ hlt => h.inserted hlt _ _

namespace BlockReplacement

variable {r : BlockReplacement} {block : Block}

theorem newLines_padded (h : d.Padded d') (ht : r.target d = .ok block) :
    r.newLines d' block.last = r.newLines d block.last := by
  have hlt := last_lt_of_target ht
  rw [newLines, newLines, h.endingAt_eq hlt, h.terminator_eq hlt]

theorem text?_padded (h : d.Padded d') (ht : r.target d = .ok block) :
    block.text? d' = block.text? d := h.sliceText?_eq (last_lt_of_target ht)

theorem apply_padded (h : d.Padded d') (r : BlockReplacement) :
    Alike Document.Padded (r.apply d) (r.apply d') := by
  have htarget : r.target d' = r.target d :=
    target_congr (fun _ hb => h.extract_eq hb _) h.nearest_eq
  have htext : ∀ block current current', r.target d = .ok block → block.text? d = some current →
      block.text? d' = some current' → current' = current := fun block current current' ht hc hc' =>
    Option.some.inj (hc'.symm.trans ((text?_padded h ht).trans hc))
  refine apply_alike h htarget (fun block current current' ht hc hc' => ?_)
    (fun guard block current current' _ ht hc hc' => ?_) fun block ht => ?_
  · rw [htext block current current' ht hc hc', newLines_padded h ht]
  · rw [htext block current current' ht hc hc']
    exact ⟨rfl, rfl⟩
  · refine ⟨(rawLines_splice h.isRawLines (htarget.trans ht)).1, ?_⟩
    rw [newLines_padded h ht]
    exact h.rawLines_splice_eq (Nat.le_succ_of_le block.first_le_last) (last_lt_of_target ht) _

end BlockReplacement

/-- An operation does the same to both documents, if it looks for no sentinel that ends in a
newline. -/
theorem Operation.apply_padded (h : d.Padded d') {op : Operation}
    (hs : ∀ s, op.sentinel = some s → s.getLast? ≠ some '\n') :
    Alike Document.Padded (op.apply d) (op.apply d') := by
  cases op with
  | insert i => exact SnippetInsertion.apply_padded h hs
  | replace r => exact BlockReplacement.apply_padded h r

end Operations

/-! ## Runs -/

/-- **The working copy and its written form.** A run leaves raw lines in its working copy. They are
read from its text as they are unless some operation left an empty line that no terminator shows. A
run that goes on with the document from the text then does what it does with the working copy; and
also with such a line, if it looks for no sentinel that ends in a newline. -/
theorem run_reloaded (t : Text) (ops : List Operation) (r : RunResult)
    (h : run ops (.ofText t) = .ok r) :
    IsRawLines r.document.rawLines ∧
      (Document.ofText r.document.toText = r.document ↔ ¬ LeavesEmptyLine ops (.ofText t)) ∧
      ∀ more : List Operation,
        (LeavesEmptyLine ops (.ofText t) →
          ∀ op ∈ more, ∀ s, op.sentinel = some s → s.getLast? ≠ some '\n') →
        (∃ direct reloaded, run more r.document = .ok direct ∧
          run more (.ofText r.document.toText) = .ok reloaded ∧
          reloaded.report = direct.report ∧
          reloaded.document.toText = direct.document.toText) ∨
        ∃ f, run more r.document = .error f ∧
          run more (.ofText r.document.toText) = .error f := by
  obtain ⟨hd, hne⟩ := Text.isRawLines_rawLines t
  obtain ⟨hraw, hiff⟩ := rawLines_of_runFrom hd h
  have hiff : [] ∈ r.document.rawLines ↔ LeavesEmptyLine ops (.ofText t) :=
    hiff.trans (or_iff_right hne)
  have hread : Document.ofText r.document.toText = r.document ↔
      ¬ LeavesEmptyLine ops (.ofText t) := by
    rw [Document.ofText_toText_eq_iff, hiff, and_iff_right hraw]
  refine ⟨hraw, hread, fun more hmore => ?_⟩
  by_cases hleaves : LeavesEmptyLine ops (.ofText t)
  · have hpadded := Document.padded_ofText_toText hraw (hiff.mpr hleaves)
    have hstep : ∀ op ∈ more, ∀ d d', d.Padded d' →
        Alike Document.Padded (op.apply d) (op.apply d') := fun op hop d d' h =>
      op.apply_padded h (hmore hleaves op hop)
    rcases runFrom_alike hstep hpadded 0 with ⟨reloaded, direct, hreloaded, hdirect, hreport, hd⟩ |
      ⟨f, hreloaded, hdirect⟩
    · exact .inl ⟨direct, reloaded, hdirect, hreloaded, hreport.symm, hd.toText_eq.symm⟩
    · exact .inr ⟨f, hdirect, hreloaded⟩
  · rw [hread.mpr hleaves]
    cases hrun : run more r.document with
    | ok direct => exact .inl ⟨direct, direct, rfl, rfl, rfl, rfl⟩
    | error f => exact .inr ⟨f, rfl, rfl⟩

/-- A snippet that ends in an empty line goes behind a line without terminator. The run goes on with
an insertion that looks for no newline. -/
theorem run_reloaded_empty_line :
    let t := "x".toList
    let ops : List Operation :=
      [.insert { placement := .after, anchor := "x".toList, snippet := "b\n\n".toList }]
    let more : List Operation :=
      [.insert { placement := .before, anchor := "b".toList, snippet := "c\n".toList }]
    let r : RunResult :=
      ⟨⟨["x\n".toList, "b\n".toList, []]⟩, [⟨0, "insert_after", .inserted 1 2⟩]⟩
    run ops (.ofText t) = .ok r ∧ IsRawLines r.document.rawLines ∧
      LeavesEmptyLine ops (.ofText t) ∧
      ∃ direct reloaded, run more r.document = .ok direct ∧
        run more (.ofText r.document.toText) = .ok reloaded ∧
        reloaded.report = direct.report ∧
        reloaded.document.toText = direct.document.toText := by
  intro t ops more r
  have h : run ops (.ofText t) = .ok r := by rfl
  obtain ⟨hraw, hiff, hmore⟩ := run_reloaded t ops r h
  have hleaves : LeavesEmptyLine ops (.ofText t) := by
    by_contra hno
    exact absurd (hiff.mpr hno) (by decide)
  have hsentinel : ∀ op ∈ more, ∀ s, op.sentinel = some s → s.getLast? ≠ some '\n' := by
    intro op hop s hs
    cases List.mem_singleton.mp hop
    cases hs
    decide
  rcases hmore more fun _ => hsentinel with hok | ⟨f, hf, -⟩
  · exact ⟨h, hraw, hleaves, hok⟩
  · cases hf

/-- The empty line does not show in the text, and it makes a difference to a sentinel that ends in a
newline: the working copy holds it, and the document that is read again does not. -/
theorem empty_line_lost :
    let t := "x".toList
    let ops : List Operation :=
      [.insert { placement := .after, anchor := "x".toList, snippet := "b\n\n".toList }]
    let more : List Operation :=
      [.insert { placement := .before, anchor := "x".toList, snippet := "b\n".toList,
                 sentinel := some "b\n".toList }]
    let r : RunResult :=
      ⟨⟨["x\n".toList, "b\n".toList, []]⟩, [⟨0, "insert_after", .inserted 1 2⟩]⟩
    issues ops = [] ∧ issues more = [] ∧ run ops (.ofText t) = .ok r ∧
      Document.ofText r.document.toText ≠ r.document ∧
      run more r.document = .ok ⟨r.document, [⟨0, "insert_before", .alreadyApplied⟩]⟩ ∧
      run more (.ofText r.document.toText) =
        .ok ⟨⟨["b\n".toList, "x\n".toList, "b\n".toList]⟩,
          [⟨0, "insert_before", .inserted 0 1⟩]⟩ := by
  exact ⟨by rfl, by rfl, by rfl, by decide, by rfl, by rfl⟩

end LinePatch
