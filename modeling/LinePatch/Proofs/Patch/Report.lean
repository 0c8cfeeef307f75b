import LinePatch.Proofs.Patch.Effect
import Mathlib.Algebra.Ring.Int.Defs

/-!
# Reports

The report of a run says what became of the document: by how many lines it grew, and whether any of
its text can be gone. Each status counts the lines of a snippet or a replacement and not those of
the edit, which may write a line of the document again.

* `Operation.apply_accounts`: the status of a step against the documents around it.
* `run_accounts`: the report of a run against the documents around it.
-/

namespace LinePatch

/-- By how many lines a document is longer after a step with this status. -/
def Status.growth : Status → Int
  | .inserted _ count => count
  | .replaced block count => count - block.length
  | .alreadyApplied => 0

/-- A status says how the document `d'` came from `d`. -/
structure Status.Accounts (status : Status) (d d' : Document) : Prop where
  length : (d'.length : Int) = d.length + status.growth
  unchanged : status = .alreadyApplied → d' = d
  /-- Only a replacement takes characters away. -/
  keeps : (∀ block count, status ≠ .replaced block count) → d.toText.Sublist d'.toText

theorem Status.Accounts.alreadyApplied (d : Document) : Status.alreadyApplied.Accounts d d where
  length := (Int.add_zero _).symm
  unchanged _ := rfl
  keeps _ := List.Sublist.refl _

/-! ## One step -/

section Step

variable {d d' : Document} {status : Status}

theorem SnippetInsertion.apply_accounts {i : SnippetInsertion} (h : i.apply d = .ok (status, d')) :
    status.Accounts d d' := by
  have hresult := i.apply_result d
  rw [h] at hresult
  cases hresult with
  | present => exact .alreadyApplied d
  | @inserted s line hs hc ha =>
    have hlt := Document.lt_length_of_locate ha
    refine ⟨?_, nofun, fun _ => Document.toText_sublist_inserted hlt _ _⟩
    rw [Document.length_inserted hlt, Int.natCast_add]
    rfl

theorem BlockReplacement.apply_accounts {r : BlockReplacement} (h : r.apply d = .ok (status, d')) :
    status.Accounts d d' := by
  have hresult := r.apply_result d
  rw [h] at hresult
  cases hresult with
  | same => exact .alreadyApplied d
  | @replaced block guard current ht =>
    refine ⟨?_, nofun, fun hkeeps => absurd rfl (hkeeps _ _)⟩
    -- The block is inside the document, so its lines can be counted off.
    have hle := block.first_le_last
    have hlt := last_lt_of_target ht
    have hlength :=
      d.length_splice (show block.first ≤ block.stop from Nat.le_succ_of_le hle) hlt
        (r.newLines d block.last)
    simp only [Status.growth, Block.length, Block.stop] at hlength ⊢
    omega

/-- The status of an operation accounts for the document after it. -/
theorem Operation.apply_accounts {op : Operation} (h : op.apply d = .ok (status, d')) :
    status.Accounts d d' := by
  cases op with
  | insert i => exact i.apply_accounts h
  | replace r => exact r.apply_accounts h

end Step

/-! ## Runs -/

/-- The report of a run, the first operation of which has a given index, accounts for the document
after it. -/
theorem runFrom_accounts {ops : List Operation} {k : Nat} {d : Document} {r : RunResult}
    (h : runFrom k ops d = .ok r) :
    r.report.map (fun e => (e.index, e.kindName)) =
        ops.mapIdx (fun i op => (k + i, op.kindName)) ∧
      (r.document.length : Int) = d.length + (r.report.map (·.status.growth)).sum ∧
      ((∀ e ∈ r.report, e.status = .alreadyApplied) → r.document = d) ∧
      ((∀ e ∈ r.report, ∀ block count, e.status ≠ .replaced block count) →
        d.toText.Sublist r.document.toText) := by
  induction ops generalizing k d r with
  | nil =>
    cases h
    exact ⟨rfl, (Int.add_zero _).symm, fun _ => rfl, fun _ => List.Sublist.refl _⟩
  | cons op ops ih =>
    obtain ⟨status, d', rest, hop, hrest, rfl⟩ := runFrom_cons_eq_ok_iff.mp h
    have hstep := op.apply_accounts hop
    obtain ⟨hindex, hlength, hsame, hkeeps⟩ := ih hrest
    refine ⟨?_, ?_, fun hall => ?_, fun hall => ?_⟩
    · rw [List.map_cons, hindex, List.mapIdx_cons]
      simp only [Nat.add_zero, Nat.add_assoc, Nat.add_comm 1]
    · rw [List.map_cons, List.sum_cons, hlength, hstep.length]
      exact Int.add_assoc _ _ _
    · obtain ⟨hfirst, hall⟩ := List.forall_mem_cons.mp hall
      exact (hsame hall).trans (hstep.unchanged hfirst)
    · obtain ⟨hfirst, hall⟩ := List.forall_mem_cons.mp hall
      exact (hstep.keeps hfirst).trans (hkeeps hall)

/-- **The report of a run accounts for the document.** It has an entry for each operation, in their
order. The lines it reports are the lines that came and went, on any document; what it reports no
change for is unchanged, and where no block was replaced all characters of the document are still
there, in their order. -/
theorem run_accounts (ops : List Operation) (d : Document) (r : RunResult)
    (h : run ops d = .ok r) :
    r.report.map (fun e => (e.index, e.kindName)) = ops.mapIdx (fun i op => (i, op.kindName)) ∧
      (r.document.length : Int) = d.length + (r.report.map (·.status.growth)).sum ∧
      ((∀ e ∈ r.report, e.status = .alreadyApplied) → r.document = d) ∧
      ((∀ e ∈ r.report, ∀ block count, e.status ≠ .replaced block count) →
        d.toText.Sublist r.document.toText) := by
  simpa only [Nat.zero_add] using runFrom_accounts h

/-- A line without terminator is written again with one, a block loses a line, and the sentinel of
the last insertion is there already. -/
theorem run_accounts_unterminated :
    let d : Document := .ofText "f\x7b\n\n\n\x7d\nx".toList
    let ops : List Operation :=
      [.insert { placement := .after, anchor := "x".toList, snippet := "a\nb\n".toList },
        .replace { declaration := "f".toList, kind := .braceDepth,
                   replacement := "f\x7b\n1\n\x7d".toList },
        .insert { placement := .before, anchor := "y".toList, snippet := "a".toList }]
    let r : RunResult :=
      ⟨⟨["f\x7b\n".toList, "1\n".toList, "\x7d\n".toList, "x\n".toList, "a\n".toList,
          "b".toList]⟩,
        [⟨0, "insert_after", .inserted 5 2⟩, ⟨1, "replace_block", .replaced ⟨0, 3, by decide⟩ 3⟩,
          ⟨2, "insert_before", .alreadyApplied⟩]⟩
    run ops d = .ok r ∧
      r.report.map (fun e => (e.index, e.kindName)) =
        [(0, "insert_after"), (1, "replace_block"), (2, "insert_before")] ∧
      (r.document.length : Int) = d.length + (2 + ((3 - 4) + 0)) := by
  intro d ops r
  have h : run ops d = .ok r := by rfl
  obtain ⟨hindex, hlength, -⟩ := run_accounts ops d r h
  exact ⟨h, hindex, hlength⟩

end LinePatch
