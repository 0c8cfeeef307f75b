import LinePatch.Command.Run
import LinePatch.Proofs.Files.Tree

/-!
# What commands change and report

A patch command gets through, or it ends with an exit code that is kept for failures. Applying a
patch and checking it go the same way up to there, so the exit code of one says what the other does.

* `Command.patches_or_failsWith`: the two ways in which a patch command can end.
* `Command.exitCode_eq_one_iff`, `Command.check_predicts_apply`: what the exit codes say.
* `Program.tree_cases`: what a command makes of a file tree.
* `Program.commits_apply`: an application with operations pending leaves its target with the
  document in it.
* `run_command`: all of it, for command lines on file trees.
-/

namespace LinePatch

/-! ## Exit codes of failures -/

theorem Failure.one_lt_exitCode (f : Failure) : 1 < f.exitCode := by
  cases f <;> simp [exitCode]

theorem FileFailure.one_lt_exitCode (f : FileFailure) : 1 < f.exitCode := by
  cases f with
  | unreadable path e => simp [exitCode]
  | run f => exact f.failure.one_lt_exitCode

theorem SpecError.one_lt_exitCode (e : SpecError) : 1 < e.exitCode := by
  cases e <;> simp [exitCode]

/-! ## Outputs -/

/-- The output is that of a failure: it commits nothing. -/
structure Output.FailsWith (o : Output) (code : Nat) : Prop where
  exitCode : o.exitCode = code
  outcome : o.outcome = none

/-- The output says that the file at a path is written. -/
def Output.Commits (o : Output) (path : Text) : Prop :=
  ∃ outcome, o.outcome = some outcome ∧ outcome.path = path ∧ outcome.written = true

theorem RunResult.changed_eq_true_iff {r : RunResult} :
    r.changed = true ↔ ∃ e ∈ r.report, e.status ≠ .alreadyApplied := by
  simp [changed, ReportEntry.isApplied]

theorem RunResult.appliedCount_eq_zero_iff {r : RunResult} :
    r.appliedCount = 0 ↔ r.changed = false := by
  simp [appliedCount, changed]

namespace Command

/-! ## Patch commands -/

/-- The specification of a source is found with its target, the target reads as `t`, and all its
operations succeed on that, with `r`. -/
structure Patches (read : Text → Except FileError Text) (source : SpecSource) (asked : Option Text)
    (target t : Text) (r : RunResult) : Prop where
  exists_spec : ∃ spec, resolve read source asked = .ok (spec, target) ∧
    LinePatch.run spec.operations (.ofText t) = .ok r
  read_eq : read target = .ok t

/-- Applying the patch of a source and checking it fail alike. -/
structure FailsWith (read : Text → Except FileError Text) (source : SpecSource)
    (asked : Option Text) (code : Nat) : Prop where
  one_lt : 1 < code
  check : ((check asked source).run read).FailsWith code
  apply : ∀ dryRun diff, ((apply asked source dryRun diff).run read).FailsWith code

variable {read : Text → Except FileError Text} {source : SpecSource} {asked : Option Text}
  {target t : Text} {r : RunResult}

/-- A patch gets through, or it fails. -/
theorem patches_or_failsWith (read : Text → Except FileError Text) (source : SpecSource)
    (asked : Option Text) :
    (∃ target t r, Patches read source asked target t r) ∨
      ∃ code, FailsWith read source asked code := by
  cases hresolve : resolve read source asked with
  | error e =>
    refine .inr ⟨e.exitCode, e.one_lt_exitCode, ?_, fun dryRun diff => ?_⟩ <;>
      simp only [run, hresolve] <;> exact ⟨rfl, rfl⟩
  | ok resolved =>
    obtain ⟨spec, target⟩ := resolved
    cases hread : read target with
    | error e =>
      have hfails := (FileFailure.unreadable target e).one_lt_exitCode
      refine .inr ⟨_, hfails, ?_, fun dryRun diff => ?_⟩ <;>
        simp only [run, hresolve, runCheck, runApply, patchFile, hread] <;> exact ⟨rfl, rfl⟩
    | ok t =>
      cases hrun : LinePatch.run spec.operations (.ofText t) with
      | error f =>
        have hfails := (FileFailure.run f).one_lt_exitCode
        refine .inr ⟨_, hfails, ?_, fun dryRun diff => ?_⟩ <;>
          simp only [run, hresolve, runCheck, runApply, patchFile, hread, hrun] <;> exact ⟨rfl, rfl⟩
      | ok r => exact .inl ⟨target, t, r, ⟨spec, hresolve, hrun⟩, hread⟩

namespace Patches

/-- Where a source resolves alike, the same patch gets through. -/
theorem of_resolve_eq (h : Patches read source asked target t r) {source' : SpecSource}
    {asked' : Option Text} (hresolve : resolve read source' asked' = resolve read source asked) :
    Patches read source' asked' target t r := by
  obtain ⟨⟨spec, hspec, hrun⟩, hread⟩ := h
  exact ⟨⟨spec, hresolve.trans hspec, hrun⟩, hread⟩

theorem target?_check (h : Patches read source asked target t r) :
    (check asked source).target? read = some target := by
  obtain ⟨spec, hresolve, -⟩ := h.exists_spec
  simp [target?, hresolve, Except.toOption]

theorem target?_apply (h : Patches read source asked target t r) (dryRun diff : Bool) :
    (apply asked source dryRun diff).target? read = some target := h.target?_check

theorem run_check (h : Patches read source asked target t r) :
    ((check asked source).run read).exitCode = (if r.changed then 1 else 0) ∧
      ((check asked source).run read).outcome = some ⟨target, t, r, false⟩ := by
  obtain ⟨spec, hresolve, hrun⟩ := h.exists_spec
  simp only [run, hresolve, runCheck, patchFile, h.read_eq, hrun,
    RunResult.appliedCount_eq_zero_iff]
  cases r.changed <;> exact ⟨rfl, rfl⟩

theorem run_apply (h : Patches read source asked target t r) (dryRun diff : Bool) :
    ((apply asked source dryRun diff).run read).exitCode = 0 ∧
      ((apply asked source dryRun diff).run read).outcome =
        some ⟨target, t, r, r.changed && !dryRun⟩ := by
  obtain ⟨spec, hresolve, hrun⟩ := h.exists_spec
  simp [run, hresolve, runApply, patchFile, h.read_eq, hrun]

/-- An application commits its target, and nothing else, if the patch changes something and this is
no dry run. -/
theorem commits_iff (h : Patches read source asked target t r) {dryRun diff : Bool} {path : Text} :
    ((apply asked source dryRun diff).run read).Commits path ↔
      path = target ∧ r.changed = true ∧ dryRun = false := by
  obtain ⟨-, houtcome⟩ := h.run_apply dryRun diff
  rw [Output.Commits, houtcome]
  constructor
  · rintro ⟨outcome, houtcome, rfl, hwritten⟩
    cases houtcome
    simpa using hwritten
  · rintro ⟨rfl, hchanged, rfl⟩
    exact ⟨_, rfl, rfl, by simp [hchanged]⟩

end Patches

/-- An extraction commits nothing, and never exits like a check with operations pending. -/
theorem run_extract (target declaration : Text) (marker : Option Text) (kind : Boundary.Kind)
    (showText : Bool) :
    ((extract target declaration marker kind showText).run read).outcome = none ∧
      ((extract target declaration marker kind showText).run read).exitCode ≠ 1 := by
  simp only [run, runExtract]
  split
  · exact ⟨rfl, by simp⟩
  · split
    · exact ⟨rfl, by simp⟩
    · split
      · rename_i failure _
        cases failure <;> exact ⟨rfl, by simp [extractFailure]⟩
      · exact ⟨rfl, by simp⟩

/-- The exit code 1 is that of a check that finds operations pending. -/
theorem exitCode_eq_one_iff {command : Command} :
    (command.run read).exitCode = 1 ↔
      ∃ asked source target t r, command = .check asked source ∧
        Patches read source asked target t r ∧ ∃ e ∈ r.report, e.status ≠ .alreadyApplied := by
  cases command with
  | apply asked source dryRun diff =>
    refine iff_of_false (fun hcode => ?_) (by simp)
    rcases patches_or_failsWith read source asked with ⟨target, t, r, h⟩ | ⟨code, h⟩
    · rw [(h.run_apply dryRun diff).1] at hcode
      cases hcode
    · rw [(h.apply dryRun diff).exitCode] at hcode
      exact absurd hcode (Nat.ne_of_gt h.one_lt)
  | check asked source =>
    constructor
    · intro hcode
      rcases patches_or_failsWith read source asked with ⟨target, t, r, h⟩ | ⟨code, h⟩
      · refine ⟨asked, source, target, t, r, rfl, h, RunResult.changed_eq_true_iff.mp ?_⟩
        rw [h.run_check.1] at hcode
        cases hchanged : r.changed with
        | true => rfl
        | false =>
          rw [hchanged] at hcode
          cases hcode
      · rw [h.check.exitCode] at hcode
        exact absurd hcode (Nat.ne_of_gt h.one_lt)
    · rintro ⟨asked, source, target, t, r, heq, h, hpending⟩
      cases heq
      rw [h.run_check.1, if_pos (RunResult.changed_eq_true_iff.mpr hpending)]
  | extract target declaration marker kind showText =>
    exact iff_of_false (run_extract target declaration marker kind showText).2 (by simp)

/-- A check says what an application of the same specification to the same target would do: nothing,
commit the target, or fail alike. -/
theorem check_predicts_apply {source' : SpecSource} {asked' : Option Text}
    (hresolve : resolve read source' asked' = resolve read source asked) (diff : Bool) :
    let o := (check asked source).run read
    let o' := (apply asked' source' false diff).run read
    (o.exitCode = 0 ↔ o'.exitCode = 0 ∧ ∀ path, ¬ o'.Commits path) ∧
      (o.exitCode = 1 ↔ o'.exitCode = 0 ∧
        ∃ target, (check asked source).target? read = some target ∧ o'.Commits target) ∧
      (1 < o.exitCode → o'.exitCode = o.exitCode) := by
  intro o o'
  have ho : o = (check asked' source').run read := by simp only [o, run, hresolve]
  have hsame : (check asked source).target? read = (check asked' source').target? read := by
    simp only [target?, hresolve]
  rcases patches_or_failsWith read source' asked' with ⟨target, t, r, h⟩ | ⟨code, h⟩
  · have hcheck : o.exitCode = if r.changed then 1 else 0 := ho ▸ h.run_check.1
    have happly : o'.exitCode = 0 := (h.run_apply false diff).1
    have hcommits : ∀ path, o'.Commits path ↔ path = target ∧ r.changed = true := fun path => by
      rw [h.commits_iff, and_iff_left rfl]
    simp only [hcheck, happly, hcommits, hsame, h.target?_check]
    cases hchanged : r.changed <;> simp
  · have hcode := h.one_lt
    have hcheck : o.exitCode = code := ho ▸ h.check.exitCode
    have happly : o'.exitCode = code := (h.apply false diff).exitCode
    rw [hcheck, happly]
    refine ⟨iff_of_false ?_ ?_, iff_of_false ?_ ?_, fun _ => rfl⟩ <;> omega

end Command

/-! ## Command lines -/

namespace Program

open Command

/-- A run of the program commits a text to the file at a path: its output says that the file is
written, and in the tree that it leaves the file reads as the text. -/
structure Commits (result : Output × FileTree) (path t : Text) : Prop where
  output : result.1.Commits path
  readText_eq : result.2.readText path = .ok t

variable {args : List Text} {tree : FileTree} {command : Command} {source : SpecSource}
  {asked : Option Text} {target t : Text} {r : RunResult} {dryRun diff : Bool}

theorem run_fst (tree : FileTree) (h : ofArguments args = .ok command) :
    (run args tree).1 = command.run tree.readText := by
  simp only [run, output, h]

theorem run_snd_of_none (h : ofArguments args = .ok command)
    (ho : (command.run tree.readText).outcome = none) : (run args tree).2 = tree := by
  simp only [run, output, h, ho]

theorem run_snd_of_some (h : ofArguments args = .ok command) {outcome : FileOutcome}
    (ho : (command.run tree.readText).outcome = some outcome) :
    (run args tree).2 = outcome.commit tree := by
  simp only [run, output, h, ho]

/-- Where the output says of no file that it is written, none is. -/
theorem run_snd_of_not_commits (h : ∀ path, ¬ (run args tree).1.Commits path) :
    (run args tree).2 = tree := by
  simp only [run] at h ⊢
  split
  · rfl
  · rename_i outcome ho
    have hwritten : ¬ outcome.written = true := fun hwritten =>
      h outcome.path ⟨outcome, ho, rfl, hwritten⟩
    rw [FileOutcome.commit, if_neg hwritten]

/-- An application that gets through writes its target, or it leaves the tree as it is. -/
theorem run_snd_apply (h : ofArguments args = .ok (.apply asked source dryRun diff))
    (hpatch : Patches tree.readText source asked target t r) :
    (run args tree).2 =
      if r.changed && !dryRun then tree.writeText target r.document.toText else tree :=
  run_snd_of_some h (hpatch.run_apply dryRun diff).2

/-- A command leaves the tree as it is, or it applies a patch that changes something. -/
theorem tree_cases (tree : FileTree) (h : ofArguments args = .ok command) :
    (run args tree).2 = tree ∨
      ∃ asked source diff target t r, command = .apply asked source false diff ∧
        Patches tree.readText source asked target t r ∧ r.changed = true ∧
        (run args tree).2 = tree.writeText target r.document.toText := by
  cases command with
  | check asked source =>
    left
    rcases patches_or_failsWith tree.readText source asked with
      ⟨target, t, r, hpatch⟩ | ⟨code, hfails⟩
    · exact run_snd_of_some h hpatch.run_check.2
    · exact run_snd_of_none h hfails.check.outcome
  | extract target declaration marker kind showText =>
    left
    exact run_snd_of_none h (run_extract target declaration marker kind showText).1
  | apply asked source dryRun diff =>
    rcases patches_or_failsWith tree.readText source asked with
      ⟨target, t, r, hpatch⟩ | ⟨code, hfails⟩
    · rw [run_snd_apply h hpatch]
      cases hwritten : (r.changed && !dryRun) with
      | false => exact .inl rfl
      | true =>
        obtain ⟨hchanged, hdry⟩ : r.changed = true ∧ dryRun = false := by simpa using hwritten
        subst hdry
        exact .inr ⟨asked, source, diff, target, t, r, rfl, hpatch, hchanged, rfl⟩
    · left
      exact run_snd_of_none h (hfails.apply dryRun diff).outcome

/-- Only the file at the place of the target can change. -/
theorem entry?_run (h : ofArguments args = .ok command) {names : List Text}
    (hne : FileTree.entry? (run args tree).2 names ≠ tree.entry? names) :
    ∃ target, command.target? tree.readText = some target ∧
      tree.place target = .ok (some names) := by
  rcases tree_cases tree h with htree | ⟨asked, source, diff, target, t, r, rfl, hpatch, -, htree⟩
  · rw [htree] at hne
    exact absurd rfl hne
  · rw [htree] at hne
    exact ⟨target, hpatch.target?_apply false diff, FileTree.entry?_writeText hne⟩

/-- An application with an operation pending exits with 0 and commits the document to its target. -/
theorem commits_apply (h : ofArguments args = .ok (.apply asked source false diff))
    (hpatch : Patches tree.readText source asked target t r)
    (hpending : ∃ e ∈ r.report, e.status ≠ .alreadyApplied) :
    (run args tree).1.exitCode = 0 ∧ Commits (run args tree) target r.document.toText := by
  have hchanged : r.changed = true := RunResult.changed_eq_true_iff.mpr hpending
  have htree : (run args tree).2 = tree.writeText target r.document.toText := by
    rw [run_snd_apply h hpatch, hchanged]
    rfl
  refine ⟨?_, ?_, ?_⟩
  · rw [run_fst tree h]
    exact (hpatch.run_apply false diff).1
  · rw [run_fst tree h]
    exact hpatch.commits_iff.mpr ⟨rfl, hchanged, rfl⟩
  · rw [htree]
    exact FileTree.readText_writeText hpatch.read_eq _

/-- The bytes of the target change if a patch is applied that changes something. They are then those
of the document after it. -/
theorem read_run (h : ofArguments args = .ok command)
    (htarget : command.target? tree.readText = some target)
    (hne : (run args tree).2.read target ≠ tree.read target) :
    (run args tree).1.exitCode = 0 ∧ ∃ asked source diff t r,
      command = .apply asked source false diff ∧
      Patches tree.readText source asked target t r ∧
      (∃ e ∈ r.report, e.status ≠ .alreadyApplied) ∧
      (run args tree).2.read target = .ok (Text.utf8 r.document.toText) := by
  rcases tree_cases tree h with
    htree | ⟨asked, source, diff, target', t, r, rfl, hpatch, hchanged, -⟩
  · rw [htree] at hne
    exact absurd rfl hne
  · cases (hpatch.target?_apply false diff).symm.trans htarget
    have hpending := RunResult.changed_eq_true_iff.mp hchanged
    obtain ⟨hexit, hcommit⟩ := commits_apply h hpatch hpending
    exact ⟨hexit, asked, source, diff, t, r, rfl, hpatch, hpending,
      FileTree.readText_eq_ok_iff.mp hcommit.readText_eq⟩

/-- A check says what an application of the same specification to the same target leaves: the tree
as it is, the target with the patched document in it, or the same failure. -/
theorem check_predicts_apply {args' : List Text} {source' : SpecSource} {asked' : Option Text}
    (h : ofArguments args = .ok (.check asked source))
    (h' : ofArguments args' = .ok (.apply asked' source' false diff))
    (hresolve : resolve tree.readText source' asked' = resolve tree.readText source asked) :
    let check := run args tree
    let apply := run args' tree
    (check.1.exitCode = 0 ↔
        apply.1.exitCode = 0 ∧ (∀ path, ¬ apply.1.Commits path) ∧ apply.2 = tree) ∧
      (check.1.exitCode = 1 ↔ apply.1.exitCode = 0 ∧ ∃ target t r,
        (Command.check asked source).target? tree.readText = some target ∧
        Patches tree.readText source asked target t r ∧
        Commits apply target r.document.toText) ∧
      (1 < check.1.exitCode → apply.1.exitCode = check.1.exitCode) := by
  intro check apply
  have hpredicts := Command.check_predicts_apply hresolve diff
  rw [← run_fst tree h, ← run_fst tree h'] at hpredicts
  obtain ⟨hnothing, hcommits, hfails⟩ := hpredicts
  refine ⟨?_, ?_, hfails⟩
  · constructor
    · intro hcode
      obtain ⟨hexit, hno⟩ := hnothing.mp hcode
      exact ⟨hexit, hno, run_snd_of_not_commits hno⟩
    · rintro ⟨hexit, hno, -⟩
      exact hnothing.mpr ⟨hexit, hno⟩
  · constructor
    · intro hcode
      rw [run_fst tree h, exitCode_eq_one_iff] at hcode
      obtain ⟨asked, source, target, t, r, heq, hpatch, hpending⟩ := hcode
      cases heq
      obtain ⟨hexit, hcommit⟩ := commits_apply h' (hpatch.of_resolve_eq hresolve) hpending
      exact ⟨hexit, target, t, r, hpatch.target?_check, hpatch, hcommit⟩
    · rintro ⟨hexit, target, t, r, htarget, -, hcommit⟩
      exact hcommits.mpr ⟨hexit, target, htarget, hcommit.output⟩

end Program

/-- **What a command changes, and what its exit code says.** Checks, extractions and dry runs change
nothing, and an application nothing but its target. The target changes only where the application
exits with 0 and an operation was not applied already, and then it holds the document. Wherever an
operation was not applied already, the application exits with 0 and leaves its target reading as the
document. The exit code 1 is that of a check with pending operations. The exit code of a check says
how an application of the same specification to the same target ends, and what it leaves. -/
theorem run_command (args : List Text) (tree : FileTree) (command : Command)
    (h : Command.ofArguments args = .ok command) :
    ((∀ asked source diff, command ≠ .apply asked source false diff) →
        (Program.run args tree).2 = tree) ∧
      (∀ names, FileTree.entry? (Program.run args tree).2 names ≠ tree.entry? names →
        ∃ target, command.target? tree.readText = some target ∧
          tree.place target = .ok (some names)) ∧
      (∀ target, command.target? tree.readText = some target →
        (Program.run args tree).2.read target ≠ tree.read target →
        (Program.run args tree).1.exitCode = 0 ∧ ∃ asked source diff t r,
          command = .apply asked source false diff ∧
          Command.Patches tree.readText source asked target t r ∧
          (∃ e ∈ r.report, e.status ≠ .alreadyApplied) ∧
          (Program.run args tree).2.read target = .ok (Text.utf8 r.document.toText)) ∧
      (∀ asked source diff target t r, command = .apply asked source false diff →
        Command.Patches tree.readText source asked target t r →
        (∃ e ∈ r.report, e.status ≠ .alreadyApplied) →
        (Program.run args tree).1.exitCode = 0 ∧
          Program.Commits (Program.run args tree) target r.document.toText) ∧
      ((Program.run args tree).1.exitCode = 1 ↔ ∃ asked source target t r,
        command = .check asked source ∧ Command.Patches tree.readText source asked target t r ∧
        ∃ e ∈ r.report, e.status ≠ .alreadyApplied) ∧
      ∀ asked source, command = .check asked source → ∀ asked' source' diff args',
        Command.ofArguments args' = .ok (.apply asked' source' false diff) →
        Command.resolve tree.readText source' asked' =
          Command.resolve tree.readText source asked →
        let check := Program.run args tree
        let apply := Program.run args' tree
        (check.1.exitCode = 0 ↔
            apply.1.exitCode = 0 ∧ (∀ path, ¬ apply.1.Commits path) ∧ apply.2 = tree) ∧
          (check.1.exitCode = 1 ↔ apply.1.exitCode = 0 ∧ ∃ target t r,
            command.target? tree.readText = some target ∧
            Command.Patches tree.readText source asked target t r ∧
            Program.Commits apply target r.document.toText) ∧
          (1 < check.1.exitCode → apply.1.exitCode = check.1.exitCode) := by
  refine ⟨fun hno => ?_, fun names => Program.entry?_run h, fun target => Program.read_run h, ?_,
    ?_, ?_⟩
  · rcases Program.tree_cases tree h with htree | ⟨asked, source, diff, target, t, r, heq, -⟩
    · exact htree
    · exact absurd heq (hno asked source diff)
  · rintro asked source diff target t r rfl hpatch hpending
    exact Program.commits_apply h hpatch hpending
  · rw [Program.run_fst tree h]
    exact Command.exitCode_eq_one_iff
  · rintro asked source rfl asked' source' diff args' h' hresolve
    exact Program.check_predicts_apply h h' hresolve

/-- A check finds an insertion pending, and the application commits it. -/
theorem run_command_insertion :
    let tree : FileTree := ⟨[(["a".toList], [120, 10]), (["b".toList], [121])]⟩
    let spec := "[\x7b\"kind\":\"insert_before\",\"anchor\":\"x\",\"snippet\":\"y\"\x7d]".toList
    let check := ["check".toList, "a".toList, "--inline".toList, spec]
    let apply := ["apply".toList, "a".toList, "--inline".toList, spec]
    (Program.run check tree).1.exitCode = 1 ∧ (Program.run check tree).2 = tree ∧
      (Program.run apply tree).2.read "a".toList ≠ tree.read "a".toList ∧
      (Program.run apply tree).1.exitCode = 0 ∧
      Program.Commits (Program.run apply tree) "a".toList "y\nx\n".toList := by
  intro tree spec check apply
  have hcheck : Command.ofArguments check = .ok (.check (some "a".toList) (.inline spec)) := by rfl
  have happly :
      Command.ofArguments apply = .ok (.apply (some "a".toList) (.inline spec) false false) := by
    rfl
  have htarget : (Command.apply (some "a".toList) (.inline spec) false false).target?
      tree.readText = some "a".toList := by decide +kernel
  have hbefore : (tree.read "a".toList).toOption = some [120, 10] := by decide +kernel
  have hcode : (Program.run check tree).1.exitCode = 1 := by decide +kernel
  have hafter : ((Program.run apply tree).2.readText "a".toList).toOption =
      some "y\nx\n".toList := by decide +kernel
  obtain ⟨hsame, -, -, -, hone, hpredicts⟩ := run_command check tree _ hcheck
  obtain ⟨-, -, -, hcommits, -⟩ := run_command apply tree _ happly
  have hexit := ((hpredicts _ _ rfl _ _ _ apply happly rfl).2.1.mp hcode).1
  obtain ⟨_, _, target, t, r, heq, hpatch, hpending⟩ := hone.mp hcode
  cases heq
  cases (hpatch.target?_apply false false).symm.trans htarget
  have hcommit := (hcommits _ _ _ _ t r rfl hpatch hpending).2
  have hdocument : r.document.toText = "y\nx\n".toList := by
    rw [hcommit.readText_eq] at hafter
    exact Option.some.inj hafter
  rw [hdocument] at hcommit
  refine ⟨hcode, hsame nofun, fun heq => ?_, hexit, hcommit⟩
  rw [← heq, FileTree.readText_eq_ok_iff.mp hcommit.readText_eq] at hbefore
  revert hbefore
  decide

end LinePatch
