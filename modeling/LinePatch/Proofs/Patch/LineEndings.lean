import LinePatch.Proofs.Document.Written
import LinePatch.Proofs.Patch.Alike

/-!
# Runs on either terminator

A document of plain lines can be written with `\n` or with `\r\n`. A run does the same to both: the
searches see nothing but the lines, new lines take the terminator of the lines beside them, and two
texts with one terminator are equal if their lines are.

* `Document.Mirrors`: two documents with the same plain lines and different terminators.
* `Operation.apply_mirrors`: an operation keeps to this relation, or fails alike on both.
* `run_crlf`: the same for runs on texts.
-/

namespace LinePatch

open Text (IsEnding IsPlain IsTerminated ReturnsBeforeNewlines crlf isEnding_newline
  isEnding_return_newline)

namespace Document

/-- The second document has the plain lines of the first, with `\r\n` for `\n`. -/
def Mirrors (d d' : Document) : Prop :=
  ∃ cs, (∀ c ∈ cs, IsPlain c) ∧ d = written ['\n'] cs ∧ d' = written ['\r', '\n'] cs

namespace Mirrors

variable {d d' : Document} {line : Nat}

theorem isTerminated (h : d.Mirrors d') :
    (∀ raw ∈ d.rawLines, IsTerminated raw) ∧ ∀ raw ∈ d'.rawLines, IsTerminated raw := by
  obtain ⟨cs, hcs, rfl, rfl⟩ := h
  exact ⟨isTerminated_written isEnding_newline hcs,
    isTerminated_written isEnding_return_newline hcs⟩

theorem lines_eq (h : d.Mirrors d') : d'.lines = d.lines := by
  obtain ⟨cs, hcs, rfl, rfl⟩ := h
  rw [lines_written isEnding_newline hcs, lines_written isEnding_return_newline hcs]

theorem toText_eq (h : d.Mirrors d') : d'.toText = crlf d.toText := by
  obtain ⟨cs, hcs, rfl, rfl⟩ := h
  exact (Text.crlf_flatten hcs).symm

/-- A text that has no carriage return and does not end inside a line, and the same text with
`\r\n`. -/
theorem ofText {t : Text} (hreturn : '\r' ∉ t) (hend : t = [] ∨ t.getLast? = some '\n') :
    (Document.ofText t).Mirrors (.ofText (crlf t)) := by
  obtain ⟨cs, hcs, rfl⟩ := Text.exists_isPlain hreturn hend
  refine ⟨cs, hcs, ofText_written isEnding_newline hcs, ?_⟩
  rw [Text.crlf_flatten hcs]
  exact ofText_written isEnding_return_newline hcs

theorem inserted (h : d.Mirrors d') (hlt : line < d.length) {snippet : Text}
    (hs : ReturnsBeforeNewlines snippet) (placement : Placement) :
    (d.inserted line snippet placement).Mirrors (d'.inserted line snippet placement) := by
  obtain ⟨cs, hcs, rfl, rfl⟩ := h
  rw [length_written] at hlt
  exact ⟨_, Text.isPlain_of_mem_spliced hcs fun c => Text.isPlain_of_mem_lines hs,
    inserted_written isEnding_newline hcs hlt snippet placement,
    inserted_written isEnding_return_newline hcs hlt snippet placement⟩

end Mirrors

end Document

/-! ## Operations -/

/-- An operation that looks at no terminator and brings none of its own: without verification, and
with each carriage return of its new lines in front of a newline. -/
def Operation.IsPortable : Operation → Prop
  | .insert i => ReturnsBeforeNewlines i.snippet
  | .replace r => ReturnsBeforeNewlines r.replacement ∧ r.verify = none

section Operations

variable {d d' : Document}

theorem SnippetInsertion.apply_mirrors (h : d.Mirrors d') {i : SnippetInsertion}
    (hsnippet : ReturnsBeforeNewlines i.snippet) :
    Alike Document.Mirrors (i.apply d) (i.apply d') :=
  apply_alike h (fun s _ => Document.contains_congr h.lines_eq s)
    (Document.locate_congr h.lines_eq _) (Document.nearest_congr h.lines_eq _)
    fun _ hlt => h.inserted hlt hsnippet _

namespace BlockReplacement

variable {r : BlockReplacement} {block : Block} {e : Text} {cs : List Text}

theorem newLines_written (he : IsEnding e) (hcs : ∀ c ∈ cs, IsPlain c) {last : Nat}
    (hlast : last < cs.length) :
    r.newLines (.written e cs) last = (Text.lines r.replacement).map (· ++ e) := by
  rw [newLines, Text.terminatedLines, Document.endingAt_written he hcs hlast,
    Document.terminator_written he hcs hlast, Text.terminate_self]

/-- A block holds the replacement already if it has the same lines. -/
theorem eq_newLines_written_iff (he : IsEnding e) (hcs : ∀ c ∈ cs, IsPlain c)
    (hr : ReturnsBeforeNewlines r.replacement) (hlast : block.last < cs.length) {current : Text}
    (htext : block.text? (.written e cs) = some current) :
    current = (r.newLines (.written e cs) block.last).flatten ↔
      (cs.drop block.first).take (block.stop - block.first) = Text.lines r.replacement := by
  have hle : block.first ≤ block.stop := Nat.le_succ_of_le block.first_le_last
  have hslice := Document.sliceText?_written hle (show block.stop ≤ cs.length from hlast) (e := e)
  cases htext.symm.trans hslice
  have hnew : (r.newLines (.written e cs) block.last).flatten =
      (Document.written e (Text.lines r.replacement)).toText := by
    rw [newLines_written he hcs hlast]
    rfl
  have hold : ∀ c ∈ (cs.drop block.first).take (block.stop - block.first), IsPlain c :=
    fun c hc => hcs c (List.mem_of_mem_drop (List.mem_of_mem_take hc))
  rw [hnew, Document.written_toText_inj he hold fun c => Text.isPlain_of_mem_lines hr]

theorem target_mirrors (h : d.Mirrors d') (r : BlockReplacement) : r.target d' = r.target d := by
  refine target_congr (fun boundary hb => ?_) (Document.nearest_congr h.lines_eq)
  exact extract_congr h.lines_eq h.isTerminated.1 h.isTerminated.2 hb _

theorem eq_newLines_mirrors (h : d.Mirrors d') (hr : ReturnsBeforeNewlines r.replacement)
    (ht : r.target d = .ok block) {current current' : Text} (htext : block.text? d = some current)
    (htext' : block.text? d' = some current') :
    current' = (r.newLines d' block.last).flatten ↔
      current = (r.newLines d block.last).flatten := by
  have hlast := last_lt_of_target ht
  obtain ⟨cs, hcs, rfl, rfl⟩ := h
  rw [Document.length_written] at hlast
  rw [eq_newLines_written_iff isEnding_return_newline hcs hr hlast htext',
    eq_newLines_written_iff isEnding_newline hcs hr hlast htext]

theorem splice_mirrors (h : d.Mirrors d') (hr : ReturnsBeforeNewlines r.replacement)
    (ht : r.target d = .ok block) :
    (d.splice block.first block.stop (r.newLines d block.last)).Mirrors
      (d'.splice block.first block.stop (r.newLines d' block.last)) := by
  have hlast := last_lt_of_target ht
  obtain ⟨cs, hcs, rfl, rfl⟩ := h
  rw [Document.length_written] at hlast
  rw [newLines_written isEnding_return_newline hcs hlast,
    newLines_written isEnding_newline hcs hlast]
  exact ⟨_, Text.isPlain_of_mem_spliced hcs fun c => Text.isPlain_of_mem_lines hr,
    Document.splice_written _ _ _, Document.splice_written _ _ _⟩

theorem apply_mirrors (h : d.Mirrors d') (hr : ReturnsBeforeNewlines r.replacement)
    (hv : r.verify = none) : Alike Document.Mirrors (r.apply d) (r.apply d') := by
  have hguard : r.guard = .ok none := by simp [guard, hv]
  refine apply_alike h (target_mirrors h r)
    (fun block current current' ht htext htext' => eq_newLines_mirrors h hr ht htext htext')
    (fun guard block current current' hg => ?_) fun block ht => splice_mirrors h hr ht
  cases hguard.symm.trans hg

end BlockReplacement

/-- An operation does the same to both documents. -/
theorem Operation.apply_mirrors (h : d.Mirrors d') {op : Operation} (hop : op.IsPortable) :
    Alike Document.Mirrors (op.apply d) (op.apply d') := by
  cases op with
  | insert i => exact SnippetInsertion.apply_mirrors h hop
  | replace r => exact BlockReplacement.apply_mirrors h hop.1 hop.2

end Operations

/-! ## Runs -/

/-- **Runs on either terminator.** A run on a text with `\n` and the run on the text with `\r\n`
succeed with the same report and with texts that differ in the same way, or fail alike. -/
theorem run_crlf (t : Text) (ops : List Operation) (hreturn : '\r' ∉ t)
    (hend : t = [] ∨ t.getLast? = some '\n') (hops : ∀ op ∈ ops, op.IsPortable) :
    (∃ r r', run ops (.ofText t) = .ok r ∧ run ops (.ofText (crlf t)) = .ok r' ∧
        r'.report = r.report ∧ r'.document.toText = crlf r.document.toText) ∨
      ∃ f, run ops (.ofText t) = .error f ∧ run ops (.ofText (crlf t)) = .error f := by
  have hmirrors := Document.Mirrors.ofText hreturn hend
  have hstep : ∀ op ∈ ops, ∀ d d', d.Mirrors d' →
      Alike Document.Mirrors (op.apply d) (op.apply d') := fun op hop d d' h =>
    op.apply_mirrors h (hops op hop)
  rcases runFrom_alike hstep hmirrors 0 with ⟨r, r', hrun, hrun', hreport, hdocument⟩ | hfail
  · exact .inl ⟨r, r', hrun, hrun', hreport, hdocument.toText_eq⟩
  · exact .inr hfail

/-- A snippet and a replacement with terminators of their own, and a sentinel of two lines. -/
theorem run_crlf_block :
    let t := "f\x7b\na\n\x7d\n#\n".toList
    let ops : List Operation :=
      [.insert { placement := .after, anchor := "a".toList, snippet := "x\r\ny".toList,
                 sentinel := some "x\r\ny".toList },
        .replace { declaration := "f".toList, marker := some "#".toList,
                   replacement := "f\x7b\r\n\x7d\n".toList }]
    let r : RunResult :=
      ⟨.ofText "f\x7b\n\x7d\n#\n".toList,
        [⟨0, "insert_after", .inserted 2 2⟩, ⟨1, "replace_block", .replaced ⟨0, 4, by decide⟩ 2⟩]⟩
    run ops (.ofText t) = .ok r ∧
      ∃ r', run ops (.ofText (crlf t)) = .ok r' ∧ r'.report = r.report ∧
        r'.document.toText = crlf r.document.toText := by
  intro t ops r
  have hops : ∀ op ∈ ops, op.IsPortable := by
    intro op hop
    rcases List.mem_cons.mp hop with rfl | hop
    · simp [Operation.IsPortable]
    · cases List.mem_singleton.mp hop
      simp [Operation.IsPortable]
  have h : run ops (.ofText t) = .ok r := by rfl
  rcases run_crlf t ops (by decide) (.inr (by rfl)) hops with ⟨r₀, r', h₀, h', hreport, htext⟩ |
    ⟨f, hf, -⟩
  · cases h.symm.trans h₀
    exact ⟨h, r', h', hreport, htext⟩
  · cases h.symm.trans hf

end LinePatch
