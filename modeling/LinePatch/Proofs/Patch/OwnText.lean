import LinePatch.Proofs.Block.Context
import LinePatch.Proofs.Block.Standalone
import LinePatch.Proofs.Patch.Effect
import LinePatch.Proofs.Text.Plain

/-!
# Blocks replaced by their own texts

A block that was extracted passes as its own replacement: on its own it is one whole block again,
and it is written as it was. For both, the lines must be read as they are and new lines be ended as
they are, so the document has to use one line ending throughout. The block must also be balanced,
which the brace-depth boundary does not ask for: it stops where the braces are closed, even if the
line goes on with a literal or a comment that is not.

* `Boundary.Kind.Delimits.isBalancedLines_iff`: the blocks that are balanced.
* `Document.HasBlock.spansWholeBlock`: a block of plain lines is one whole block on its own.
* `BlockReplacement.newLines_own`: a block is written again as it was.
* `run_own_text`: a block replaced by its own text.
-/

namespace LinePatch

open Text (IsPlain IsRawLines content terminator)

/-! ## A block on its own -/

namespace Boundary.Kind

variable {kind : Kind} {marker : Option Text} {inner deciding : List Text}

/-- A block ends where it does also if nothing follows but what the patch says of it. -/
theorem Delimits.standalone (h : kind.Delimits marker inner deciding) :
    kind.Delimits marker inner (kind.follower marker).toList := by
  cases h with
  | braceDepth hunder hclosed hfirst => exact .braceDepth hunder hclosed hfirst
  | @nextMarker marker head brace upper body gap hne hbrace hgap hno hupper hbalanced =>
    have hno' : ∀ c ∈ body ++ [brace], ¬ marker <:+: c := fun c hc => hno c (by
      rw [← List.singleton_append, ← List.append_assoc]
      exact List.mem_append_left gap hc)
    change Delimits .nextMarker _ _ ([] ++ [marker])
    exact .nextMarker hne hbrace (by simp) hno' (List.infix_refl marker) hbalanced

/-- The marker of a block is a part of one of the lines that decide. -/
theorem Delimits.infix_of_follower (h : kind.Delimits marker inner deciding) {m : Text}
    (hm : kind.follower marker = some m) : ∃ c ∈ deciding, m <:+: c := by
  cases h with
  | braceDepth => cases hm
  | @nextMarker _ _ _ upper _ gap _ _ _ _ hupper _ =>
    cases hm
    exact ⟨upper, by simp, hupper⟩

/-- A block is balanced, unless something else than a brace is open at its end. -/
theorem Delimits.isBalancedLines_iff (h : kind.Delimits marker inner deciding) :
    isBalancedLines inner = true ↔
      ¬ (kind = .braceDepth ∧ (Nesting.start.lines inner).inLiteral = true) := by
  cases h with
  | braceDepth hunder hclosed _ =>
    have hdepth : (Nesting.start.lines inner).depth = 0 := by
      simp only [Nesting.closed, Bool.and_eq_true, beq_iff_eq] at hclosed
      exact hclosed.2
    simp [isBalancedLines, hunder, hdepth]
  | nextMarker _ _ _ _ _ hbalanced =>
    refine iff_of_true hbalanced ?_
    rintro ⟨hkind, -⟩
    cases hkind

end Boundary.Kind

/-- A line behind a replacement is read as it is, if it is plain. -/
theorem map_content_followerLines {follower : Option Text}
    (h : ∀ m, follower = some m → IsPlain m) :
    (followerLines follower).map content = follower.toList := by
  cases follower with
  | none => rfl
  | some m =>
    have hm := h m rfl
    have hraw := Text.rawLines_append_newline hm.2 []
    rw [followerLines, hraw, List.map_cons, hm.content_append Text.isEnding_newline]
    rfl

section OwnText

variable {t declaration text : Text} {kind : Boundary.Kind} {marker : Option Text}
  {boundary : Boundary} {block : Block} {front inner deciding rest : List Text}

/-- The text of a block is made of raw lines of the document, which are found again in it. -/
theorem Document.HasBlock.exists_rawLines
    (h : (Document.ofText t).HasBlock declaration kind marker front inner deciding rest)
    (hfirst : block.first = front.length) (hstop : block.stop = front.length + inner.length) :
    ∃ pre raws post, Text.rawLines t = pre ++ raws ++ post ∧
      pre.length + raws.length = block.stop ∧ raws.map content = inner ∧
      block.text? (.ofText t) = some raws.flatten ∧ Text.rawLines raws.flatten = raws := by
  obtain ⟨hd, hne⟩ := Text.isRawLines_rawLines t
  have hlt : block.stop ≤ (Document.ofText t).length := by
    rw [← Document.length_lines, h.lines_eq, hstop]
    simp
  have hle : block.first ≤ block.stop := Nat.le_succ_of_le block.first_le_last
  obtain ⟨pre, raws, post, hraw, hpre, hmid⟩ := Document.exists_rawLines_eq_append hle hlt
  have hlines : pre.map content ++ raws.map content ++ post.map content =
      front ++ inner ++ (deciding ++ rest) := by
    rw [← h.lines_eq, Document.lines, hraw, List.map_append, List.map_append]
  obtain ⟨hlines, -⟩ := List.append_inj hlines (by simp; omega)
  obtain ⟨-, hinner⟩ := List.append_inj hlines (by simp; omega)
  have htext := Document.sliceText?_of_rawLines_eq pre raws post hraw
  rw [hmid, hpre] at htext
  have hraw' : Text.rawLines t = pre ++ raws ++ post := hraw
  rw [hraw', List.append_assoc] at hd
  have hmem : [] ∉ raws := fun hmem => hne (by simp [hraw', hmem])
  exact ⟨pre, raws, post, hraw', hmid, hinner, htext,
    Text.rawLines_flatten hd.right.of_append hmem⟩

/-- A block of plain lines spans the whole of its own text. -/
theorem Document.HasBlock.spansWholeBlock (hb : kind.boundary? marker = some boundary)
    (h : (Document.ofText t).HasBlock declaration kind marker front inner deciding rest)
    (hplain : ∀ c ∈ Text.lines t, IsPlain c) (hlines : Text.lines text = inner) :
    spansWholeBlock text declaration boundary (kind.follower marker) = true := by
  have hmem : ∀ c ∈ front ++ inner ++ (deciding ++ rest), IsPlain c := fun c hc =>
    hplain c (by rwa [← h.lines_eq] at hc)
  have hinner : ∀ c ∈ inner, IsPlain c := fun c hc => hmem c (by simp [hc])
  have hfollower : ∀ m, kind.follower marker = some m → IsPlain m := by
    intro m hm
    obtain ⟨c, hc, hin⟩ := h.delimits.infix_of_follower hm
    exact (hmem c (by simp [hc])).of_isInfix hin
  -- The document in which the text is judged.
  have hown : (standalone text (kind.follower marker)).lines =
      [] ++ inner ++ ((kind.follower marker).toList ++ []) := by
    have hcontents := Text.map_content_append hinner Text.isEnding_newline
    rw [List.map_map] at hcontents
    rw [lines_standalone, map_content_followerLines hfollower, hlines, List.append_nil]
    exact congrArg (· ++ _) hcontents
  have halone : (standalone text (kind.follower marker)).HasBlock declaration kind marker [] inner
      (kind.follower marker).toList [] :=
    ⟨hown, h.ne_nil, h.declared, by simp, h.delimits.standalone⟩
  obtain ⟨hd, hne⟩ : IsRawLines (standalone text (kind.follower marker)).rawLines ∧
      [] ∉ (standalone text (kind.follower marker)).rawLines := Text.isRawLines_rawLines _
  have hpos := List.length_pos_iff.mpr h.delimits.ne_nil
  have hlast : inner.length - 1 + 1 = inner.length := Nat.sub_add_cancel hpos
  exact spansWholeBlock_iff.mpr ⟨⟨0, inner.length - 1, Nat.zero_le _⟩,
    (extract_eq_ok_iff_hasBlock hd hne hb).mpr ⟨[], inner, _, [], halone, rfl, by
      rw [Block.stop, hlast, List.length_nil, Nat.zero_add]⟩, rfl, by rw [hlines, hlast]⟩

end OwnText

/-! ## A block written again -/

section Written

variable {t : Text} {pre raws post : List Text} {last : Nat}

/-- In a text with one ending, raw lines that are written again stay as they are. -/
theorem BlockReplacement.newLines_own {r : BlockReplacement} (ht : t.UsesOneEnding)
    (hraw : Text.rawLines t = pre ++ raws ++ post) (hne : raws ≠ [])
    (hlast : pre.length + raws.length = last + 1)
    (hlines : Text.lines r.replacement = raws.map content) :
    r.newLines (.ofText t) last = raws := by
  obtain ⟨e, -, hall⟩ := ht.exists_isEnding
  obtain ⟨init, l, rfl⟩ := (List.eq_nil_or_concat raws).resolve_left hne
  rw [List.concat_eq_append] at *
  have hraw : (Document.ofText t).rawLines = pre ++ init ++ l :: post := by
    rw [Document.ofText, hraw]
    simp
  have hterminated := (hraw ▸ Document.isRawLines_ofText t).left
  have hlast : last = (pre ++ init).length := by
    simp only [List.length_append, List.length_singleton] at hlast ⊢
    omega
  rw [newLines, Text.terminatedLines, hlines, hlast, Document.terminator_of_rawLines_eq hraw,
    List.map_append, List.map_singleton, Text.terminate_concat, Text.content_append_terminator,
    List.map_map]
  congr 1
  conv => rhs; rw [← List.map_id init]
  apply List.map_congr_left
  intro c hc
  have hmem : c ∈ (Document.ofText t).rawLines := by simp [hraw, hc]
  have hc' := (hterminated c (List.mem_append_right pre hc)).isEnding
  have he : terminator c = e := (hall c hmem).resolve_left hc'.ne_nil
  have hending : ∀ i, (Document.ofText t).endingAt i = e :=
    Document.endingAt_of_alike (he ▸ hc') hall hmem he
  rw [Function.comp_apply, hending, ← he, Text.content_append_terminator, id]

end Written

/-! ## Runs -/

/-- **A block replaced by its own text.** In a text with one line ending throughout, the operation
finds its work done and leaves the document as it is. Only a block of the brace-depth boundary may
be refused, and is so exactly if it ends inside of a literal or of a comment. -/
theorem run_own_text (t declaration : Text) (kind : Boundary.Kind) (marker : Option Text)
    (boundary : Boundary) (block : Block) (ht : t.UsesOneEnding)
    (hb : kind.boundary? marker = some boundary)
    (hx : (Document.ofText t).extract declaration boundary = .ok block) :
    ∃ text, block.text? (.ofText t) = some text ∧
      run [.replace { declaration, marker, kind, replacement := text }] (.ofText t) =
        if kind = .braceDepth ∧ (Nesting.start.lines (Text.lines text)).inLiteral = true then
          .error ⟨0, .malformedReplacement declaration⟩
        else .ok ⟨.ofText t, [⟨0, "replace_block", .alreadyApplied⟩]⟩ := by
  obtain ⟨hd, hne⟩ := Text.isRawLines_rawLines t
  obtain ⟨front, inner, deciding, rest, h, hfirst, hstop⟩ :=
    (extract_eq_ok_iff_hasBlock hd hne hb).mp hx
  obtain ⟨pre, raws, post, hraw, hmid, hinner, htext, hown⟩ := h.exists_rawLines hfirst hstop
  have hlines : Text.lines raws.flatten = inner := by rw [Text.lines, hown, hinner]
  have hbal : isBalanced raws.flatten = true ↔ ¬ (kind = .braceDepth ∧
      (Nesting.start.lines (Text.lines raws.flatten)).inLiteral = true) := by
    rw [isBalanced, hlines]
    exact h.delimits.isBalancedLines_iff
  refine ⟨raws.flatten, htext, ?_⟩
  let r : BlockReplacement := { declaration, marker, kind, replacement := raws.flatten }
  split
  · rename_i hopen
    have hunbalanced : isBalanced raws.flatten = false := by
      rw [← Bool.not_eq_true, hbal]
      exact not_not_intro hopen
    have htarget : r.target (.ofText t) = .error (.malformedReplacement declaration) := by
      rw [BlockReplacement.target, if_pos (by simpa using hunbalanced)]
    have happly := BlockReplacement.Result.apply_eq (.noTarget htarget)
    exact runFrom_cons_eq_error_iff.mpr (.inl ⟨_, happly, rfl⟩)
  · rename_i hclosed
    have hspans := h.spansWholeBlock hb (fun c => ht.isPlain) hlines
    have htarget : r.target (.ofText t) = .ok block :=
      BlockReplacement.target_of_extract (hbal.mpr hclosed) hb hx hspans
    have hraws : raws ≠ [] := by
      rintro rfl
      exact h.delimits.ne_nil hinner.symm
    have hnew : r.newLines (.ofText t) block.last = raws :=
      BlockReplacement.newLines_own ht hraw hraws hmid (by rw [hlines, hinner])
    have happly := (BlockReplacement.apply_eq_alreadyApplied_iff htarget rfl htext).mpr
      (by rw [hnew])
    exact run_singleton_eq_ok_iff.mpr ⟨_, _, happly, rfl⟩

/-- The block is the end of a document with `\r\n`, and its last line is not terminated. -/
theorem run_own_text_unterminated :
    let t := Text.crlf "a\nf\x7b\n\x7d".toList
    let block : Block := ⟨1, 2, by decide⟩
    let r : BlockReplacement :=
      { declaration := "f".toList, kind := .braceDepth, replacement := "f\x7b\r\n\x7d".toList }
    (Document.ofText t).extract "f".toList .braceDepth = .ok block ∧
      block.text? (.ofText t) = some r.replacement ∧
      run [.replace r] (.ofText t) =
        .ok ⟨.ofText t, [⟨0, "replace_block", .alreadyApplied⟩]⟩ := by
  intro t block r
  have hx : (Document.ofText t).extract "f".toList .braceDepth = .ok block := by rfl
  have htext : block.text? (.ofText t) = some r.replacement := by rfl
  have hone : t.UsesOneEnding := Text.usesOneEnding_crlf (by decide)
  obtain ⟨text, htext', hrun⟩ :=
    run_own_text t "f".toList .braceDepth none .braceDepth block hone rfl hx
  cases htext.symm.trans htext'
  rw [if_neg (by decide)] at hrun
  exact ⟨hx, htext, hrun⟩

example :
    let t := "f\x7b\x7d /*\n".toList
    let r : BlockReplacement := { declaration := "f".toList, kind := .braceDepth, replacement := t }
    run [.replace r] (.ofText t) = .error ⟨0, .malformedReplacement "f".toList⟩ := by
  rfl

end LinePatch
