import LinePatch.Proofs.Document.Beside
import LinePatch.Proofs.Patch.Effect

/-!
# Insertions that commute

Two insertions into plain documents commute if neither looks for anything that stands in the snippet
of the other, and they do not go to the same side of the same line. They may go to both sides of a
line, to neighbouring lines, and to a line that one of them terminates for the other.

* `SnippetInsertion.inserts_diamond`: two insertions that both take place.
* `SnippetInsertion.Independent.leads_diamond`: two that succeed, where one may find its work done.
* `run_insertions_comm`: runs of the two, in either order.
-/

namespace LinePatch

open Text (content terminate)

namespace SnippetInsertion

/-- The lines of the snippet are read as they are written, and the sentinel is looked for line by
line. -/
structure HasPlainLines (i : SnippetInsertion) : Prop where
  snippet : Text.ReturnsBeforeNewlines i.snippet
  sentinel : ∀ s, i.effectiveSentinel = some s → '\n' ∉ s

/-- No line of a snippet contains what an insertion looks for. -/
structure Ignores (i : SnippetInsertion) (snippet : Text) : Prop where
  anchor : ∀ c ∈ Text.lines snippet, ¬ i.anchor <:+: c
  sentinel : ∀ c ∈ Text.lines snippet, ∀ s, i.effectiveSentinel = some s → ¬ s <:+: c

/-- Two insertions go to the same side of the same line. -/
def Collides (i j : SnippetInsertion) (d : Document) : Prop :=
  i.placement = j.placement ∧ ∃ line, d.locate i.anchor = some line ∧ d.locate j.anchor = some line

/-- Neither of two insertions is in the way of the other. -/
structure Independent (a b : SnippetInsertion) (d : Document) : Prop where
  document : d.HasPlainLines
  left : a.HasPlainLines
  right : b.HasPlainLines
  ignores_left : a.Ignores b.snippet
  ignores_right : b.Ignores a.snippet
  apart : ¬ a.Collides b d

/-- The insertion takes place, and `d'` is the document after it. -/
def Inserts (i : SnippetInsertion) (d d' : Document) : Prop :=
  ∃ line, d.locate i.anchor = some line ∧ d' = d.inserted line i.snippet i.placement

variable {a b i : SnippetInsertion} {d d' d₁ d₂ : Document}

theorem Collides.symm (h : a.Collides b d) : b.Collides a d := by
  obtain ⟨hplacement, line, ha, hb⟩ := h
  exact ⟨hplacement.symm, line, hb, ha⟩

theorem Independent.symm (h : a.Independent b d) : b.Independent a d :=
  ⟨h.document, h.right, h.left, h.ignores_right, h.ignores_left, fun hab => h.apart hab.symm⟩

theorem HasPlainLines.lines (h : i.HasPlainLines) : ∀ c ∈ Text.lines i.snippet, Text.IsPlain c :=
  fun _ => Text.isPlain_of_mem_lines h.snippet

/-! ## Two insertions that take place -/

section Inserts

variable {pre pre' post post' : List Text} {raw : Text}

theorem inserts_iff_of_finds (hf : d.Finds i.anchor pre raw post) :
    i.Inserts d d' ↔ d'.rawLines =
      pre ++ Document.beside (d.endingAt pre.length) i.snippet raw i.placement ++ post := by
  have hraw := Document.rawLines_inserted hf.rawLines_eq i.snippet i.placement
  constructor
  · rintro ⟨line, hline, rfl⟩
    cases hline.symm.trans hf.locate_eq
    exact hraw
  · intro h
    refine ⟨pre.length, hf.locate_eq, ?_⟩
    rw [← hraw] at h
    exact congrArg Document.mk h

/-- After an insertion, new lines beside a line that it left as it was are terminated as before. -/
theorem Inserts.endingAt_eq (h : i.Inserts d d') (hd : d.HasPlainLines) (hi : i.HasPlainLines)
    (hraw : d.rawLines = pre ++ raw :: post) (hraw' : d'.rawLines = pre' ++ raw :: post') :
    d'.endingAt pre'.length = d.endingAt pre.length := by
  refine Document.endingAt_congr hraw hraw' ?_
  obtain ⟨line, hline, rfl⟩ := h
  exact Document.lineEnding_inserted hd hi.lines (Document.lt_length_of_locate hline)

end Inserts

section Diamond

variable {pre mid post : List Text} {x y : Text}

/-- One insertion goes to a line in front of that of the other. -/
theorem inserts_diamond_of_lt (h : a.Independent b d)
    (hfa : d.Finds a.anchor pre x (mid ++ y :: post))
    (hfb : d.Finds b.anchor (pre ++ x :: mid) y post) (h₁ : a.Inserts d d₁) (h₂ : b.Inserts d d₂) :
    ∃ d', b.Inserts d₁ d' ∧ a.Inserts d₂ d' := by
  have hx := h.document.content x (by simp [hfa.rawLines_eq])
  have hraw₁ := (inserts_iff_of_finds hfa).mp h₁
  have hraw₂ := (inserts_iff_of_finds hfb).mp h₂
  generalize hbesideX : Document.beside (d.endingAt pre.length) a.snippet x a.placement = besideX
    at hraw₁
  generalize hbesideY :
    Document.beside (d.endingAt (pre ++ x :: mid).length) b.snippet y b.placement = besideY
    at hraw₂
  -- Each insertion finds its line where the other one left it.
  have hfb₁ : d₁.Finds b.anchor (pre ++ besideX ++ mid) y post := by
    refine ⟨by simpa using hraw₁, hfb.ne_nil, hfb.contains, ?_⟩
    obtain ⟨hpre, hxmid⟩ := List.forall_mem_append.mp hfb.first
    obtain ⟨hnotx, hmid⟩ := List.forall_mem_cons.mp hxmid
    refine List.forall_mem_append.mpr ⟨List.forall_mem_append.mpr ⟨hpre, ?_⟩, hmid⟩
    rw [← hbesideX]
    exact Document.not_infix_beside (Document.endingAt_isEnding d _) hx h.left.lines hnotx
      h.ignores_right.anchor
  have hfa₂ : d₂.Finds a.anchor pre x (mid ++ besideY ++ post) :=
    ⟨by simpa using hraw₂, hfa.ne_nil, hfa.contains, hfa.first⟩
  refine ⟨⟨pre ++ besideX ++ mid ++ besideY ++ post⟩, (inserts_iff_of_finds hfb₁).mpr ?_,
    (inserts_iff_of_finds hfa₂).mpr ?_⟩
  · rw [h₁.endingAt_eq h.document h.left hfb.rawLines_eq hfb₁.rawLines_eq, hbesideY]
  · rw [h₂.endingAt_eq h.document h.right hfa.rawLines_eq hfa₂.rawLines_eq, hbesideX]
    simp only [List.append_assoc]

/-- The insertions go to the two sides of one line. -/
theorem inserts_diamond_of_eq (h : a.Independent b d) (hfa : d.Finds a.anchor pre x post)
    (hfb : d.Finds b.anchor pre x post) (hbefore : a.placement = .before)
    (hafter : b.placement = .after) (h₁ : a.Inserts d d₁) (h₂ : b.Inserts d d₂) :
    ∃ d', b.Inserts d₁ d' ∧ a.Inserts d₂ d' := by
  have hx := h.document.content x (by simp [hfa.rawLines_eq])
  have he := Document.endingAt_isEnding d pre.length
  have hraw₁ := (inserts_iff_of_finds hfa).mp h₁
  have hraw₂ := (inserts_iff_of_finds hfb).mp h₂
  rw [hbefore, Document.beside] at hraw₁
  rw [hafter, Document.beside] at hraw₂
  have hfb₁ : d₁.Finds b.anchor
      (pre ++ terminate (d.endingAt pre.length) (d.endingAt pre.length) (Text.lines a.snippet)) x
      post := by
    refine ⟨by simpa using hraw₁, hfb.ne_nil, hfb.contains, ?_⟩
    refine List.forall_mem_append.mpr ⟨hfb.first, fun l hl => ?_⟩
    refine h.ignores_right.anchor _ ?_
    rw [← Text.map_content_terminate h.left.lines he (.inr he)]
    exact List.mem_map_of_mem hl
  -- The line may have got its terminator from the insertion behind it.
  have hfa₂ : d₂.Finds a.anchor pre (content x ++ d.endingAt pre.length)
      (terminate (d.endingAt pre.length) (Text.terminator x) (Text.lines b.snippet) ++ post) :=
    ⟨by simpa using hraw₂, hfa.ne_nil, (hx.content_append he).symm ▸ hfa.contains, hfa.first⟩
  have hending : d₂.endingAt pre.length = d.endingAt pre.length := by
    have hterminator := (Document.terminator_of_rawLines_eq hfa₂.rawLines_eq).trans
      (hx.terminator_append he)
    rw [Document.endingAt_of_isEnding (hterminator ▸ he), hterminator]
  refine ⟨_, (inserts_iff_of_finds hfb₁).mpr rfl, (inserts_iff_of_finds hfa₂).mpr ?_⟩
  rw [h₁.endingAt_eq h.document h.left hfb.rawLines_eq hfb₁.rawLines_eq, hending, hbefore, hafter,
    Document.beside, Document.beside]
  simp only [List.append_assoc, List.cons_append, List.nil_append]

/-- One insertion goes to a line that is not behind that of the other. -/
theorem inserts_diamond_of_le {between post' : List Text} (h : a.Independent b d)
    (hfa : d.Finds a.anchor pre x post) (hfb : d.Finds b.anchor (pre ++ between) y post')
    (hpost : x :: post = between ++ y :: post') (h₁ : a.Inserts d d₁) (h₂ : b.Inserts d d₂) :
    ∃ d', b.Inserts d₁ d' ∧ a.Inserts d₂ d' := by
  cases between with
  | cons z mid =>
    obtain ⟨rfl, rfl⟩ := List.cons.inj hpost
    exact inserts_diamond_of_lt h hfa hfb h₁ h₂
  | nil =>
    obtain ⟨rfl, rfl⟩ := List.cons.inj hpost
    rw [List.append_nil] at hfb
    have hne : a.placement ≠ b.placement := fun heq =>
      h.apart ⟨heq, _, hfa.locate_eq, hfb.locate_eq⟩
    match hpa : a.placement, hpb : b.placement with
    | .before, .before | .after, .after => exact absurd (hpa.trans hpb.symm) hne
    | .before, .after => exact inserts_diamond_of_eq h hfa hfb hpa hpb h₁ h₂
    | .after, .before =>
      obtain ⟨d', h'⟩ := inserts_diamond_of_eq h.symm hfb hfa hpb hpa h₂ h₁
      exact ⟨d', h'.symm⟩

/-- Insertions that both take place can follow each other in either order. -/
theorem inserts_diamond (h : a.Independent b d) (h₁ : a.Inserts d d₁) (h₂ : b.Inserts d d₂) :
    ∃ d', b.Inserts d₁ d' ∧ a.Inserts d₂ d' := by
  obtain ⟨i, hi, -⟩ := id h₁
  obtain ⟨j, hj, -⟩ := id h₂
  obtain ⟨pre, x, post, hfa, rfl⟩ := Document.locate_eq_some_iff_finds.mp hi
  obtain ⟨pre', y, post', hfb, rfl⟩ := Document.locate_eq_some_iff_finds.mp hj
  rcases List.append_eq_append_iff.mp (hfa.rawLines_eq.symm.trans hfb.rawLines_eq) with
    ⟨between, rfl, hpost⟩ | ⟨between, rfl, hpost⟩
  · exact inserts_diamond_of_le h hfa hfb hpost h₁ h₂
  · obtain ⟨d', h'⟩ := inserts_diamond_of_le h.symm hfb hfa hpost h₂ h₁
    exact ⟨d', h'.symm⟩

end Diamond

/-! ## Two insertions that succeed -/

/-- The insertion succeeds, and `d'` is the document after it. -/
def Leads (i : SnippetInsertion) (d d' : Document) : Prop := ∃ status, i.apply d = .ok (status, d')

theorem Leads.unique (h : i.Leads d d₁) (h' : i.Leads d d₂) : d₁ = d₂ := by
  obtain ⟨status, h⟩ := h
  obtain ⟨status', h'⟩ := h'
  cases h.symm.trans h'
  rfl

/-- An insertion that succeeds finds its work done or takes place. -/
theorem leads_iff :
    i.Leads d d' ↔ ∃ s, i.effectiveSentinel = some s ∧
      (d.contains s = true ∧ d' = d ∨ d.contains s = false ∧ i.Inserts d d') := by
  constructor
  · rintro ⟨status, h⟩
    have hresult := i.apply_result d
    rw [h] at hresult
    cases hresult with
    | present hs hc => exact ⟨_, hs, .inl ⟨hc, rfl⟩⟩
    | inserted hs hc ha => exact ⟨_, hs, .inr ⟨hc, _, ha, rfl⟩⟩
  · rintro ⟨s, hs, ⟨hc, rfl⟩ | ⟨hc, line, ha, rfl⟩⟩
    · exact ⟨_, (Result.present hs hc).apply_eq⟩
    · exact ⟨_, (Result.inserted hs hc ha).apply_eq⟩

theorem exists_leads_iff :
    (∃ d', i.Leads d d') ↔ ∃ s, i.effectiveSentinel = some s ∧
      (d.contains s = true ∨ ∃ line, d.locate i.anchor = some line) := by
  simp only [leads_iff, Inserts]
  constructor
  · rintro ⟨d', s, hs, ⟨hc, -⟩ | ⟨-, line, ha, -⟩⟩
    · exact ⟨s, hs, .inl hc⟩
    · exact ⟨s, hs, .inr ⟨line, ha⟩⟩
  · rintro ⟨s, hs, h⟩
    cases hc : d.contains s with
    | true => exact ⟨d, s, hs, .inl ⟨hc, rfl⟩⟩
    | false =>
      obtain ⟨line, ha⟩ := h.resolve_left (by simp [hc])
      exact ⟨_, s, hs, .inr ⟨hc, line, ha, rfl⟩⟩

/-- What a snippet does not contain stands in a line after its insertion if it did before. -/
theorem Leads.occurs_iff (h : i.Leads d d') (hd : d.HasPlainLines) (hi : i.HasPlainLines) {s : Text}
    (hno : ∀ c ∈ Text.lines i.snippet, ¬ s <:+: c) :
    (∃ c ∈ d'.lines, s <:+: c) ↔ ∃ c ∈ d.lines, s <:+: c := by
  obtain ⟨-, -, ⟨-, rfl⟩ | ⟨-, line, ha, rfl⟩⟩ := leads_iff.mp h
  · exact Iff.rfl
  · have hmem : ∀ c, c ∈ (d.inserted line i.snippet i.placement).lines ↔
        c ∈ d.lines ∨ c ∈ Text.lines i.snippet :=
      Document.mem_lines_inserted hd hi.lines (Document.lt_length_of_locate ha)
    constructor
    · rintro ⟨c, hc, hin⟩
      exact ⟨c, ((hmem c).mp hc).resolve_right fun hc => hno c hc hin, hin⟩
    · rintro ⟨c, hc, hin⟩
      exact ⟨c, (hmem c).mpr (.inl hc), hin⟩

theorem Leads.contains_eq (h : i.Leads d d') (hd : d.HasPlainLines) (hi : i.HasPlainLines)
    {s : Text} (hs : '\n' ∉ s) (hno : ∀ c ∈ Text.lines i.snippet, ¬ s <:+: c) :
    d'.contains s = d.contains s := by
  rw [Bool.eq_iff_iff, Document.contains_iff_mem_lines hs, Document.contains_iff_mem_lines hs,
    h.occurs_iff hd hi hno]

namespace Independent

theorem contains_eq (h : a.Independent b d) (h₁ : a.Leads d d₁) {s : Text}
    (hs : b.effectiveSentinel = some s) : d₁.contains s = d.contains s :=
  h₁.contains_eq h.document h.left (h.right.sentinel s hs) fun c hc =>
    h.ignores_right.sentinel c hc s hs

/-- An insertion succeeds after the other if it does before. -/
theorem exists_leads_iff (h : a.Independent b d) (h₁ : a.Leads d d₁) :
    (∃ d', b.Leads d₁ d') ↔ ∃ d', b.Leads d d' := by
  rw [SnippetInsertion.exists_leads_iff, SnippetInsertion.exists_leads_iff]
  refine exists_congr fun s => and_congr_right fun hs => or_congr ?_ ?_
  · rw [h.contains_eq h₁ hs]
  · rw [Document.exists_locate_iff, Document.exists_locate_iff,
      h₁.occurs_iff h.document h.left h.ignores_right.anchor]

/-- Insertions that both succeed can follow each other in either order. -/
theorem leads_diamond (h : a.Independent b d) (h₁ : a.Leads d d₁) (h₂ : b.Leads d d₂) :
    ∃ d', b.Leads d₁ d' ∧ a.Leads d₂ d' := by
  obtain ⟨s, hs, hcase⟩ := leads_iff.mp h₁
  obtain ⟨s', hs', hcase'⟩ := leads_iff.mp h₂
  have hkeep : d₂.contains s = d.contains s := h.symm.contains_eq h₂ hs
  have hkeep' : d₁.contains s' = d.contains s' := h.contains_eq h₁ hs'
  rcases hcase with ⟨hc, rfl⟩ | ⟨hc, hins⟩
  · exact ⟨d₂, h₂, leads_iff.mpr ⟨s, hs, .inl ⟨hkeep.trans hc, rfl⟩⟩⟩
  rcases hcase' with ⟨hc', rfl⟩ | ⟨hc', hins'⟩
  · exact ⟨d₁, leads_iff.mpr ⟨s', hs', .inl ⟨hkeep'.trans hc', rfl⟩⟩, h₁⟩
  obtain ⟨d', hb', ha'⟩ := inserts_diamond h hins hins'
  exact ⟨d', leads_iff.mpr ⟨s', hs', .inr ⟨hkeep'.trans hc', hb'⟩⟩,
    leads_iff.mpr ⟨s, hs, .inr ⟨hkeep.trans hc, ha'⟩⟩⟩

/-- What one order of two insertions leads to, the other leads to as well. -/
theorem leads_comm (h : a.Independent b d) (h₁ : a.Leads d d₁) (h' : b.Leads d₁ d') :
    ∃ d₂, b.Leads d d₂ ∧ a.Leads d₂ d' := by
  obtain ⟨d₂, h₂⟩ := (h.exists_leads_iff h₁).mp ⟨d', h'⟩
  obtain ⟨d'', hb, ha⟩ := h.leads_diamond h₁ h₂
  cases h'.unique hb
  exact ⟨d₂, h₂, ha⟩

end Independent

end SnippetInsertion

/-! ## Runs of two insertions -/

section Runs

open SnippetInsertion

variable {a b : SnippetInsertion} {d d' : Document}

theorem exists_run_pair_iff :
    (∃ report, run [.insert a, .insert b] d = .ok ⟨d', report⟩) ↔
      ∃ d₁, a.Leads d d₁ ∧ b.Leads d₁ d' := by
  simp only [run, runFrom_cons_eq_ok_iff]
  constructor
  · rintro ⟨report, status, d₁, rest, h₁, ⟨status', d₂, rest', h₂, hnil, rfl⟩, heq⟩
    cases hnil
    cases heq
    exact ⟨d₁, ⟨status, h₁⟩, status', h₂⟩
  · rintro ⟨d₁, ⟨status, h₁⟩, status', h₂⟩
    exact ⟨_, status, d₁, _, h₁, ⟨status', d', _, h₂, rfl, rfl⟩, rfl⟩

theorem exists_run_pair_comm (h : a.Independent b d) :
    (∃ report, run [.insert a, .insert b] d = .ok ⟨d', report⟩) ↔
      ∃ report, run [.insert b, .insert a] d = .ok ⟨d', report⟩ := by
  rw [exists_run_pair_iff, exists_run_pair_iff]
  constructor
  · rintro ⟨d₁, h₁, h'⟩
    exact h.leads_comm h₁ h'
  · rintro ⟨d₂, h₂, h'⟩
    exact h.symm.leads_comm h₂ h'

end Runs

/-- **Insertions commute** where neither looks for anything in the snippet of the other, and they do
not go to the same side of the same line: one order succeeds if the other does, and the texts are
the same. Validation need not admit them. -/
theorem run_insertions_comm (t : Text) (a b : SnippetInsertion)
    (ht : Text.ReturnsBeforeNewlines t) (ha : a.HasPlainLines) (hb : b.HasPlainLines)
    (hab : b.Ignores a.snippet) (hba : a.Ignores b.snippet) (hgap : ¬ a.Collides b (.ofText t)) :
    ((∃ r, run [.insert a, .insert b] (.ofText t) = .ok r) ↔
        ∃ r', run [.insert b, .insert a] (.ofText t) = .ok r') ∧
      ∀ r r', run [.insert a, .insert b] (.ofText t) = .ok r →
        run [.insert b, .insert a] (.ofText t) = .ok r' →
        r'.document.toText = r.document.toText := by
  have hcomm : ∀ d', (∃ report, run [.insert a, .insert b] (.ofText t) = .ok ⟨d', report⟩) ↔
      ∃ report, run [.insert b, .insert a] (.ofText t) = .ok ⟨d', report⟩ := fun d' =>
    exists_run_pair_comm ⟨Document.hasPlainLines_ofText ht, ha, hb, hba, hab, hgap⟩
  constructor
  · constructor
    · rintro ⟨r, h⟩
      obtain ⟨report, h'⟩ := (hcomm r.document).mp ⟨r.report, h⟩
      exact ⟨_, h'⟩
    · rintro ⟨r', h⟩
      obtain ⟨report, h'⟩ := (hcomm r'.document).mpr ⟨r'.report, h⟩
      exact ⟨_, h'⟩
  · intro r r' h h'
    obtain ⟨report, h''⟩ := (hcomm r.document).mp ⟨r.report, h⟩
    cases h'.symm.trans h''
    rfl

/-- Snippets in front of a line without terminator and behind it. The one behind it ends in an empty
line; in one order it terminates the line for the other. -/
theorem run_insertions_comm_unterminated :
    let t := "a\r\nb".toList
    let a : SnippetInsertion :=
      { placement := .after, anchor := "b".toList, snippet := "x\r\n\n".toList }
    let b : SnippetInsertion :=
      { placement := .before, anchor := "b".toList, snippet := "y".toList }
    let r : RunResult :=
      ⟨⟨["a\r\n".toList, "y\r\n".toList, "b\r\n".toList, "x\r\n".toList, []]⟩,
        [⟨0, "insert_after", .inserted 2 2⟩, ⟨1, "insert_before", .inserted 1 1⟩]⟩
    run [.insert a, .insert b] (.ofText t) = .ok r ∧
      ∃ r', run [.insert b, .insert a] (.ofText t) = .ok r' ∧
        r'.document.toText = r.document.toText := by
  intro t a b r
  have h : run [.insert a, .insert b] (.ofText t) = .ok r := by rfl
  have ht : Text.ReturnsBeforeNewlines t := by simp [t]
  have ha : a.HasPlainLines := by
    refine ⟨by simp [a], fun s hs => ?_⟩
    cases hs
    decide
  have hb : b.HasPlainLines := by
    refine ⟨by simp [b], fun s hs => ?_⟩
    cases hs
    decide
  have hab : b.Ignores a.snippet := by
    refine ⟨by decide, fun c hc s hs => ?_⟩
    cases hs
    revert c
    decide
  have hba : a.Ignores b.snippet := by
    refine ⟨by decide, fun c hc s hs => ?_⟩
    cases hs
    revert c
    decide
  obtain ⟨hiff, hsame⟩ := run_insertions_comm t a b ht ha hb hab hba (fun h => nomatch h.1)
  obtain ⟨r', h'⟩ := hiff.mp ⟨r, h⟩
  exact ⟨h, r', h', hsame r r' h h'⟩

end LinePatch
