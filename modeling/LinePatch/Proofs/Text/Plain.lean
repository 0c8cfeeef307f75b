import LinePatch.Proofs.Text.Lines

/-!
# Plain lines

A plain line has neither a carriage return nor a newline, so it is read as it was written, whatever
its terminator.

* `IsPlain.content_append`, `map_content_terminate`: what is read of a plain line, and of several.
* `isPlain_of_mem_lines`: the lines of a text whose carriage returns all belong to terminators.
* `UsesOneEnding.exists_isEnding`: the terminators of a text with one ending throughout.
* `exists_isPlain`, `crlf_flatten`: texts of plain lines, with either terminator.
* `usesOneEnding_crlf`: with `\r\n` for each newline, there is one ending.
-/

namespace LinePatch.Text

/-! ## Plain lines -/

/-- A line without carriage return and newline. -/
def IsPlain (c : Text) : Prop := '\r' ∉ c ∧ '\n' ∉ c

theorem IsPlain.getLast?_ne {c : Text} (h : IsPlain c) : c.getLast? ≠ some '\r' :=
  fun hlast => h.1 (List.mem_of_getLast? hlast)

theorem IsPlain.of_isInfix {c s : Text} (h : IsPlain c) (hs : s <:+: c) : IsPlain s :=
  ⟨fun hmem => h.1 (hs.subset hmem), fun hmem => h.2 (hs.subset hmem)⟩

theorem IsPlain.content_append {c e : Text} (h : IsPlain c) (he : IsEnding e) :
    content (c ++ e) = c := by
  rcases he with rfl | rfl
  · exact content_append_newline h.getLast?_ne
  · exact content_append_return_newline c

theorem IsPlain.terminator_append {c e : Text} (h : IsPlain c) (he : IsEnding e) :
    terminator (c ++ e) = e := by
  rcases he with rfl | rfl
  · exact terminator_append_newline h.getLast?_ne
  · exact terminator_append_return_newline c

theorem map_content_append {cs : List Text} {e : Text} (hcs : ∀ c ∈ cs, IsPlain c)
    (he : IsEnding e) : (cs.map (· ++ e)).map content = cs := by
  rw [List.map_map]
  conv => rhs; rw [← List.map_id cs]
  apply List.map_congr_left
  intro c hc
  exact (hcs c hc).content_append he

/-- Plain lines are read back, also where the last was terminated in another way or not at all. -/
theorem map_content_terminate {cs : List Text} {e last : Text} (hcs : ∀ c ∈ cs, IsPlain c)
    (he : IsEnding e) (hlast : last = [] ∨ IsEnding last) :
    (terminate e last cs).map content = cs := by
  rcases List.eq_nil_or_concat cs with rfl | ⟨init, c, rfl⟩
  · rfl
  · rw [List.concat_eq_append] at hcs ⊢
    obtain ⟨hinit, hc⟩ := List.forall_mem_append.mp hcs
    have hc : content (c ++ last) = c := by
      rcases hlast with rfl | hlast
      · rw [List.append_nil, content_of_not_mem (hc c List.mem_cons_self).2]
      · exact (hc c List.mem_cons_self).content_append hlast
    rw [terminate_concat, List.map_append, map_content_append hinit he, List.map_singleton, hc]

/-- Plain lines in the place of others leave plain lines. -/
theorem isPlain_of_mem_spliced {cs new : List Text} (hcs : ∀ c ∈ cs, IsPlain c)
    (hnew : ∀ c ∈ new, IsPlain c) {start stop : Nat} :
    ∀ c ∈ cs.take start ++ new ++ cs.drop stop, IsPlain c := by
  intro c hc
  rcases List.mem_append.mp hc with hc | hc
  · rcases List.mem_append.mp hc with hc | hc
    · exact hcs c (List.mem_of_mem_take hc)
    · exact hnew c hc
  · exact hcs c (List.mem_of_mem_drop hc)

/-- Every carriage return stands directly in front of a newline. -/
def ReturnsBeforeNewlines (t : Text) : Prop := ∀ a b, t = a ++ '\r' :: b → b.head? = some '\n'

@[simp] theorem returnsBeforeNewlines_nil : ReturnsBeforeNewlines [] := by
  intro a b h
  simp at h

@[simp] theorem returnsBeforeNewlines_cons {c : Char} {t : Text} :
    ReturnsBeforeNewlines (c :: t) ↔
      (c = '\r' → t.head? = some '\n') ∧ ReturnsBeforeNewlines t := by
  constructor
  · intro h
    exact ⟨fun hc => h [] t (by rw [hc, List.nil_append]),
      fun a b hab => h (c :: a) b (by rw [hab, List.cons_append])⟩
  · rintro ⟨hhead, h⟩ a b hab
    cases a with
    | nil =>
      cases hab
      exact hhead rfl
    | cons x a =>
      cases hab
      exact h a b rfl

/-- Then what is in front of a newline is plain, but for one carriage return at its end. -/
theorem isPlain_content {c t : Text} (hc : '\n' ∉ c)
    (h : ReturnsBeforeNewlines (c ++ '\n' :: t)) : IsPlain (content (c ++ ['\n'])) := by
  refine ⟨fun hmem => ?_, newline_not_mem_content (.inl ⟨c, hc, rfl⟩)⟩
  rcases eq_append_return_or c with ⟨c', rfl⟩ | hlast
  · have hcontent := content_append_return_newline c'
    rw [List.append_assoc, List.singleton_append, hcontent] at hmem
    obtain ⟨a, b, rfl⟩ := List.append_of_mem hmem
    have hhead := h a (b ++ '\r' :: '\n' :: t) (by simp)
    cases b with
    | nil => simp at hhead
    | cons x b =>
      cases hhead
      simp at hc
  · rw [content_append_newline hlast] at hmem
    obtain ⟨a, b, rfl⟩ := List.append_of_mem hmem
    have hhead := h a (b ++ '\n' :: t) (by simp)
    cases b with
    | nil => simp at hlast
    | cons x b =>
      cases hhead
      simp at hc

theorem isPlain_of_mem_lines {t c : Text} (h : ReturnsBeforeNewlines t) (hc : c ∈ lines t) :
    IsPlain c := by
  induction t using line_induction with
  | last u hu =>
    refine ⟨fun hmem => ?_, newline_not_mem_of_mem_lines hc⟩
    obtain ⟨a, b, rfl⟩ := List.append_of_mem ((infix_of_mem_lines hc).subset hmem)
    have hhead := h a b rfl
    exact hu (by simp [List.mem_of_head? hhead])
  | line c' u hc' ih =>
    rw [lines, rawLines_append_newline hc', List.map_cons, List.mem_cons] at hc
    rcases hc with rfl | hc
    · exact isPlain_content hc' h
    · exact ih (fun a b hab => h (c' ++ '\n' :: a) b (by simp [hab])) hc

/-! ## Texts with one ending -/

/-- Every newline stands directly behind a carriage return. -/
def NewlinesBehindReturns (t : Text) : Prop := ∀ a b, t = a ++ '\n' :: b → a.getLast? = some '\r'

/-- Each line ends in `\n`, or each in `\r\n`; there is no other carriage return. -/
def UsesOneEnding (t : Text) : Prop :=
  '\r' ∉ t ∨ ReturnsBeforeNewlines t ∧ NewlinesBehindReturns t

theorem UsesOneEnding.isPlain {t c : Text} (h : UsesOneEnding t) (hc : c ∈ lines t) :
    IsPlain c := by
  rcases h with h | ⟨h, -⟩
  · exact isPlain_of_mem_lines (fun a b hab => absurd (by simp [hab]) h) hc
  · exact isPlain_of_mem_lines h hc

/-- Then all terminators are `\r\n`. -/
theorem NewlinesBehindReturns.terminator {t raw : Text} (h : NewlinesBehindReturns t)
    (hraw : raw ∈ rawLines t) : terminator raw = [] ∨ terminator raw = ['\r', '\n'] := by
  induction t using line_induction with
  | last u hu =>
    have hraw := List.infix_of_mem_flatten hraw
    rw [flatten_rawLines] at hraw
    exact .inl (terminator_of_not_mem fun hmem => hu (hraw.subset hmem))
  | line c u hc ih =>
    rw [rawLines_append_newline hc, List.mem_cons] at hraw
    rcases hraw with rfl | hraw
    · obtain ⟨c', rfl⟩ := List.getLast?_eq_some_iff.mp (h c u rfl)
      rw [List.append_assoc, List.singleton_append, terminator_append_return_newline]
      exact .inr rfl
    · refine ih (fun a b hab => ?_) hraw
      have hlast := h (c ++ '\n' :: a) b (by rw [hab, List.append_assoc, List.cons_append])
      cases a with
      | nil => simp at hlast
      | cons x a => simpa [List.getLast?_append, List.getLast?_cons_cons] using hlast

/-- A text with one ending has all terminators alike. -/
theorem UsesOneEnding.exists_isEnding {t : Text} (h : UsesOneEnding t) :
    ∃ e, IsEnding e ∧ ∀ raw ∈ rawLines t, terminator raw = [] ∨ terminator raw = e := by
  rcases h with h | ⟨-, h⟩
  · refine ⟨['\n'], isEnding_newline, fun raw hraw => ?_⟩
    rcases terminator_cases raw with hnil | hnewline | hreturn
    · exact .inl hnil
    · exact .inr hnewline
    · have hmem := List.infix_of_mem_flatten hraw
      rw [flatten_rawLines] at hmem
      refine absurd (hmem.subset ?_) h
      rw [← content_append_terminator raw, hreturn]
      simp
  · exact ⟨_, isEnding_return_newline, fun raw => h.terminator⟩

/-! ## Texts of plain lines -/

/-- Each newline written as `\r\n`. -/
def crlf (t : Text) : Text := t.flatMap fun x => if x = '\n' then ['\r', '\n'] else [x]

theorem crlf_cons (x : Char) (t : Text) :
    crlf (x :: t) = (if x = '\n' then ['\r', '\n'] else [x]) ++ crlf t := List.flatMap_cons

theorem crlf_append (s t : Text) : crlf (s ++ t) = crlf s ++ crlf t := List.flatMap_append

theorem crlf_of_not_mem {c : Text} (hc : '\n' ∉ c) : crlf c = c := by
  induction c with
  | nil => rfl
  | cons x c ih =>
    obtain ⟨hx, hc⟩ := List.ne_and_not_mem_of_not_mem_cons hc
    rw [crlf_cons, if_neg (Ne.symm hx), ih hc, List.singleton_append]

/-- A text without carriage returns that does not end inside a line is a text of plain lines. -/
theorem exists_isPlain {t : Text} (hreturn : '\r' ∉ t) (hend : t = [] ∨ t.getLast? = some '\n') :
    ∃ cs : List Text, (∀ c ∈ cs, IsPlain c) ∧ t = (cs.map (· ++ ['\n'])).flatten := by
  induction t using line_induction with
  | last u hu =>
    rcases hend with rfl | h
    · exact ⟨[], by simp, rfl⟩
    · exact absurd (List.mem_of_getLast? h) hu
  | line c u hc ih =>
    simp only [List.mem_append, List.mem_cons, not_or] at hreturn
    obtain ⟨hreturn, -, hreturn'⟩ := hreturn
    obtain ⟨cs, hcs, rfl⟩ := ih hreturn' (ends_of_line hend)
    exact ⟨c :: cs, by simpa using ⟨⟨hreturn, hc⟩, hcs⟩, by simp⟩

/-- With the other terminator such a text has the same lines. -/
theorem crlf_flatten {cs : List Text} (hcs : ∀ c ∈ cs, IsPlain c) :
    crlf (cs.map (· ++ ['\n'])).flatten = (cs.map (· ++ ['\r', '\n'])).flatten := by
  induction cs with
  | nil => rfl
  | cons c cs ih =>
    obtain ⟨hc, hcs⟩ := List.forall_mem_cons.mp hcs
    rw [List.map_cons, List.flatten_cons, crlf_append, crlf_append, crlf_of_not_mem hc.2, ih hcs]
    rfl

theorem NewlinesBehindReturns.crlf {t : Text} : NewlinesBehindReturns (crlf t) := by
  induction t with
  | nil => simp [NewlinesBehindReturns, Text.crlf]
  | cons x t ih =>
    intro a b hab
    rw [crlf_cons] at hab
    split at hab
    · rcases a with _ | ⟨y, _ | ⟨z, a⟩⟩
      · simp at hab
      · cases hab
        rfl
      · have hlast := ih a b (by simp_all)
        simp [List.getLast?_cons, hlast]
    · cases a with
      | nil => simp_all
      | cons y a => rw [List.getLast?_cons, ih a b (by simp_all), Option.getD_some]

theorem ReturnsBeforeNewlines.crlf {t : Text} (h : '\r' ∉ t) : ReturnsBeforeNewlines (crlf t) := by
  induction t with
  | nil => exact returnsBeforeNewlines_nil
  | cons x t ih =>
    obtain ⟨hx, ht⟩ := List.ne_and_not_mem_of_not_mem_cons h
    rw [crlf_cons]
    split
    · simp [ih ht]
    · simp [ih ht, Ne.symm hx]

/-- Written with `\r\n` for each newline, a text without carriage returns uses one ending. -/
theorem usesOneEnding_crlf {t : Text} (h : '\r' ∉ t) : UsesOneEnding (crlf t) :=
  .inr ⟨.crlf h, .crlf⟩

end LinePatch.Text
