import LinePatch.Proofs.Text.Plain

/-!
# Texts with one kind of newline

`unifyNewlines` drops each carriage return in front of a newline. It looks at two characters at a
time, so it is no map over a text: a text that is cut between the two gives another result.

* `unifyNewlines_cons`: what becomes of one character.
* `unifyNewlines_append`: a text that is cut elsewhere.
* `unifyNewlines_line`: a line becomes its content with `\n`.
* `isInfix_unifyNewlines`: occurrences stay occurrences.
* `unifyNewlines_unifyNewlines`: one carriage return goes at a time.
* `unifyNewlines_crlf`: newlines that were written as `\r\n` are found again.
-/

namespace LinePatch.Text

variable {s t : Text}

/-- A carriage return in front of a newline goes, all else stays. -/
theorem unifyNewlines_cons (x : Char) (t : Text) :
    unifyNewlines (x :: t) =
      if x = '\r' ∧ t.head? = some '\n' then unifyNewlines t else x :: unifyNewlines t := by
  by_cases h : x = '\r' ∧ t.head? = some '\n'
  · obtain ⟨rfl, hhead⟩ := h
    obtain ⟨u, rfl⟩ := List.head?_eq_some_iff.mp hhead
    simp [unifyNewlines]
  · rw [if_neg h, unifyNewlines]
    rintro u rfl rfl
    exact h ⟨rfl, rfl⟩

theorem unifyNewlines_of_not_mem (h : '\n' ∉ t) : unifyNewlines t = t := by
  induction t with
  | nil => rfl
  | cons x t ih =>
    rw [unifyNewlines_cons, if_neg, ih fun hmem => h (List.mem_cons_of_mem x hmem)]
    rintro ⟨-, hhead⟩
    exact h (List.mem_cons_of_mem x (List.mem_of_head? hhead))

theorem IsEnding.unifyNewlines_eq {e : Text} (he : IsEnding e) : unifyNewlines e = ['\n'] := by
  rcases he with rfl | rfl <;> rfl

/-! ## Cut texts -/

/-- A text that is not cut inside of a newline. -/
theorem unifyNewlines_append (h : s.getLast? = some '\r' → t.head? ≠ some '\n') :
    unifyNewlines (s ++ t) = unifyNewlines s ++ unifyNewlines t := by
  induction s with
  | nil => rfl
  | cons x s ih =>
    cases s with
    | nil =>
      have hx : ¬ (x = '\r' ∧ t.head? = some '\n') := fun hx => h (by rw [hx.1]; rfl) hx.2
      rw [List.singleton_append, unifyNewlines_cons, unifyNewlines_cons x [], if_neg hx,
        if_neg (by simp)]
      rfl
    | cons y s =>
      rw [List.getLast?_cons_cons] at h
      rw [List.cons_append, unifyNewlines_cons, unifyNewlines_cons x, ih h, List.cons_append,
        List.head?_cons, List.head?_cons]
      split
      · rfl
      · rfl

/-- A line becomes its content with `\n`. -/
theorem unifyNewlines_line {c : Text} (hc : '\n' ∉ c) (t : Text) :
    unifyNewlines (c ++ '\n' :: t) = content (c ++ ['\n']) ++ '\n' :: unifyNewlines t := by
  have hnewline : unifyNewlines ('\n' :: t) = '\n' :: unifyNewlines t := by
    rw [unifyNewlines_cons, if_neg (by simp)]
  rcases eq_append_return_or c with ⟨c, rfl⟩ | hlast
  · have hcontent := content_append_return_newline c
    have hreturn : unifyNewlines ('\r' :: '\n' :: t) = '\n' :: unifyNewlines t := by
      rw [unifyNewlines_cons, if_pos ⟨rfl, rfl⟩, hnewline]
    rw [List.append_assoc, List.append_assoc, List.singleton_append, List.singleton_append,
      hcontent, unifyNewlines_append (by simp), hreturn,
      unifyNewlines_of_not_mem fun hmem => hc (List.mem_append_left _ hmem)]
  · rw [content_append_newline hlast, unifyNewlines_append fun h => absurd h hlast, hnewline,
      unifyNewlines_of_not_mem hc]

/-- The end of a text does not depend on what is in front of it. -/
theorem unifyNewlines_suffix (s t : Text) : unifyNewlines t <:+ unifyNewlines (s ++ t) := by
  induction s with
  | nil => exact List.suffix_rfl
  | cons x s ih =>
    rw [List.cons_append, unifyNewlines_cons]
    split
    · exact ih
    · exact ih.trans (List.suffix_cons x _)

/-- What occurs in a text occurs in it with other newlines, if it does not end inside of one. -/
theorem isInfix_unifyNewlines (hs : s.getLast? ≠ some '\r') (h : s <:+: t) :
    unifyNewlines s <:+: unifyNewlines t := by
  obtain ⟨a, b, rfl⟩ := h
  have hprefix : unifyNewlines s <+: unifyNewlines (s ++ b) := by
    rw [unifyNewlines_append fun h => absurd h hs]
    exact List.prefix_append _ _
  rw [List.append_assoc]
  exact hprefix.isInfix.trans (unifyNewlines_suffix a (s ++ b)).isInfix

@[simp] theorem unifyNewlines_eq_nil_iff : unifyNewlines t = [] ↔ t = [] := by
  induction t with
  | nil => simp [unifyNewlines]
  | cons x t ih =>
    rw [unifyNewlines_cons]
    split
    · rename_i h
      obtain ⟨u, rfl⟩ := List.head?_eq_some_iff.mp h.2
      rw [ih]
      simp
    · simp

/-- The last character stays. -/
@[simp] theorem getLast?_unifyNewlines (t : Text) :
    (unifyNewlines t).getLast? = t.getLast? := by
  induction t with
  | nil => rfl
  | cons x t ih =>
    rw [unifyNewlines_cons]
    split
    · rename_i h
      obtain ⟨u, rfl⟩ := List.head?_eq_some_iff.mp h.2
      rw [ih, List.getLast?_cons_cons]
    · rw [List.getLast?_cons, List.getLast?_cons, ih]

/-! ## Newlines written as `\r\n` -/

/-- What is left of a `\r\n` is found again in the text with one more carriage return. -/
private theorem isInfix_of_return_newline (h : ['\r', '\n'] <:+: unifyNewlines t) :
    ['\r', '\r', '\n'] <:+: t := by
  induction t with
  | nil => simp [unifyNewlines] at h
  | cons x t ih =>
    rw [unifyNewlines_cons] at h
    split at h
    · exact (ih h).trans (List.suffix_cons x t).isInfix
    · rename_i hno
      rcases List.infix_cons_iff.mp h with hprefix | hinfix
      · rw [List.cons_prefix_cons] at hprefix
        obtain ⟨rfl, hprefix⟩ := hprefix
        -- The newline comes from a `\r\n`, as it is none of its own behind `x`.
        cases t with
        | nil => simp [unifyNewlines] at hprefix
        | cons y t =>
          have hy : y ≠ '\n' := fun hy => hno ⟨rfl, by rw [hy]; rfl⟩
          rw [unifyNewlines_cons] at hprefix
          split at hprefix
          · rename_i hreturn
            obtain ⟨u, rfl⟩ := List.head?_eq_some_iff.mp hreturn.2
            exact ⟨[], u, by rw [hreturn.1]; rfl⟩
          · exact absurd (List.cons_prefix_cons.mp hprefix).1.symm hy
      · exact (ih hinfix).trans (List.suffix_cons x t).isInfix

theorem unifyNewlines_eq_self (h : ¬ ['\r', '\n'] <:+: t) : unifyNewlines t = t := by
  induction t with
  | nil => rfl
  | cons x t ih =>
    rw [unifyNewlines_cons, if_neg, ih fun hin => h (hin.trans (List.suffix_cons x t).isInfix)]
    rintro ⟨rfl, hhead⟩
    obtain ⟨u, rfl⟩ := List.head?_eq_some_iff.mp hhead
    exact h ⟨[], u, rfl⟩

/-- Without two carriage returns in front of a newline there is nothing left to drop. -/
theorem unifyNewlines_unifyNewlines (h : ¬ ['\r', '\r', '\n'] <:+: t) :
    unifyNewlines (unifyNewlines t) = unifyNewlines t :=
  unifyNewlines_eq_self fun hin => h (isInfix_of_return_newline hin)

/-- No text with `\r\n` for each newline starts with a newline. -/
theorem head?_crlf_ne (t : Text) : (crlf t).head? ≠ some '\n' := by
  cases t with
  | nil => exact nofun
  | cons x t =>
    rw [crlf_cons]
    split
    · simp
    · simpa

theorem unifyNewlines_crlf (t : Text) : unifyNewlines (crlf t) = t := by
  induction t with
  | nil => rfl
  | cons x t ih =>
    rw [crlf_cons]
    split
    · rename_i hx
      rw [hx, List.cons_append, List.singleton_append, unifyNewlines, ih]
    · rw [List.singleton_append, unifyNewlines_cons, if_neg fun h => head?_crlf_ne t h.2, ih]

end LinePatch.Text
