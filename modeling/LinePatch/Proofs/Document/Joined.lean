import LinePatch.Proofs.Document.Search
import LinePatch.Proofs.Text.Newlines

/-!
# Needles of several lines

A needle with a newline is looked for in the joined lines of a document. These are its text with all
newlines unified, but for the newline at its end. So the search finds a needle where it occurs in
that text, unless the needle ends in a newline and takes in the last one.

* `unifyNewlines_eq_joinLines`: the joined lines of a text.
* `infix_joinLines_iff`: where a needle is found in them.
* `contains_ofText_iff_of_mem`: the same for the search.
* `flatten_terminate_newline`, `flatten_terminate_return_newline`: written lines as joined lines.
* `exists_unifyNewlines_terminate`: what of a text is found in its lines as they are written.
-/

namespace LinePatch

open Text (IsEnding crlf terminate unifyNewlines)

/-! ## Joined lines -/

namespace Document

variable {ls as bs : List Text} {s t : Text}

theorem joinLines_cons (l : Text) (ls : List Text) :
    joinLines (l :: ls) = l ++ if ls = [] then [] else '\n' :: joinLines ls := by
  cases ls <;> simp [joinLines]

theorem joinLines_append (ha : as ≠ []) (hb : bs ≠ []) :
    joinLines (as ++ bs) = joinLines as ++ '\n' :: joinLines bs := by
  induction as with
  | nil => exact absurd rfl ha
  | cons l as ih =>
    rw [List.cons_append, joinLines_cons, joinLines_cons, if_neg (by simp [hb])]
    by_cases hnil : as = []
    · simp [hnil]
    · rw [ih hnil, if_neg hnil, List.append_assoc, List.cons_append]

/-- The lines of a text, joined, are the text with one kind of newline and without the last one. -/
theorem unifyNewlines_eq_joinLines (t : Text) :
    unifyNewlines t =
      joinLines (Text.lines t) ++ if t.getLast? = some '\n' then ['\n'] else [] := by
  induction t using Text.line_induction with
  | last u hu =>
    have hlast : u.getLast? ≠ some '\n' := fun h => hu (List.mem_of_getLast? h)
    rw [Text.unifyNewlines_of_not_mem hu, if_neg hlast, List.append_nil]
    by_cases hnil : u = []
    · rw [hnil]
      rfl
    · rw [Text.lines, Text.rawLines_of_not_mem hu hnil, List.map_singleton,
        Text.content_of_not_mem hu, joinLines]
  | line c u hc ih =>
    rw [Text.unifyNewlines_line hc, Text.lines_append_newline hc, joinLines_cons, ih]
    by_cases hnil : u = []
    · subst hnil
      have hlines : Text.lines [] = [] := rfl
      simp [hlines, joinLines]
    · have hlast : (c ++ '\n' :: u).getLast? = u.getLast? := by
        obtain ⟨x, u, rfl⟩ := List.exists_cons_of_ne_nil hnil
        rw [List.getLast?_append, List.getLast?_cons_cons, List.getLast?_cons, Option.some_or]
      rw [if_neg (mt Text.lines_eq_nil_iff.mp hnil), hlast, List.append_assoc, List.cons_append]

theorem unifyNewlines_prefix_joinLines (t : Text) :
    unifyNewlines t <+: joinLines (Text.lines t) ++ ['\n'] := by
  rw [unifyNewlines_eq_joinLines]
  split
  · exact List.prefix_rfl
  · rw [List.append_nil]
    exact List.prefix_append _ _

end Document

/-! ## Occurrences -/

/-- A text occurs in another one, and goes on behind it if it ends in a newline. -/
def Text.OccursInside (s t : Text) : Prop :=
  ∃ a b, t = a ++ s ++ b ∧ (s.getLast? = some '\n' → b ≠ [])

namespace Document

variable {s t : Text}

/-- A text is found in joined lines where it occurs inside of the text. -/
theorem infix_joinLines_iff :
    s <:+: joinLines (Text.lines t) ↔ s.OccursInside (unifyNewlines t) := by
  have hlast := Text.getLast?_unifyNewlines t
  rw [unifyNewlines_eq_joinLines] at hlast ⊢
  by_cases ht : t.getLast? = some '\n'
  · rw [if_pos ht]
    constructor
    · rintro ⟨a, b, h⟩
      exact ⟨a, b ++ ['\n'], by rw [← h, List.append_assoc (a ++ s)], by simp⟩
    · rintro ⟨a, b, h, hinside⟩
      rcases List.eq_nil_or_concat b with rfl | ⟨b, x, rfl⟩
      · -- Then the text ends in the newline of the last line.
        by_cases hnil : s = []
        · exact hnil ▸ List.nil_infix
        · have hs := congrArg List.getLast? h
          rw [List.append_nil, List.getLast?_concat, List.getLast?_append,
            List.getLast?_eq_some_getLast hnil, Option.some_or] at hs
          exact absurd rfl (hinside (by rw [List.getLast?_eq_some_getLast hnil, ← hs]))
      · rw [List.concat_eq_append, ← List.append_assoc] at h
        exact ⟨a, b, (List.append_inj' h rfl).1.symm⟩
  · rw [if_neg ht, List.append_nil] at hlast ⊢
    constructor
    · rintro ⟨a, b, h⟩
      refine ⟨a, b, h.symm, ?_⟩
      rintro hs rfl
      rw [← h, List.append_nil, List.getLast?_append, hs] at hlast
      exact ht hlast.symm
    · rintro ⟨a, b, h, -⟩
      exact ⟨a, b, h.symm⟩

/-- Where a needle of several lines is found. -/
theorem contains_iff_of_mem {d : Document} (hs : '\n' ∈ s) :
    d.contains s = true ↔ unifyNewlines s <:+: joinLines d.lines := by
  have hne : s ≠ [] := List.ne_nil_of_mem hs
  rw [contains, if_neg (by simpa using hne), if_pos (by simpa using hs), Text.occursIn_iff]

theorem contains_ofText_iff_of_mem (hs : '\n' ∈ s) :
    (ofText t).contains s = true ↔ (unifyNewlines s).OccursInside (unifyNewlines t) := by
  rw [contains_iff_of_mem hs, ← infix_joinLines_iff]
  rfl

/-! ## Written lines -/

variable {ls : List Text} {e last : Text}

theorem flatten_terminate (h : ls ≠ []) (e last : Text) :
    (terminate e last ls).flatten = (terminate e [] ls).flatten ++ last := by
  rcases List.eq_nil_or_concat ls with rfl | ⟨init, l, rfl⟩
  · exact absurd rfl h
  · rw [List.concat_eq_append, Text.terminate_concat, Text.terminate_concat]
    simp only [List.flatten_append, List.flatten_singleton, List.append_nil, List.append_assoc]

theorem flatten_terminate_newline (ls : List Text) :
    (terminate ['\n'] [] ls).flatten = joinLines ls := by
  induction ls with
  | nil => rfl
  | cons l ls ih =>
    cases ls with
    | nil => simp [terminate, joinLines]
    | cons l' ls =>
      rw [terminate.eq_3 _ _ _ _ (List.cons_ne_nil l' ls), List.flatten_cons, ih, joinLines_cons l,
        if_neg (List.cons_ne_nil l' ls), List.append_assoc, List.singleton_append]

theorem flatten_terminate_return_newline (hls : ∀ c ∈ ls, '\n' ∉ c) :
    (terminate ['\r', '\n'] [] ls).flatten = crlf (joinLines ls) := by
  induction ls with
  | nil => rfl
  | cons l ls ih =>
    obtain ⟨hl, hls⟩ := List.forall_mem_cons.mp hls
    cases ls with
    | nil => simp [terminate, joinLines, Text.crlf_of_not_mem hl]
    | cons l' ls =>
      rw [terminate.eq_3 _ _ _ _ (List.cons_ne_nil l' ls), List.flatten_cons, ih hls,
        joinLines_cons l, if_neg (List.cons_ne_nil l' ls), Text.crlf_append,
        Text.crlf_of_not_mem hl, Text.crlf_cons, if_pos rfl, List.append_assoc]

/-- What occurs in joined lines occurs in them as they are written, with one kind of newline again.
With `\n`, a carriage return at the end of a line is lost. -/
theorem exists_unifyNewlines_terminate (he : IsEnding e) (hlast : last = [] ∨ last = e)
    (hne : ls ≠ []) (hls : ∀ c ∈ ls, '\n' ∉ c) {s a b : Text} (hsne : s ≠ [])
    (hreturn : s.getLast? ≠ some '\r') (hs : e = ['\r', '\n'] ∨ unifyNewlines s = s)
    (h : joinLines ls ++ unifyNewlines last = a ++ s ++ b) :
    ∃ a' b', unifyNewlines (terminate e last ls).flatten = a' ++ s ++ b' ∧
      (b ≠ [] → b' ≠ []) := by
  rw [flatten_terminate hne]
  rcases he with rfl | rfl
  · have hs : unifyNewlines s = s := hs.resolve_left (by decide)
    have hlast : unifyNewlines last = last := by
      rcases hlast with rfl | rfl <;> rfl
    obtain ⟨a', ha'⟩ := Text.unifyNewlines_suffix a s
    refine ⟨a', unifyNewlines b, ?_, by simp⟩
    have hend : (a ++ s).getLast? ≠ some '\r' := by
      rwa [List.getLast?_append, List.getLast?_eq_some_getLast hsne, Option.some_or,
        ← List.getLast?_eq_some_getLast hsne]
    rw [hlast] at h
    rw [flatten_terminate_newline, h, Text.unifyNewlines_append fun h => absurd h hend, ← ha', hs]
  · refine ⟨a, b, ?_, id⟩
    have hhead : last.head? ≠ some '\n' := by
      rcases hlast with rfl | rfl <;> simp
    rw [flatten_terminate_return_newline hls, Text.unifyNewlines_append fun _ => hhead,
      Text.unifyNewlines_crlf, h]

end Document

/-- What occurs in a part of a text occurs inside of the whole, if the part goes on behind it or the
text behind the part. -/
theorem Text.occursInside_unifyNewlines_append {s w a b : Text} (p q : Text)
    (hw : w.getLast? = some '\r' → q.head? ≠ some '\n') (h : unifyNewlines w = a ++ s ++ b)
    (hfollowed : s.getLast? = some '\n' → b ≠ [] ∨ q ≠ []) :
    s.OccursInside (unifyNewlines (p ++ w ++ q)) := by
  obtain ⟨p', hp'⟩ := Text.unifyNewlines_suffix p (w ++ q)
  refine ⟨p' ++ a, b ++ unifyNewlines q, ?_, fun hs => ?_⟩
  · rw [List.append_assoc, ← hp', Text.unifyNewlines_append hw, h]
    simp only [List.append_assoc]
  · rcases hfollowed hs with hb | hq
    · simp [hb]
    · simp [hq]

end LinePatch
