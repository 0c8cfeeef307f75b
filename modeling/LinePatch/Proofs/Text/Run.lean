import LinePatch.Text.Blank

/-!
# Runs of characters

A text starts with characters of one class, and something follows them. Grammars are stated in this
form: what is read of a text, and what is left of it.

* `run_dropWhile`: what is left when all characters of the class are taken.
* `Run.dropWhile_eq`: taking them all does not depend on how many were taken before.
-/

namespace LinePatch.Text

/-- A text starts with characters of a class, any number of them, and `rest` follows. -/
def Run (p : Char → Bool) (t rest : Text) : Prop := ∃ w, (∀ c ∈ w, p c = true) ∧ t = w ++ rest

variable {p q : Char → Bool} {c : Char} {t u rest : Text}

theorem run_dropWhile (p : Char → Bool) (t : Text) : Run p t (t.dropWhile p) :=
  ⟨t.takeWhile p, List.all_eq_true.mp List.all_takeWhile,
    List.takeWhile_append_dropWhile.symm⟩

theorem drop_length_takeWhile (p : Char → Bool) (t : Text) :
    t.drop (t.takeWhile p).length = t.dropWhile p := by
  have h : t.takeWhile p ++ t.dropWhile p = t := List.takeWhile_append_dropWhile
  calc t.drop (t.takeWhile p).length
      = (t.takeWhile p ++ t.dropWhile p).drop (t.takeWhile p).length := by rw [h]
    _ = t.dropWhile p := List.drop_left

namespace Run

@[simp] theorem refl (p : Char → Bool) (t : Text) : Run p t t := ⟨[], by simp, rfl⟩

theorem cons (hc : p c = true) (h : Run p t rest) : Run p (c :: t) rest := by
  obtain ⟨w, hw, rfl⟩ := h
  exact ⟨c :: w, List.forall_mem_cons.mpr ⟨hc, hw⟩, rfl⟩

theorem trans (h : Run p t u) (h' : Run p u rest) : Run p t rest := by
  obtain ⟨w, hw, rfl⟩ := h
  obtain ⟨w', hw', rfl⟩ := h'
  refine ⟨w ++ w', fun c hc => ?_, (List.append_assoc w w' rest).symm⟩
  exact (List.mem_append.mp hc).elim (hw c) (hw' c)

theorem mono (h : Run p t rest) (hpq : ∀ c, p c = true → q c = true) : Run q t rest := by
  obtain ⟨w, hw, rfl⟩ := h
  exact ⟨w, fun c hc => hpq c (hw c hc), rfl⟩

theorem suffix (h : Run p t rest) : rest <:+ t := by
  obtain ⟨w, -, rfl⟩ := h
  exact List.suffix_append w rest

theorem dropWhile_eq (h : Run p t rest) : t.dropWhile p = rest.dropWhile p := by
  obtain ⟨w, hw, rfl⟩ := h
  rw [List.dropWhile_append_of_pos hw]

/-- A character that is not in the class ends the run. -/
theorem dropWhile_eq_cons (h : Run p t (c :: rest)) (hc : p c = false) :
    t.dropWhile p = c :: rest := by
  rw [h.dropWhile_eq, List.dropWhile_cons_of_neg (by simp [hc])]

end Run

end LinePatch.Text
