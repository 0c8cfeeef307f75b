import LinePatch.Text.Basic

/-!
# Raw lines as a decomposition

Which lists of raw lines a text has, and what is cut off a raw line as its terminator.

* `isRawLines_rawLines`: every text is cut into raw lines that have their only newline at the end.
* `rawLines_flatten`: such a list is found again in the text that it makes, but for empty pieces.
* `content_append_ending`: the content of a line that is written with a terminator is the line, or
  the line without a carriage return that its terminator takes in.
* `isRawLines_terminate`: lines without newlines, written with terminators, are raw lines.
-/

namespace LinePatch.Text

/-! ## Endings of lines -/

/-- The two ways to end a line. -/
def IsEnding (e : Text) : Prop := e = ['\n'] ∨ e = ['\r', '\n']

theorem isEnding_newline : IsEnding ['\n'] := .inl rfl

theorem isEnding_return_newline : IsEnding ['\r', '\n'] := .inr rfl

theorem IsEnding.ne_nil {e : Text} (h : IsEnding e) : e ≠ [] := by
  rcases h with rfl | rfl <;> simp

theorem content_append_return_newline (c : Text) : content (c ++ ['\r', '\n']) = c := by
  simp [content]

theorem terminator_append_return_newline (c : Text) :
    terminator (c ++ ['\r', '\n']) = ['\r', '\n'] := by
  simp [terminator]

/-- A text that does not end in a carriage return, seen from its end. -/
private theorem reverse_ne_return {c : Text} (h : c.getLast? ≠ some '\r') (r : Text) :
    c.reverse ≠ '\r' :: r := by
  intro hr
  apply h
  rw [← List.reverse_reverse c, hr]
  simp

theorem content_append_newline {c : Text} (h : c.getLast? ≠ some '\r') :
    content (c ++ ['\n']) = c := by
  unfold content
  rw [List.reverse_append]
  split
  · rename_i r hr
    exact absurd (List.cons.inj hr).2 (reverse_ne_return h r)
  · rename_i r _ hr
    have hr : c.reverse = r := (List.cons.inj hr).2
    rw [← hr, List.reverse_reverse]
  · rename_i _ hno
    exact absurd rfl (hno _)

theorem terminator_append_newline {c : Text} (h : c.getLast? ≠ some '\r') :
    terminator (c ++ ['\n']) = ['\n'] := by
  unfold terminator
  rw [List.reverse_append]
  split
  · rename_i r hr
    exact absurd (List.cons.inj hr).2 (reverse_ne_return h r)
  · rfl
  · rename_i _ hno
    exact absurd rfl (hno _)

/-- Without a newline there is no terminator. -/
theorem terminator_of_not_mem {c : Text} (h : '\n' ∉ c) : terminator c = [] := by
  unfold terminator
  split
  · rename_i r hr
    exact absurd (List.mem_reverse.mp (hr ▸ List.mem_cons_self)) h
  · rename_i r _ hr
    exact absurd (List.mem_reverse.mp (hr ▸ List.mem_cons_self)) h
  · rfl

/-- Without a newline a line is its own content. -/
theorem content_of_not_mem {c : Text} (h : '\n' ∉ c) : content c = c := by
  have := content_append_terminator c
  rwa [terminator_of_not_mem h, List.append_nil] at this

/-- A text ends in a carriage return, or it does not. -/
theorem eq_append_return_or (c : Text) :
    (∃ c', c = c' ++ ['\r']) ∨ c.getLast? ≠ some '\r' := by
  by_cases h : c.getLast? = some '\r'
  · exact .inl (List.getLast?_eq_some_iff.mp h)
  · exact .inr h

/-- The terminator of a raw line is an ending or nothing. -/
theorem terminator_cases (raw : Text) : terminator raw = [] ∨ IsEnding (terminator raw) := by
  unfold terminator
  split
  · exact .inr isEnding_return_newline
  · exact .inr isEnding_newline
  · exact .inl rfl

/-- The content of a line that was written with an ending or with none: a carriage return at the
end of the line is taken for a part of the ending `\n`. -/
theorem content_append_ending {c e : Text} (hc : '\n' ∉ c) (he : e = [] ∨ IsEnding e) :
    content (c ++ e) = c ∨ e = ['\n'] ∧ c = content (c ++ e) ++ ['\r'] := by
  rcases he with rfl | rfl | rfl
  · exact .inl (by rw [List.append_nil, content_of_not_mem hc])
  · rcases eq_append_return_or c with ⟨c', rfl⟩ | h
    · right
      have := content_append_return_newline c'
      rw [List.append_assoc, List.singleton_append, this]
      exact ⟨rfl, rfl⟩
    · exact .inl (content_append_newline h)
  · exact .inl (content_append_return_newline c)

/-- What is read of a line written with `\n` is the start of what is read of it written with any
terminator. -/
theorem content_append_newline_prefix {c e : Text} (hc : '\n' ∉ c) (he : e = [] ∨ IsEnding e) :
    content (c ++ ['\n']) <+: content (c ++ e) := by
  rcases content_append_ending hc he with h | ⟨rfl, -⟩
  · rw [h]
    rcases content_append_ending hc (.inr isEnding_newline) with h' | ⟨-, h'⟩
    · exact ⟨[], by rw [h', List.append_nil]⟩
    · exact ⟨_, h'.symm⟩
  · exact List.prefix_rfl

/-- A written ending is read back, unless it is a `\n` behind a carriage return. -/
theorem terminator_append_ending_eq_iff {c e : Text} (he : IsEnding e) :
    terminator (c ++ e) = e ↔ ¬ (e = ['\n'] ∧ c.getLast? = some '\r') := by
  rcases he with rfl | rfl
  · by_cases h : c.getLast? = some '\r'
    · obtain ⟨c, rfl⟩ := List.getLast?_eq_some_iff.mp h
      rw [List.append_assoc, List.singleton_append, terminator_append_return_newline]
      simp
    · rw [terminator_append_newline h]
      simp [h]
  · rw [terminator_append_return_newline]
    simp

theorem isEnding_terminator_append {c e : Text} (he : IsEnding e) :
    IsEnding (terminator (c ++ e)) := by
  by_cases h : e = ['\n'] ∧ c.getLast? = some '\r'
  · obtain ⟨rfl, h⟩ := h
    obtain ⟨c, rfl⟩ := List.getLast?_eq_some_iff.mp h
    rw [List.append_assoc, List.singleton_append, terminator_append_return_newline]
    exact isEnding_return_newline
  · rw [(terminator_append_ending_eq_iff he).mpr h]
    exact he

theorem getLast?_append_ending {e : Text} (he : IsEnding e) (c : Text) :
    (c ++ e).getLast? = some '\n' := by
  rcases he with rfl | rfl <;> simp

/-- The two endings differ in length. -/
theorem IsEnding.length_inj {e e' : Text} (he : IsEnding e) (he' : IsEnding e') :
    e.length = e'.length ↔ e = e' := by
  rcases he with rfl | rfl <;> rcases he' with rfl | rfl <;> simp

/-! ## Lists of raw lines -/

/-- A line with its newline, which has no other. -/
def IsTerminated (raw : Text) : Prop := ∃ c, '\n' ∉ c ∧ raw = c ++ ['\n']

/-- The raw lines of a document: terminated ones, and perhaps a rest without newline. The rest may
be empty. -/
inductive IsRawLines : List Text → Prop
  | nil : IsRawLines []
  | rest {u : Text} (hu : '\n' ∉ u) : IsRawLines [u]
  | cons {l : Text} {ls : List Text} (hl : IsTerminated l) (hls : IsRawLines ls) :
    IsRawLines (l :: ls)

theorem isTerminated_append {c e : Text} (hc : '\n' ∉ c) (he : IsEnding e) :
    IsTerminated (c ++ e) := by
  rcases he with rfl | rfl
  · exact ⟨c, hc, rfl⟩
  · exact ⟨c ++ ['\r'], by simpa using hc, by simp⟩

theorem IsTerminated.ne_nil {raw : Text} (h : IsTerminated raw) : raw ≠ [] := by
  obtain ⟨c, -, rfl⟩ := h
  simp

theorem IsTerminated.isEnding {raw : Text} (h : IsTerminated raw) : IsEnding (terminator raw) := by
  obtain ⟨c, hc, rfl⟩ := h
  rcases eq_append_return_or c with ⟨c', rfl⟩ | hlast
  · rw [List.append_assoc, List.singleton_append, terminator_append_return_newline]
    exact isEnding_return_newline
  · rw [terminator_append_newline hlast]
    exact isEnding_newline

/-- A content holds no newline. -/
theorem newline_not_mem_content {raw : Text} (h : IsTerminated raw ∨ '\n' ∉ raw) :
    '\n' ∉ content raw := by
  rcases h with ⟨c, hc, rfl⟩ | h
  · rcases content_append_ending hc (.inr isEnding_newline) with h | ⟨-, h⟩
    · rwa [h]
    · rw [h] at hc
      exact fun hm => hc (List.mem_append_left _ hm)
  · rwa [content_of_not_mem h]

/-- A line that is written with the terminator of another one ends with a newline if that one
does. -/
theorem getLast?_append_terminator_iff {l raw : Text} (hl : '\n' ∉ l)
    (hraw : IsTerminated raw ∨ '\n' ∉ raw) :
    (l ++ terminator raw).getLast? = some '\n' ↔ raw.getLast? = some '\n' := by
  rcases terminator_cases raw with hterminator | hterminator
  · have hcontent := content_append_terminator raw
    rw [hterminator, List.append_nil] at hcontent ⊢
    rw [← hcontent]
    exact iff_of_false (mt List.mem_of_getLast? hl)
      (mt List.mem_of_getLast? (newline_not_mem_content hraw))
  · conv => rhs; rw [← content_append_terminator raw]
    exact iff_of_true (getLast?_append_ending hterminator _)
      (getLast?_append_ending hterminator _)

namespace IsRawLines

variable {as bs : List Text} {b : Text}

/-- Terminated lines in front of raw lines. -/
theorem append (ha : ∀ l ∈ as, IsTerminated l) (hb : IsRawLines bs) : IsRawLines (as ++ bs) := by
  induction as with
  | nil => exact hb
  | cons l ls ih =>
    exact .cons (ha l List.mem_cons_self) (ih fun l' h => ha l' (List.mem_cons_of_mem l h))

/-- What follows the first of several raw lines. -/
theorem tail (h : IsRawLines (b :: bs)) : IsRawLines bs := by
  cases h with
  | rest _ => exact .nil
  | cons _ hbs => exact hbs

/-- Only a last raw line may lack its newline. -/
theorem head (h : IsRawLines (b :: bs)) (hbs : bs ≠ []) : IsTerminated b := by
  cases h with
  | rest _ => exact absurd rfl hbs
  | cons hb _ => exact hb

theorem right (h : IsRawLines (as ++ bs)) : IsRawLines bs := by
  induction as with
  | nil => exact h
  | cons l ls ih => exact ih h.tail

/-- A raw line that another one follows is terminated. -/
theorem left (h : IsRawLines (as ++ b :: bs)) : ∀ l ∈ as, IsTerminated l := by
  induction as with
  | nil => intro l hl; cases hl
  | cons a as ih =>
    intro l hmem
    rcases List.mem_cons.mp hmem with rfl | hmem
    · exact h.head (by simp)
    · exact ih h.tail l hmem

/-- A raw line without terminator is the last one. -/
theorem eq_nil_of_terminator (h : IsRawLines (as ++ b :: bs)) (hb : terminator b = []) :
    bs = [] := by
  cases bs with
  | nil => rfl
  | cons c bs => exact absurd hb (h.right.head (List.cons_ne_nil c bs)).isEnding.ne_nil

theorem mem (h : IsRawLines as) {l : Text} (hl : l ∈ as) : IsTerminated l ∨ '\n' ∉ l := by
  induction h with
  | nil => cases hl
  | rest hu => exact .inr (List.mem_singleton.mp hl ▸ hu)
  | cons hh _ ih =>
    rcases List.mem_cons.mp hl with rfl | hl
    · exact .inl hh
    · exact ih hl

end IsRawLines

theorem isRawLines_of_isTerminated {ls : List Text} (h : ∀ l ∈ ls, IsTerminated l) :
    IsRawLines ls := by
  simpa using IsRawLines.append h .nil

/-- The first of several raw lines. -/
theorem IsRawLines.of_append {as bs : List Text} (h : IsRawLines (as ++ bs)) : IsRawLines as := by
  cases bs with
  | nil => rwa [List.append_nil] at h
  | cons b bs => exact isRawLines_of_isTerminated h.left

theorem IsRawLines.take {ls : List Text} (h : IsRawLines ls) (k : Nat) :
    IsRawLines (ls.take k) := by
  rw [← List.take_append_drop k ls] at h
  exact h.of_append

theorem IsRawLines.drop {ls : List Text} (h : IsRawLines ls) (k : Nat) :
    IsRawLines (ls.drop k) := by
  rw [← List.take_append_drop k ls] at h
  exact h.right

/-! ## Cutting a text -/

theorem rawLines_append_newline {c : Text} (hc : '\n' ∉ c) (t : Text) :
    rawLines (c ++ '\n' :: t) = (c ++ ['\n']) :: rawLines t := by
  induction c with
  | nil => simp [rawLines]
  | cons x c ih =>
    obtain ⟨hx, hc⟩ := List.ne_and_not_mem_of_not_mem_cons hc
    rw [List.cons_append, rawLines, if_neg (Ne.symm hx), ih hc]
    rfl

theorem rawLines_of_not_mem {c : Text} (hc : '\n' ∉ c) (hne : c ≠ []) : rawLines c = [c] := by
  induction c with
  | nil => exact absurd rfl hne
  | cons x c ih =>
    obtain ⟨hx, hc⟩ := List.ne_and_not_mem_of_not_mem_cons hc
    rw [rawLines, if_neg (Ne.symm hx)]
    cases c with
    | nil => rfl
    | cons y c => rw [ih hc (List.cons_ne_nil y c)]

/-- Terminated lines in front of a text are the first ones of the whole. -/
theorem rawLines_flatten_append {as : List Text} (ha : ∀ l ∈ as, IsTerminated l) (t : Text) :
    rawLines (as.flatten ++ t) = as ++ rawLines t := by
  induction as with
  | nil => rfl
  | cons l as ih =>
    obtain ⟨c, hc, rfl⟩ := ha l List.mem_cons_self
    rw [List.flatten_cons, List.append_assoc, List.append_assoc, List.singleton_append,
      rawLines_append_newline hc, ih fun l hl => ha l (List.mem_cons_of_mem _ hl)]
    rfl

/-- Induction over the lines of a text: the line in front of its first newline, then the rest. -/
@[elab_as_elim]
theorem line_induction {P : Text → Prop} (t : Text) (last : ∀ u, '\n' ∉ u → P u)
    (line : ∀ c u, '\n' ∉ c → P u → P (c ++ '\n' :: u)) : P t := by
  induction hn : t.length using Nat.strongRecOn generalizing t with
  | _ n ih =>
    by_cases h : '\n' ∈ t
    · obtain ⟨c, u, rfl, hc⟩ := List.eq_append_cons_of_mem h
      refine line c u hc (ih u.length ?_ u rfl)
      rw [List.length_append, List.length_cons] at hn
      omega
    · exact last t h

/-- What follows a line ends where the text ends that starts with it. -/
theorem ends_of_line {c u : Text}
    (h : c ++ '\n' :: u = [] ∨ (c ++ '\n' :: u).getLast? = some '\n') :
    u = [] ∨ u.getLast? = some '\n' := by
  cases u with
  | nil => exact .inl rfl
  | cons x u => simpa [List.getLast?_append, List.getLast?_cons_cons] using h

/-- A text that ends with a newline is cut apart from what follows. -/
theorem rawLines_append {s : Text} (h : s = [] ∨ s.getLast? = some '\n') (t : Text) :
    rawLines (s ++ t) = rawLines s ++ rawLines t := by
  induction s using line_induction with
  | last u hu =>
    rcases h with rfl | h
    · rfl
    · exact absurd (List.mem_of_getLast? h) hu
  | line c u hc ih =>
    rw [List.append_assoc, List.cons_append, rawLines_append_newline hc, ih (ends_of_line h),
      rawLines_append_newline hc]
    rfl

/-- A text is cut at its newlines, and no piece is empty. -/
theorem isRawLines_rawLines (t : Text) : IsRawLines (rawLines t) ∧ [] ∉ rawLines t := by
  induction t using line_induction with
  | last u hu =>
    by_cases hnil : u = []
    · subst hnil
      exact ⟨.nil, by simp [rawLines]⟩
    · rw [rawLines_of_not_mem hu hnil]
      exact ⟨.rest hu, by simpa using Ne.symm hnil⟩
  | line c u hc ih =>
    rw [rawLines_append_newline hc]
    exact ⟨.cons ⟨c, hc, rfl⟩ ih.1, by simpa using ih.2⟩

/-- Raw lines are found again in their text; an empty rest leaves no trace there. -/
theorem rawLines_flatten_eq_filter {ls : List Text} (h : IsRawLines ls) :
    rawLines ls.flatten = ls.filter (!·.isEmpty) := by
  induction h with
  | nil => rfl
  | @rest u hu =>
    by_cases hnil : u = []
    · subst hnil
      rfl
    · rw [List.flatten_singleton, rawLines_of_not_mem hu hnil,
        List.filter_cons_of_pos (by simpa using hnil), List.filter_nil]
  | @cons l ls hl _ ih =>
    obtain ⟨c, hc, rfl⟩ := hl
    rw [List.flatten_cons, List.append_assoc, List.singleton_append, rawLines_append_newline hc, ih,
      List.filter_cons_of_pos (by simp)]

/-- Raw lines that are not empty are those of their text. -/
theorem rawLines_flatten {ls : List Text} (h : IsRawLines ls) (hne : [] ∉ ls) :
    rawLines ls.flatten = ls := by
  rw [rawLines_flatten_eq_filter h, List.filter_eq_self]
  intro l hl
  simpa using fun h0 : l = [] => hne (h0 ▸ hl)

/-- Only the empty text has no lines. -/
@[simp] theorem lines_eq_nil_iff {t : Text} : lines t = [] ↔ t = [] := by
  refine ⟨fun h => ?_, fun h => by rw [h]; rfl⟩
  rw [← flatten_rawLines t, List.map_eq_nil_iff.mp h, List.flatten_nil]

theorem lines_append {s : Text} (h : s = [] ∨ s.getLast? = some '\n') (t : Text) :
    lines (s ++ t) = lines s ++ lines t := by
  rw [lines, rawLines_append h, List.map_append, lines, lines]

theorem lines_append_newline {c : Text} (hc : '\n' ∉ c) (t : Text) :
    lines (c ++ '\n' :: t) = content (c ++ ['\n']) :: lines t := by
  rw [lines, rawLines_append_newline hc, List.map_cons, lines]

theorem newline_not_mem_of_mem_lines {t c : Text} (h : c ∈ lines t) : '\n' ∉ c := by
  obtain ⟨raw, hraw, rfl⟩ := List.mem_map.mp h
  exact newline_not_mem_content ((isRawLines_rawLines t).1.mem hraw)

theorem infix_of_mem_lines {t c : Text} (h : c ∈ lines t) : c <:+: t := by
  obtain ⟨raw, hraw, rfl⟩ := List.mem_map.mp h
  have hcontent : content raw <+: raw := ⟨_, content_append_terminator raw⟩
  have hflat := List.infix_of_mem_flatten hraw
  rw [flatten_rawLines] at hflat
  exact hcontent.isInfix.trans hflat

/-! ## Lines written with terminators -/

theorem terminate_self (e : Text) (ls : List Text) : terminate e e ls = ls.map (· ++ e) := by
  induction ls with
  | nil => rfl
  | cons l ls ih =>
    cases ls with
    | nil => rfl
    | cons l' ls => rw [terminate.eq_3 _ _ _ _ (List.cons_ne_nil l' ls), ih, List.map_cons,
        List.map_cons, List.map_cons]

theorem terminate_concat (e last : Text) (ls : List Text) (l : Text) :
    terminate e last (ls ++ [l]) = ls.map (· ++ e) ++ [l ++ last] := by
  induction ls with
  | nil => rfl
  | cons l' ls ih =>
    cases hls : ls ++ [l] with
    | nil => simp at hls
    | cons l'' ls' =>
      rw [List.cons_append, hls, terminate.eq_3 _ _ _ _ (List.cons_ne_nil l'' ls'), ← hls, ih]
      rfl

/-- Written lines are raw lines: only the last may have been left without a terminator. -/
theorem isRawLines_terminate {e last : Text} {ls : List Text} (hls : ∀ c ∈ ls, '\n' ∉ c)
    (he : IsEnding e) (hlast : last = [] ∨ IsEnding last) : IsRawLines (terminate e last ls) := by
  rcases List.eq_nil_or_concat ls with rfl | ⟨init, l, rfl⟩
  · exact .nil
  · rw [List.concat_eq_append, terminate_concat]
    rw [List.concat_eq_append] at hls
    have hl : '\n' ∉ l := hls l (by simp)
    apply IsRawLines.append
    · intro raw hraw
      obtain ⟨c, hc, rfl⟩ := List.mem_map.mp hraw
      exact isTerminated_append (hls c (List.mem_append_left _ hc)) he
    · rcases hlast with rfl | hlast
      · exact .rest (by simpa using hl)
      · exact .cons (isTerminated_append hl hlast) .nil

/-- Only a last line that is empty and gets no terminator is written as nothing. -/
theorem nil_mem_terminate_iff {e last : Text} (he : e ≠ []) {ls : List Text} :
    [] ∈ terminate e last ls ↔ ls.getLast? = some [] ∧ last = [] := by
  rcases List.eq_nil_or_concat ls with rfl | ⟨init, l, rfl⟩
  · simp [terminate]
  · rw [List.concat_eq_append, terminate_concat, List.getLast?_concat]
    simp [he, eq_comm]

theorem getElem?_terminate (e last : Text) (ls : List Text) (j : Nat) :
    (terminate e last ls)[j]? =
      ls[j]?.map fun c => c ++ if j + 1 = ls.length then last else e := by
  induction ls generalizing j with
  | nil => rfl
  | cons l ls ih =>
    cases ls with
    | nil => cases j <;> simp [terminate]
    | cons l' ls =>
      rw [terminate.eq_3 _ _ _ _ (List.cons_ne_nil l' ls)]
      cases j with
      | zero => simp
      | succ j => simp [ih]

/-- Each written line is a line and one of its terminators. -/
theorem exists_of_mem_terminate {e last raw : Text} {ls : List Text}
    (h : raw ∈ terminate e last ls) : ∃ c ∈ ls, ∃ f, (f = e ∨ f = last) ∧ raw = c ++ f := by
  obtain ⟨j, hj⟩ := List.mem_iff_getElem?.mp h
  rw [getElem?_terminate] at hj
  obtain ⟨c, hc, rfl⟩ := Option.map_eq_some_iff.mp hj
  refine ⟨c, List.mem_of_getElem? hc, _, ?_, rfl⟩
  split
  · exact .inr rfl
  · exact .inl rfl

theorem isTerminated_of_mem_terminate {e last : Text} {ls : List Text}
    (hls : ∀ c ∈ ls, '\n' ∉ c) (he : IsEnding e) (hlast : IsEnding last) :
    ∀ raw ∈ terminate e last ls, IsTerminated raw := by
  intro raw hraw
  obtain ⟨c, hc, f, hf, rfl⟩ := exists_of_mem_terminate hraw
  apply isTerminated_append (hls c hc)
  rcases hf with rfl | rfl
  · exact he
  · exact hlast

/-! ### The text of written lines -/

/-- Lines that are written without a last terminator are joined by the others. -/
theorem flatten_terminate_nil (e : Text) (ls : List Text) :
    (terminate e [] ls).flatten = e.intercalate ls := by
  induction ls with
  | nil => rfl
  | cons l ls ih =>
    cases ls with
    | nil => simp [terminate]
    | cons l' ls =>
      rw [terminate.eq_3 _ _ _ _ (List.cons_ne_nil l' ls), List.flatten_cons, ih,
        List.intercalate_cons_cons]

theorem length_flatten_terminate (e last : Text) {ls : List Text} (h : ls ≠ []) :
    (terminate e last ls).flatten.length =
      ls.flatten.length + (ls.length - 1) * e.length + last.length := by
  induction ls with
  | nil => exact absurd rfl h
  | cons l ls ih =>
    cases ls with
    | nil => simp [terminate]
    | cons l' ls =>
      rw [terminate.eq_3 _ _ _ _ (List.cons_ne_nil l' ls), List.flatten_cons, List.length_append,
        ih (List.cons_ne_nil l' ls)]
      simp only [List.flatten_cons, List.length_append, List.length_cons, Nat.add_sub_cancel,
        Nat.succ_mul]
      omega

/-- Written with another ending, lines make another text. -/
theorem flatten_terminate_self_inj {e e' : Text} (he : IsEnding e) (he' : IsEnding e')
    {ls : List Text} (h : ls ≠ []) :
    (terminate e e ls).flatten = (terminate e' e' ls).flatten ↔ e = e' := by
  refine ⟨fun heq => ?_, fun heq => by rw [heq]⟩
  have hlen := congrArg List.length heq
  rw [length_flatten_terminate e e h, length_flatten_terminate e' e' h] at hlen
  rw [← he.length_inj he']
  rcases he with rfl | rfl <;> rcases he' with rfl | rfl <;> simp at hlen ⊢ <;> omega

/-- The same for lines that end without terminator, if there are at least two. -/
theorem flatten_terminate_nil_inj {e e' : Text} (he : IsEnding e) (he' : IsEnding e')
    {ls : List Text} (h : 1 < ls.length) :
    (terminate e [] ls).flatten = (terminate e' [] ls).flatten ↔ e = e' := by
  refine ⟨fun heq => ?_, fun heq => by rw [heq]⟩
  have hne : ls ≠ [] := List.ne_nil_of_length_pos (Nat.lt_of_succ_lt h)
  have hlen := congrArg List.length heq
  rw [length_flatten_terminate e [] hne, length_flatten_terminate e' [] hne] at hlen
  rw [← he.length_inj he']
  rcases he with rfl | rfl <;> rcases he' with rfl | rfl <;> simp at hlen ⊢ <;> omega

end LinePatch.Text
