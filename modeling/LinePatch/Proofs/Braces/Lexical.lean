import LinePatch.Proofs.Block.Nesting
import Mathlib.Data.List.Basic

/-!
# Comments and literals

Which braces of a text stand in code, by a grammar over its lines. A comment or a literal hides all
up to where it ends, which may be on a later line; what is neither is code.

* `Lexes`: the grammar, for lines that each end in `\n`.
* `Lexes.unique`: it is not ambiguous. Where a comment or a literal ends is decided by its text.
* `LexesFrom.line`: the step, for one line. A scan reads a line as the grammar does, also from
  inside of a comment or a literal.
* `Nesting.exists_lexesFrom`: the same for the nesting of any lines.
-/

namespace LinePatch

open Text (lines)

/-- Lines as a text in which each of them ends in `\n`. -/
def Text.unlines (ls : List Text) : Text := (ls.map (· ++ ['\n'])).flatten

theorem Text.unlines_cons (l : Text) (ls : List Text) :
    unlines (l :: ls) = l ++ '\n' :: unlines ls := by
  simp [unlines]

namespace Brace

/-! ## The grammar -/

/-- What may stand in a literal in front of the quote that ends it. A backslash takes the next
character with it, but not the end of its line. -/
inductive Inside (quote : Char) : Text → Prop
  | nil : Inside quote []
  | char {c : Char} {w : Text} (hquote : c ≠ quote) (hescape : c ≠ '\\') (hw : Inside quote w) :
    Inside quote (c :: w)
  | escape {c : Char} {w : Text} (hc : c ≠ '\n') (hw : Inside quote w) :
    Inside quote ('\\' :: c :: w)
  | lineEnd {w : Text} (hw : Inside quote ('\n' :: w)) : Inside quote ('\\' :: '\n' :: w)

/-- A text starts with what opens a block comment or a literal, and `u` is behind it. -/
inductive Opens : Mode → Text → Text → Prop
  | comment {u : Text} : Opens .comment ('/' :: '*' :: u) u
  | literal {quote : Char} {u : Text} (hquote : quote = '"' ∨ quote = '\'' ∨ quote = '`') :
    Opens (.literal quote) (quote :: u) u

/-- A block comment or a literal goes on in a text and ends there, and `rest` follows it. -/
inductive Closes : Mode → Text → Text → Prop
  | comment {w u rest : Text} (hu : u = w ++ '*' :: '/' :: rest) (hw : ¬ ['*', '/'] <:+: w) :
    Closes .comment u rest
  | literal {quote : Char} {w u rest : Text} (hu : u = w ++ quote :: rest) (hw : Inside quote w)
    (hline : quote = '\'' → '\n' ∉ w) : Closes (.literal quote) u rest
  /-- A single-quoted literal also ends with its line. -/
  | lineEnd {w u rest : Text} (hu : u = w ++ '\n' :: rest) (hw : Inside '\'' (w ++ ['\n']))
    (hline : '\n' ∉ w) : Closes (.literal '\'') u ('\n' :: rest)

/-- A block comment or a literal goes on in a text and does not end. -/
inductive StaysOpen : Mode → Text → Prop
  | comment {w : Text} (hw : ¬ ['*', '/'] <:+: w) : StaysOpen .comment w
  | literal {quote : Char} {w : Text} (hquote : quote ≠ '\'') (hw : Inside quote w) :
    StaysOpen (.literal quote) w

/-- A character that is a brace or starts a comment or a literal, in front of the text `t`. -/
def IsSpecial (c : Char) (t : Text) : Prop :=
  c = '{' ∨ c = '}' ∨ (c = '"' ∨ c = '\'' ∨ c = '`') ∨
    c = '/' ∧ (t.head? = some '/' ∨ t.head? = some '*')

/-- The braces of a text that stand in code, and whether a comment or a literal is open at its
end. The lines of the text end in `\n`. -/
inductive Lexes : Text → List Brace → Bool → Prop
  | nil : Lexes [] [] false
  | opening {t : Text} {bs : List Brace} {isOpen : Bool} (h : Lexes t bs isOpen) :
    Lexes ('{' :: t) (.opening :: bs) isOpen
  | closing {t : Text} {bs : List Brace} {isOpen : Bool} (h : Lexes t bs isOpen) :
    Lexes ('}' :: t) (.closing :: bs) isOpen
  | other {c : Char} {t : Text} {bs : List Brace} {isOpen : Bool} (hc : ¬ IsSpecial c t)
    (h : Lexes t bs isOpen) : Lexes (c :: t) bs isOpen
  /-- `//` hides the rest of its line. -/
  | lineComment {w t u : Text} {bs : List Brace} {isOpen : Bool} (hu : u = w ++ '\n' :: t)
    (hw : '\n' ∉ w) (h : Lexes ('\n' :: t) bs isOpen) : Lexes ('/' :: '/' :: u) bs isOpen
  | hidden {mode : Mode} {t u rest : Text} {bs : List Brace} {isOpen : Bool}
    (hopen : Opens mode t u) (hclose : Closes mode u rest) (h : Lexes rest bs isOpen) :
    Lexes t bs isOpen
  | unclosed {mode : Mode} {t u : Text} (hopen : Opens mode t u) (hstay : StaysOpen mode u) :
    Lexes t [] true

/-! ## Where comments and literals end -/

section End

variable {mode mode' : Mode} {quote c : Char} {t u u' rest rest' w w' : Text}

theorem Mode.IsProper.ne_backslash (h : (Mode.literal quote).IsProper) : quote ≠ '\\' := by
  rcases h with rfl | rfl | rfl <;> decide

theorem Mode.IsProper.ne_newline (h : (Mode.literal quote).IsProper) : quote ≠ '\n' := by
  rcases h with rfl | rfl | rfl <;> decide

/-- The inside of a literal does not go on behind a quote that no backslash takes. -/
theorem Inside.not_prefix (hquote : quote ≠ '\\') (hw : Inside quote w)
    (hw' : Inside quote w') : ¬ w ++ [quote] <+: w' := by
  rintro ⟨v, hv⟩
  induction hw generalizing w' with
  | nil =>
    cases hw' with
    | nil => simp at hv
    | char hne => exact hne (List.cons.inj hv).1.symm
    | escape => exact hquote (List.cons.inj hv).1
    | lineEnd => exact hquote (List.cons.inj hv).1
  | char _ hescape _ ih =>
    cases hw' with
    | nil => simp at hv
    | char _ _ hw' => exact ih hw' (List.cons.inj hv).2
    | escape => exact hescape (List.cons.inj hv).1
    | lineEnd => exact hescape (List.cons.inj hv).1
  | escape hc _ ih =>
    cases hw' with
    | nil => simp at hv
    | char _ hne => exact hne (List.cons.inj hv).1.symm
    | escape _ hw' => exact ih hw' (List.cons.inj (List.cons.inj hv).2).2
    | lineEnd => exact hc (List.cons.inj (List.cons.inj hv).2).1
  | lineEnd _ ih =>
    cases hw' with
    | nil => simp at hv
    | char _ hne => exact hne (List.cons.inj hv).1.symm
    | escape hne => exact hne (List.cons.inj (List.cons.inj hv).2).1.symm
    | lineEnd hw' => exact ih hw' (List.cons.inj hv).2

theorem Inside.append (hw : Inside quote w) (hw' : Inside quote w') : Inside quote (w ++ w') := by
  induction hw with
  | nil => exact hw'
  | char hquote hescape _ ih => exact .char hquote hescape ih
  | escape hc _ ih => exact .escape hc ih
  | lineEnd _ ih => exact .lineEnd ih

/-- A literal ends at one quote only. -/
theorem Inside.append_inj (hquote : quote ≠ '\\') (hw : Inside quote w) (hw' : Inside quote w')
    (h : w ++ quote :: rest = w' ++ quote :: rest') : rest = rest' := by
  rcases List.append_eq_append_iff.mp h with ⟨v, rfl, hv⟩ | ⟨v, rfl, hv⟩
  · cases v with
    | nil => exact (List.cons.inj hv).2
    | cons x v =>
      obtain rfl := (List.cons.inj hv).1
      exact absurd ⟨v, by simp⟩ (hw.not_prefix hquote hw')
  · cases v with
    | nil => exact (List.cons.inj hv).2.symm
    | cons x v =>
      obtain rfl := (List.cons.inj hv).1
      exact absurd ⟨v, by simp⟩ (hw'.not_prefix hquote hw)

/-- A comment ends at one `*/` only. -/
theorem comment_append_inj (hw : ¬ ['*', '/'] <:+: w) (hw' : ¬ ['*', '/'] <:+: w')
    (h : w ++ '*' :: '/' :: rest = w' ++ '*' :: '/' :: rest') : rest = rest' := by
  -- If `v` were between the two ends, the first of them would be in it.
  have hnil : ∀ {a v r r' : Text}, ¬ ['*', '/'] <:+: a ++ v →
      '*' :: '/' :: r = v ++ '*' :: '/' :: r' → r = r' := by
    intro a v r r' hno hv
    match v, hv with
    | [], hv => simpa using hv
    | [x], hv => simp at hv
    | x :: y :: v, hv =>
      simp only [List.cons_append, List.cons.injEq] at hv
      obtain ⟨rfl, rfl, -⟩ := hv
      exact absurd ⟨a, v, by simp⟩ hno
  rcases List.append_eq_append_iff.mp h with ⟨v, rfl, hv⟩ | ⟨v, rfl, hv⟩
  · exact hnil hw' hv
  · exact (hnil hw hv).symm

theorem append_newline_inj (hw : '\n' ∉ w) (hw' : '\n' ∉ w')
    (h : w ++ '\n' :: rest = w' ++ '\n' :: rest') : w = w' ∧ rest = rest' := by
  have hlines := congrArg Text.rawLines h
  rw [Text.rawLines_append_newline hw, Text.rawLines_append_newline hw'] at hlines
  obtain rfl := List.append_cancel_right (List.cons.inj hlines).1
  exact ⟨rfl, (List.cons.inj (List.append_cancel_left h)).2⟩

/-- A single-quoted literal that ends at a quote does not end with its line. -/
theorem Inside.append_ne (hquote : quote ≠ '\\') (hnewline : quote ≠ '\n') (hw : Inside quote w)
    (hline : '\n' ∉ w) (hw' : Inside quote (w' ++ ['\n'])) :
    w ++ quote :: rest ≠ w' ++ '\n' :: rest' := by
  intro h
  rcases List.append_eq_append_iff.mp h with ⟨v, rfl, hv⟩ | ⟨v, rfl, hv⟩
  · cases v with
    | nil => exact hnewline (List.cons.inj hv).1
    | cons x v =>
      obtain rfl := (List.cons.inj hv).1
      exact hw.not_prefix hquote hw' ⟨v ++ ['\n'], by simp⟩
  · cases v with
    | nil => exact hnewline (List.cons.inj hv).1.symm
    | cons x v =>
      obtain rfl := (List.cons.inj hv).1
      simp at hline

theorem Closes.unique (hmode : mode.IsProper) (h : Closes mode u rest) (h' : Closes mode u rest') :
    rest = rest' := by
  cases h with
  | comment hu hw =>
    cases h' with
    | comment hu' hw' => exact comment_append_inj hw hw' (hu.symm.trans hu')
  | literal hu hw hline =>
    cases h' with
    | literal hu' hw' => exact hw.append_inj hmode.ne_backslash hw' (hu.symm.trans hu')
    | lineEnd hu' hw' =>
      exact absurd (hu.symm.trans hu')
        (hw.append_ne hmode.ne_backslash hmode.ne_newline (hline rfl) hw')
  | lineEnd hu hw hline =>
    cases h' with
    | literal hu' hw' hline' =>
      exact absurd (hu'.symm.trans hu)
        (hw'.append_ne hmode.ne_backslash hmode.ne_newline (hline' rfl) hw)
    | lineEnd hu' _ hline' => rw [(append_newline_inj hline hline' (hu.symm.trans hu')).2]

theorem Closes.not_staysOpen (hmode : mode.IsProper) (h : Closes mode u rest) :
    ¬ StaysOpen mode u := by
  intro h'
  cases h with
  | @comment w _ _ hu =>
    cases h' with
    | comment hno => exact hno ⟨w, rest, by simp [hu]⟩
  | literal hu hw =>
    cases h' with
    | literal _ hw' => exact hw.not_prefix hmode.ne_backslash hw' ⟨rest, by simp [hu]⟩
  | lineEnd =>
    cases h' with
    | literal hne => exact hne rfl

theorem Opens.isProper (h : Opens mode t u) : mode.IsProper := by
  cases h with
  | comment => trivial
  | literal hquote => exact hquote

theorem Opens.isSpecial (h : Opens mode (c :: t) u) : IsSpecial c t := by
  cases h with
  | comment => exact .inr (.inr (.inr ⟨rfl, .inr rfl⟩))
  | literal hquote => exact .inr (.inr (.inl hquote))

theorem Opens.unique (h : Opens mode t u) (h' : Opens mode' t u') : mode = mode' ∧ u = u' := by
  cases h with
  | comment =>
    cases h' with
    | comment => exact ⟨rfl, rfl⟩
    | literal hquote => simp at hquote
  | literal hquote =>
    cases h' with
    | comment => simp at hquote
    | literal => exact ⟨rfl, rfl⟩

end End

/-! ## One way to read a text -/

namespace Lexes

variable {mode : Mode} {c : Char} {t u w : Text} {bs bs' : List Brace} {isOpen isOpen' : Bool}

theorem of_opening (h : Lexes ('{' :: t) bs isOpen) :
    ∃ bs', bs = .opening :: bs' ∧ Lexes t bs' isOpen := by
  cases h with
  | opening h => exact ⟨_, rfl, h⟩
  | other hc => exact absurd (.inl rfl) hc
  | hidden hopen => cases hopen with | literal hquote => simp at hquote
  | unclosed hopen => cases hopen with | literal hquote => simp at hquote

theorem of_closing (h : Lexes ('}' :: t) bs isOpen) :
    ∃ bs', bs = .closing :: bs' ∧ Lexes t bs' isOpen := by
  cases h with
  | closing h => exact ⟨_, rfl, h⟩
  | other hc => exact absurd (.inr (.inl rfl)) hc
  | hidden hopen => cases hopen with | literal hquote => simp at hquote
  | unclosed hopen => cases hopen with | literal hquote => simp at hquote

theorem of_other (hc : ¬ IsSpecial c t) (h : Lexes (c :: t) bs isOpen) : Lexes t bs isOpen := by
  cases h with
  | opening => exact absurd (.inl rfl) hc
  | closing => exact absurd (.inr (.inl rfl)) hc
  | other _ h => exact h
  | lineComment => exact absurd (.inr (.inr (.inr ⟨rfl, .inl rfl⟩))) hc
  | hidden hopen => exact absurd hopen.isSpecial hc
  | unclosed hopen => exact absurd hopen.isSpecial hc

theorem of_lineComment (hu : u = w ++ '\n' :: t) (hw : '\n' ∉ w)
    (h : Lexes ('/' :: '/' :: u) bs isOpen) : Lexes ('\n' :: t) bs isOpen := by
  cases h with
  | other hc => exact absurd (.inr (.inr (.inr ⟨rfl, .inl rfl⟩))) hc
  | lineComment hu' hw' h => rwa [(append_newline_inj hw hw' (hu.symm.trans hu')).2]
  | hidden hopen => cases hopen with | literal hquote => simp at hquote
  | unclosed hopen => cases hopen with | literal hquote => simp at hquote

theorem of_opens (hopen : Opens mode t u) (h : Lexes t bs isOpen) :
    (∃ rest, Closes mode u rest ∧ Lexes rest bs isOpen) ∨
      StaysOpen mode u ∧ bs = [] ∧ isOpen = true := by
  cases h with
  | nil => cases hopen
  | opening => cases hopen with | literal hquote => simp at hquote
  | closing => cases hopen with | literal hquote => simp at hquote
  | other hc => exact absurd hopen.isSpecial hc
  | lineComment => cases hopen with | literal hquote => simp at hquote
  | hidden hopen' hclose h =>
    obtain ⟨rfl, rfl⟩ := hopen.unique hopen'
    exact .inl ⟨_, hclose, h⟩
  | unclosed hopen' hstay =>
    obtain ⟨rfl, rfl⟩ := hopen.unique hopen'
    exact .inr ⟨hstay, rfl, rfl⟩

/-- **The grammar is not ambiguous.** -/
theorem unique (h : Lexes t bs isOpen) (h' : Lexes t bs' isOpen') :
    bs = bs' ∧ isOpen = isOpen' := by
  induction h generalizing bs' isOpen' with
  | nil =>
    cases h' with
    | nil => exact ⟨rfl, rfl⟩
    | hidden hopen => cases hopen
    | unclosed hopen => cases hopen
  | opening _ ih =>
    obtain ⟨bs', rfl, hrest⟩ := h'.of_opening
    obtain ⟨rfl, rfl⟩ := ih hrest
    exact ⟨rfl, rfl⟩
  | closing _ ih =>
    obtain ⟨bs', rfl, hrest⟩ := h'.of_closing
    obtain ⟨rfl, rfl⟩ := ih hrest
    exact ⟨rfl, rfl⟩
  | other hc _ ih => exact ih (h'.of_other hc)
  | lineComment hu hw _ ih => exact ih (h'.of_lineComment hu hw)
  | hidden hopen hclose _ ih =>
    rcases h'.of_opens hopen with ⟨rest, hclose', h'⟩ | ⟨hstay, -, -⟩
    · rw [← hclose.unique hopen.isProper hclose'] at h'
      exact ih h'
    · exact absurd hstay (hclose.not_staysOpen hopen.isProper)
  | unclosed hopen hstay =>
    rcases h'.of_opens hopen with ⟨rest, hclose, -⟩ | ⟨-, rfl, rfl⟩
    · exact absurd hstay (hclose.not_staysOpen hopen.isProper)
    · exact ⟨rfl, rfl⟩

end Lexes

/-! ## Lines -/

/-- What is read of a text that starts inside of a comment or a literal, or in code. -/
inductive LexesFrom : Mode → Text → List Brace → Bool → Prop
  | code {t : Text} {bs : List Brace} {isOpen : Bool} (h : Lexes t bs isOpen) :
    LexesFrom .code t bs isOpen
  | hidden {mode : Mode} {t rest : Text} {bs : List Brace} {isOpen : Bool}
    (hclose : Closes mode t rest) (h : Lexes rest bs isOpen) : LexesFrom mode t bs isOpen
  | unclosed {mode : Mode} {t : Text} (hstay : StaysOpen mode t) : LexesFrom mode t [] true

namespace LexesFrom

variable {mode : Mode} {quote c : Char} {l t u v : Text} {bs : List Brace} {isOpen : Bool}

theorem lexes (h : LexesFrom .code t bs isOpen) : Lexes t bs isOpen := by
  cases h with
  | code h => exact h
  | hidden hclose => cases hclose
  | unclosed hstay => cases hstay

theorem of_opens (hopen : Opens mode t u) (h : LexesFrom mode u bs isOpen) :
    Lexes t bs isOpen := by
  cases h with
  | code => cases hopen
  | hidden hclose h => exact .hidden hopen hclose h
  | unclosed hstay => exact .unclosed hopen hstay

/-- One more character of a comment, which does not end in front of it. -/
theorem comment_cons (hc : c = '*' → t.head? ≠ some '/') (h : LexesFrom .comment t bs isOpen) :
    LexesFrom .comment (c :: t) bs isOpen := by
  have hno : ∀ {w : Text}, ¬ ['*', '/'] <:+: w → (w.head? = some '/' → t.head? = some '/') →
      ¬ ['*', '/'] <:+: c :: w := by
    intro w hw hhead hin
    rcases List.infix_cons_iff.mp hin with hprefix | hin
    · obtain ⟨hstar, v, rfl⟩ := List.cons_prefix_cons.mp hprefix
      exact hc hstar.symm (hhead rfl)
    · exact hw hin
  cases h with
  | @hidden _ _ rest _ _ hclose h =>
    cases hclose with
    | @comment w _ _ hu hw =>
      refine .hidden (.comment (w := c :: w) (by rw [hu]; rfl) (hno hw fun hhead => ?_)) h
      obtain ⟨w, rfl⟩ := List.head?_eq_some_iff.mp hhead
      rw [hu]
      rfl
  | unclosed hstay =>
    cases hstay with
    | comment hw => exact .unclosed (.comment (hno hw id))

/-- More of the inside of a literal. -/
theorem literal_append (hv : Inside quote v) (hline : quote = '\'' → '\n' ∉ v)
    (h : LexesFrom (.literal quote) t bs isOpen) :
    LexesFrom (.literal quote) (v ++ t) bs isOpen := by
  cases h with
  | hidden hclose h =>
    cases hclose with
    | @literal _ w _ _ hu hw hline' =>
      refine .hidden (.literal (w := v ++ w) (by rw [hu, List.append_assoc]) (hv.append hw) ?_) h
      intro hquote hmem
      exact (List.mem_append.mp hmem).elim (hline hquote) (hline' hquote)
    | @lineEnd w _ _ hu hw hline' =>
      refine .hidden (.lineEnd (w := v ++ w) (by rw [hu, List.append_assoc]) ?_ ?_) h
      · rw [List.append_assoc]
        exact hv.append hw
      · exact fun hmem => (List.mem_append.mp hmem).elim (hline rfl) hline'
  | unclosed hstay =>
    cases hstay with
    | literal hquote hw => exact .unclosed (.literal hquote (hv.append hw))

theorem newline (h : Lexes t bs isOpen) : Lexes ('\n' :: t) bs isOpen :=
  .other (by simp [IsSpecial]) h

/-- The rest of a line inside of a literal. -/
theorem literal_lineEnd (hu : Inside quote (u ++ ['\n'])) (hline : '\n' ∉ u)
    (h : LexesFrom (Mode.literal quote).endLine t bs isOpen) :
    LexesFrom (.literal quote) (u ++ '\n' :: t) bs isOpen := by
  by_cases hquote : quote = '\''
  · subst hquote
    exact .hidden (.lineEnd rfl hu hline) (newline h.lexes)
  · have hend : (Mode.literal quote).endLine = .literal quote := by
      rw [Mode.endLine]
      exact fun heq => hquote (Mode.literal.inj heq)
    rw [hend] at h
    have := h.literal_append hu fun h => absurd h hquote
    rwa [List.append_assoc] at this

/-- At the end of the lines, what is open stays open. -/
theorem nil (hend : mode.endLine = mode) : LexesFrom mode [] [] (mode != .code) := by
  cases mode with
  | code => exact .code .nil
  | comment => exact .unclosed (.comment (by simp))
  | literal quote =>
    refine .unclosed (.literal ?_ .nil)
    rintro rfl
    cases hend

/-- **A scan of a line reads it as the grammar does.** -/
theorem line (hmode : mode.IsProper) (hl : '\n' ∉ l)
    (h : LexesFrom (codeBraces mode l).2.endLine t bs isOpen) :
    LexesFrom mode (l ++ '\n' :: t) ((codeBraces mode l).1 ++ bs) isOpen := by
  fun_induction codeBraces mode l with
  | case1 mode =>
    cases mode with
    | code => exact .code (newline h.lexes)
    | comment => exact h.comment_cons fun hc => absurd hc (by decide)
    | literal quote => exact literal_lineEnd (.char hmode.ne_newline.symm (by decide) .nil) hl h
  | case2 cs ih =>
    have hcs := List.not_mem_of_not_mem_cons (List.not_mem_of_not_mem_cons hl)
    exact .hidden (.comment (w := []) rfl (by simp)) (ih trivial hcs h).lexes
  | case3 c cs hno ih =>
    refine (ih trivial (List.not_mem_of_not_mem_cons hl) h).comment_cons fun hc hhead => ?_
    cases cs with
    | nil => simp at hhead
    | cons x cs => exact hno cs hc (by simpa using hhead)
  | case4 quote c cs ih =>
    obtain ⟨hc, hcs⟩ := List.ne_and_not_mem_of_not_mem_cons (List.not_mem_of_not_mem_cons hl)
    exact (ih hmode hcs h).literal_append (v := ['\\', c]) (.escape hc.symm .nil)
      fun _ => by simp [hc]
  | case5 quote =>
    exact literal_lineEnd (u := ['\\'])
      (.lineEnd (.char hmode.ne_newline.symm (by decide) .nil)) hl h
  | case6 quote c cs hno hno' ih =>
    have hescape : c ≠ '\\' := by
      rintro rfl
      cases cs with
      | nil => exact hno' rfl rfl
      | cons c cs => exact hno c cs rfl rfl
    obtain ⟨hc, hcs⟩ := List.ne_and_not_mem_of_not_mem_cons hl
    by_cases hquote : c = quote
    · rw [if_pos hquote] at ih h ⊢
      exact .hidden (.literal (w := []) (by rw [hquote]; rfl) .nil (by simp))
        (ih trivial hcs h).lexes
    · rw [if_neg hquote] at ih h ⊢
      exact (ih hmode hcs h).literal_append (v := [c]) (.char hquote hescape .nil)
        fun _ => by simp [hc]
  | case7 cs =>
    have hcs := List.not_mem_of_not_mem_cons (List.not_mem_of_not_mem_cons hl)
    exact .code (.lineComment rfl hcs (newline h.lexes))
  | case8 cs ih =>
    have hcs := List.not_mem_of_not_mem_cons (List.not_mem_of_not_mem_cons hl)
    exact .code (of_opens .comment (ih trivial hcs h))
  | case9 cs bs' mode hcs ih =>
    rw [hcs] at ih
    exact .code (.opening (ih trivial (List.not_mem_of_not_mem_cons hl) h).lexes)
  | case10 cs bs' mode hcs ih =>
    rw [hcs] at ih
    exact .code (.closing (ih trivial (List.not_mem_of_not_mem_cons hl) h).lexes)
  | case11 c cs hno hno' hopen hclose ih =>
    have hcs := List.not_mem_of_not_mem_cons hl
    by_cases hquote : c = '"' ∨ c = '\'' ∨ c = '`'
    · rw [if_pos hquote] at ih h ⊢
      exact .code (of_opens (.literal hquote) (ih hquote hcs h))
    · rw [if_neg hquote] at ih h ⊢
      refine .code (.other ?_ (ih trivial hcs h).lexes)
      rintro (hc | hc | hc | ⟨hc, hhead⟩)
      · exact hopen hc
      · exact hclose hc
      · exact hquote hc
      · -- The line break behind the line is no `/` and no `*`.
        cases cs with
        | nil => simp at hhead
        | cons x cs =>
          have hx : x = '/' ∨ x = '*' := by simpa using hhead
          rcases hx with rfl | rfl
          · exact hno cs hc rfl
          · exact hno' cs hc rfl

end LexesFrom

end Brace

/-! ## The nesting of lines -/

namespace Nesting

open Brace (LexesFrom)

/-- Braces say nothing of what is open. -/
theorem foldl_brace_with_mode (n : Nesting) (mode : Brace.Mode) (bs : List Brace) :
    bs.foldl brace { n with mode } = { bs.foldl brace n with mode } := by
  induction bs generalizing n with
  | nil => rfl
  | cons b bs ih =>
    cases b with
    | opening => exact ih (n.brace .opening)
    | closing => exact ih (n.brace .closing)

/-- The nesting of lines is that of the braces that the grammar finds in them. -/
theorem exists_lexesFrom {n : Nesting} (hproper : n.mode.IsProper)
    (hend : n.mode.endLine = n.mode) {ls : List Text} (hls : ∀ l ∈ ls, '\n' ∉ l) :
    ∃ bs, LexesFrom n.mode (Text.unlines ls) bs (n.lines ls).inLiteral ∧
      n.lines ls = { bs.foldl brace n with mode := (n.lines ls).mode } := by
  induction ls generalizing n with
  | nil =>
    exact ⟨[], .nil hend, rfl⟩
  | cons l ls ih =>
    obtain ⟨hl, hls⟩ := List.forall_mem_cons.mp hls
    obtain ⟨bs, hlexes, hlines⟩ := ih (n := n.line l) (isProper_line hproper)
      (Brace.Mode.endLine_endLine _) hls
    refine ⟨(Brace.codeBraces n.mode l).1 ++ bs, ?_, ?_⟩
    · rw [Text.unlines_cons]
      exact hlexes.line hproper hl
    · have hline : n.line l =
          { (Brace.codeBraces n.mode l).1.foldl brace n with
            mode := (Brace.codeBraces n.mode l).2.endLine } := rfl
      change (n.line l).lines ls = _
      rw [hlines, hline, foldl_brace_with_mode, List.foldl_append]
      rfl

end Nesting

end LinePatch
