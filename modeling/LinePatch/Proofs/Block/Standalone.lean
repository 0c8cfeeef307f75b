import LinePatch.Proofs.Block.Boundary
import LinePatch.Proofs.Braces

/-!
# A replacement on its own

The document in which a replacement is judged: its lines, each ended by `\n`, and a line behind
them.

* `line_standalone`: a line of the replacement, as it is read there.
* `isInline_of_locateFrom_standalone`: what it takes to find the marker behind the replacement.
* `infix_of_spansWholeBlock`: a replacement that is a whole block contains its declaration.
-/

namespace LinePatch

open Text (IsInline IsTerminated content lines rawLines trimNewlines)

variable {replacement declaration : Text} {follower : Option Text}

/-- The raw lines of the line that follows a replacement. -/
def followerLines (follower : Option Text) : List Text :=
  rawLines (match follower with
    | none => []
    | some line => line ++ ['\n'])

/-- The lines of a replacement that stands on its own, then the line that follows. -/
theorem rawLines_standalone (replacement : Text) (follower : Option Text) :
    (standalone replacement follower).rawLines =
      (lines replacement).map (· ++ ['\n']) ++ followerLines follower := by
  have hterminated : ∀ l ∈ (lines replacement).map (· ++ ['\n']), IsTerminated l := by
    intro l hl
    obtain ⟨c, hc, rfl⟩ := List.mem_map.mp hl
    exact ⟨c, Text.newline_not_mem_of_mem_lines hc, rfl⟩
  exact Text.rawLines_flatten_append hterminated _

theorem lines_standalone (replacement : Text) (follower : Option Text) :
    (standalone replacement follower).lines =
      (lines replacement).map (fun c => content (c ++ ['\n'])) ++
        (followerLines follower).map content := by
  simp [Document.lines, rawLines_standalone]

/-- A line of a replacement, as it is read there. -/
theorem line_standalone {j : Nat} {c : Text} (hc : (lines replacement)[j]? = some c)
    (follower : Option Text) :
    (standalone replacement follower).lines[j]? = some (content (c ++ ['\n'])) := by
  have hlt := (List.getElem?_eq_some_iff.mp hc).1
  rw [lines_standalone, List.getElem?_append_left (by simpa using hlt), List.getElem?_map, hc]
  rfl

/-- The lines of a replacement on its own are the lines of the replacement, up to line breaks at
their ends. -/
theorem map_trimNewlines_standalone (replacement : Text) :
    ((lines replacement).map fun c => content (c ++ ['\n'])).map trimNewlines =
      (lines replacement).map trimNewlines := by
  rw [List.map_map]
  apply List.map_congr_left
  intro c _
  rw [Function.comp_apply, Text.trimNewlines_content,
    Text.trimNewlines_append_ending (.inr Text.isEnding_newline)]

/-- If the search for a marker from the second line on ends behind the replacement, it ends at the
line that follows, which is the marker; and that line holds the marker only if its terminator takes
no part in it. No line of the replacement after its first holds the marker. -/
theorem isInline_of_locateFrom_standalone {marker : Text} {upper : Nat} (hmarker : '\n' ∉ marker)
    (h : (standalone replacement (some marker)).locateFrom marker 1 = some upper)
    (hupper : (lines replacement).length ≤ upper) :
    IsInline marker ∧
      ∀ j c, 1 ≤ j → (lines replacement)[j]? = some c → ¬ marker <:+: trimNewlines c := by
  obtain ⟨hne, -, ⟨l, hl, hin⟩, hfirst⟩ := Document.locateFrom_eq_some_iff.mp h
  have hinline : IsInline marker := by
    refine ⟨hmarker, fun hlast => ?_⟩
    obtain ⟨m, rfl⟩ := List.getLast?_eq_some_iff.mp hlast
    -- The line is read without the carriage return, so it is too short for the marker.
    have hfollower : (followerLines (some (m ++ ['\r']))).map content = [m] := by
      have := Text.rawLines_append_newline hmarker []
      simp only [followerLines, this]
      simp [rawLines, Text.content_append_return_newline]
    rw [lines_standalone, List.getElem?_append_right (by simpa using hupper), hfollower,
      List.getElem?_singleton] at hl
    split at hl
    · cases hl
      have hlen := hin.length_le
      rw [List.length_append, List.length_singleton] at hlen
      omega
    · cases hl
  refine ⟨hinline, fun j c hj hc hin' => hfirst j hj ?_ ⟨content (c ++ ['\n']), ?_, ?_⟩⟩
  · have := (List.getElem?_eq_some_iff.mp hc).1
    omega
  · exact line_standalone hc _
  · rwa [← Text.infix_trimNewlines_iff hinline, Text.trimNewlines_content,
      Text.trimNewlines_append_ending (.inr Text.isEnding_newline)]

/-- A replacement that is a whole block starts with the line of its declaration. -/
theorem exists_first_line (h : (standalone replacement follower).locate declaration = some 0)
    (hpos : 0 < (lines replacement).length) :
    ∃ c, (lines replacement)[0]? = some c ∧ declaration <:+: content (c ++ ['\n']) := by
  obtain ⟨-, ⟨l, hline, hin⟩, -⟩ := Document.locate_eq_some_iff.mp h
  have hc := List.getElem?_eq_getElem hpos
  cases hline.symm.trans (line_standalone hc follower)
  exact ⟨_, hc, hin⟩

/-- A replacement that is a whole block contains its declaration. -/
theorem infix_of_spansWholeBlock {boundary : Boundary}
    (h : spansWholeBlock replacement declaration boundary follower = true) :
    declaration <:+: replacement := by
  obtain ⟨block, hx, hfirst, hlast⟩ := spansWholeBlock_iff.mp h
  obtain ⟨hl, -, -⟩ := extract_eq_ok_iff.mp hx
  rw [hfirst] at hl
  obtain ⟨c, hc, hin⟩ := exists_first_line hl (by omega)
  have hmem := List.mem_of_getElem? hc
  have hno := Text.newline_not_mem_of_mem_lines hmem
  have hcontent := Text.content_append_newline_prefix hno (.inl rfl)
  rw [List.append_nil, Text.content_of_not_mem hno] at hcontent
  exact hin.trans (hcontent.isInfix.trans (Text.infix_of_mem_lines hmem))

end LinePatch
