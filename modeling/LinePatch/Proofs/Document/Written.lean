import LinePatch.Proofs.Document.Insertion
import LinePatch.Proofs.Text.Plain

/-!
# Documents with one terminator

Documents of plain lines that all have the same terminator. An edit that keeps to lines of this kind
is an edit of the list of lines, whatever the terminator.

* `ofText_written`: such a document is read again as it is.
* `written_toText_inj`: its text determines its lines.
* `splice_written`, `inserted_written`: edits of the lines.
-/

namespace LinePatch.Document

open Text (IsEnding IsPlain IsTerminated)

/-- Lines that are each written with the terminator `e`. -/
def written (e : Text) (cs : List Text) : Document := ⟨cs.map (· ++ e)⟩

variable {e : Text} {cs : List Text}

@[simp] theorem length_written (e : Text) (cs : List Text) : (written e cs).length = cs.length := by
  simp [written, length]

theorem isTerminated_written (he : IsEnding e) (hcs : ∀ c ∈ cs, IsPlain c) :
    ∀ raw ∈ (written e cs).rawLines, IsTerminated raw := by
  intro raw hraw
  obtain ⟨c, hc, rfl⟩ := List.mem_map.mp hraw
  exact Text.isTerminated_append (hcs c hc).2 he

theorem lines_written (he : IsEnding e) (hcs : ∀ c ∈ cs, IsPlain c) :
    (written e cs).lines = cs := by
  rw [lines, written, Text.map_content_append hcs he]

/-! ## Texts -/

theorem ofText_written (he : IsEnding e) (hcs : ∀ c ∈ cs, IsPlain c) :
    ofText (written e cs).toText = written e cs := by
  have hterminated := isTerminated_written he hcs
  have hraw : Text.rawLines (written e cs).toText = (written e cs).rawLines :=
    Text.rawLines_flatten (Text.isRawLines_of_isTerminated hterminated)
      (fun hmem => (hterminated [] hmem).ne_nil rfl)
  rw [ofText, hraw]

/-- The lines of a document are found again in its text. -/
theorem written_toText_inj (he : IsEnding e) {cs' : List Text} (hcs : ∀ c ∈ cs, IsPlain c)
    (hcs' : ∀ c ∈ cs', IsPlain c) :
    (written e cs).toText = (written e cs').toText ↔ cs = cs' := by
  refine ⟨fun h => ?_, fun h => by rw [h]⟩
  rw [← lines_written he hcs, ← lines_written he hcs', ← ofText_written he hcs,
    ← ofText_written he hcs', h]

/-! ## Edits -/

theorem terminator_written (he : IsEnding e) (hcs : ∀ c ∈ cs, IsPlain c) {i : Nat}
    (h : i < cs.length) : (written e cs).terminator i = e := by
  have hraw : (written e cs).rawLine? i = some (cs[i] ++ e) := by
    simp [rawLine?, written, List.getElem?_eq_getElem h]
  simp only [terminator, hraw]
  exact (hcs _ (List.getElem_mem h)).terminator_append he

theorem endingAt_written (he : IsEnding e) (hcs : ∀ c ∈ cs, IsPlain c) {i : Nat}
    (h : i < cs.length) : (written e cs).endingAt i = e := by
  rw [endingAt, terminator_written he hcs h, if_neg]
  simpa using he.ne_nil

theorem sliceText?_written {start stop : Nat} (h : start ≤ stop) (hstop : stop ≤ cs.length) :
    (written e cs).sliceText? start stop =
      some (written e ((cs.drop start).take (stop - start))).toText := by
  rw [sliceText?_eq_some_iff]
  exact ⟨h, by simpa using hstop, by simp [written, toText, List.map_take, List.map_drop]⟩

theorem splice_written (start stop : Nat) (new : List Text) :
    (written e cs).splice start stop (new.map (· ++ e)) =
      written e (cs.take start ++ new ++ cs.drop stop) := by
  simp [written, splice, List.map_take, List.map_drop]

/-- An insertion adds the lines of the snippet. -/
theorem inserted_written (he : IsEnding e) (hcs : ∀ c ∈ cs, IsPlain c) {line : Nat}
    (h : line < cs.length) (snippet : Text) (placement : Placement) :
    (written e cs).inserted line snippet placement =
      written e (cs.take (placement.firstLine line) ++ Text.lines snippet ++
        cs.drop (placement.firstLine line)) := by
  have hending := endingAt_written he hcs h
  rw [← splice_written]
  cases placement with
  | before =>
    simp only [inserted, insertion, Edit.insertAt, Placement.firstLine, Text.terminatedLines,
      hending, Text.terminate_self]
  | after =>
    have hne : ¬ ((written e cs).terminator line).isEmpty = true := by
      rw [terminator_written he hcs h]
      simpa using he.ne_nil
    simp only [inserted, insertion, if_neg hne, Edit.insertAt, Placement.firstLine,
      Text.terminatedLines, hending, Text.terminate_self]

end LinePatch.Document
