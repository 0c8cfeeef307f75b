import LinePatch.Files.Tree

/-!
# Trees after a write

A write replaces the bytes of a file. All other entries of the tree stay, and so does the place that
a path leads to. The bytes are those of a text, which is what the file reads as afterwards.

* `Text.ofUtf8?_eq_some_iff`: bytes decode to the text that they encode.
* `entry?_replaceBytes`: the entries of the tree after a write.
* `place_replaceBytes`: the places of paths.
* `read_writeText`, `readText_writeText`, `entry?_writeText`: a written file reads as it was
  written, and no other entry has changed.
-/

namespace LinePatch

/-! ## UTF-8 -/

/-- Bytes decode to the text that they encode, and to no other. -/
theorem Text.ofUtf8?_eq_some_iff {bytes : List UInt8} {t : Text} :
    Text.ofUtf8? bytes = some t ↔ bytes = Text.utf8 t := by
  have hbytes : (⟨bytes.toArray⟩ : ByteArray) = bytes.toByteArray :=
    ByteArray.ext List.data_toByteArray.symm
  have hencode : t.utf8Encode = (Text.utf8 t).toByteArray := rfl
  rw [Text.ofUtf8?, hbytes, String.fromUTF8?]
  constructor
  · intro h
    split at h
    · rename_i hvalid
      have ht : (String.fromUTF8 bytes.toByteArray hvalid).toList = t := by simpa using h
      rw [← List.toByteArray_inj, ← hencode, ← String.toByteArray_ofList, ← ht,
        String.ofList_toList]
      rfl
    · cases h
  · rintro rfl
    have hvalid : (Text.utf8 t).toByteArray.IsValidUTF8 :=
      hencode ▸ ByteArray.isValidUTF8_utf8Encode
    rw [dif_pos hvalid, Option.map_some]
    exact congrArg some String.toList_ofList

/-- Decoding undoes encoding. -/
@[simp] theorem Text.ofUtf8?_utf8 (t : Text) : Text.ofUtf8? (Text.utf8 t) = some t :=
  Text.ofUtf8?_eq_some_iff.mpr rfl

namespace FileTree

variable {tree : FileTree} {names : List Text} {bytes : List UInt8} {path : Text}

/-! ## Entries and places -/

/-- The entry with other bytes, if it is a file. -/
def Entry.withBytes (bytes : List UInt8) : Entry → Entry
  | .file _ => .file bytes
  | .directory => .directory

theorem entry?_replaceBytes (ns : List Text) :
    entry? (tree.replaceBytes names bytes) ns =
      Option.map (fun e => if ns = names then e.withBytes bytes else e) ( tree.entry? ns) := by
  -- The names of the files are the same.
  have hnames : ∀ p : List Text → Bool,
      (fun f : List Text × List UInt8 => p f.1) ∘
        (fun (ns, old) => if ns = names then (ns, bytes) else (ns, old)) = fun f => p f.1 := by
    intro p
    funext ⟨ns, old⟩
    simp only [Function.comp_apply]
    split <;> rfl
  unfold entry? replaceBytes
  simp only [List.find?_map, List.any_map, hnames (· == ns), hnames (ns.isPrefixOf ·)]
  cases hfind : tree.files.find? (·.1 == ns) with
  | none =>
    simp only [Option.map_none]
    split
    · simp [Entry.withBytes]
    · rfl
  | some f =>
    obtain ⟨ns', old⟩ := f
    have hns : ns' = ns := by simpa using List.find?_some hfind
    subst hns
    by_cases h : ns' = names
    · simp [h, Entry.withBytes]
    · simp [h]

theorem walk_replaceBytes (here : Option (List Text)) (parts : List Text) :
    (tree.replaceBytes names bytes).walk here parts = tree.walk here parts := by
  induction parts generalizing here with
  | nil => cases here <;> rfl
  | cons part parts ih =>
    cases here with
    | none => simp only [walk, ih]
    | some here =>
      simp only [walk, ih, entry?_replaceBytes]
      cases tree.entry? here.reverse with
      | none => rfl
      | some e =>
        -- The walk does not look at the bytes of a file.
        cases e <;> by_cases h : here.reverse = names <;> simp [h, Entry.withBytes]

/-- A path leads to the same place after a write. -/
theorem place_replaceBytes (path : Text) :
    (tree.replaceBytes names bytes).place path = tree.place path := by
  unfold place
  simp only [walk_replaceBytes]

/-! ## Reading what was written -/

/-- A file reads as the text that its bytes encode. -/
theorem readText_eq_ok_iff {t : Text} :
    tree.readText path = .ok t ↔ tree.read path = .ok (Text.utf8 t) := by
  unfold readText
  cases hread : tree.read path with
  | error e => simp
  | ok bytes =>
    simp only [Except.ok.injEq, ← Text.ofUtf8?_eq_some_iff]
    cases Text.ofUtf8? bytes <;> simp

/-- A file that can be read reads as it was written. -/
theorem read_writeText {old : List UInt8} (h : tree.read path = .ok old) (t : Text) :
    (tree.writeText path t).read path = .ok (Text.utf8 t) := by
  unfold read at h
  split at h
  · cases h
  · cases h
  · rename_i names hplace
    split at h
    · cases h
    · cases h
    · rename_i bytes hentry
      have hwrite : tree.writeText path t = tree.replaceBytes names (Text.utf8 t) := by
        simp only [writeText, hplace]
      simp [read, hwrite, place_replaceBytes, hplace, entry?_replaceBytes, hentry, Entry.withBytes]

/-- A file that reads as a text reads as the text that is written to it. -/
theorem readText_writeText {old : Text} (h : tree.readText path = .ok old) (t : Text) :
    (tree.writeText path t).readText path = .ok t :=
  readText_eq_ok_iff.mpr (read_writeText (readText_eq_ok_iff.mp h) t)

/-- Only the entry at the place of the path can change. -/
theorem entry?_writeText {t : Text} {ns : List Text}
    (h : entry? (tree.writeText path t) ns ≠ tree.entry? ns) : tree.place path = .ok (some ns) := by
  unfold writeText at h
  split at h
  · exact absurd rfl h
  · exact absurd rfl h
  · rename_i names hplace
    rw [hplace]
    by_cases hns : ns = names
    · rw [hns]
    · simp [entry?_replaceBytes, hns] at h

end FileTree

end LinePatch
