import LinePatch.Command.Run
import LinePatch.Proofs.Digest
import LinePatch.Proofs.Document.Search
import LinePatch.Proofs.Patch.Verification

/-!
# Digests that commands print

The command that extracts a block prints its digest on the fourth line, and a patch that is refused
names the digest of what it found. Either can be written into the patch as it stands: it is read as
the digest that was printed, and that is the digest the patch compares with.

* `Command.digest_line_runExtract`: the line with the digest.
* `run_pasted_digest`: runs of patches with a printed digest.
-/

namespace LinePatch

open Text (content)

/-! ## Printed lines -/

theorem newline_not_mem_toString (n : Nat) : '\n' ∉ (toString n).toList := by
  rw [Nat.toString_eq_ofList_toDigits, String.toList_ofList]
  intro hmem
  exact absurd (Nat.isDigit_of_mem_toDigits (by decide) (by decide) hmem) (by decide)

theorem newline_not_mem_append {s s' : String} (h : '\n' ∉ s.toList) (h' : '\n' ∉ s'.toList) :
    '\n' ∉ (s ++ s').toList := by
  rw [String.toList_append, List.mem_append, not_or]
  exact ⟨h, h'⟩

theorem newline_not_mem_message (block : Block) : '\n' ∉ block.message.toList :=
  newline_not_mem_append
    (newline_not_mem_append
      (newline_not_mem_append (by decide) (newline_not_mem_toString (block.first + 1))) (by decide))
    (newline_not_mem_toString (block.last + 1))

/-- A digest is printed without line breaks. -/
theorem not_mem_printed_digest {c : Char} (hc : c = '\r' ∨ c = '\n') (h : UInt64) :
    c ∉ "xxh3: ".toList ++ Digest.literal h := by
  intro hmem
  rcases List.mem_append.mp hmem with hmem | hmem
  · rcases hc with rfl | rfl <;> exact absurd hmem (by decide)
  · have hblank := Digest.isBlank_of_mem_literal c hmem
    rcases hc with rfl | rfl <;> cases hblank

theorem toList_printed_digest (h : UInt64) :
    ("xxh3: " ++ (Digest.literal h).asString).toList = "xxh3: ".toList ++ Digest.literal h :=
  String.toList_append.trans (congrArg ("xxh3: ".toList ++ ·) String.toList_ofList)

/-- The lines of an output are read again from it. -/
theorem lines_toList_unlines {ls : List String} (h : ∀ s ∈ ls, '\n' ∉ s.toList) (rest : Text) :
    Text.lines ((unlines ls).toList ++ rest) =
      ls.map (fun s => content (s.toList ++ ['\n'])) ++ Text.lines rest := by
  induction ls with
  | nil => rfl
  | cons s ls ih =>
    obtain ⟨hs, hls⟩ := List.forall_mem_cons.mp h
    have hunlines : (unlines (s :: ls)).toList ++ rest =
        s.toList ++ '\n' :: ((unlines ls).toList ++ rest) := by
      simp [unlines]
    rw [hunlines, Text.lines_append_newline hs, ih hls]
    rfl

namespace Command

variable {read : Text → Except FileError Text} {target t declaration : Text}
  {marker : Option Text} {kind : Boundary.Kind} {boundary : Boundary} {block : Block} {text : Text}

/-- The fourth line of an extraction that finds its block. -/
theorem digest_line_runExtract (hread : read target = .ok t)
    (hb : kind.boundary? marker = some boundary)
    (hx : (Document.ofText t).extract declaration boundary = .ok block)
    (htext : block.text? (.ofText t) = some text) (showText : Bool) :
    (Text.lines (runExtract read target declaration marker kind showText).stdout.toList)[3]? =
      some ("xxh3: ".toList ++ Digest.literal (digest text)) := by
  simp only [runExtract, hb, hread, hx, htext, Option.getD_some]
  rw [String.toList_append, lines_toList_unlines]
  · refine congrArg some ?_
    change content (("xxh3: " ++ (Digest.literal (digest text)).asString).toList ++ ['\n']) = _
    rw [toList_printed_digest, Text.content_append_newline]
    exact mt List.mem_of_getLast? (not_mem_printed_digest (.inl rfl) _)
  · intro s hs
    simp only [List.mem_cons, List.not_mem_nil, or_false] at hs
    rcases hs with rfl | rfl | rfl | rfl
    · exact newline_not_mem_append (by decide) (newline_not_mem_message block)
    · exact newline_not_mem_append (by decide) (by cases kind <;> decide)
    · exact newline_not_mem_append (by decide) (newline_not_mem_toString block.length)
    · change '\n' ∉ ("xxh3: " ++ (Digest.literal (digest text)).asString).toList
      rw [toList_printed_digest]
      exact not_mem_printed_digest (.inr rfl) _

end Command

/-! ## Pasted digests -/

namespace BlockReplacement

variable {r : BlockReplacement} {algorithm : Option DigestAlgorithm} {h : UInt64}

theorem guard_of_literal (hv : r.verify = some (.hash algorithm (Digest.literal h))) :
    r.guard = .ok (some (.digest h)) := by
  simp only [guard, hv, Verify.guard, Digest.ofLiteral?_literal]

/-- The digest of a text is accepted there, also as it is printed. -/
theorem accepts_of_literal {text : Text}
    (hv : r.verify = some (.hash algorithm (Digest.literal (digest text)))) : r.Accepts text := by
  intro v hv'
  cases hv.symm.trans hv'
  exact Digest.ofLiteral?_literal _

/-- A replacement that expects the digest of its block is not refused. -/
theorem run_ne_verificationFailed {d : Document} {boundary : Boundary} {block : Block}
    {text : Text} (hb : r.boundary? = some boundary)
    (hx : d.extract r.declaration boundary = .ok block) (htext : block.text? d = some text)
    (hv : r.verify = some (.hash algorithm (Digest.literal (digest text)))) (i : Nat) (name : Text)
    (refused : Block) (found : UInt64) :
    run [.replace r] d ≠ .error ⟨i, .verificationFailed name refused found⟩ := by
  intro hrun
  obtain ⟨failure, hop, heq⟩ := run_singleton_eq_error_iff.mp hrun
  cases heq
  obtain ⟨-, ht, -, text', htext', -, hrefused, -⟩ := apply_eq_verificationFailed_iff.mp hop
  -- The block that it was refused for is the one that was extracted.
  obtain ⟨-, boundary', hb', hx', -⟩ := target_eq_ok ht
  cases hb.symm.trans hb'
  cases hx.symm.trans hx'
  cases htext.symm.trans htext'
  exact hrefused (accepts_of_literal hv)

/-- A replacement that was refused succeeds if it expects the digest of what was found. -/
theorem exists_run_of_verificationFailed {d : Document} {i : Nat} {name : Text} {block : Block}
    (hrun : run [.replace r] d = .error ⟨i, .verificationFailed name block h⟩)
    (algorithm : Option DigestAlgorithm) :
    ∃ result, run [.replace { r with verify := some (.hash algorithm (Digest.literal h)) }] d =
      .ok result := by
  obtain ⟨failure, hop, heq⟩ := run_singleton_eq_error_iff.mp hrun
  cases heq
  obtain ⟨-, ht, -, text, htext, -, -, rfl⟩ := apply_eq_verificationFailed_iff.mp hop
  obtain ⟨status, d', happly⟩ := exists_apply_of_accepts (d := d)
    (r := { r with verify := some (.hash algorithm (Digest.literal (digest text))) }) ht
    (guard_of_literal rfl) htext (accepts_of_literal rfl)
  exact ⟨_, run_singleton_eq_ok_iff.mpr ⟨status, d', happly, rfl⟩⟩

end BlockReplacement

/-- **Printed digests can be pasted.** A digest is written as a mark and sixteen digits, and read
again as it was. The digest that an extraction prints, as the expectation of a replacement of that
block, is never refused. And where a replacement is refused, it succeeds with the digest that it
was refused with as its expectation. -/
theorem run_pasted_digest :
    (∀ h : UInt64, (∃ ds, Digest.literal h = '0' :: 'x' :: ds ∧ ds.length = 16 ∧
        ∀ c ∈ ds, c ∈ "0123456789abcdef".toList) ∧
      Digest.ofLiteral? (Digest.literal h) = some h) ∧
    (∀ (d : Document) (declaration : Text) (marker : Option Text) (kind : Boundary.Kind)
        (boundary : Boundary) (block : Block),
      kind.boundary? marker = some boundary → d.extract declaration boundary = .ok block →
      ∃ text, block.text? d = some text ∧
        (∀ (read : Text → Except FileError Text) (target t : Text) (showText : Bool),
          read target = .ok t → d = .ofText t →
          (Text.lines
            (Command.runExtract read target declaration marker kind showText).stdout.toList)[3]? =
              some ("xxh3: ".toList ++ Digest.literal (digest text))) ∧
        ∀ (r : BlockReplacement) (algorithm : Option DigestAlgorithm),
          r.declaration = declaration → r.marker = marker → r.kind = kind →
          r.verify = some (.hash algorithm (Digest.literal (digest text))) →
          ∀ i name refused found,
            run [.replace r] d ≠ .error ⟨i, .verificationFailed name refused found⟩) ∧
    ∀ (d : Document) (r : BlockReplacement) (algorithm : Option DigestAlgorithm) (i : Nat)
        (name : Text) (block : Block) (found : UInt64),
      run [.replace r] d = .error ⟨i, .verificationFailed name block found⟩ →
      ∃ result, run [.replace
        { r with verify := some (.hash algorithm (Digest.literal found)) }] d = .ok result := by
  refine ⟨fun h => ⟨⟨_, rfl, Digest.length_hexDigits 16 _, fun c hc =>
    Digest.mem_lowerDigits_of_mem_hexDigits hc⟩, Digest.ofLiteral?_literal h⟩, ?_, ?_⟩
  · intro d declaration marker kind boundary block hb hx
    obtain ⟨text, htext⟩ := exists_text?_of_extract hx
    refine ⟨text, htext, ?_, ?_⟩
    · rintro read target t showText hread rfl
      exact Command.digest_line_runExtract hread hb hx htext showText
    · rintro r algorithm rfl rfl rfl hverify
      exact BlockReplacement.run_ne_verificationFailed hb hx htext hverify
  · intro d r algorithm i name block found hrun
    exact BlockReplacement.exists_run_of_verificationFailed hrun algorithm

/-- A patch expects another digest. It is refused with the one that an extraction prints, and
succeeds with that. -/
theorem run_pasted_digest_stale :
    let t := "f\x7b\na\n\x7d\n#\n".toList
    let r : BlockReplacement :=
      { declaration := "f".toList
        marker := some "#".toList
        replacement := "f\x7b\nb\n\x7d".toList
        verify := some (.hash none "0xff".toList) }
    let pasted : BlockReplacement :=
      { r with verify := some (.hash none "0xca8d70ec1bead007".toList) }
    Digest.literal 0xca8d70ec1bead007 = "0xca8d70ec1bead007".toList ∧
      run [.replace r] (.ofText t) = .error ⟨0,
        .verificationFailed "f".toList ⟨0, 2, by decide⟩ 0xca8d70ec1bead007⟩ ∧
      (Text.lines (Command.runExtract (fun _ => .ok t) "t".toList "f".toList (some "#".toList)
        .nextMarker true).stdout.toList)[3]? = some "xxh3: 0xca8d70ec1bead007".toList ∧
      (∃ result, run [.replace pasted] (.ofText t) = .ok result) ∧
      ∀ i name block found,
        run [.replace pasted] (.ofText t) ≠ .error ⟨i, .verificationFailed name block found⟩ := by
  intro t r pasted
  obtain ⟨-, hprinted, hrefused⟩ := run_pasted_digest
  have hliteral : Digest.literal 0xca8d70ec1bead007 = "0xca8d70ec1bead007".toList := by rfl
  have hdigest : digest "f\x7b\na\n\x7d\n".toList = 0xca8d70ec1bead007 := by rfl
  have hstale : ¬ r.Accepts "f\x7b\na\n\x7d\n".toList := fun haccepts => by
    have hread : Digest.ofLiteral? "0xff".toList = some (digest "f\x7b\na\n\x7d\n".toList) :=
      haccepts _ rfl
    rw [hdigest] at hread
    exact absurd hread (by decide)
  have happly : r.apply (.ofText t) = .error
      (.verificationFailed "f".toList ⟨0, 2, by decide⟩ 0xca8d70ec1bead007) :=
    BlockReplacement.apply_eq_verificationFailed_iff.mpr
      ⟨rfl, by rfl, ⟨_, by rfl⟩, _, by rfl, by decide, hstale, hdigest.symm⟩
  have hrun : run [.replace r] (.ofText t) = .error ⟨0,
      .verificationFailed "f".toList ⟨0, 2, by decide⟩ 0xca8d70ec1bead007⟩ :=
    run_singleton_eq_error_iff.mpr ⟨_, happly, rfl⟩
  obtain ⟨text, htext, hline, hpasted⟩ := hprinted (.ofText t) r.declaration r.marker r.kind
    (.nextMarker "#".toList) ⟨0, 2, by decide⟩ rfl (by rfl)
  obtain rfl : "f\x7b\na\n\x7d\n".toList = text := Option.some.inj htext
  rw [hdigest, hliteral] at hline hpasted
  obtain ⟨result, hresult⟩ := hrefused _ r none _ _ _ _ hrun
  rw [hliteral] at hresult
  exact ⟨hliteral, hrun, hline (fun _ => .ok t) "t".toList t true rfl rfl, ⟨result, hresult⟩,
    hpasted pasted none rfl rfl rfl rfl⟩

end LinePatch
