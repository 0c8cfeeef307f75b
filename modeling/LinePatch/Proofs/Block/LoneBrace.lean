import LinePatch.Proofs.Block.Nesting
import Mathlib.Data.Nat.Find

/-!
# The lone brace that ends a block

The next-marker boundary looks for a line that is a closing brace and nothing else, from the back
and without regard to what is open there. It then asks whether the lines up to it are balanced, and
this is enough: the brace stands in code and closes the only brace that is open. A block of the
brace-depth boundary has ended there, or before.

* `Boundary.exists_blockEnd_braceDepth`: the brace-depth boundary finds a last line where the
  nesting is closed on some line.
* `Boundary.isClosedBy_of_nextMarker`: what the lone brace closes.
* `braceDepth_of_nextMarker`: both, for the documents that were read.
-/

namespace LinePatch

open Text (IsRawLines)

variable {d : Document} {first last : Nat}

/-- A lone brace on line `last` closes what a scan from line `first` on has opened. -/
structure Document.IsClosedBy (d : Document) (first last : Nat) : Prop where
  lt : first < last
  isLoneBraceAt : Boundary.IsLoneBraceAt d last
  /-- No literal and no comment is open in front of the line. -/
  code : (d.nestingAfter first (last - 1)).mode = .code
  /-- A brace was opened before, -/
  opened : (d.nestingAfter first (last - 1)).opened = true
  /-- and one brace is still open, -/
  depth : (d.nestingAfter first (last - 1)).depth = 1
  /-- which the line closes. -/
  closing : ∀ l, d.lines[last]? = some l → Brace.codeBraces .code l = ([.closing], .code)

namespace Boundary

/-- Where the nesting is closed on some line, with no closing brace in excess, the brace-depth
boundary stops there or before. -/
theorem exists_blockEnd_braceDepth (hle : first ≤ last) (hlt : last < d.length)
    (hunder : (d.nestingAfter first last).underflowed = false)
    (hclosed : (d.nestingAfter first last).closed = true) :
    ∃ inner, braceDepth.blockEnd d first = .ok inner ∧ first ≤ inner ∧ inner ≤ last := by
  have hex : ∃ k, (d.nestingAfter first (first + k)).closed = true :=
    ⟨last - first, by rwa [Nat.add_sub_cancel' hle]⟩
  -- The first line after which the nesting is closed.
  let k := Nat.find hex
  have hk : k ≤ last - first := Nat.find_le (by rwa [Nat.add_sub_cancel' hle])
  have hafter : ∀ j, d.nestingAfter first (first + j) =
      Nesting.start.lines ((d.lines.drop first).take (j + 1)) := fun j => by
    rw [Document.nestingAfter, Nat.add_sub_cancel_left]
  have hunder' : ∀ j ≤ k, (d.nestingAfter first (first + j)).underflowed = false := fun j hj =>
    underflowed_nestingAfter hunder (Nat.le_add_right first j) (by omega)
  refine ⟨first + k, blockEnd_braceDepth_iff.mpr ?_, Nat.le_add_right first k, by omega⟩
  rw [Nat.add_sub_cancel_left, ← hafter]
  refine ⟨Nat.le_add_right first k, ?_, hunder' k (Nat.le_refl k), Nat.find_spec hex, ?_⟩
  · rw [List.length_drop, Document.length_lines]
    omega
  · intro j hj hstops
    rw [← hafter] at hstops
    rcases hstops with hu | hc
    · rw [hunder' j (Nat.le_of_lt hj)] at hu
      cases hu
    · exact Nat.find_min hex hj hc

/-- The lone brace that ends a block of the next-marker boundary closes a brace in code. -/
theorem isClosedBy_of_nextMarker (hd : IsRawLines d.rawLines) (hne : [] ∉ d.rawLines)
    {marker : Text} (h : (nextMarker marker).blockEnd d first = .ok last) :
    d.IsClosedBy first last := by
  obtain ⟨hlt, l, hl, hlone, -, hbal⟩ := exists_concat_of_nextMarker hd hne h
  obtain ⟨hcode, hopened, hdepth⟩ := open_of_isBalancedLines hlone hbal
  have hbefore : d.nestingAfter first (last - 1) =
      Nesting.start.lines ((d.lines.drop first).take (last - first)) := by
    rw [Document.nestingAfter, show last - 1 - first + 1 = last - first by omega]
  refine ⟨hlt, ⟨l, hl, hlone⟩, hbefore ▸ hcode, hbefore ▸ hopened, hbefore ▸ hdepth, ?_⟩
  intro l' hl'
  cases hl.symm.trans hl'
  have hproper : Brace.Mode.IsProper .code := trivial
  exact Brace.codeBraces_of_isLoneBrace hproper hlone

end Boundary

/-- **The lone brace that ends a block.** Where the next-marker boundary finds the last line of a
block, the brace-depth boundary finds one that comes no later. The lone brace on that line is no
part of a literal or a comment, and closes the only brace that is open there. -/
theorem braceDepth_of_nextMarker (t marker : Text) (first last : Nat)
    (h : (Boundary.nextMarker marker).blockEnd (.ofText t) first = .ok last) :
    (∃ inner, Boundary.braceDepth.blockEnd (.ofText t) first = .ok inner ∧ first ≤ inner ∧
        inner ≤ last) ∧
      (Document.ofText t).IsClosedBy first last := by
  obtain ⟨hd, hne⟩ := Text.isRawLines_rawLines t
  have hclosed := Boundary.isClosedBy_of_nextMarker hd hne h
  obtain ⟨l, hl, -⟩ := hclosed.isLoneBraceAt
  have hlt : last < (Document.ofText t).length := by
    rw [← Document.length_lines]
    exact (List.getElem?_eq_some_iff.mp hl).1
  obtain ⟨hunder, hend⟩ := Boundary.nestingAfter_of_nextMarker hd hne h
  exact ⟨Boundary.exists_blockEnd_braceDepth (Nat.le_of_lt hclosed.lt) hlt hunder hend, hclosed⟩

/-- Two blocks in front of the marker, with lone braces in a literal and in a comment. The
brace-depth boundary ends after the first. -/
theorem braceDepth_of_nextMarker_two_blocks :
    let t := "f\x7b\n\"\n\x7d\n\"\n\x7d\ng\x7b\n/*\n\x7d\n*/\n\x7d\n#".toList
    (Boundary.nextMarker "#".toList).blockEnd (.ofText t) 0 = .ok 9 ∧
      Boundary.braceDepth.blockEnd (.ofText t) 0 = .ok 4 ∧
      (∃ inner, Boundary.braceDepth.blockEnd (.ofText t) 0 = .ok inner ∧ 0 ≤ inner ∧ inner ≤ 9) ∧
      (Document.ofText t).IsClosedBy 0 9 := by
  intro t
  have h : (Boundary.nextMarker "#".toList).blockEnd (.ofText t) 0 = .ok 9 := by rfl
  have h' : Boundary.braceDepth.blockEnd (.ofText t) 0 = .ok 4 := by rfl
  exact ⟨h, h', braceDepth_of_nextMarker t "#".toList 0 9 h⟩

end LinePatch
