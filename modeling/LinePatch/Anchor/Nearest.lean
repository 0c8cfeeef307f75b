import LinePatch.Anchor.Similarity
import LinePatch.Document.Basic

/-!
# The line nearest to a missing anchor

For a diagnosis, each line that is not blank is compared with the anchor, both trimmed. The
search is stated for any score in an ordered type, and used with `Similarity`.
-/

namespace LinePatch

/-- A line that resembles an anchor. -/
structure NearLine (σ : Type) where
  index : Nat
  /-- The trimmed content of the line. -/
  text : Text
  score : σ
  deriving Repr

namespace NearLine

/-- The number of the line, counted from one. -/
def number {σ : Type} (l : NearLine σ) : Nat := l.index + 1

/-- The line in a message. -/
def message {σ : Type} (l : NearLine σ) : String := s!"line {l.number}: {l.text.asString}"

/-- The better of the best line so far and a later one; of equals the earlier stays. -/
def better {σ : Type} [LT σ] [DecidableRel (α := σ) (· < ·)] (best : Option (NearLine σ))
    (l : NearLine σ) : Option (NearLine σ) :=
  match best with
  | none => some l
  | some b => if b.score < l.score then some l else some b

end NearLine

/-- The best of the lines `ls`, the first of which has index `i`: blank lines and lines whose
score is not admitted do not count, and the earliest of equals wins. -/
def nearestIn {σ : Type} [LT σ] [DecidableRel (α := σ) (· < ·)] (score : Text → σ)
    (admits : σ → Bool) : Option (NearLine σ) → Nat → List Text → Option (NearLine σ)
  | best, _, [] => best
  | best, i, l :: ls =>
    let text := Text.trim l
    let s := score text
    if text.isEmpty || !admits s then nearestIn score admits best (i + 1) ls
    else nearestIn score admits (NearLine.better best ⟨i, text, s⟩) (i + 1) ls

/-- The line of a document nearest to a pattern by any score; a blank pattern has none. -/
def Document.nearestBy {σ : Type} [LT σ] [DecidableRel (α := σ) (· < ·)]
    (score : Text → Text → σ) (admits : σ → Bool) (d : Document) (pattern : Text) :
    Option (NearLine σ) :=
  let p := Text.trim pattern
  if p.isEmpty then none else nearestIn (score p) admits none 0 d.lines

/-- The line of a document that resembles a pattern most, if one resembles it by half. -/
def Document.nearest (d : Document) (pattern : Text) : Option (NearLine Similarity) :=
  d.nearestBy Similarity.between Similarity.isNear pattern

end LinePatch
