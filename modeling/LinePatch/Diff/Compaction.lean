import LinePatch.Diff.Basic

/-!
# Compaction of differences

Deletions and insertions are moved towards each other over the equal ranges beside them, as far as
these allow, and merged where they meet. What is left side by side then counts as a replacement.
-/

namespace LinePatch.Diff

variable {α : Type} [BEq α]

/-- An operation among those before it, last first, and those after it. -/
structure Focus where
  before : List Op
  this : Op
  after : List Op

/-- One step of an operation upwards: over the range kept before it by what ends both, past an
operation of another kind, or into one of its own. `none` where it can go no further. -/
def Focus.up? (old new : List α) (f : Focus) : Option Focus :=
  match f.before with
  | [] => none
  | prev :: before =>
    if prev.kind = .keep then
      let n := commonLength (range old prev.oldStart prev.oldLength).reverse
        (range new f.this.newStart f.this.newLength).reverse
      if n = 0 then if prev.isEmpty then some { f with before } else none
      else
        let after := match f.after with
          | next :: after =>
            if next.kind = .keep then (next.mapStart (· - n)).mapLength (· + n) :: after
            else .keep (prev.oldStop - n) (f.this.newStop - n) n :: next :: after
          | [] => [.keep (prev.oldStop - n) (f.this.newStop - n) n]
        let prev := prev.mapLength (· - n)
        some ⟨if prev.isEmpty then before else prev :: before, f.this.mapStart (· - n), after⟩
    else if prev.kind = f.this.kind then
      some { f with before, this := prev.mapLength (· + (f.this.oldLength + f.this.newLength)) }
    else some ⟨before, f.this, prev :: f.after⟩

/-- One step of an operation downwards. -/
def Focus.down? (old new : List α) (f : Focus) : Option Focus :=
  match f.after with
  | [] => none
  | next :: after =>
    if next.kind = .keep then
      let n := commonLength (range old next.oldStart next.oldLength)
        (range new f.this.newStart f.this.newLength)
      if n = 0 then if next.isEmpty then some { f with after } else none
      else
        let before := match f.before with
          | prev :: before =>
            if prev.kind = .keep then prev.mapLength (· + n) :: before
            else .keep next.oldStart f.this.newStart n :: prev :: before
          | [] => [.keep next.oldStart f.this.newStart n]
        let next := (next.mapStart (· + n)).mapLength (· - n)
        some ⟨before, f.this.mapStart (· + n), if next.isEmpty then after else next :: after⟩
    else if next.kind = f.this.kind then
      some { f with after, this := f.this.mapLength (· + (next.oldLength + next.newLength)) }
    else some ⟨next :: f.before, f.this, after⟩

/-- A step repeated until it can go no further. -/
def Focus.repeat (step : Focus → Option Focus) : Nat → Focus → Focus
  | 0, f => f
  | fuel + 1, f =>
    match step f with
    | none => f
    | some f => Focus.repeat step fuel f

/-- The operations with all of one kind moved up and then down, from the first of `after` on. -/
def shiftAll (old new : List α) (kind : Kind) (limit : Nat) : Nat → List Op → List Op → List Op
  | 0, before, after => before.reverse ++ after
  | _, before, [] => before.reverse
  | fuel + 1, before, op :: after =>
    if op.kind = kind then
      let f := Focus.repeat (Focus.up? old new) limit ⟨before, op, after⟩
      let f := Focus.repeat (Focus.down? old new) limit f
      shiftAll old new kind limit fuel (f.this :: f.before) f.after
    else shiftAll old new kind limit fuel (op :: before) after

/-- The operations with deletions moved, and then insertions. -/
def compact (old new : List α) (ops : List Op) : List Op :=
  let limit := old.length + new.length + ops.length + 1
  let ops := shiftAll old new .delete limit (limit * limit) [] ops
  shiftAll old new .insert limit (limit * limit) [] ops

/-- Two neighbours as one operation, where they are of one kind or make a replacement. -/
def Op.join? (a b : Op) : Option Op :=
  match a.kind, b.kind with
  | .keep, .keep => some (a.mapLength (· + b.oldLength))
  | .keep, _ | _, .keep => none
  | .delete, .delete => some (a.mapLength (· + b.oldLength))
  | .insert, .insert => some (a.mapLength (· + b.newLength))
  | .delete, _ => some ⟨.replace, a.oldStart, a.oldLength + b.oldLength, b.newStart, b.newLength⟩
  | .insert, _ => some ⟨.replace, b.oldStart, b.oldLength, a.newStart, a.newLength + b.newLength⟩
  | .replace, _ =>
    some { a with oldLength := a.oldLength + b.oldLength, newLength := a.newLength + b.newLength }

/-- The operations with neighbours joined. -/
def joinAll : List Op → List Op
  | [] => []
  | op :: ops =>
    match joinAll ops with
    | [] => [op]
    | next :: rest =>
      match op.join? next with
      | some joined => joined :: rest
      | none => op :: next :: rest

end LinePatch.Diff
