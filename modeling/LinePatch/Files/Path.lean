import LinePatch.Text.Basic

/-!
# Paths

A path is a text whose parts are separated by slashes. Empty parts and single points count for
nothing behind the start of a path.

* `Path.parent`: the directory of a path.
* `Path.extension?`: the ending of the last part.
* `Path.join`: a path relative to a directory.
-/

namespace LinePatch.Path

/-- The parts of a text between slashes. -/
def split : Text → List Text
  | [] => [[]]
  | c :: cs =>
    if c = '/' then [] :: split cs
    else match split cs with
      | [] => [[c]]
      | p :: ps => (c :: p) :: ps

/-- The parts with slashes between them. -/
def unsplit : List Text → Text
  | [] => []
  | [p] => p
  | p :: ps => p ++ '/' :: unsplit ps

theorem split_ne_nil (t : Text) : split t ≠ [] := by
  cases t with
  | nil => simp [split]
  | cons c cs =>
    rw [split]
    repeat' split
    all_goals simp

/-- Parts joined by slashes are the text that was split. -/
@[simp] theorem unsplit_split (t : Text) : unsplit (split t) = t := by
  induction t with
  | nil => rfl
  | cons c cs ih =>
    obtain ⟨p, ps, hs⟩ := List.exists_cons_of_ne_nil (split_ne_nil cs)
    rw [hs] at ih
    rw [split, hs]
    split
    · rename_i h
      simp [unsplit, h, ih]
    · cases ps <;> simp_all [unsplit]

/-- How many octets a part of a path has at most. -/
def maxPart : Nat := 255

/-- How many octets a path has at most. -/
def maxLength : Nat := 4095

/-- Whether a part counts for nothing. -/
def isVoid (part : Text) : Bool := part.isEmpty || part == ['.']

/-- The root or the current directory at the start of a path, and the rest. -/
def splitHead : Text → Text × Text
  | '/' :: t => (['/'], t)
  | ['.'] => (['.'], [])
  | '.' :: '/' :: t => (['.'], '/' :: t)
  | t => ([], t)

/-- The parts without those at the end that count for nothing. -/
def dropVoid (parts : List Text) : List Text := (parts.reverse.dropWhile isVoid).reverse

/-- The parts of a path behind its head, up to the last that counts. -/
def body (t : Text) : List Text := dropVoid (split (splitHead t).2)

/-- The directory of a path: the path without its last part. -/
def parent (t : Text) : Text :=
  match body t with
  | [] => []
  | parts => (splitHead t).1 ++ unsplit (dropVoid parts.dropLast)

/-- The name that a path ends with, if it ends with one. -/
def fileName? (t : Text) : Option Text :=
  (body t).getLast?.filter (· ≠ ['.', '.'])

/-- The ending of the file name behind its last point. A point in front of the name opens none. -/
def extension? (t : Text) : Option Text := do
  let name ← fileName? t
  let ending := (name.reverse.takeWhile (· ≠ '.')).reverse
  if ending.length + 1 < name.length then some ending else none

/-- A path relative to a directory; one that starts at the root stays as it is. -/
def join (directory t : Text) : Text :=
  if t.head? = some '/' then t
  else if directory.isEmpty || directory.getLast? = some '/' then directory ++ t
  else directory ++ '/' :: t

end LinePatch.Path
