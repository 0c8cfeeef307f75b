import LinePatch.Files.Path

/-!
# Formats of specifications

* `SpecFormat.ofPath`: the format that the name of a file shows.
* `SpecFormat.sniff`: the format that the first characters of a text show.
-/

namespace LinePatch

/-- The formats that a specification may be written in. -/
inductive SpecFormat
  | toml
  | json
  deriving DecidableEq, Repr

namespace SpecFormat

/-- Files that end in `.json`, in letters of either case, are JSON, all others TOML. -/
def ofPath (path : Text) : SpecFormat :=
  match Path.extension? path with
  | none => .toml
  | some ending => if ending.map Char.toLower = "json".toList then .json else .toml

/-- JSON starts with a brace, or with a bracket that another bracket closes or a brace follows;
blank characters do not count. All else is TOML. -/
def sniff (t : Text) : SpecFormat :=
  match Text.trimStart t with
  | '{' :: _ => .json
  | '[' :: t =>
    match Text.trimStart t with
    | '{' :: _ => .json
    | ']' :: _ => .json
    | _ => .toml
  | _ => .toml

end SpecFormat

end LinePatch
