import LinePatch.Digest.Basic
import LinePatch.Files.Path

/-!
# File trees

The files below a directory, each with its bytes under the names that lead to it.

* `FileTree.readText`: the text of a file, or why it cannot be read.
* `FileTree.writeText`: the tree with the text of a file replaced.
-/

namespace LinePatch

/-- Why a file was not read. -/
inductive FileError
  | notFound
  | notADirectory
  | isADirectory
  | nameTooLong
  | embeddedNul
  | invalidUtf8
  /-- Any other reason, in the words of the system. -/
  | other (message : String)
  deriving DecidableEq, Repr

/-- The text of a file error. -/
def FileError.message : FileError → String
  | .notFound => "No such file or directory (os error 2)"
  | .notADirectory => "Not a directory (os error 20)"
  | .isADirectory => "Is a directory (os error 21)"
  | .nameTooLong => "File name too long (os error 36)"
  | .embeddedNul => "file name contained an unexpected NUL byte"
  | .invalidUtf8 => "stream did not contain valid UTF-8"
  | .other message => message

/-- The text that bytes of UTF-8 stand for. -/
def Text.ofUtf8? (bytes : List UInt8) : Option Text :=
  (String.fromUTF8? ⟨bytes.toArray⟩).map String.toList

/-- The files of a tree: the names of the directories that lead to each and its own, and its
bytes. -/
structure FileTree where
  files : List (List Text × List UInt8)
  deriving DecidableEq, Repr

namespace FileTree

/-- What is at a place in a tree. -/
inductive Entry
  | file (bytes : List UInt8)
  | directory
  deriving DecidableEq, Repr

/-- What is at a place; directories are those that lead to a file, and the top. -/
def entry? (tree : FileTree) (names : List Text) : Option Entry :=
  match tree.files.find? (·.1 == names) with
  | some (_, bytes) => some (.file bytes)
  | none =>
    if names.isEmpty || tree.files.any (names.isPrefixOf ·.1) then some .directory else none

/-- The place that the parts of a path lead to from a place in the tree, which is given last name
first; `none` is a directory above the tree, where nothing else is found. A part can only be taken in
a directory, and has `Path.maxPart` octets at most in the tree and above it. -/
def walk (tree : FileTree) :
    Option (List Text) → List Text → Except FileError (Option (List Text))
  | here, [] => .ok here
  | none, part :: parts =>
    if Path.isVoid part || part == ['.', '.'] then tree.walk none parts
    else if Path.maxPart < (Text.utf8 part).length then .error .nameTooLong
    else .error .notFound
  | some here, part :: parts =>
    match tree.entry? here.reverse with
    | none => .error .notFound
    | some (.file _) => .error .notADirectory
    | some .directory =>
      if Path.isVoid part then tree.walk (some here) parts
      else if part = ['.', '.'] then
        match here with
        | [] => tree.walk none parts
        | _ :: up => tree.walk (some up) parts
      else if Path.maxPart < (Text.utf8 part).length then .error .nameTooLong
      else tree.walk (some (part :: here)) parts

/-- The place of a path in the tree, or `none` for a directory above it. -/
def place (tree : FileTree) (path : Text) : Except FileError (Option (List Text)) :=
  if '\x00' ∈ path then .error .embeddedNul
  else if Path.maxLength < (Text.utf8 path).length then .error .nameTooLong
  else match path with
  | [] => .error .notFound
  | '/' :: _ => tree.walk none (Path.split path)
  | _ => (tree.walk (some []) (Path.split path)).map (·.map List.reverse)

/-- The bytes of a file. -/
def read (tree : FileTree) (path : Text) : Except FileError (List UInt8) :=
  match tree.place path with
  | .error e => .error e
  | .ok none => .error .isADirectory
  | .ok (some names) =>
    match tree.entry? names with
    | none => .error .notFound
    | some .directory => .error .isADirectory
    | some (.file bytes) => .ok bytes

/-- The text of a file. -/
def readText (tree : FileTree) (path : Text) : Except FileError Text :=
  match tree.read path with
  | .error e => .error e
  | .ok bytes =>
    match Text.ofUtf8? bytes with
    | none => .error .invalidUtf8
    | some t => .ok t

/-- The tree with the bytes of one file replaced. -/
def replaceBytes (tree : FileTree) (names : List Text) (bytes : List UInt8) : FileTree :=
  ⟨tree.files.map fun (ns, old) => if ns = names then (ns, bytes) else (ns, old)⟩

/-- The tree with the text of a file replaced; a path that leads to no file changes nothing. -/
def writeText (tree : FileTree) (path : Text) (t : Text) : FileTree :=
  match tree.place path with
  | .error _ => tree
  | .ok none => tree
  | .ok (some names) => tree.replaceBytes names (Text.utf8 t)

end FileTree

end LinePatch
