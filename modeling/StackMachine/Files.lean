import StackMachine.Text.Raw

namespace StackMachine

open Text (Glyph Raw)

/-!
# Files

A process finds a file by its path, through whatever file system it is given.

* `FileError` — why a file cannot be read as text.
* `FileSystem`, `FileSystem.text` — paths to contents, and the text of the file at a path.
* `Files`, `Files.fetch` — the file system of one directory with some files in it. Nothing is known
  of other directories: whatever is looked for there is not found.
-/

/-- Why a file cannot be read as text. -/
inductive FileError where
  | notFound
  | isDirectory
  | notDirectory
  | permissionDenied
  | nameTooLong
  | nulInPath
  | notUtf8
  deriving DecidableEq, Repr

/-- The text of the system for an error, with the system's number if it is one of its own. -/
def FileError.message : FileError → String
  | .notFound => "No such file or directory (os error 2)"
  | .isDirectory => "Is a directory (os error 21)"
  | .notDirectory => "Not a directory (os error 20)"
  | .permissionDenied => "Permission denied (os error 13)"
  | .nameTooLong => "File name too long (os error 36)"
  | .nulInPath => "file name contained an unexpected NUL byte"
  | .notUtf8 => "stream did not contain valid UTF-8"

/-- What a process finds at each path: the bytes of a file, or why there are none. -/
abbrev FileSystem := Raw → Except FileError Raw

/-- The text of the file at a path, if its bytes are UTF-8. -/
def FileSystem.text (fs : FileSystem) (path : Raw) : Except FileError String :=
  match fs path with
  | .error e => .error e
  | .ok content =>
    match content.string? with
    | some text => .ok text
    | none => .error .notUtf8

/-- The files of a directory, with their names. -/
abbrev Files := List (String × Raw)

namespace Files

/-- Where the walk along a path has come to. -/
inductive Place where
  /-- the directory of the files -/
  | here
  /-- another directory -/
  | elsewhere
  | file (content : Raw)
  deriving DecidableEq, Repr

/-- The longest name of a file, and the longest path, in bytes. -/
def maxName : Nat := 255

@[inherit_doc maxName]
def maxPath : Nat := 4095

/-- The parts of a path between slashes. Of several slashes in a row, each ends a part, which may be
    empty. -/
def components : Raw → List Raw
  | [] => [[]]
  | g :: gs =>
    if g = .char '/' then [] :: components gs
    else
      match components gs with
      | [] => [[g]]
      | part :: parts => (g :: part) :: parts

/-- The file of a name. -/
def content? (fs : Files) (name : Raw) : Option Raw :=
  (List.find? (fun f => Raw.ofString f.1 = name) fs).map Prod.snd

/-- One part of a path. Nothing lies below a file, not even the file itself. -/
def descend (fs : Files) : Place → Raw → Except FileError Place
  | .file _, _ => .error .notDirectory
  | place, part =>
    if part = [] ∨ part = Raw.ofString "." then .ok place
    else if part = Raw.ofString ".." then .ok .elsewhere
    else if maxName < part.size then .error .nameTooLong
    else
      match place, fs.content? part with
      | .here, some content => .ok (.file content)
      | _, _ => .error .notFound

/-- Where a path leads. One that begins with a slash does not begin here. -/
def resolve (fs : Files) (path : Raw) : Except FileError Place :=
  if .char '\x00' ∈ path then .error .nulInPath
  else if path = [] then .error .notFound
  else if maxPath < path.size then .error .nameTooLong
  else
    (components path).foldlM fs.descend
      (if path.head? = some (.char '/') then .elsewhere else .here)

/-- What is found at a path that is followed from the directory of the files. -/
def fetch (fs : Files) : FileSystem := fun path =>
  match fs.resolve path with
  | .error e => .error e
  | .ok (.file content) => .ok content
  | .ok _ => .error .isDirectory

end Files

end StackMachine
