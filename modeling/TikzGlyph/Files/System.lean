import TikzGlyph.Files.Tree

/-!
# File systems

A file system is a tree of files with a working directory. A path is a text whose parts are
separated by slashes. It starts at the root if a slash comes first and at the working directory
otherwise, and `FileTree.resolve` follows its parts: empty parts and `.` stay, `..` goes up, from
the root to the root, and every other part is the name of an entry. Names and whole paths have a
greatest length in bytes; the length of the whole path is looked at before anything is followed.
-/

namespace TikzGlyph

/-- The parts of a path between its slashes. -/
def pathParts : List Char → List (List Char)
  | [] => [[]]
  | character :: rest =>
      if character = '/' then [] :: pathParts rest
      else
        match pathParts rest with
        | [] => [[character]]
        | first :: others => (character :: first) :: others

/-- The longest name of an entry, in bytes. -/
def longestName : Nat := 255

/-- The longest path, in bytes. -/
def longestPath : Nat := 4095

/-- Follows the parts of a path from the directory that names lead to. The names of the result lead
to what the path denotes, if there is anything. -/
def FileTree.resolve (tree : FileTree) :
    (names : List String) → List String → Except FileError (List String)
  | names, [] => .ok names
  | names, part :: parts =>
      match tree.get? names with
      | none => .error .notFound
      | some (.file _) => .error .notDirectory
      | some (.directory _) =>
          if part = "" ∨ part = "." then tree.resolve names parts
          else if part = ".." then tree.resolve names.dropLast parts
          else if longestName < part.utf8ByteSize then .error .nameTooLong
          else tree.resolve (names ++ [part]) parts

/-- A file tree with the directory in which relative paths start. -/
structure FileSystem where
  root : FileTree
  /-- The names that lead from the root to the working directory. -/
  workingDirectory : List String

namespace FileSystem

/-- The names that lead from the root to where a path starts. -/
def start (system : FileSystem) (path : String) : List String :=
  if path.toList.head? = some '/' then [] else system.workingDirectory

/-- The names that a path leads along from the root. -/
def names (system : FileSystem) (path : String) : Except FileError (List String) :=
  if '\x00' ∈ path.toList then .error .nameWithNul
  else if path = "" then .error .notFound
  else if longestPath < path.utf8ByteSize then .error .nameTooLong
  else system.root.resolve (system.start path) ((pathParts path.toList).map String.ofList)

def files (system : FileSystem) : Files := fun path => do
  match system.root.get? (← system.names path) with
  | some found => .ok found.toEntry
  | none => .error .notFound

/-- The file system after writing a text to a path. The directories on the path have to be there,
and the path may not denote a directory. -/
def write (system : FileSystem) (path text : String) : Except FileError FileSystem := do
  let names ← system.names path
  match system.root.get? names with
  | some (.directory _) => .error .isDirectory
  | _ => .ok { system with root := system.root.put (.file text.toUTF8) names }

end FileSystem

end TikzGlyph
