import TikzGlyph.Files.Basic

/-!
# File trees

A file tree is a regular file with its bytes or a directory of named trees. A list of names leads
from a tree to one of its parts, which `FileTree.get?` finds and `FileTree.put` replaces.
-/

namespace TikzGlyph

/-- A file or a directory with all that is in it. -/
inductive FileTree
  | file (bytes : ByteArray)
  | directory (entries : List (String × FileTree))

namespace FileTree

/-- The tree that names lead to. -/
def get? : FileTree → List String → Option FileTree
  | tree, [] => some tree
  | .file _, _ :: _ => none
  | .directory entries, name :: names =>
      match entries.lookup name with
      | some child => child.get? names
      | none => none

def toEntry : FileTree → FileEntry
  | .file bytes => .file bytes
  | .directory _ => .directory

/-- The entries of a directory with one entry put in. -/
def putEntry (name : String) (child : FileTree) :
    List (String × FileTree) → List (String × FileTree)
  | [] => [(name, child)]
  | entry :: rest =>
      if entry.1 = name then (name, child) :: rest else entry :: putEntry name child rest

/-- The entries of a directory; a file has none. -/
def entries : FileTree → List (String × FileTree)
  | .file _ => []
  | .directory entries => entries

/-- The tree with another tree at the place that names lead to. Missing directories are made. -/
def put (tree placed : FileTree) : (names : List String) → FileTree
  | [] => placed
  | name :: names =>
      let child := (tree.entries.lookup name).getD (.directory [])
      .directory (putEntry name (child.put placed names) tree.entries)

end FileTree

end TikzGlyph
