/-!
# Files

A file system is seen through its paths: each path denotes a file with its bytes or a directory, or
there is a reason why it denotes nothing. Whatever only reads files is a function of this view.
-/

namespace TikzGlyph

/-- Why a path cannot be used. -/
inductive FileError
  | notFound
  | notDirectory
  | isDirectory
  /-- The path as a whole or one of its parts is too long. -/
  | nameTooLong
  | nameWithNul
  | notText
  /-- The path exists but cannot be used for another reason. -/
  | refused (reason : String)
deriving DecidableEq, Repr

def FileError.message : FileError → String
  | .notFound => "No such file or directory (os error 2)"
  | .notDirectory => "Not a directory (os error 20)"
  | .isDirectory => "Is a directory (os error 21)"
  | .nameTooLong => "File name too long (os error 36)"
  | .nameWithNul => "file name contained an unexpected NUL byte"
  | .notText => "stream did not contain valid UTF-8"
  | .refused reason => reason

/-- What a path denotes. -/
inductive FileEntry
  | file (bytes : ByteArray)
  | directory

/-- What the paths of a file system denote. -/
abbrev Files := String → Except FileError FileEntry

namespace Files

def readText (files : Files) (path : String) : Except FileError String := do
  match ← files path with
  | .directory => .error .isDirectory
  | .file bytes =>
      match String.fromUTF8? bytes with
      | some text => .ok text
      | none => .error .notText

def isFile (files : Files) (path : String) : Bool :=
  match files path with
  | .ok (.file _) => true
  | _ => false

end Files

end TikzGlyph
