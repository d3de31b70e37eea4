import TikzGlyph.CommandLine

/-!
# Program

The program proper: it reads the files that a request needs, compiles, and writes the output. All
decisions are made in `CommandLine`.
-/

namespace TikzGlyph.Program

open CommandLine

/-- The number of a system error, which some operations report with the other sign. -/
def systemNumber (code : UInt32) : UInt32 := min code (0 - code)

/-- What stands in the way of using a path on disk. -/
def fileErrorOf (error : IO.Error) : FileError :=
  let byNumber (code : UInt32) : FileError :=
    match systemNumber code with
    | 20 => .notDirectory
    | 21 => .isDirectory
    | 36 => .nameTooLong
    | _ => .refused (toString error)
  match error with
  | .noFileOrDirectory _ _ _ => .notFound
  | .inappropriateType _ code _ => byNumber code
  | .invalidArgument _ code _ => byNumber code
  | _ => .refused (toString error)

/-- What a path denotes on disk. -/
def entryOnDisk (path : String) : IO (Except FileError FileEntry) := do
  if '\x00' ∈ path.toList then
    return .error .nameWithNul
  try
    return .ok (.file (← IO.FS.readBinFile path))
  catch error =>
    match fileErrorOf error with
    | .isDirectory => return .ok .directory
    | cause => return .error cause

/-- What some paths denote on disk; other paths count as not found. -/
def filesOnDisk (paths : List String) : IO Files := do
  let entries ← paths.mapM fun path => return (path, ← entryOnDisk path)
  return fun path => (entries.lookup path).getD (.error .notFound)

def fail (cause : CompileError) : IO UInt32 := do
  IO.eprintln s!"Error: {cause.message}"
  return (Ending.failure cause).exitCode

/-- Compiles what a request asks for and writes the output. -/
def runRequest (request : Request) : IO UInt32 := do
  let inputs ← filesOnDisk [request.inputPath]
  let files ← filesOnDisk (request.inputPath :: glyphPaths inputs request)
  let compilation := compile files request
  for line in compilation.lines do
    IO.println line
  match compilation.result with
  | .error cause => fail cause
  | .ok text =>
      try
        IO.FS.writeFile request.output text
        IO.println (successLine request.output)
        return Ending.success.exitCode
      catch error => fail (.file (fileErrorOf error))

/-- Runs the program on its arguments; the result is the exit code. -/
def run (arguments : List String) : IO UInt32 := do
  match Request.ofArguments? arguments with
  | some request => runRequest request
  | none =>
      IO.eprint (usage "glyphtex")
      return Ending.usage.exitCode

end TikzGlyph.Program

def main (arguments : List String) : IO UInt32 :=
  TikzGlyph.Program.run arguments
