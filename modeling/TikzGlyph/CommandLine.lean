import TikzGlyph.Catalog.Directory
import TikzGlyph.Document.Preview
import TikzGlyph.Document.SpecJson
import TikzGlyph.Files.System

/-!
# Command line

The program takes three arguments: a directory of glyphs, a document as JSON and an output path, or
the word `preview`, a glyph and an output path. Compiling reads files only; the one file that a run
writes is the output, and it is written after compiling has succeeded.
-/

namespace TikzGlyph

namespace CommandLine

/-- What the arguments ask for. -/
inductive Request
  | compile (glyphDirectory document output : String)
  | preview (glyph output : String)
deriving DecidableEq, Repr

/-- The request in the arguments, if there are three. -/
def Request.ofArguments? : List String → Option Request
  | [first, second, third] =>
      if first = "preview" then some (.preview second third)
      else some (.compile first second third)
  | _ => none

def Request.output : Request → String
  | .compile _ _ output => output
  | .preview _ output => output

/-- The text shown when there is no request in the arguments. -/
def usage (program : String) : String :=
  "Compiles SVG-subset glyphs into TikZ drawing directives.\n\nUsage:\n  " ++ program
    ++ " <path/to/glyphs/> <path/to/document.json> <path/to/output.tex>\n  " ++ program
    ++ " preview <path/to/glyph.svg> <path/to/output.tex>\n\n"
    ++ "Set RUST_LOG=debug for parse and palette diagnostics.\n"

def readText (files : Files) (path : String) : Except CompileError String :=
  (files.readText path).mapError .file

/-- A text with a line added to it, unless the line is empty. -/
def pushLine (text line : String) : String :=
  if line = "" then text else Tikz.Writer.appendLine text line

/-- The output for a planned document: its palette, then its shadings, then its placements. -/
def documentText (plan : DocumentPlan) : Except CompileError String := do
  let palette ← plan.paletteText
  let shaded ← plan.spec.gradients.foldlM
    (fun text gradient => return pushLine text (← plan.shade gradient)) palette
  return pushLine shaded (← plan.placementsText)

def readSpec (files : Files) (document : String) : Except CompileError DocumentSpec := do
  let text ← readText files document
  (DocumentSpec.ofJson text).mapError .json

/-- What a request prints while it is compiled, and the text it makes. -/
structure Compilation where
  lines : List String
  result : Except CompileError String

/-- Compiles a document against a directory of glyphs. -/
def compileDocument (files : Files) (glyphDirectory document : String) : Compilation :=
  let loading := s!"Loading document from {document}"
  match readSpec files document with
  | .error cause => ⟨[loading], .error cause⟩
  | .ok spec =>
      let collecting := s!"Collecting colors for {spec.placements.length} placements..."
      match DocumentPlan.prepare (DirectoryCatalog.catalog files glyphDirectory) spec with
      | .error cause => ⟨[loading, collecting], .error cause⟩
      | .ok plan =>
          ⟨[loading, collecting, s!"Palette has {plan.palette.colors.length} colors"],
            documentText plan⟩

def compilePreview (files : Files) (glyph : String) : Compilation :=
  ⟨[s!"Previewing glyph {glyph}"], (readText files glyph).bind preview⟩

/-- Compiles what a request asks for. -/
def compile (files : Files) : Request → Compilation
  | .compile glyphDirectory document _ => compileDocument files glyphDirectory document
  | .preview glyph _ => compilePreview files glyph

def successLine (output : String) : String :=
  s!"Successfully generated {output}"

/-- How a run ended. -/
inductive Ending
  | success
  | usage
  | failure (cause : CompileError)
deriving DecidableEq, Repr

/-- The lines that a run prints and how it ended. -/
structure Outcome where
  lines : List String
  ending : Ending
deriving DecidableEq, Repr

def Ending.exitCode : Ending → UInt32
  | .success => 0
  | _ => 1

/-- Runs the program in a file system. -/
def run (arguments : List String) (system : FileSystem) : Outcome × FileSystem :=
  match Request.ofArguments? arguments with
  | none => (⟨[], .usage⟩, system)
  | some request =>
      let compilation := compile system.files request
      match compilation.result with
      | .error cause => (⟨compilation.lines, .failure cause⟩, system)
      | .ok text =>
          match system.write request.output text with
          | .error cause => (⟨compilation.lines, .failure (.file cause)⟩, system)
          | .ok written =>
              (⟨compilation.lines ++ [successLine request.output], .success⟩, written)

/-- The paths that compiling may read besides the one in the request itself. -/
def glyphPaths (files : Files) : Request → List String
  | .preview _ _ => []
  | .compile glyphDirectory document _ =>
      match readSpec files document with
      | .error _ => []
      | .ok spec =>
          (spec.placements.filterMap fun placement =>
            DirectoryCatalog.path? glyphDirectory placement.glyph).eraseDups

def Request.inputPath : Request → String
  | .compile _ document _ => document
  | .preview glyph _ => glyph

end CommandLine

end TikzGlyph
