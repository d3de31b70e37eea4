import TikzGlyph.Catalog.Memory
import TikzGlyph.Color.Json
import TikzGlyph.Drawing.Recorder
import TikzGlyph.Main
import TikzGlyph.Proofs.Document.Continuing
import TikzGlyph.Proofs.Document.PlainPlanning
import TikzGlyph.Proofs.Document.Previewing
import TikzGlyph.Proofs.Drawing.Recording
import TikzGlyph.Proofs.Glyph.Flattening
import TikzGlyph.Proofs.Markup.Continuation
import TikzGlyph.Proofs.Palette.History
import TikzGlyph.Proofs.Glyph.Relocation
import TikzGlyph.Proofs.Glyph.Joining
import TikzGlyph.Proofs.Markup.Escaping
import TikzGlyph.Proofs.Markup.Tags
import TikzGlyph.Proofs.Markup.WrittenTag
import TikzGlyph.Proofs.Glyph.WrittenGlyph
import TikzGlyph.Proofs.Text.Lines
import TikzGlyph.Proofs.Tikz.Lines
import TikzGlyph.Proofs.Tikz.Scopes
import TikzGlyph.Proofs.Markup.TagPlaces
import TikzGlyph.Proofs.Text.Location
import TikzGlyph.Proofs.Glyph.TagLocation
import TikzGlyph.Proofs.Glyph.Reordering
import TikzGlyph.Proofs.Catalog.Interchange
import TikzGlyph.Proofs.Binary64.Spacing
import TikzGlyph.Proofs.Binary64.Nearest
import TikzGlyph.Proofs.Binary64.ShortestDigits
import TikzGlyph.Proofs.Binary64.Arithmetic
import TikzGlyph.Proofs.Json.Scaling
import TikzGlyph.Proofs.Binary64.Overflow
import TikzGlyph.Proofs.Document.FiniteNumbers
import TikzGlyph.Proofs.Document.RoundTrip
import TikzGlyph.Proofs.Text.JoinedLines
import TikzGlyph.Proofs.Tikz.History
import TikzGlyph.Proofs.Markup.Insertion
import TikzGlyph.Proofs.Glyph.Insertion
import TikzGlyph.Proofs.Glyph.Wrapping
import TikzGlyph.Proofs.Files.Writing
import TikzGlyph.Proofs.CommandLine.Running
import TikzGlyph.Proofs.Drawing.Decoding
import TikzGlyph.Proofs.Drawing.Stopping
import TikzGlyph.Proofs.Tikz.Composing
import TikzGlyph.Glyph.Assembly
import TikzGlyph.Proofs.Glyph.Assembling
import TikzGlyph.Proofs.Text.Blank
import TikzGlyph.Proofs.Color.NormalForm
import TikzGlyph.Proofs.Tikz.Definitions
import TikzGlyph.Proofs.Text.Position
