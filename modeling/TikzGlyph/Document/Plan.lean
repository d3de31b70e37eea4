import TikzGlyph.Document.Error
import TikzGlyph.Document.Spec
import TikzGlyph.Glyph.Parse
import TikzGlyph.Tikz.Writer

/-!
# Document plans

A plan is made before anything is drawn. Planning collects all colours of a document: those used
directly, the ends of gradients, backgrounds, and the fills of the placed glyphs, in this order.
Each glyph is looked up and read once, at its first placement. With the palette of all colours at
hand, the parts of the document can be drawn one by one.
-/

namespace TikzGlyph

/-- The glyphs that have been read, in the order of their first use. -/
abbrev GlyphTable := List (String × List Group)

/-- A document with its glyphs and its palette. -/
structure DocumentPlan where
  spec : DocumentSpec
  glyphs : GlyphTable
  palette : Palette

/-- An activity that may fail and that looks up glyphs in a catalog. The identifiers that have been
looked up are kept, in order. -/
abbrev Planning := ExceptT CompileError (StateM (List String))

namespace Planning

/-- A result that needs no look-up. -/
def lift {value : Type} (result : Except CompileError value) : Planning value :=
  ExceptT.mk (pure result)

def lookUp (catalog : Catalog) (id : String) : Planning String :=
  ExceptT.mk fun lookups => ((catalog.source id).mapError .catalog, lookups ++ [id])

end Planning

namespace Collector

/-- Adds the ends of gradients; blank ends are faulty. -/
def collectGradients (collector : Collector) : List Gradient → Except CompileError Collector
  | [] => .ok collector
  | gradient :: rest => do
      let bottom ← (Color.parseHex gradient.bottom).mapError .colorFormat
      let top ← (Color.parseHex gradient.top).mapError .colorFormat
      (collector.collect [some bottom, some top]).collectGradients rest

/-- Adds the colours of texts; all of them have to be colours or blank. -/
def collectAll (collector : Collector) (texts : List String) : Except CompileError Collector :=
  match collector.collectTexts texts with
  | (collector, .ok ()) => .ok collector
  | (_, .error cause) => .error (.colorFormat cause)

/-- The colours that a specification names itself. -/
def ofSpec (spec : DocumentSpec) : Except CompileError Collector := do
  let collector ← empty.collectAll spec.colors
  let collector ← collector.collectGradients spec.gradients
  collector.collectAll spec.backgrounds

end Collector

def readGlyph (id source : String) : Except CompileError (List Group) :=
  (parseGlyph source).mapError (.glyph id)

/-- Reads the glyphs of placements that are not yet in the table, and collects their fills. -/
def collectGlyphs (catalog : Catalog) (table : GlyphTable) (collector : Collector) :
    List Placement → Planning (GlyphTable × Collector)
  | [] => pure (table, collector)
  | placement :: rest =>
      match table.lookup placement.glyph with
      | some _ => collectGlyphs catalog table collector rest
      | none => do
          let source ← Planning.lookUp catalog placement.glyph
          let groups ← Planning.lift (readGlyph placement.glyph source)
          collectGlyphs catalog (table ++ [(placement.glyph, groups)])
            (collector.collect (glyphFills groups)) rest

namespace DocumentPlan

/-- Makes the plan of a specification. -/
def planning (catalog : Catalog) (spec : DocumentSpec) : Planning DocumentPlan := do
  let named ← Planning.lift (Collector.ofSpec spec)
  let (glyphs, collector) ← collectGlyphs catalog [] named spec.placements
  return ⟨spec, glyphs, collector.freeze⟩

def prepare (catalog : Catalog) (spec : DocumentSpec) : Except CompileError DocumentPlan :=
  ((planning catalog spec).run.run []).1

/-- The identifiers that are looked up to make the plan, in order. -/
def lookups (catalog : Catalog) (spec : DocumentSpec) : List String :=
  ((planning catalog spec).run.run []).2

/-- The groups of a glyph of the document. -/
def glyph? (plan : DocumentPlan) (id : String) : Option (List Group) :=
  plan.glyphs.lookup id

/-- The definitions of all colours. -/
def paletteText (plan : DocumentPlan) : Except CompileError String :=
  (Tikz.paletteText plan.palette).mapError .render

/-- The directives of one placement, whose glyph has to be one of the document. -/
def place (plan : DocumentPlan) (placement : Placement) : Except CompileError String :=
  match plan.glyph? placement.glyph with
  | none => .error (.catalog (.unknownGlyph placement.glyph))
  | some groups => (Tikz.place placement.transform groups plan.palette).mapError .render

/-- The directives of all placements of the document. -/
def placementsText (plan : DocumentPlan) : Except CompileError String :=
  (plan.spec.placements.mapM plan.place).map "\n".intercalate

/-- The index of the colour that a text spells, which has to be in the palette. -/
def colorIndex (plan : DocumentPlan) (text : String) : Except CompileError Nat := do
  let color ← (Color.parseHex text).mapError .colorFormat
  (plan.palette.index color).mapError .palette

/-- The shading of a gradient, whose colours have to be in the palette. -/
def shade (plan : DocumentPlan) (gradient : Gradient) : Except CompileError String := do
  let bottom ← plan.colorIndex gradient.bottom
  let top ← plan.colorIndex gradient.top
  return Tikz.shading bottom top

/-- A document of its own with all placements. -/
def standalone (plan : DocumentPlan) : Except CompileError String := do
  let palette ← plan.paletteText
  let body ← plan.placementsText
  return Tikz.standaloneDocument palette body

/-! ## Log records -/

def glyphLog (catalog : Catalog) (id : String) : List LogRecord :=
  catalog.sourceLog id ++
    match catalog.source id with
    | .error _ => []
    | .ok source =>
        parseGlyphLog source ++
          match parseGlyph source with
          | .error _ => []
          | .ok groups =>
              [⟨.debug, s!"Glyph '{id}' from {catalog.name}: {groups.length} groups"⟩]

def prepareLog (catalog : Catalog) (spec : DocumentSpec) : List LogRecord :=
  (lookups catalog spec).flatMap (glyphLog catalog) ++
    match prepare catalog spec with
    | .error _ => []
    | .ok plan =>
        let placements := s!"{spec.placements.length} placements"
        let glyphs := s!"{plan.glyphs.length} distinct glyphs"
        let colors := s!"{plan.palette.colors.length} colors"
        plan.palette.freezeLog ++
          [⟨.debug, s!"Planned document: {placements}, {glyphs}, {colors}"⟩]

def placeLog (plan : DocumentPlan) (placement : Placement) : List LogRecord :=
  match plan.glyph? placement.glyph with
  | none => []
  | some groups => TikzGlyph.placeLog placement.transform groups

/-- The records of placements up to the first that fails. -/
def placementsLogOf (plan : DocumentPlan) : List Placement → List LogRecord
  | [] => []
  | placement :: rest =>
      plan.placeLog placement ++
        if (plan.place placement).isOk then placementsLogOf plan rest else []

def placementsLog (plan : DocumentPlan) : List LogRecord :=
  plan.placementsLogOf plan.spec.placements

end DocumentPlan

end TikzGlyph
