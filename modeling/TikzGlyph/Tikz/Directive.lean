import TikzGlyph.Drawing.Canvas

/-!
# Directives

Every call to a canvas has one directive of the target language. Colours are referred to by names
made from their indices. In the options of a placement the order counts: the vertical shift follows
the flip and is therefore made in flipped space.
-/

namespace TikzGlyph

namespace Tikz

/-- The name of the colour with an index. -/
def colorName (index : Nat) : String :=
  s!"c{index}"

/-- The option that chooses a fill, or no option. -/
def fillOption : Option Nat → String
  | none => ""
  | some index => "fill=" ++ colorName index

def number (value : Binary64) : String := value.text .directive

/-- The options of a placement. -/
def placementOptions (transform : Transform) : String :=
  ", ".intercalate
    ["x=1pt", "y=1pt", "xshift=" ++ number transform.x, "scale=" ++ number transform.scale,
      "yscale=-1", "yshift=" ++ number transform.y, "rotate=" ++ number transform.rotate]

def openScope (options : String) : String :=
  "\\begin\x7bscope\x7d[" ++ options ++ "]"

def closeScope : String := "\\end\x7bscope\x7d"

/-- The directive that fills a shape. -/
def fillShape (fill : Option Nat) (shape : String) : String :=
  "\\fill[" ++ fillOption fill ++ "] " ++ shape ++ ";"

def point (x y : Binary64) : String :=
  "(" ++ number x ++ ", " ++ number y ++ ")"

/-- The directive of a call. Path data goes into it unchanged. -/
def directive : Call → String
  | .define index color =>
      "\\definecolor\x7b" ++ colorName index ++ "\x7d\x7bHTML\x7d\x7b" ++ color.hex ++ "\x7d"
  | .beginGroup fill => openScope (fillOption fill)
  | .beginPlacement transform => openScope (placementOptions transform)
  | .endScope => closeScope
  | .circle centerX centerY radius fill =>
      fillShape fill (point centerX centerY ++ " circle (" ++ number radius ++ ")")
  | .ellipse centerX centerY radiusX radiusY fill =>
      fillShape fill
        (point centerX centerY ++ " ellipse (" ++ number radiusX ++ " and " ++ number radiusY ++
          ")")
  | .path data fill => fillShape fill ("svg \x7b" ++ data ++ "\x7d")

/-- An axis shading over the whole page between two colours. -/
def shading (bottom top : Nat) : String :=
  "\\shade[shading=axis, bottom color=" ++ colorName bottom ++ ", top color=" ++ colorName top
    ++ ", shading angle=45] (current page.south west) rectangle (current page.north east);"

end Tikz

end TikzGlyph
