import Symbology.Color
import Symbology.Config
import Symbology.Dash
import Symbology.Feature.Geometry
import Symbology.Notice

namespace Symbology.Portrayal

inductive Material where
  | solid (color : Color)
  | dashed (color : Color) (dash : Dash)
  deriving DecidableEq, Repr

def Material.ofDash (color : Color) : Option Dash → Material
  | some dash => .dashed color dash
  | none => .solid color

def Material.color : Material → Color
  | .solid color => color
  | .dashed color _ => color

structure Polyline where
  positions : List Position
  width : Float
  material : Material
  clampToGround : Bool
  classification : Classification
  deriving DecidableEq, Repr

structure Polygon where
  hierarchy : List (List Position)
  color : Color
  classification : Classification
  perPositionHeight : Bool
  deriving DecidableEq, Repr

def classificationOr (config : Config) (name : Option String) : Classification :=
  (name.bind Classification.ofStyle?).getD config.classification

/-- What is drawn where a dash array has no encoding: eight bits off, eight bits on. -/
def defaultDash (config : Config) : Dash where
  length := config.dashLength
  pattern := 0x00ff

structure Stroke where
  color : Option String
  opacity : Option Float
  width : Option Float
  dashes : Option (List Float)
  clampToGround : Option Bool
  classification : Option String
  deriving DecidableEq, Repr

namespace Stroke

def givenDashes (s : Stroke) : Option (List Float) :=
  s.dashes.filter (!·.isEmpty)

def dash (config : Config) (s : Stroke) : Option Dash :=
  s.givenDashes.map fun ds => ((Dash.ofRuns? ds).toOption.join).getD (defaultDash config)

def notices (s : Stroke) : List Notice :=
  match s.givenDashes with
  | none => []
  | some ds =>
      match Dash.ofRuns? ds with
      | .error cause => [.stopped cause]
      | .ok none => [.dashesReplaced ds]
      | .ok (some _) => []

def polyline (config : Config) (positions : List Position) (s : Stroke) :
    Except StyleError Polyline := do
  let color ← Color.ofHex (s.color.getD "#000000") (s.opacity.getD 1)
  .ok
    { positions
      width := s.width.getD 1
      material := .ofDash color (s.dash config)
      clampToGround := s.clampToGround.getD false
      classification := classificationOr config s.classification }

end Stroke

def lineStroke (s : Style.Line) : Stroke where
  color := s.color
  opacity := s.opacity
  width := s.width
  dashes := s.dashes
  clampToGround := s.clampToGround
  classification := s.classification

/-- A fill has an outline if it gives the outline a color or a width. Whether it is clamped is
settled for the area and the outline together. -/
def outlineStroke? (s : Style.Fill) : Option Stroke :=
  if s.outlineColor.isSome || s.outlineWidth.isSome then
    some
      { color := s.outlineColor
        opacity := s.outlineOpacity
        width := s.outlineWidth
        dashes := s.outlineDashes
        clampToGround := some (s.clampToGround.getD false)
        classification := s.classification }
  else none

def fillPolygon (config : Config) (g : Geometry) (s : Style.Fill) (color : String) :
    Except StyleError Polygon := do
  let color ← Color.ofHex color (s.fillOpacity.getD 1)
  .ok
    { hierarchy := g.polygonRings
      color
      classification := classificationOr config s.classification
      perPositionHeight := !s.clampToGround.getD false }

end Symbology.Portrayal
