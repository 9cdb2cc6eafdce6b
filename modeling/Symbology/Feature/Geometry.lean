namespace Symbology

/-- Degrees, and a height in meters. -/
@[ext]
structure Position where
  longitude : Float
  latitude : Float
  height : Float
  deriving DecidableEq, Repr

def Position.withHeight (p : Position) (height : Float) : Position :=
  { p with height }

@[simp] theorem Position.longitude_withHeight (p : Position) (height : Float) :
    (p.withHeight height).longitude = p.longitude := rfl

@[simp] theorem Position.latitude_withHeight (p : Position) (height : Float) :
    (p.withHeight height).latitude = p.latitude := rfl

@[simp] theorem Position.height_withHeight (p : Position) (height : Float) :
    (p.withHeight height).height = height := rfl

/-- A polygon is a list of rings, of which the first is the exterior. -/
inductive Geometry where
  | point (p : Position)
  | multiPoint (points : List Position)
  | lineString (line : List Position)
  | multiLineString (lines : List (List Position))
  | polygon (rings : List (List Position))
  | multiPolygon (polygons : List (List (List Position)))
  deriving DecidableEq, Repr

namespace Geometry

def kindName : Geometry → String
  | .point _ => "Point"
  | .multiPoint _ => "MultiPoint"
  | .lineString _ => "LineString"
  | .multiLineString _ => "MultiLineString"
  | .polygon _ => "Polygon"
  | .multiPolygon _ => "MultiPolygon"

def isPoint : Geometry → Bool
  | .point _ | .multiPoint _ => true
  | _ => false

def isLine : Geometry → Bool
  | .lineString _ | .multiLineString _ => true
  | _ => false

def isPolygon : Geometry → Bool
  | .polygon _ | .multiPolygon _ => true
  | _ => false

def anchor : Geometry → Option Position
  | .point p => some p
  | .multiPoint points => points.head?
  | _ => none

/-- The exterior rings of polygons count as lines. Of several parts the first one counts. -/
def linePositions : Geometry → List Position
  | .point _ | .multiPoint _ => []
  | .lineString line => line
  | .multiLineString lines => lines.headD []
  | .polygon rings => rings.headD []
  | .multiPolygon polygons => (polygons.headD []).headD []

def polygonRings : Geometry → List (List Position)
  | .polygon rings => rings
  | .multiPolygon polygons => polygons.headD []
  | _ => []

end Geometry
end Symbology
