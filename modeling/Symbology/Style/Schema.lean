import Symbology.Json.Basic
import Symbology.Style.Kind

namespace Symbology.Style

inductive FieldType where
  | text
  | flag
  | number
  | numbers
  | texts
  | pair
  deriving DecidableEq, Repr

def flag? : Json → Option Bool
  | .bool b => some b
  | _ => none

def numbers? : Json → Option (List Float)
  | .arr vs => vs.mapM Json.asDouble?
  | _ => none

def texts? : Json → Option (List String)
  | .arr vs => vs.mapM Json.asText?
  | _ => none

def pair? : Json → Option (Float × Float)
  | .arr [x, y] => do some (← x.asDouble?, ← y.asDouble?)
  | _ => none

def FieldType.accepts : FieldType → Json → Bool
  | .text, v => v.asText?.isSome
  | .flag, v => (flag? v).isSome
  | .number, v => v.asDouble?.isSome
  | .numbers, v => (numbers? v).isSome
  | .texts, v => (texts? v).isSome
  | .pair, v => (pair? v).isSome

def leaderFields : List (String × FieldType) :=
  [("msLeaderLineColor", .text), ("msLeaderLineOpacity", .number), ("msLeaderLineWidth", .number)]

def Kind.fields : Kind → List (String × FieldType)
  | .fill =>
      [("color", .text), ("fillOpacity", .number), ("outlineColor", .text),
        ("outlineOpacity", .number), ("outlineWidth", .number), ("outlineDasharray", .numbers),
        ("msClassificationType", .text), ("msClampToGround", .flag)]
  | .line =>
      [("color", .text), ("opacity", .number), ("width", .number), ("dasharray", .numbers),
        ("msClassificationType", .text), ("msClampToGround", .flag)]
  | .mark =>
      [("wellKnownName", .text), ("color", .text), ("fillOpacity", .number),
        ("strokeColor", .text), ("strokeOpacity", .number), ("strokeWidth", .number),
        ("radius", .number), ("rotate", .number), ("offset", .pair), ("msBringToFront", .flag),
        ("msHeightReference", .text), ("msHeight", .number)] ++ leaderFields
  | .icon =>
      [("image", .text), ("color", .text), ("opacity", .number), ("size", .number),
        ("rotate", .number), ("offset", .pair), ("msBringToFront", .flag),
        ("msHeightReference", .text), ("msHeight", .number)] ++ leaderFields
  | .model =>
      [("model", .text), ("scale", .number), ("heading", .number), ("pitch", .number),
        ("roll", .number), ("color", .text), ("opacity", .number), ("height", .number),
        ("msBringToFront", .flag), ("msHeightReference", .text)] ++ leaderFields
  | .text =>
      [("label", .text), ("offset", .pair), ("color", .text), ("opacity", .number),
        ("haloColor", .text), ("haloOpacity", .number), ("haloWidth", .number), ("font", .texts),
        ("fontStyle", .text), ("fontWeight", .text), ("size", .number), ("rotate", .number),
        ("msBringToFront", .flag), ("msHeightReference", .text), ("msHeight", .number)] ++
        leaderFields
  | .unknown => []

end Symbology.Style
