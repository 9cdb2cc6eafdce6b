import Symbology.Json.Read
import Symbology.Style.Schema
import Symbology.Style.Symbolizer

namespace Symbology.Style

open Json (ReadError)

abbrev Members := List (String × Json)

/-- The value of a field. Null counts as absent; a field that stands there twice, or has a value
of the wrong type, is a fault. Fields that are not asked for do not matter. -/
def Members.field (decode : Json → Option α) (name : String) (ms : Members) :
    Except ReadError (Option α) :=
  match ms.filter (·.1 = name) with
  | [] => .ok none
  | [(_, .null)] => .ok none
  | [(_, v)] =>
      match decode v with
      | some x => .ok (some x)
      | none => .error .unsuited
  | _ => .error .unsuited

namespace Members

def text := field Json.asText?
def number := field Json.asDouble?
def flag := field flag?
def numbers := field numbers?
def texts := field texts?
def pair := field pair?

end Members

def LeaderLine.ofMembers (ms : Members) : Except ReadError LeaderLine := do
  let color ← ms.text "msLeaderLineColor"
  let opacity ← ms.number "msLeaderLineOpacity"
  let width ← ms.number "msLeaderLineWidth"
  .ok { color, opacity, width }

def Fill.ofMembers (ms : Members) : Except ReadError Fill := do
  let color ← ms.text "color"
  let fillOpacity ← ms.number "fillOpacity"
  let outlineColor ← ms.text "outlineColor"
  let outlineOpacity ← ms.number "outlineOpacity"
  let outlineWidth ← ms.number "outlineWidth"
  let outlineDashes ← ms.numbers "outlineDasharray"
  let classification ← ms.text "msClassificationType"
  let clampToGround ← ms.flag "msClampToGround"
  .ok { color, fillOpacity, outlineColor, outlineOpacity, outlineWidth, outlineDashes,
        classification, clampToGround }

def Line.ofMembers (ms : Members) : Except ReadError Line := do
  let color ← ms.text "color"
  let opacity ← ms.number "opacity"
  let width ← ms.number "width"
  let dashes ← ms.numbers "dasharray"
  let classification ← ms.text "msClassificationType"
  let clampToGround ← ms.flag "msClampToGround"
  .ok { color, opacity, width, dashes, classification, clampToGround }

def Mark.ofMembers (ms : Members) : Except ReadError Mark := do
  let wellKnownName ← ms.text "wellKnownName"
  let color ← ms.text "color"
  let fillOpacity ← ms.number "fillOpacity"
  let strokeColor ← ms.text "strokeColor"
  let strokeOpacity ← ms.number "strokeOpacity"
  let strokeWidth ← ms.number "strokeWidth"
  let radius ← ms.number "radius"
  let rotate ← ms.number "rotate"
  let offset ← ms.pair "offset"
  let bringToFront ← ms.flag "msBringToFront"
  let heightReference ← ms.text "msHeightReference"
  let height ← ms.number "msHeight"
  let leaderLine ← LeaderLine.ofMembers ms
  .ok { wellKnownName, color, fillOpacity, strokeColor, strokeOpacity, strokeWidth, radius, rotate,
        offset, bringToFront, heightReference, height, leaderLine }

def Icon.ofMembers (ms : Members) : Except ReadError Icon := do
  let image ← ms.text "image"
  let color ← ms.text "color"
  let opacity ← ms.number "opacity"
  let size ← ms.number "size"
  let rotate ← ms.number "rotate"
  let offset ← ms.pair "offset"
  let bringToFront ← ms.flag "msBringToFront"
  let heightReference ← ms.text "msHeightReference"
  let height ← ms.number "msHeight"
  let leaderLine ← LeaderLine.ofMembers ms
  .ok { image, color, opacity, size, rotate, offset, bringToFront, heightReference, height,
        leaderLine }

def Model.ofMembers (ms : Members) : Except ReadError Model := do
  let model ← ms.text "model"
  let scale ← ms.number "scale"
  let heading ← ms.number "heading"
  let pitch ← ms.number "pitch"
  let roll ← ms.number "roll"
  let color ← ms.text "color"
  let opacity ← ms.number "opacity"
  let height ← ms.number "height"
  let bringToFront ← ms.flag "msBringToFront"
  let heightReference ← ms.text "msHeightReference"
  let leaderLine ← LeaderLine.ofMembers ms
  .ok { model, scale, heading, pitch, roll, color, opacity, height, bringToFront, heightReference,
        leaderLine }

def Label.ofMembers (ms : Members) : Except ReadError Label := do
  let label ← ms.text "label"
  let offset ← ms.pair "offset"
  let color ← ms.text "color"
  let opacity ← ms.number "opacity"
  let haloColor ← ms.text "haloColor"
  let haloOpacity ← ms.number "haloOpacity"
  let haloWidth ← ms.number "haloWidth"
  let font ← ms.texts "font"
  let fontStyle ← ms.text "fontStyle"
  let fontWeight ← ms.text "fontWeight"
  let size ← ms.number "size"
  let rotate ← ms.number "rotate"
  let bringToFront ← ms.flag "msBringToFront"
  let heightReference ← ms.text "msHeightReference"
  let height ← ms.number "msHeight"
  let leaderLine ← LeaderLine.ofMembers ms
  .ok { label, offset, color, opacity, haloColor, haloOpacity, haloWidth, font, fontStyle,
        fontWeight, size, rotate, bringToFront, heightReference, height, leaderLine }

def Symbolizer.ofMembers (kind : Kind) (ms : Members) : Except ReadError Symbolizer :=
  match kind with
  | .fill => (Fill.ofMembers ms).map .fill
  | .line => (Line.ofMembers ms).map .line
  | .mark => (Mark.ofMembers ms).map .mark
  | .icon => (Icon.ofMembers ms).map .icon
  | .model => (Model.ofMembers ms).map .model
  | .text => (Label.ofMembers ms).map .text
  | .unknown => .ok .unknown

/-- The symbolizer of a kind with these values in written order. Only fills and lines can be
given so, and then completely; a symbolizer of unknown kind has no values. -/
def Symbolizer.ofValues (kind : Kind) (vs : List Json) : Except ReadError Symbolizer :=
  match kind with
  | .fill | .line =>
      if vs.length = kind.fields.length then
        ofMembers kind ((kind.fields.map Prod.fst).zip vs)
      else .error .unsuited
  | .unknown => if vs.isEmpty then .ok .unknown else .error .unsuited
  | _ => .error .unsuited

def orNull (f : α → Json) : Option α → Json
  | some x => f x
  | none => .null

def ofDouble (x : Float) : Json :=
  .num (.double x)

def ofDoubles (xs : List Float) : Json :=
  .arr (xs.map ofDouble)

def ofPair (p : Float × Float) : Json :=
  .arr [ofDouble p.1, ofDouble p.2]

def ifGiven (name : String) (f : α → Json) : Option α → Members
  | some x => [(name, f x)]
  | none => []

def LeaderLine.members (l : LeaderLine) : Members :=
  ifGiven "msLeaderLineColor" .str l.color ++
  ifGiven "msLeaderLineOpacity" ofDouble l.opacity ++
  ifGiven "msLeaderLineWidth" ofDouble l.width

def Fill.members (s : Fill) : Members :=
  [("color", orNull .str s.color),
    ("fillOpacity", orNull ofDouble s.fillOpacity),
    ("outlineColor", orNull .str s.outlineColor),
    ("outlineOpacity", orNull ofDouble s.outlineOpacity),
    ("outlineWidth", orNull ofDouble s.outlineWidth),
    ("outlineDasharray", orNull ofDoubles s.outlineDashes),
    ("msClassificationType", orNull .str s.classification),
    ("msClampToGround", orNull .bool s.clampToGround)]

def Line.members (s : Line) : Members :=
  [("color", orNull .str s.color),
    ("opacity", orNull ofDouble s.opacity),
    ("width", orNull ofDouble s.width),
    ("dasharray", orNull ofDoubles s.dashes),
    ("msClassificationType", orNull .str s.classification),
    ("msClampToGround", orNull .bool s.clampToGround)]

def Mark.members (s : Mark) : Members :=
  [("wellKnownName", orNull .str s.wellKnownName),
    ("color", orNull .str s.color),
    ("fillOpacity", orNull ofDouble s.fillOpacity),
    ("strokeColor", orNull .str s.strokeColor),
    ("strokeOpacity", orNull ofDouble s.strokeOpacity),
    ("strokeWidth", orNull ofDouble s.strokeWidth),
    ("radius", orNull ofDouble s.radius),
    ("rotate", orNull ofDouble s.rotate),
    ("offset", orNull ofPair s.offset),
    ("msBringToFront", orNull .bool s.bringToFront),
    ("msHeightReference", orNull .str s.heightReference),
    ("msHeight", orNull ofDouble s.height)] ++ s.leaderLine.members

def Icon.members (s : Icon) : Members :=
  [("image", orNull .str s.image),
    ("color", orNull .str s.color),
    ("opacity", orNull ofDouble s.opacity),
    ("size", orNull ofDouble s.size),
    ("rotate", orNull ofDouble s.rotate),
    ("offset", orNull ofPair s.offset),
    ("msBringToFront", orNull .bool s.bringToFront),
    ("msHeightReference", orNull .str s.heightReference),
    ("msHeight", orNull ofDouble s.height)] ++ s.leaderLine.members

def Model.members (s : Model) : Members :=
  [("model", orNull .str s.model),
    ("scale", orNull ofDouble s.scale),
    ("heading", orNull ofDouble s.heading),
    ("pitch", orNull ofDouble s.pitch),
    ("roll", orNull ofDouble s.roll),
    ("color", orNull .str s.color),
    ("opacity", orNull ofDouble s.opacity),
    ("height", orNull ofDouble s.height),
    ("msBringToFront", orNull .bool s.bringToFront),
    ("msHeightReference", orNull .str s.heightReference)] ++ s.leaderLine.members

def Label.members (s : Label) : Members :=
  [("label", orNull .str s.label),
    ("offset", orNull ofPair s.offset),
    ("color", orNull .str s.color),
    ("opacity", orNull ofDouble s.opacity),
    ("haloColor", orNull .str s.haloColor),
    ("haloOpacity", orNull ofDouble s.haloOpacity),
    ("haloWidth", orNull ofDouble s.haloWidth),
    ("font", orNull (fun fs => .arr (fs.map .str)) s.font),
    ("fontStyle", orNull .str s.fontStyle),
    ("fontWeight", orNull .str s.fontWeight),
    ("size", orNull ofDouble s.size),
    ("rotate", orNull ofDouble s.rotate),
    ("msBringToFront", orNull .bool s.bringToFront),
    ("msHeightReference", orNull .str s.heightReference),
    ("msHeight", orNull ofDouble s.height)] ++ s.leaderLine.members

def Symbolizer.members : Symbolizer → Members
  | .fill s => s.members
  | .line s => s.members
  | .mark s => s.members
  | .icon s => s.members
  | .model s => s.members
  | .text s => s.members
  | .unknown => []

def Symbolizer.json (s : Symbolizer) : Json :=
  .obj (("kind", .str s.kind.name) :: s.members)

end Symbology.Style
