import Symbology.Style.Kind

namespace Symbology.Style

structure LeaderLine where
  color : Option String := none
  opacity : Option Float := none
  width : Option Float := none
  deriving DecidableEq, Repr

def LeaderLine.isRequested (l : LeaderLine) : Bool :=
  l.color.isSome || l.opacity.isSome || l.width.isSome

structure Fill where
  color : Option String := none
  fillOpacity : Option Float := none
  outlineColor : Option String := none
  outlineOpacity : Option Float := none
  outlineWidth : Option Float := none
  outlineDashes : Option (List Float) := none
  classification : Option String := none
  clampToGround : Option Bool := none
  deriving DecidableEq, Repr

structure Line where
  color : Option String := none
  opacity : Option Float := none
  width : Option Float := none
  dashes : Option (List Float) := none
  classification : Option String := none
  clampToGround : Option Bool := none
  deriving DecidableEq, Repr

structure Mark where
  wellKnownName : Option String := none
  color : Option String := none
  fillOpacity : Option Float := none
  strokeColor : Option String := none
  strokeOpacity : Option Float := none
  strokeWidth : Option Float := none
  radius : Option Float := none
  rotate : Option Float := none
  offset : Option (Float × Float) := none
  bringToFront : Option Bool := none
  heightReference : Option String := none
  height : Option Float := none
  leaderLine : LeaderLine := {}
  deriving DecidableEq, Repr

structure Icon where
  image : Option String := none
  color : Option String := none
  opacity : Option Float := none
  size : Option Float := none
  rotate : Option Float := none
  offset : Option (Float × Float) := none
  bringToFront : Option Bool := none
  heightReference : Option String := none
  height : Option Float := none
  leaderLine : LeaderLine := {}
  deriving DecidableEq, Repr

structure Model where
  model : Option String := none
  scale : Option Float := none
  heading : Option Float := none
  pitch : Option Float := none
  roll : Option Float := none
  color : Option String := none
  opacity : Option Float := none
  height : Option Float := none
  bringToFront : Option Bool := none
  heightReference : Option String := none
  leaderLine : LeaderLine := {}
  deriving DecidableEq, Repr

structure Label where
  label : Option String := none
  offset : Option (Float × Float) := none
  color : Option String := none
  opacity : Option Float := none
  haloColor : Option String := none
  haloOpacity : Option Float := none
  haloWidth : Option Float := none
  font : Option (List String) := none
  fontStyle : Option String := none
  fontWeight : Option String := none
  size : Option Float := none
  /-- Kept in the document; labels stand upright whatever it says. -/
  rotate : Option Float := none
  bringToFront : Option Bool := none
  heightReference : Option String := none
  height : Option Float := none
  leaderLine : LeaderLine := {}
  deriving DecidableEq, Repr

inductive Symbolizer where
  | fill (s : Fill)
  | line (s : Line)
  | mark (s : Mark)
  | icon (s : Icon)
  | model (s : Model)
  | text (s : Label)
  | unknown
  deriving DecidableEq, Repr

namespace Symbolizer

def kind : Symbolizer → Kind
  | .fill _ => .fill
  | .line _ => .line
  | .mark _ => .mark
  | .icon _ => .icon
  | .model _ => .model
  | .text _ => .text
  | .unknown => .unknown

def needsIcon : Symbolizer → Bool
  | .mark _ | .icon _ => true
  | _ => false

def isPointSymbol : Symbolizer → Bool
  | .mark _ | .icon _ | .model _ | .text _ => true
  | _ => false

theorem isPointSymbol_of_needsIcon {s : Symbolizer} (h : s.needsIcon = true) :
    s.isPointSymbol = true := by
  cases s <;> simp_all [needsIcon, isPointSymbol]

def leaderOptions : Symbolizer → LeaderLine
  | .mark s => s.leaderLine
  | .icon s => s.leaderLine
  | .model s => s.leaderLine
  | .text s => s.leaderLine
  | _ => {}

def leaderLine? (s : Symbolizer) : Option LeaderLine :=
  if s.leaderOptions.isRequested then some s.leaderOptions else none

def bringsToFront (s : Symbolizer) : Bool :=
  let flag := match s with
    | .mark s => s.bringToFront
    | .icon s => s.bringToFront
    | .model s => s.bringToFront
    | .text s => s.bringToFront
    | _ => none
  flag.getD false

def displayHeight? : Symbolizer → Option Float
  | .mark s => s.height
  | .icon s => s.height
  | .model s => s.height
  | .text s => s.height
  | _ => none

def colors (s : Symbolizer) : List String :=
  let given := match s with
    | .fill s => [s.color, s.outlineColor]
    | .line s => [s.color]
    | .mark s => [s.color, s.strokeColor, s.leaderLine.color]
    | .icon s => [s.color, s.leaderLine.color]
    | .model s => [s.color, s.leaderLine.color]
    | .text s => [s.color, s.haloColor, s.leaderLine.color]
    | .unknown => []
  given.filterMap id

end Symbolizer
end Symbology.Style
