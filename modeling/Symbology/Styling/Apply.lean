import Symbology.Styling.LeaderLine

namespace Symbology.Styling

open Style (Symbolizer)

def applyOutline (config : Config) (s : Style.Fill) (e : Entity) : Applied Entity :=
  match Portrayal.outlineStroke? s with
  | none => .styled e
  | some stroke =>
      match stroke.polyline config e.geometry.linePositions with
      | .error err => .failed err e
      | .ok line => .styled { e with polyline := some line } stroke.notices

/-- The area is set before the outline is looked at. -/
def applyFill (config : Config) (s : Style.Fill) (e : Entity) : Applied Entity :=
  if !e.geometry.isPolygon then .skipped e
  else match s.color with
    | none => applyOutline config s e
    | some color =>
        match Portrayal.fillPolygon config e.geometry s color with
        | .error err => .failed err e
        | .ok polygon => applyOutline config s { e with polygon := some polygon }

def applyLine (config : Config) (s : Style.Line) (e : Entity) : Applied Entity :=
  if !(e.geometry.isLine || e.geometry.isPolygon) then .skipped e
  else
    let stroke := Portrayal.lineStroke s
    match stroke.polyline config e.geometry.linePositions with
    | .error err => .failed err e
    | .ok line => .styled { e with polyline := some line } stroke.notices

def applyMark (icon : Icon) (s : Style.Mark) (e : Entity) : Applied Entity :=
  if !e.geometry.isPoint then .skipped e
  else .styled { e with billboard := some (Portrayal.markBillboard icon s) }

def applyIcon (icon : Icon) (s : Style.Icon) (e : Entity) : Applied Entity :=
  if !e.geometry.isPoint then .skipped e
  else match Portrayal.iconBillboard icon s with
    | .error err => .failed err e
    | .ok billboard => .styled { e with billboard := some billboard }

def applyModel (s : Style.Model) (e : Entity) : Applied Entity :=
  if !e.geometry.isPoint then .skipped e
  else match s.model with
    | none => .skipped e
    | some uri =>
        match Portrayal.modelOf uri s with
        | .error err => .failed err e
        | .ok model => .styled { e with model := some model }

def applyLabel (config : Config) (s : Style.Label) (e : Entity) : Applied Entity :=
  if !e.geometry.isPoint then .skipped e
  else match s.label with
    | none => .skipped e
    | some template =>
        match Portrayal.labelOf config e.properties template s with
        | .error err => .failed err e
        | .ok label => .styled { e with label := some label }

def applyGraphics (config : Config) (icon : Option Icon) (s : Symbolizer) (e : Entity) :
    Applied Entity :=
  match s, icon with
  | .fill s, _ => applyFill config s e
  | .line s, _ => applyLine config s e
  | .mark s, some icon => applyMark icon s e
  | .icon s, some icon => applyIcon icon s e
  | .mark _, none => .skipped e
  | .icon _, none => .skipped e
  | .model s, _ => applyModel s e
  | .text s, _ => applyLabel config s e
  | .unknown, _ => .skipped e [.unknownKind]

structure Subject where
  entity : Entity
  leaderAttached : Bool := false
  deriving Repr

def raise (s : Symbolizer) (e : Entity) : Entity :=
  match s.displayHeight? with
  | none => e
  | some height => { e with position := e.position.map (·.withHeight height) }

def Subject.lead (config : Config) (s : Symbolizer) (x : Subject) : Applied Subject :=
  if x.leaderAttached then .skipped x
  else
    let a := attachLeader config s x.entity
    a.mapState fun e => { entity := e, leaderAttached := a.hasStyled }

def Subject.draw (config : Config) (icon : Option Icon) (s : Symbolizer) (x : Subject) :
    Applied Subject :=
  (applyGraphics config icon s x.entity).mapState fun e => { x with entity := e }

/-- Applies a symbolizer. A point symbol is raised to its height first, then it gets its leader
line, and then its graphics. -/
def Subject.apply (config : Config) (icon : Option Icon) (s : Symbolizer) (x : Subject) :
    Applied Subject :=
  if s.isPointSymbol then
    if !x.entity.geometry.isPoint then .skipped x
    else if s.needsIcon && icon.isNone then .skipped x
    else
      (Subject.lead config s { x with entity := raise s x.entity }).andThen (draw config icon s)
  else x.draw config icon s

end Symbology.Styling
