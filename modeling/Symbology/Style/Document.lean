import Symbology.Color
import Symbology.Config
import Symbology.Style.Symbolizer

namespace Symbology.Style

structure Rule where
  name : String := ""
  /-- A rule without a filter matches every feature. -/
  filter : Option Json := none
  symbolizers : List Symbolizer := []
  deriving Repr

structure Document where
  name : String := ""
  rules : List Rule := []
  deriving Repr

def Document.symbolizers (d : Document) : List Symbolizer :=
  d.rules.flatMap Rule.symbolizers

def isMissing (field : Option String) : Bool :=
  match field with
  | some s => Text.isAllBlank s
  | none => true

def Symbolizer.missingField? : Symbolizer → Option String
  | .mark s => if isMissing s.wellKnownName then some "wellKnownName" else none
  | .icon s => if isMissing s.image then some "image" else none
  | .model s => if isMissing s.model then some "model" else none
  | .text s => if isMissing s.label then some "label" else none
  | _ => none

def Symbolizer.badRadius? : Symbolizer → Option Float
  | .mark s => s.radius.filter (!isPositive ·)
  | _ => none

def isColor (s : String) : Bool :=
  (Color.ofHex? s 1).isSome

def Symbolizer.badColor? (s : Symbolizer) : Option String :=
  s.colors.find? (!isColor ·)

def Symbolizer.defect? (s : Symbolizer) : Option Defect :=
  match s.missingField?, s.badRadius?, s.badColor? with
  | some field, _, _ => some (.missingField s.kind field)
  | none, some r, _ => some (.badRadius r)
  | none, none, some color => some (.badColor s.kind color)
  | none, none, none => none

def Rule.defect? (r : Rule) : Option Defect :=
  r.symbolizers.findSome? Symbolizer.defect?

def Document.defect? (d : Document) : Option StyleError :=
  d.rules.findSome? fun r => r.defect?.map (.malformedStyle r.name)

end Symbology.Style
