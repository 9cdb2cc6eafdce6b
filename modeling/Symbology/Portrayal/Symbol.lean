import Symbology.Color
import Symbology.Config
import Symbology.Icon.Basic
import Symbology.Raster.Line
import Symbology.Style.Symbolizer
import Symbology.Template

namespace Symbology.Portrayal

structure Billboard where
  image : Raster
  scale : Float
  /-- Counter-clockwise, in radians. -/
  rotation : Float
  color : Option Color
  offset : PixelOffset
  depthTestDistance : Float
  heightReference : HeightReference
  deriving DecidableEq, Repr

structure Model where
  uri : String
  scale : Float
  color : Color
  heightReference : HeightReference
  /-- Angles in degrees. -/
  heading : Float
  pitch : Float
  roll : Float
  deriving DecidableEq, Repr

inductive LabelStyle where
  | fill
  | outline
  | fillAndOutline
  deriving DecidableEq, Repr

structure Label where
  text : String
  font : String
  fillColor : Color
  outlineColor : Color
  outlineWidth : Float
  style : LabelStyle
  offset : PixelOffset
  depthTestDistance : Float
  heightReference : HeightReference
  deriving DecidableEq, Repr

def markBillboard (icon : Icon) (s : Style.Mark) : Billboard where
  image := icon.image
  scale := (s.radius.map fun r => scaleFactor (r * 2) icon.naturalSize).getD 1
  rotation := rotation (s.rotate.getD 0)
  color := none
  offset := .ofStyle s.offset
  depthTestDistance := everywhere
  heightReference := .ofStyle s.heightReference

def iconBillboard (icon : Icon) (s : Style.Icon) : Except StyleError Billboard := do
  let color ← Color.ofHex (s.color.getD "#ffffff") (s.opacity.getD 1)
  .ok
    { image := icon.image
      scale := (s.size.map fun size => scaleFactor size icon.naturalSize).getD 1
      rotation := rotation (s.rotate.getD 0)
      color := some color
      offset := .ofStyle s.offset
      depthTestDistance := everywhere
      heightReference := .ofStyle s.heightReference }

def modelOf (uri : String) (s : Style.Model) : Except StyleError Model := do
  let color ← Color.ofHex (s.color.getD "#ffffff") (s.opacity.getD 1)
  .ok
    { uri
      scale := s.scale.getD 1
      color
      heightReference := .ofStyle s.heightReference
      heading := s.heading.getD 0
      pitch := s.pitch.getD 0
      roll := s.roll.getD 0 }

def fontText (config : Config) (s : Style.Label) : String :=
  let family := ((s.font.bind List.head?).getD config.fontFamily)
  let size := Double.Notation.plain.text (s.size.getD config.fontSize)
  s.fontStyle.getD "normal" ++ " " ++ s.fontWeight.getD "normal" ++ " " ++ size ++ "px " ++ family

def labelOf (config : Config) (ps : Properties) (template : String) (s : Style.Label) :
    Except StyleError Label := do
  let fillColor ← Color.ofHex (s.color.getD "#000000") (s.opacity.getD 1)
  let outlineColor ← Color.ofHex (s.haloColor.getD "#ffffff") (s.haloOpacity.getD 1)
  let outlineWidth := s.haloWidth.getD 0
  .ok
    { text := Template.render template ps
      font := fontText config s
      fillColor
      outlineColor
      outlineWidth
      style := if 0 < outlineWidth then .fillAndOutline else .fill
      offset := .ofStyle s.offset
      depthTestDistance := everywhere
      heightReference := .ofStyle s.heightReference }

end Symbology.Portrayal
