import Symbology.Portrayal.Symbol

namespace Symbology.Portrayal

def opaqueWhite : Rgba := ⟨255, 255, 255, 255⟩

def connectorSide (config : Config) (distance : Float) : UInt32 :=
  let pixels := UInt32.ofNat (Double.nearestNat (UInt32.size - 1) distance.abs)
  max config.minExtent (min config.maxExtent pixels)

def connectorEnds (distance : Float) (side : UInt32) : Int × Int :=
  let far := (side.toNat : Int) - 1
  if distance < 0 then (far, 0) else (0, far)

def connectorPen (width : Float) (w h : UInt32) : Nat :=
  min (max 1 (Double.nearestNat (UInt32.size - 1) width)) (min w.toNat h.toNat)

def connectorImage (config : Config) (x y width : Float) : Except RasterFault Raster := do
  let w := connectorSide config x
  let h := connectorSide config y
  let image ← Raster.blank w h
  let (x₀, x₁) := connectorEnds x w
  let (y₀, y₁) := connectorEnds y h
  .ok (image.drawLine ⟨x₀, y₀⟩ ⟨x₁, y₁⟩ (connectorPen width w h) opaqueWhite)

def connector (config : Config) (x y width : Float) (color : Color)
    (heightReference : Option String) : Except RasterFault Billboard := do
  let image ← connectorImage config x y width
  .ok
    { image
      scale := 1
      rotation := 0
      color := some color
      offset := ⟨x / 2, y / 2⟩
      depthTestDistance := everywhere
      heightReference := .ofStyle heightReference }

end Symbology.Portrayal
