import Symbology.Raster.Basic

namespace Symbology

structure Icon where
  id : String
  image : Raster
  /-- The size that counts, which the host may set apart from the image. -/
  width : UInt32
  height : UInt32
  deriving DecidableEq, Repr

namespace Icon

def ofRaster (id : String) (image : Raster) : Icon where
  id
  image
  width := image.width
  height := image.height

def naturalSize (i : Icon) : Float :=
  Float.ofNat (max i.width i.height).toNat

end Icon
end Symbology
