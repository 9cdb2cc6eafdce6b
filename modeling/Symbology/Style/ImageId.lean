import Symbology.Style.Members
import Symbology.Json.Print

/-!
Identifiers of the images that symbols are drawn from. A mark's identifier lists the fields that
change its image, sorted by name, so that marks that look alike share one image.
-/

namespace Symbology.Style

def Mark.appearance (s : Mark) : Json :=
  .obj
    [("color", orNull .str s.color),
      ("fillOpacity", orNull ofDouble s.fillOpacity),
      ("radius", orNull ofDouble s.radius),
      ("strokeColor", orNull .str s.strokeColor),
      ("strokeOpacity", orNull ofDouble s.strokeOpacity),
      ("strokeWidth", orNull ofDouble s.strokeWidth),
      ("wellKnownName", orNull .str s.wellKnownName)]

def Symbolizer.imageId? : Symbolizer → Option String
  | .mark s => some ("mark:" ++ s.appearance.text)
  | .icon s => s.image.map ("icon:" ++ ·)
  | _ => none

end Symbology.Style
