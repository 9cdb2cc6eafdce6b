namespace Symbology.Portrayal

inductive Classification where
  | terrain
  | tiles
  | both
  deriving DecidableEq, Repr

def Classification.ofStyle? : String → Option Classification
  | "terrain" => some .terrain
  | "3d" => some .tiles
  | "both" => some .both
  | _ => none

inductive HeightReference where
  | absolute
  | clampToGround
  | relativeToGround
  deriving DecidableEq, Repr

def HeightReference.ofStyle : Option String → HeightReference
  | some "clamp" => .clampToGround
  | some "relative" => .relativeToGround
  | _ => .absolute

structure PixelOffset where
  x : Float
  y : Float
  deriving DecidableEq, Repr

def PixelOffset.ofStyle : Option (Float × Float) → PixelOffset
  | some (x, y) => ⟨x, y⟩
  | none => ⟨0, 0⟩

/-- Clockwise degrees as counter-clockwise radians. -/
def rotation (degrees : Float) : Float :=
  -(degrees * (3.141592653589793 / 180))

/-- What an image of a natural size is scaled by to have the requested one. An image without a
size is drawn as it is. -/
def scaleFactor (requested natural : Float) : Float :=
  if natural ≤ 0 then 1 else requested / natural

/-- A distance at which no depth test takes place. -/
def everywhere : Float := 1.0 / 0.0

end Symbology.Portrayal
