import Symbology.Error
import Symbology.Text.Hex

namespace Symbology

structure Color where
  red : Float
  green : Float
  blue : Float
  alpha : Float
  deriving DecidableEq, Repr

namespace Color

def white : Color := ⟨1, 1, 1, 1⟩

def channel (byte : Nat) : Float :=
  Float.ofNat byte / 255

def ofBytes (r g b a : Nat) : Color :=
  ⟨channel r, channel g, channel b, channel a⟩

def byte? (high low : Char) : Option Nat :=
  if high = '+' then Text.hexValue? low
  else do
    let h ← Text.hexValue? high
    let l ← Text.hexValue? low
    some (16 * h + l)

def bytes? : List Char → Option (Nat × Nat × Nat × Nat)
  | [r, g, b] => do
      some (← byte? r r, ← byte? g g, ← byte? b b, 255)
  | [r, r', g, g', b, b'] => do
      some (← byte? r r', ← byte? g g', ← byte? b b', 255)
  | [r, r', g, g', b, b', a, a'] => do
      some (← byte? r r', ← byte? g g', ← byte? b b', ← byte? a a')
  | _ => none

/-- Brings an opacity into the range from 0 to 1; not-a-number counts as opaque. -/
def clampOpacity (x : Float) : Float :=
  if x.isNaN then 1
  else if x < 0 then 0
  else if 1 < x then 1
  else x

def withOpacity (r g b a : Nat) (opacity : Float) : Color :=
  let color := ofBytes r g b a
  let opacity := clampOpacity opacity
  { color with alpha := if a = 255 then opacity else color.alpha * opacity }

def ofHex? (hex : String) (opacity : Float) : Option Color :=
  match hex.toList with
  | '#' :: digits => (bytes? digits).map fun (r, g, b, a) => withOpacity r g b a opacity
  | _ => none

def ofHex (hex : String) (opacity : Float) : Except StyleError Color :=
  match ofHex? hex opacity with
  | some color => .ok color
  | none => .error (.invalidColor hex)

end Color
end Symbology
