import Symbology.Stop

namespace Symbology

structure Rgba where
  red : UInt8
  green : UInt8
  blue : UInt8
  alpha : UInt8
  deriving DecidableEq, Repr

/-- A bitmap of four bytes per pixel. The buffer may be longer than its rows. -/
structure Raster where
  width : UInt32
  height : UInt32
  stride : UInt32
  pixels : Array UInt8
  row_le_stride : 4 * width.toNat ≤ stride.toNat
  rows_le_size : height.toNat * stride.toNat ≤ pixels.size
  deriving DecidableEq, Repr

inductive RasterFault where
  | widthTooLarge (width : UInt32)
  | strideTooSmall (stride width : UInt32)
  | bufferTooSmall
  /-- The address of a pixel does not fit 32 bits. -/
  | addressOverflow
  | capacityOverflow
  deriving DecidableEq, Repr

def RasterFault.stop? : RasterFault → Option Stop
  | .addressOverflow => some .addressOverflow
  | .capacityOverflow => some .capacityOverflow
  | _ => none

def RasterFault.message : RasterFault → String
  | .widthTooLarge width => "image width " ++ width.toNat.repr ++ " too large"
  | .strideTooSmall stride width =>
      "stride " ++ stride.toNat.repr ++ " too small for width " ++ width.toNat.repr
  | .bufferTooSmall => "pixel buffer too small for image dimensions"
  | .addressOverflow => Stop.addressOverflow.message
  | .capacityOverflow => Stop.capacityOverflow.message

namespace Raster

theorem stride_ofNat {width : UInt32} (h : 4 * width.toNat < UInt32.size) :
    (UInt32.ofNat (4 * width.toNat)).toNat = 4 * width.toNat := by
  rw [UInt32.toNat_ofNat']
  exact Nat.mod_eq_of_lt h

/-- The most bytes that can be asked for at once. -/
def capacity : Nat := 0x7FFFFFFFFFFFFFFF

def blank (width height : UInt32) : Except RasterFault Raster :=
  if h : 4 * width.toNat < UInt32.size then
    if capacity < height.toNat * (4 * width.toNat) then .error .capacityOverflow
    else .ok
      { width, height
        stride := UInt32.ofNat (4 * width.toNat)
        pixels := Array.replicate (height.toNat * (4 * width.toNat)) 0
        row_le_stride := Nat.le_of_eq (stride_ofNat h).symm
        rows_le_size := Nat.le_of_eq (by rw [stride_ofNat h, Array.size_replicate]) }
  else .error (.widthTooLarge width)

def ofBuffer (pixels : Array UInt8) (width height stride : UInt32) : Except RasterFault Raster :=
  if row_le_stride : 4 * width.toNat ≤ stride.toNat then
    if rows_le_size : height.toNat * stride.toNat ≤ pixels.size then
      .ok { width, height, stride, pixels, row_le_stride, rows_le_size }
    else .error .bufferTooSmall
  else .error (.strideTooSmall stride width)

def address (image : Raster) (x y : Nat) : Nat :=
  y * image.stride.toNat + 4 * x

def read (pixels : Array UInt8) (i : Nat) : Rgba :=
  ⟨pixels.getD i 0, pixels.getD (i + 1) 0, pixels.getD (i + 2) 0, pixels.getD (i + 3) 0⟩

def write (pixels : Array UInt8) (i : Nat) (c : Rgba) : Array UInt8 :=
  (((pixels.setIfInBounds i c.red).setIfInBounds (i + 1) c.green).setIfInBounds (i + 2) c.blue)
    |>.setIfInBounds (i + 3) c.alpha

theorem size_write (pixels : Array UInt8) (i : Nat) (c : Rgba) :
    (write pixels i c).size = pixels.size := by
  simp [write]

/-- Where the bytes of a pixel start in an image of this size, if it has one at these coordinates.
Computed in 32 bits. -/
def locate (width height stride x y : UInt32) : Except RasterFault (Option Nat) :=
  if x < width ∧ y < height then
    let i := y.toNat * stride.toNat + 4 * x.toNat
    if i < UInt32.size then .ok (some i) else .error .addressOverflow
  else .ok none

def pixel (image : Raster) (x y : UInt32) : Except RasterFault (Option Rgba) := do
  let start ← locate image.width image.height image.stride x y
  .ok (start.map (read image.pixels))

/-- Sets a pixel. Coordinates outside the image are ignored. -/
def put (image : Raster) (x y : Int) (c : Rgba) : Raster :=
  if 0 ≤ x ∧ 0 ≤ y ∧ x < image.width.toNat ∧ y < image.height.toNat then
    { image with
      pixels := write image.pixels (image.address x.toNat y.toNat) c
      rows_le_size := by rw [size_write]; exact image.rows_le_size }
  else image

end Raster
end Symbology
