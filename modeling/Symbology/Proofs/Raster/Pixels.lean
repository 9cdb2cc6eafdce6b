import Mathlib
import Symbology.Raster.Line

namespace Symbology

def Rgba.byte (c : Rgba) : Nat → UInt8
  | 0 => c.red
  | 1 => c.green
  | 2 => c.blue
  | _ => c.alpha

namespace Raster

variable {image : Raster} {x y i : Nat} {c : Rgba}

structure Holds (image : Raster) (x y i : Nat) : Prop where
  x_lt : x < image.width.toNat
  y_lt : y < image.height.toNat
  le : image.address x y ≤ i
  lt : i < image.address x y + 4

theorem Holds.row (h : image.Holds x y i) :
    y * image.stride.toNat ≤ i ∧ i < (y + 1) * image.stride.toNat ∧
      (y + 1) * image.stride.toNat ≤ image.pixels.size := by
  obtain ⟨hx, hy, hle, hlt⟩ := h
  have hstride := image.row_le_stride
  have hrows : (y + 1) * image.stride.toNat ≤ image.height.toNat * image.stride.toNat :=
    Nat.mul_le_mul_right _ hy
  have hsize := image.rows_le_size
  rw [address] at hle hlt
  rw [Nat.succ_mul] at hrows ⊢
  omega

theorem address_le_size (image : Raster) (hx : x < image.width.toNat) (hy : y < image.height.toNat) :
    image.address x y + 4 ≤ image.pixels.size := by
  have hlast : image.Holds x y (image.address x y + 3) := ⟨hx, hy, by omega, by omega⟩
  have hrow := hlast.row
  omega

theorem Holds.unique {x' y' : Nat} (h : image.Holds x y i) (h' : image.Holds x' y' i) :
    x' = x ∧ y' = y := by
  have hrow := h.row
  have hrow' := h'.row
  have hy : y' = y := by
    by_contra hne
    rcases Nat.lt_or_gt_of_ne hne with hlt | hlt
    · have hrows : (y' + 1) * image.stride.toNat ≤ y * image.stride.toNat :=
        Nat.mul_le_mul_right _ hlt
      omega
    · have hrows : (y + 1) * image.stride.toNat ≤ y' * image.stride.toNat :=
        Nat.mul_le_mul_right _ hlt
      omega
  subst hy
  have hle := h.le
  have hlt := h.lt
  have hle' := h'.le
  have hlt' := h'.lt
  simp only [address] at hle hlt hle' hlt'
  exact ⟨by omega, rfl⟩

theorem holds_address {d : Nat} (hx : x < image.width.toNat) (hy : y < image.height.toNat)
    (hd : d < 4) : image.Holds x y (image.address x y + d) :=
  ⟨hx, hy, by omega, by omega⟩

theorem read_eq_of_bytes {pixels : Array UInt8} {start : Nat}
    (h : ∀ d < 4, pixels[start + d]? = some (c.byte d)) : read pixels start = c := by
  have hbyte (d : Nat) (hd : d < 4) : pixels.getD (start + d) 0 = c.byte d := by
    rw [Array.getD_eq_getD_getElem?, h d hd, Option.getD_some]
  have hred := hbyte 0 (by decide)
  rw [Nat.add_zero] at hred
  rw [read, hred, hbyte 1 (by decide), hbyte 2 (by decide), hbyte 3 (by decide)]
  rfl

theorem read_congr {pixels others : Array UInt8} {start : Nat}
    (h : ∀ d < 4, pixels[start + d]? = others[start + d]?) :
    read pixels start = read others start := by
  have hbyte (d : Nat) (hd : d < 4) : pixels.getD (start + d) 0 = others.getD (start + d) 0 := by
    rw [Array.getD_eq_getD_getElem?, h d hd, ← Array.getD_eq_getD_getElem?]
  have hred := hbyte 0 (by decide)
  rw [Nat.add_zero] at hred
  rw [read, read, hred, hbyte 1 (by decide), hbyte 2 (by decide), hbyte 3 (by decide)]

theorem read_of_bytes {P : Prop} [Decidable P] {pixels others : Array UInt8} {start : Nat}
    (h : ∀ d < 4, pixels[start + d]? = if P then some (c.byte d) else others[start + d]?) :
    read pixels start = if P then c else read others start := by
  split
  · next hp => exact read_eq_of_bytes fun d hd => (h d hd).trans (if_pos hp)
  · next hp => exact read_congr fun d hd => (h d hd).trans (if_neg hp)

structure IsBlank (w h : UInt32) (image : Raster) : Prop where
  width : image.width = w
  height : image.height = h
  stride : image.stride.toNat = 4 * w.toNat
  pixels : image.pixels = Array.replicate (h.toNat * (4 * w.toNat)) 0

inductive Blanked (w h : UInt32) : Except RasterFault Raster → Prop where
  | wide (hw : UInt32.size ≤ 4 * w.toNat) : Blanked w h (.error (.widthTooLarge w))
  | large (hw : 4 * w.toNat < UInt32.size) (hh : capacity < h.toNat * (4 * w.toNat)) :
      Blanked w h (.error .capacityOverflow)
  | made {image : Raster} (hw : 4 * w.toNat < UInt32.size)
      (hh : h.toNat * (4 * w.toNat) ≤ capacity) (hblank : IsBlank w h image) :
      Blanked w h (.ok image)

theorem blanked (w h : UInt32) : Blanked w h (blank w h) := by
  rw [blank]
  split
  · next hw =>
      split
      · next hh => exact .large hw hh
      · next hh => exact .made hw (Nat.le_of_not_lt hh) ⟨rfl, rfl, stride_ofNat hw, rfl⟩
  · next hw => exact .wide (Nat.le_of_not_lt hw)

theorem blank_eq_ok {w h : UInt32} (hw : 4 * w.toNat < UInt32.size)
    (hh : h.toNat * (4 * w.toNat) ≤ capacity) : ∃ image, blank w h = .ok image ∧ IsBlank w h image := by
  have houtcome := blanked w h
  generalize blank w h = outcome at houtcome
  cases houtcome with
  | wide hwide => exact absurd hw (Nat.not_lt.mpr hwide)
  | large _ hlarge => exact absurd hh (Nat.not_le.mpr hlarge)
  | made _ _ hblank => exact ⟨_, rfl, hblank⟩

theorem blank_eq_error_iff {w h : UInt32} {fault : RasterFault} :
    blank w h = .error fault ↔
      (UInt32.size ≤ 4 * w.toNat ∧ fault = .widthTooLarge w) ∨
        (4 * w.toNat < UInt32.size ∧ capacity < h.toNat * (4 * w.toNat) ∧
          fault = .capacityOverflow) := by
  have houtcome := blanked w h
  generalize blank w h = outcome at houtcome ⊢
  cases houtcome with
  | wide hw => simp [hw, Nat.not_lt.mpr hw, eq_comm]
  | large hw hh => simp [hw, hh, Nat.not_le.mpr hw, eq_comm]
  | made hw hh hblank => simp [Nat.not_le.mpr hw, Nat.not_lt.mpr hh]

theorem isBlank_of_blank {w h : UInt32} (hok : blank w h = .ok image) : IsBlank w h image := by
  have houtcome := blanked w h
  rw [hok] at houtcome
  cases houtcome with
  | made _ _ hblank => exact hblank

theorem IsBlank.read {w h : UInt32} (hblank : IsBlank w h image) (i : Nat) :
    read image.pixels i = ⟨0, 0, 0, 0⟩ := by
  have hbyte (i : Nat) : image.pixels.getD i 0 = 0 := by
    rw [hblank.pixels, Array.getD_eq_getD_getElem?, Array.getElem?_replicate]
    split <;> rfl
  rw [Raster.read, hbyte, hbyte, hbyte, hbyte]

theorem getElem?_write {pixels : Array UInt8} {start : Nat} (h : start + 4 ≤ pixels.size)
    (c : Rgba) (i : Nat) :
    (write pixels start c)[i]? =
      if start ≤ i ∧ i < start + 4 then some (c.byte (i - start)) else pixels[i]? := by
  simp only [write, Array.getElem?_setIfInBounds, Array.size_setIfInBounds]
  by_cases hin : start ≤ i ∧ i < start + 4
  · obtain ⟨d, rfl⟩ := Nat.exists_eq_add_of_le hin.1
    have hd : d < 4 := by omega
    rw [if_pos hin, Nat.add_sub_cancel_left]
    interval_cases d <;> simp [Rgba.byte] <;> omega
  · rw [if_neg hin, if_neg (by omega), if_neg (by omega), if_neg (by omega), if_neg (by omega)]

structure SameShape (image other : Raster) : Prop where
  width : other.width = image.width
  height : other.height = image.height
  stride : other.stride = image.stride
  size : other.pixels.size = image.pixels.size

theorem SameShape.refl (image : Raster) : SameShape image image := ⟨rfl, rfl, rfl, rfl⟩

theorem SameShape.trans {a b c : Raster} (hab : SameShape a b) (hbc : SameShape b c) :
    SameShape a c :=
  ⟨hbc.width.trans hab.width, hbc.height.trans hab.height, hbc.stride.trans hab.stride,
    hbc.size.trans hab.size⟩

theorem SameShape.address {other : Raster} (h : SameShape image other) (x y : Nat) :
    other.address x y = image.address x y := by
  rw [Raster.address, Raster.address, h.stride]

theorem SameShape.holds_iff {other : Raster} (h : SameShape image other) :
    other.Holds x y i ↔ image.Holds x y i := by
  constructor
  · rintro ⟨hx, hy, hle, hlt⟩
    rw [h.address] at hle hlt
    exact ⟨h.width ▸ hx, h.height ▸ hy, hle, hlt⟩
  · rintro ⟨hx, hy, hle, hlt⟩
    rw [← h.address] at hle hlt
    exact ⟨h.width ▸ hx, h.height ▸ hy, hle, hlt⟩

theorem sameShape_put (image : Raster) (x y : Int) (c : Rgba) :
    SameShape image (image.put x y c) := by
  rw [put]
  split
  · exact ⟨rfl, rfl, rfl, size_write _ _ _⟩
  · exact .refl image

theorem getElem?_put_of_holds (h : image.Holds x y i) (a b : Int) (c : Rgba) :
    (image.put a b c).pixels[i]? =
      if a = x ∧ b = y then some (c.byte (i - image.address x y)) else image.pixels[i]? := by
  rw [put]
  split
  · next hin =>
      obtain ⟨ha, hb, haw, hbh⟩ := hin
      have hsize := address_le_size image (x := a.toNat) (y := b.toNat) (by omega) (by omega)
      rw [getElem?_write hsize]
      by_cases hab : a = x ∧ b = y
      · rw [if_pos hab, hab.1, hab.2, Int.toNat_natCast, Int.toNat_natCast, if_pos ⟨h.le, h.lt⟩]
      · rw [if_neg hab, if_neg]
        rintro ⟨hle, hlt⟩
        have hother : image.Holds a.toNat b.toNat i := ⟨by omega, by omega, hle, hlt⟩
        obtain ⟨hax, hby⟩ := h.unique hother
        exact hab ⟨by omega, by omega⟩
  · next hout =>
      rw [if_neg]
      rintro ⟨rfl, rfl⟩
      have hx := h.x_lt
      have hy := h.y_lt
      omega

theorem getElem?_put_of_free (h : ∀ x y, ¬ image.Holds x y i) (a b : Int) (c : Rgba) :
    (image.put a b c).pixels[i]? = image.pixels[i]? := by
  rw [put]
  split
  · next hin =>
      obtain ⟨ha, hb, haw, hbh⟩ := hin
      have hsize := address_le_size image (x := a.toNat) (y := b.toNat) (by omega) (by omega)
      rw [getElem?_write hsize, if_neg]
      rintro ⟨hle, hlt⟩
      exact h a.toNat b.toNat ⟨by omega, by omega, hle, hlt⟩
  · rfl

def paint (c : Rgba) (spots : List Point) (image : Raster) : Raster :=
  spots.foldl (fun image s => image.put s.x s.y c) image

theorem sameShape_paint (c : Rgba) (spots : List Point) (image : Raster) :
    SameShape image (paint c spots image) := by
  induction spots generalizing image with
  | nil => exact .refl image
  | cons s spots ih => exact (sameShape_put image s.x s.y c).trans (ih _)

theorem getElem?_paint_of_holds (h : image.Holds x y i) (c : Rgba) (spots : List Point) :
    (paint c spots image).pixels[i]? =
      if (⟨x, y⟩ : Point) ∈ spots then some (c.byte (i - image.address x y))
      else image.pixels[i]? := by
  induction spots generalizing image with
  | nil => simp [paint]
  | cons s spots ih =>
      have hshape := sameShape_put image s.x s.y c
      have hnext := ih (hshape.holds_iff.mpr h)
      rw [getElem?_put_of_holds h, hshape.address] at hnext
      have hspot : (⟨x, y⟩ : Point) = s ↔ s.x = x ∧ s.y = y := by
        obtain ⟨a, b⟩ := s
        rw [Point.mk.injEq, eq_comm, @eq_comm _ _ b]
      rw [paint, List.foldl_cons, ← paint, hnext]
      by_cases hlater : (⟨x, y⟩ : Point) ∈ spots
      · rw [if_pos hlater, if_pos (List.mem_cons_of_mem s hlater)]
      · simp only [List.mem_cons, hlater, or_false, hspot, if_false]

theorem read_paint (hx : x < image.width.toNat) (hy : y < image.height.toNat) (c : Rgba)
    (spots : List Point) :
    read (paint c spots image).pixels (image.address x y) =
      if (⟨x, y⟩ : Point) ∈ spots then c else read image.pixels (image.address x y) := by
  refine read_of_bytes fun d hd => ?_
  rw [getElem?_paint_of_holds (holds_address hx hy hd), Nat.add_sub_cancel_left]

theorem getElem?_paint_of_free (h : ∀ x y, ¬ image.Holds x y i) (c : Rgba) (spots : List Point) :
    (paint c spots image).pixels[i]? = image.pixels[i]? := by
  induction spots generalizing image with
  | nil => rfl
  | cons s spots ih =>
      have hshape := sameShape_put image s.x s.y c
      rw [paint, List.foldl_cons, ← paint, ih fun x y hxy => h x y (hshape.holds_iff.mp hxy),
        getElem?_put_of_free h]

theorem mem_penOffsets {thickness : Nat} {d : Int} :
    d ∈ penOffsets thickness ↔
      -(((max thickness 1 - 1) / 2 : Nat) : Int) ≤ d ∧ d ≤ (max thickness 1 / 2 : Nat) := by
  simp only [penOffsets, List.mem_map, List.mem_range]
  constructor
  · rintro ⟨i, hi, rfl⟩
    omega
  · rintro ⟨hlow, hhigh⟩
    exact ⟨(d + ((max thickness 1 - 1) / 2 : Nat)).toNat, by omega, by omega⟩

def footprint (offsets : List Int) (p : Point) : List Point :=
  offsets.flatMap fun dy => offsets.map fun dx => ⟨p.x + dx, p.y + dy⟩

theorem mem_footprint {offsets : List Int} {p r : Point} :
    r ∈ footprint offsets p ↔ r.x - p.x ∈ offsets ∧ r.y - p.y ∈ offsets := by
  simp only [footprint, List.mem_flatMap, List.mem_map]
  constructor
  · rintro ⟨dy, hdy, dx, hdx, rfl⟩
    simpa using ⟨hdx, hdy⟩
  · rintro ⟨hx, hy⟩
    exact ⟨_, hy, _, hx, by simp⟩

theorem stamp_eq_paint (offsets : List Int) (c : Rgba) (image : Raster) (p : Point) :
    stamp offsets c image p = paint c (footprint offsets p) image := by
  simp only [stamp, paint, footprint, List.foldl_flatMap, List.foldl_map]

theorem drawLine_eq_paint (image : Raster) (p q : Point) (thickness : Nat) (c : Rgba) :
    image.drawLine p q thickness c =
      paint c ((points p q).flatMap (footprint (penOffsets thickness))) image := by
  rw [paint, List.foldl_flatMap, drawLine]
  congr 1
  funext image r
  exact stamp_eq_paint _ c image r

theorem sameShape_drawLine (image : Raster) (p q : Point) (thickness : Nat) (c : Rgba) :
    SameShape image (image.drawLine p q thickness c) := by
  rw [drawLine_eq_paint]
  exact sameShape_paint _ _ _

theorem read_drawLine (hx : x < image.width.toNat) (hy : y < image.height.toNat) (p q : Point)
    (thickness : Nat) (c : Rgba) :
    read (image.drawLine p q thickness c).pixels (image.address x y) =
      if (⟨x, y⟩ : Point) ∈ (points p q).flatMap (footprint (penOffsets thickness)) then c
      else read image.pixels (image.address x y) := by
  rw [drawLine_eq_paint, read_paint hx hy]

theorem mem_flatMap_footprint {p q r : Point} (h : r ∈ points p q) (thickness : Nat) :
    r ∈ (points p q).flatMap (footprint (penOffsets thickness)) := by
  refine List.mem_flatMap.mpr ⟨r, h, mem_footprint.mpr ?_⟩
  rw [sub_self, sub_self, mem_penOffsets]
  omega

end Raster
end Symbology
