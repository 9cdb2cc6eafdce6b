import Symbology.Proofs.Raster.Words

/-!
What an image shows after pixels have been set one after the other. Each pixel keeps the color that
it was last given, because no two pixels share a byte. Pixels are written at addresses of 64 bits
but read at addresses of 32, so those that lie beyond cannot be read back.
-/

namespace Symbology.Raster

structure Put where
  x : Int
  y : Int
  color : Rgba
  deriving DecidableEq, Repr

def putAll (image : Raster) (puts : List Put) : Raster :=
  puts.foldl (fun image p => image.put p.x p.y p.color) image

def putAll? (image : Raster) (puts : List Put) : Option Raster :=
  puts.foldlM (fun image p => image.put? p.x p.y p.color) image

def Put.At (p : Put) (x y : Nat) : Prop := p.x = x ∧ p.y = y

instance (p : Put) (x y : Nat) : Decidable (p.At x y) := inferInstanceAs (Decidable (_ ∧ _))

def lastColor? (puts : List Put) (x y : Nat) : Option Rgba :=
  ((puts.filter (·.At x y)).getLast?).map (·.color)

variable {image : Raster} {puts : List Put} {x y : Nat}

theorem putAll?_eq (image : Raster) (puts : List Put) :
    image.putAll? puts = some (image.putAll puts) :=
  foldlM_eq_some (fun image p _ => put?_eq image p.x p.y p.color) image

theorem putAll_append (image : Raster) (puts more : List Put) :
    image.putAll (puts ++ more) = (image.putAll puts).putAll more :=
  List.foldl_append

theorem putAll_append_singleton (image : Raster) (puts : List Put) (p : Put) :
    image.putAll (puts ++ [p]) = (image.putAll puts).put p.x p.y p.color :=
  putAll_append image puts [p]

theorem lastColor?_append_singleton (puts : List Put) (p : Put) (x y : Nat) :
    lastColor? (puts ++ [p]) x y = if p.At x y then some p.color else lastColor? puts x y := by
  rw [lastColor?, List.filter_append]
  by_cases h : p.At x y
  · simp [h]
  · simp [h, lastColor?]

theorem lastColor?_append_of_elsewhere {more : List Put} (h : ∀ p ∈ more, ¬ p.At x y) :
    lastColor? (puts ++ more) x y = lastColor? puts x y := by
  have hnone : more.filter (·.At x y) = [] := List.filter_eq_nil_iff.mpr (by simpa using h)
  rw [lastColor?, List.filter_append, hnone, List.append_nil, lastColor?]

theorem sameShape_putAll (image : Raster) (puts : List Put) :
    SameShape image (image.putAll puts) := by
  induction puts using List.reverseRecOn with
  | nil => exact .refl image
  | append_singleton puts p ih =>
      rw [putAll_append_singleton]
      exact ih.trans (sameShape_put _ _ _ _)

theorem read_put (hx : x < image.width.toNat) (hy : y < image.height.toNat) (p : Put) :
    read (image.put p.x p.y p.color).pixels (image.address x y) =
      if p.At x y then p.color else read image.pixels (image.address x y) := by
  refine read_of_bytes fun d hd => ?_
  rw [getElem?_put_of_holds (holds_address hx hy hd), Nat.add_sub_cancel_left]
  rfl

theorem read_putAll (hx : x < image.width.toNat) (hy : y < image.height.toNat) (puts : List Put) :
    read (image.putAll puts).pixels (image.address x y) =
      (lastColor? puts x y).getD (read image.pixels (image.address x y)) := by
  induction puts using List.reverseRecOn with
  | nil => rfl
  | append_singleton puts p ih =>
      have hshape := sameShape_putAll image puts
      have hput := read_put (hshape.width ▸ hx) (hshape.height ▸ hy) p
      rw [hshape.address, ih] at hput
      rw [putAll_append_singleton, lastColor?_append_singleton, hput]
      split <;> rfl

theorem pixel_of_lt {u v : UInt32} (hu : u < image.width) (hv : v < image.height) :
    image.pixel u v =
      if image.address u.toNat v.toNat < UInt32.size then
        .ok (some (read image.pixels (image.address u.toNat v.toNat)))
      else .error .addressOverflow := by
  rw [pixel, locate, if_pos ⟨hu, hv⟩, address]
  dsimp only
  split <;> rfl

theorem pixel_putAll {u v : UInt32} (hu : u < image.width) (hv : v < image.height)
    (puts : List Put) :
    (image.putAll puts).pixel u v =
      if image.address u.toNat v.toNat < UInt32.size then
        .ok (some ((lastColor? puts u.toNat v.toNat).getD
          (read image.pixels (image.address u.toNat v.toNat))))
      else .error .addressOverflow := by
  have hshape := sameShape_putAll image puts
  have hread := read_putAll (UInt32.lt_iff_toNat_lt.mp hu) (UInt32.lt_iff_toNat_lt.mp hv) puts
  rw [pixel_of_lt (hshape.width ▸ hu) (hshape.height ▸ hv), hshape.address, hread]

theorem pixel_putAll_of_outside {u v : UInt32} (h : ¬ (u < image.width ∧ v < image.height))
    (puts : List Put) : (image.putAll puts).pixel u v = .ok none := by
  have hshape := sameShape_putAll image puts
  rw [pixel, hshape.width, hshape.height, locate, if_neg h]
  rfl

theorem address_lt_of_rows_le (hx : x < image.width.toNat) (hy : y < image.height.toNat)
    (h : image.height.toNat * image.stride.toNat ≤ UInt32.size) :
    image.address x y < UInt32.size := by
  have hrow : (y + 1) * image.stride.toNat ≤ image.height.toNat * image.stride.toNat :=
    Nat.mul_le_mul_right _ hy
  have hstride := image.row_le_stride
  rw [Nat.succ_mul] at hrow
  rw [address]
  omega

structure Shown (image : Raster) (puts : List Put) (after : Raster) : Prop where
  written : image.putAll? puts = some after
  shape : SameShape image after
  outside : ∀ u v, ¬ (u < image.width ∧ v < image.height) → after.pixel u v = .ok none
  inside : ∀ u v, u < image.width → v < image.height →
    image.address u.toNat v.toNat < UInt32.size →
      after.pixel u v = .ok (some ((lastColor? puts u.toNat v.toNat).getD
        (read image.pixels (image.address u.toNat v.toNat))))
  inBuffer : ∀ u v, u < image.width → v < image.height →
    image.address u.toNat v.toNat + 4 ≤ after.pixels.size
  beyond : ∀ u v, u < image.width → v < image.height →
    UInt32.size ≤ image.address u.toNat v.toNat → after.pixel u v = .error .addressOverflow
  small : image.height.toNat * image.stride.toNat ≤ UInt32.size →
    ∀ u v, u < image.width → v < image.height → image.address u.toNat v.toNat < UInt32.size
  elsewhere : ∀ u v more, (∀ p ∈ more, ¬ Put.At p u.toNat v.toNat) →
    (after.putAll more).pixel u v = after.pixel u v

theorem puts_shown (image : Raster) (puts : List Put) : Shown image puts (image.putAll puts) where
  written := putAll?_eq image puts
  shape := sameShape_putAll image puts
  outside _ _ h := pixel_putAll_of_outside h puts
  inside u v hu hv hfits := by rw [pixel_putAll hu hv, if_pos hfits]
  inBuffer u v hu hv := by
    rw [(sameShape_putAll image puts).size]
    exact address_le_size image hu hv
  beyond u v hu hv hlarge := by rw [pixel_putAll hu hv, if_neg hlarge.not_gt]
  small h u v hu hv := address_lt_of_rows_le hu hv h
  elsewhere u v more h := by
    rw [← putAll_append]
    by_cases hin : u < image.width ∧ v < image.height
    · rw [pixel_putAll hin.1 hin.2, pixel_putAll hin.1 hin.2, lastColor?_append_of_elsewhere h]
    · rw [pixel_putAll_of_outside hin, pixel_putAll_of_outside hin]

/-- In a column of a little more than four gibibytes the last pixel can be set but not read. -/
theorem last_pixel_lost :
    ∃ image, blank 1 1073741825 = .ok image ∧
      (0 < image.width ∧ 1073741824 < image.height) ∧
      ∀ puts, image.putAll? puts = some (image.putAll puts) ∧
        (image.putAll puts).pixel 0 1073741824 = .error .addressOverflow := by
  obtain ⟨image, hblank, hshape⟩ := blank_eq_ok (w := 1) (h := 1073741825) (by decide) (by decide)
  have hin : (0 : UInt32) < image.width ∧ (1073741824 : UInt32) < image.height := by
    rw [hshape.width, hshape.height]
    decide
  have haddress : image.address 0 1073741824 = 4294967296 := by
    rw [address, hshape.stride]
    rfl
  have hlarge : ¬ image.address 0 1073741824 < UInt32.size := by
    rw [haddress]
    decide
  refine ⟨image, hblank, hin, fun puts => ⟨putAll?_eq image puts, ?_⟩⟩
  exact (pixel_putAll hin.1 hin.2 puts).trans (if_neg hlarge)

end Symbology.Raster
