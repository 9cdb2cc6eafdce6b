import Symbology.Portrayal.Connector
import Symbology.Proofs.Double.Whole
import Symbology.Proofs.Raster.Words

namespace Symbology.Portrayal

open Double (level nearestNat nearestNat_abs nearestNat_le)
open Raster (Point blank points read IsBlank)

/-- A distance in whole pixels, half a pixel counting as one. A word is full at infinity, and
not-a-number is no distance. -/
def wholePixels (distance : Float) : Nat :=
  if distance.isNaN then 0
  else if distance.isInf then 2 ^ 32 - 1
  else min (2 ^ 32 - 1) ⌊|(level distance : ℚ)| / 2 ^ 1074 + 1 / 2⌋₊

def transparent : Rgba := ⟨0, 0, 0, 0⟩

variable {config : Config} {x y width : Float} {color : Color} {heightReference : Option String}

theorem toNat_connectorSide (config : Config) (distance : Float) :
    (connectorSide config distance).toNat =
      max config.minExtent.toNat (min config.maxExtent.toNat (wholePixels distance)) := by
  have hpixels : (UInt32.ofNat (nearestNat (2 ^ 32 - 1) distance.abs)).toNat =
      wholePixels distance := by
    have hle := nearestNat_le (2 ^ 32 - 1) distance.abs
    rw [UInt32.toNat_ofNat', Nat.mod_eq_of_lt (by omega), nearestNat_abs]
    rfl
  rw [connectorSide, UInt32.toNat_max, UInt32.toNat_min]
  congr 2

theorem extents_of_checked (h : config.fault? = none) :
    1 ≤ config.minExtent.toNat ∧ config.minExtent.toNat ≤ config.maxExtent.toNat := by
  simp only [Config.fault?] at h
  split_ifs at h with _ _ _ hzero hrange
  have hpos : config.minExtent.toNat ≠ 0 := fun h => hzero (UInt32.toNat_inj.mp h)
  exact ⟨Nat.pos_of_ne_zero hpos, Nat.le_of_not_lt hrange⟩

theorem connectorSide_of_checked (h : config.fault? = none) (distance : Float) :
    config.minExtent ≤ connectorSide config distance ∧
      connectorSide config distance ≤ config.maxExtent := by
  have hextents := extents_of_checked h
  rw [UInt32.le_iff_toNat_le, UInt32.le_iff_toNat_le, toNat_connectorSide]
  omega

theorem connectorPen_of_pos {w h : UInt32} (hw : 1 ≤ w.toNat) (hh : 1 ≤ h.toNat) :
    1 ≤ connectorPen width w h ∧ connectorPen width w h ≤ min w.toNat h.toNat := by
  rw [connectorPen]
  omega

def connectorStart (config : Config) (x y : Float) : Point where
  x := (connectorEnds x (connectorSide config x)).1
  y := (connectorEnds y (connectorSide config y)).1

def connectorStop (config : Config) (x y : Float) : Point where
  x := (connectorEnds x (connectorSide config x)).2
  y := (connectorEnds y (connectorSide config y)).2

theorem connectorEnds_bounds (distance : Float) (side : UInt32) :
    (-1 ≤ (connectorEnds distance side).1 ∧ (connectorEnds distance side).1 < 2 ^ 32) ∧
      -1 ≤ (connectorEnds distance side).2 ∧ (connectorEnds distance side).2 < 2 ^ 32 := by
  have hside := side.toNat_lt
  simp only [connectorEnds]
  split <;> dsimp only <;> omega

theorem isNear_connectorStart (config : Config) (x y : Float) :
    (connectorStart config x y).IsNear := by
  obtain ⟨hx, -⟩ := connectorEnds_bounds x (connectorSide config x)
  obtain ⟨hy, -⟩ := connectorEnds_bounds y (connectorSide config y)
  constructor <;> rw [connectorStart, abs_le] <;> dsimp only <;> omega

theorem isNear_connectorStop (config : Config) (x y : Float) :
    (connectorStop config x y).IsNear := by
  obtain ⟨-, hx⟩ := connectorEnds_bounds x (connectorSide config x)
  obtain ⟨-, hy⟩ := connectorEnds_bounds y (connectorSide config y)
  constructor <;> rw [connectorStop, abs_le] <;> dsimp only <;> omega

def connectorThickness (config : Config) (x y width : Float) : Nat :=
  connectorPen width (connectorSide config x) (connectorSide config y)

theorem connectorThickness_lt (config : Config) (x y width : Float) :
    connectorThickness config x y width < 2 ^ 32 := by
  have hside := (connectorSide config x).toNat_lt
  rw [connectorThickness, connectorPen]
  omega

def segment (config : Config) (x y width : Float) (image : Raster) : Raster :=
  image.drawLine (connectorStart config x y) (connectorStop config x y)
    (connectorThickness config x y width) opaqueWhite

theorem sameShape_segment (config : Config) (x y width : Float) (image : Raster) :
    Raster.SameShape image (segment config x y width image) :=
  image.sameShape_drawLine _ _ _ _

theorem segment_finishes (config : Config) (x y width : Float) (image : Raster) (n : Nat) :
    image.drawLine? n (connectorStart config x y) (connectorStop config x y)
        (connectorThickness config x y width) opaqueWhite =
      if (points (connectorStart config x y) (connectorStop config x y)).length ≤ n then
        some (segment config x y width image)
      else none := by
  have hword : (UInt32.ofNat (connectorThickness config x y width)).toNat =
      connectorThickness config x y width :=
    UInt32.toNat_ofNat_of_lt (connectorThickness_lt config x y width)
  have hdrawn := Raster.drawLine?_eq (isNear_connectorStart config x y)
    (isNear_connectorStop config x y) n image
    (UInt32.ofNat (connectorThickness config x y width)) opaqueWhite
  rw [hword] at hdrawn
  rw [hdrawn, Raster.length_points]
  rfl

theorem connector_eq (config : Config) (x y width : Float) (color : Color)
    (heightReference : Option String) :
    connector config x y width color heightReference =
      (blank (connectorSide config x) (connectorSide config y)).map fun image =>
        { image := segment config x y width image
          scale := 1
          rotation := 0
          color := some color
          offset := ⟨x / 2, y / 2⟩
          depthTestDistance := everywhere
          heightReference := .ofStyle heightReference } := by
  rw [connector, connectorImage]
  cases blank (connectorSide config x) (connectorSide config y) <;> rfl

theorem connector_error_iff {fault : RasterFault} :
    connector config x y width color heightReference = .error fault ↔
      blank (connectorSide config x) (connectorSide config y) = .error fault := by
  rw [connector_eq]
  cases blank (connectorSide config x) (connectorSide config y) <;> simp [Except.map]

structure ConnectorDrawn (config : Config) (x y width : Float) (color : Color) (image : Raster)
    (b : Billboard) : Prop where
  columns : b.image.width = connectorSide config x
  rows : b.image.height = connectorSide config y
  finishes : ∀ n,
    image.drawLine? n (connectorStart config x y) (connectorStop config x y)
        (connectorThickness config x y width) opaqueWhite =
      if (points (connectorStart config x y) (connectorStop config x y)).length ≤ n then
        some b.image
      else none
  colors : ∀ u v, u < b.image.width.toNat → v < b.image.height.toNat →
    read b.image.pixels (b.image.address u v) = transparent ∨
      read b.image.pixels (b.image.address u v) = opaqueWhite
  tint : b.color = some color
  offset : b.offset = ⟨x / 2, y / 2⟩

theorem read_segment {w h : UInt32} {image : Raster} (hblank : IsBlank w h image) {u v : Nat}
    (hu : u < image.width.toNat) (hv : v < image.height.toNat) :
    read (segment config x y width image).pixels (image.address u v) = transparent ∨
      read (segment config x y width image).pixels (image.address u v) = opaqueWhite := by
  rw [segment, Raster.read_drawLine hu hv, hblank.read]
  split
  · exact .inr rfl
  · exact .inl rfl

theorem connector_drawn {image : Raster}
    (hblank : blank (connectorSide config x) (connectorSide config y) = .ok image) :
    ∃ b, connector config x y width color heightReference = .ok b ∧
      ConnectorDrawn config x y width color image b := by
  have hshape := sameShape_segment config x y width image
  have hempty := Raster.isBlank_of_blank hblank
  rw [connector_eq, hblank]
  exact ⟨_, rfl,
    { columns := hshape.width.trans hempty.width
      rows := hshape.height.trans hempty.height
      finishes := segment_finishes config x y width image
      colors := fun u v hu hv => by
        rw [hshape.width] at hu
        rw [hshape.height] at hv
        rw [hshape.address]
        exact read_segment hempty hu hv
      tint := rfl
      offset := rfl }⟩

def corner (image : Raster) (right lower : Bool) : Point where
  x := if right then image.width.toNat - 1 else 0
  y := if lower then image.height.toNat - 1 else 0

structure WhiteAt (image : Raster) (p : Point) : Prop where
  column : 0 ≤ p.x ∧ p.x < image.width.toNat
  row : 0 ≤ p.y ∧ p.y < image.height.toNat
  white : read image.pixels (image.address p.x.toNat p.y.toNat) = opaqueWhite

def Joined (image : Raster) (p q : Point) : Prop :=
  ∃ chain : List Point, chain.head? = some p ∧ chain.getLast? = some q ∧
    chain.IsChain Point.NextTo ∧ ∀ r ∈ chain, WhiteAt image r

theorem joined_drawLine {image : Raster} {p q : Point}
    (hpx : 0 ≤ p.x ∧ p.x < image.width.toNat) (hpy : 0 ≤ p.y ∧ p.y < image.height.toNat)
    (hqx : 0 ≤ q.x ∧ q.x < image.width.toNat) (hqy : 0 ≤ q.y ∧ q.y < image.height.toNat)
    (thickness : Nat) : Joined (image.drawLine p q thickness opaqueWhite) p q := by
  have hshape := image.sameShape_drawLine p q thickness opaqueWhite
  refine ⟨points p q, Raster.head?_points p q, Raster.getLast?_points p q,
    Raster.isChain_points p q, fun r hr => ?_⟩
  have hbetween : (0 ≤ r.x ∧ r.x < image.width.toNat) ∧ 0 ≤ r.y ∧ r.y < image.height.toNat := by
    obtain ⟨k, hk, rfl⟩ := Raster.mem_points.mp hr
    have := Raster.between_standAt hk
    omega
  have hx : r.x.toNat < image.width.toNat := by omega
  have hy : r.y.toNat < image.height.toNat := by omega
  have hread := Raster.read_drawLine hx hy p q thickness opaqueWhite
  rw [Int.toNat_of_nonneg hbetween.1.1, Int.toNat_of_nonneg hbetween.2.1,
    if_pos (Raster.mem_flatMap_footprint hr thickness)] at hread
  constructor
  · rw [hshape.width]
    exact hbetween.1
  · rw [hshape.height]
    exact hbetween.2
  · rw [hshape.address]
    exact hread

theorem connectorEnds_eq (distance : Float) (side : UInt32) :
    connectorEnds distance side =
      (if distance < 0 then (side.toNat : Int) - 1 else 0,
        if distance < 0 then 0 else (side.toNat : Int) - 1) := by
  rw [connectorEnds]
  split <;> rfl

theorem connectorStart_eq {image : Raster}
    (hw : image.width = connectorSide config x) (hh : image.height = connectorSide config y) :
    connectorStart config x y = corner image (x < 0) (y < 0) := by
  simp only [connectorStart, connectorEnds_eq, corner, hw, hh, decide_eq_true_eq]

theorem connectorStop_eq {image : Raster}
    (hw : image.width = connectorSide config x) (hh : image.height = connectorSide config y) :
    connectorStop config x y = corner image (¬ x < 0) (¬ y < 0) := by
  simp only [connectorStop, connectorEnds_eq, corner, hw, hh, decide_eq_true_eq, ite_not]

theorem joined_segment (width : Float) {image : Raster}
    (hw : image.width = connectorSide config x) (hh : image.height = connectorSide config y)
    (hwpos : 1 ≤ image.width.toNat) (hhpos : 1 ≤ image.height.toNat) :
    Joined (segment config x y width image) (corner image (x < 0) (y < 0))
      (corner image (¬ x < 0) (¬ y < 0)) := by
  have hin (right lower : Bool) :
      (0 ≤ (corner image right lower).x ∧ (corner image right lower).x < image.width.toNat) ∧
        0 ≤ (corner image right lower).y ∧ (corner image right lower).y < image.height.toNat := by
    cases right <;> cases lower <;> simp [corner] <;> omega
  rw [segment, connectorStart_eq hw hh, connectorStop_eq hw hh]
  exact joined_drawLine (hin _ _).1 (hin _ _).2 (hin _ _).1 (hin _ _).2 _

structure ConnectorWithin (config : Config) (x y width : Float) (color : Color)
    (heightReference : Option String) : Prop where
  columns : config.minExtent ≤ connectorSide config x ∧
    connectorSide config x ≤ config.maxExtent
  rows : config.minExtent ≤ connectorSide config y ∧
    connectorSide config y ≤ config.maxExtent
  pen : 1 ≤ connectorThickness config x y width ∧ connectorThickness config x y width ≤
    min (connectorSide config x).toNat (connectorSide config y).toNat
  /-- The signs of the offset tell at which corner the segment starts. -/
  joined : ∀ b, connector config x y width color heightReference = .ok b →
    Joined b.image (corner b.image (x < 0) (y < 0)) (corner b.image (¬ x < 0) (¬ y < 0))

theorem connectorWithin_of_checked (h : config.fault? = none) :
    ConnectorWithin config x y width color heightReference := by
  obtain ⟨hmin, -⟩ := extents_of_checked h
  have hcolumns := connectorSide_of_checked h x
  have hrows := connectorSide_of_checked h y
  have hwpos := hmin.trans (UInt32.le_iff_toNat_le.mp hcolumns.1)
  have hhpos := hmin.trans (UInt32.le_iff_toNat_le.mp hrows.1)
  refine ⟨hcolumns, hrows, connectorPen_of_pos hwpos hhpos, fun b hb => ?_⟩
  rw [connector_eq] at hb
  cases hblank : blank (connectorSide config x) (connectorSide config y) with
  | error fault =>
      rw [hblank] at hb
      cases hb
  | ok image =>
      rw [hblank] at hb
      cases hb
      have hempty := Raster.isBlank_of_blank hblank
      have hshape := sameShape_segment config x y width image
      have hjoined := joined_segment width hempty.width hempty.height
        (hempty.width ▸ hwpos) (hempty.height ▸ hhpos)
      simpa only [corner, hshape.width, hshape.height] using hjoined

theorem refused_iff :
    (∃ fault, connector config x y width color heightReference = .error fault ∧
      fault.stop? = none) ↔ 2 ^ 32 ≤ 4 * (connectorSide config x).toNat := by
  constructor
  · rintro ⟨fault, hfault, hstop⟩
    rw [connector_error_iff, Raster.blank_eq_error_iff] at hfault
    rcases hfault with ⟨hw, -⟩ | ⟨-, -, rfl⟩
    · exact hw
    · cases hstop
  · intro hw
    exact ⟨_, connector_error_iff.mpr (Raster.blank_eq_error_iff.mpr (.inl ⟨hw, rfl⟩)), rfl⟩

/-- Whether the rows of a connector's image are short enough but make up 2^63 bytes or more. -/
structure Oversized (config : Config) (x y : Float) : Prop where
  row : 4 * (connectorSide config x).toNat < 2 ^ 32
  bytes : 2 ^ 63 ≤ (connectorSide config y).toNat * (4 * (connectorSide config x).toNat)

theorem stopped_iff {cause : Stop} :
    (∃ fault, connector config x y width color heightReference = .error fault ∧
      fault.stop? = some cause) ↔ Oversized config x y ∧ cause = .capacityOverflow := by
  have hcapacity : Raster.capacity + 1 = 2 ^ 63 := by decide
  constructor
  · rintro ⟨fault, hfault, hstop⟩
    rw [connector_error_iff, Raster.blank_eq_error_iff] at hfault
    rcases hfault with ⟨-, rfl⟩ | ⟨hw, hh, rfl⟩
    · cases hstop
    · cases hstop
      exact ⟨⟨hw, by omega⟩, rfl⟩
  · rintro ⟨⟨hw, hh⟩, rfl⟩
    exact ⟨_, connector_error_iff.mpr
      (Raster.blank_eq_error_iff.mpr (.inr ⟨hw, by omega, rfl⟩)), rfl⟩

structure ConnectorOutcome (config : Config) (x y width : Float) (color : Color)
    (heightReference : Option String) : Prop where
  columns : (connectorSide config x).toNat =
    max config.minExtent.toNat (min config.maxExtent.toNat (wholePixels x))
  rows : (connectorSide config y).toNat =
    max config.minExtent.toNat (min config.maxExtent.toNat (wholePixels y))
  refused : ∀ fault, connector config x y width color heightReference = .error fault ↔
    blank (connectorSide config x) (connectorSide config y) = .error fault
  refused_iff : (∃ fault, connector config x y width color heightReference = .error fault ∧
    fault.stop? = none) ↔ 2 ^ 32 ≤ 4 * (connectorSide config x).toNat
  stopped_iff : ∀ cause, (∃ fault,
      connector config x y width color heightReference = .error fault ∧
        fault.stop? = some cause) ↔ Oversized config x y ∧ cause = .capacityOverflow
  drawn : ∀ image, blank (connectorSide config x) (connectorSide config y) = .ok image →
    ∃ b, connector config x y width color heightReference = .ok b ∧
      ConnectorDrawn config x y width color image b
  within : config.fault? = none → ConnectorWithin config x y width color heightReference

end Symbology.Portrayal
