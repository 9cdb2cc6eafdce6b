import Symbology.Proofs.Raster.Pixels
import Symbology.Proofs.Raster.Walk

namespace Symbology.Raster

def IsWord (n : Int) : Prop :=
  -2 ^ 63 ≤ n ∧ n < 2 ^ 63

instance : DecidablePred IsWord := fun _ => inferInstanceAs (Decidable (_ ∧ _))

def Addressable (image : Raster) (x y : Nat) : Prop :=
  y * image.stride.toNat + 4 * x + 4 ≤ image.pixels.size ∧
    y * image.stride.toNat + 4 * x + 4 < 2 ^ 64

instance (image : Raster) (x y : Nat) : Decidable (image.Addressable x y) :=
  inferInstanceAs (Decidable (_ ∧ _))

def put? (image : Raster) (x y : Int) (c : Rgba) : Option Raster :=
  if 0 ≤ x ∧ 0 ≤ y ∧ x < image.width.toNat ∧ y < image.height.toNat then
    if image.Addressable x.toNat y.toNat then some (image.put x y c) else none
  else some image

def stamp? (offsets : List Int) (c : Rgba) (image : Raster) (p : Point) : Option Raster :=
  offsets.foldlM (fun image dy =>
    offsets.foldlM (fun image dx =>
      if IsWord (p.x + dx) ∧ IsWord (p.y + dy) then image.put? (p.x + dx) (p.y + dy) c
      else none) image) image

def Way.numbers (p q : Point) : List Int :=
  [q.x - p.x, (q.x - p.x).natAbs, q.y - p.y, (q.y - p.y).natAbs, -((q.y - p.y).natAbs : Int),
    (Way.between p q).across + (Way.between p q).down]

def Way.stepNumbers (w : Way) (s : Stand) : List Int :=
  let twice := 2 * s.balance
  let lent := if w.down ≤ twice then w.down else 0
  twice ::
    (if w.down ≤ twice then [s.balance + w.down, s.point.x + w.stepX] else []) ++
    (if twice ≤ w.across then [s.balance + lent + w.across, s.point.y + w.stepY] else [])

/-- Sets the pen down at a stand and goes on from there, unless the target is reached. Gives up if
a number does not fit its word, or if `n` stamps of the pen are not enough. -/
def Way.run? (w : Way) (target : Point) (offsets : List Int) (c : Rgba) :
    Nat → Stand → Raster → Option Raster
  | 0, _, _ => none
  | n + 1, s, image =>
      (stamp? offsets c image s.point).bind fun image =>
        if s.point = target then some image
        else if ∀ m ∈ w.stepNumbers s, IsWord m then w.run? target offsets c n (w.step s) image
        else none

def drawLine? (n : Nat) (image : Raster) (p q : Point) (thickness : Nat) (c : Rgba) :
    Option Raster :=
  if ∀ m ∈ Way.numbers p q, IsWord m then
    let w := Way.between p q
    w.run? q (penOffsets thickness) c n { point := p, balance := w.across + w.down } image
  else none

theorem addressable {image : Raster} {x y : Nat} (hx : x < image.width.toNat)
    (hy : y < image.height.toNat) : image.Addressable x y := by
  have hend := address_le_size image hx hy
  have hstride := image.row_le_stride
  have hlast : (y + 1) * image.stride.toNat ≤ 2 ^ 32 * (2 ^ 32 - 1) :=
    Nat.mul_le_mul (by have := image.height.toNat_lt; omega)
      (Nat.le_sub_one_of_lt image.stride.toNat_lt)
  rw [Nat.succ_mul] at hlast
  exact ⟨hend, by omega⟩

theorem put?_eq (image : Raster) (x y : Int) (c : Rgba) :
    image.put? x y c = some (image.put x y c) := by
  rw [put?]
  split
  · next hin =>
      obtain ⟨hx, hy, hxw, hyh⟩ := hin
      rw [if_pos (addressable (by omega) (by omega))]
  · next hout => rw [put, if_neg hout]

theorem foldlM_eq_some {α β : Type} {f : β → α → Option β} {g : β → α → β} {l : List α}
    (h : ∀ b, ∀ a ∈ l, f b a = some (g b a)) (b : β) : l.foldlM f b = some (l.foldl g b) := by
  induction l generalizing b with
  | nil => rfl
  | cons a l ih =>
      rw [List.foldlM_cons, h b a List.mem_cons_self]
      exact ih (fun b a ha => h b a (List.mem_cons_of_mem _ ha)) (g b a)

/-- Coordinates that leave room for a pen and for the sums of a walk. -/
structure Point.IsNear (p : Point) : Prop where
  x : |p.x| ≤ 2 ^ 59
  y : |p.y| ≤ 2 ^ 59

variable {p q : Point} {k : Nat}

theorem stamp?_eq (hp : p.IsNear) (thickness : UInt32) (c : Rgba) (image : Raster) :
    stamp? (penOffsets thickness.toNat) c image p =
      some (stamp (penOffsets thickness.toNat) c image p) := by
  obtain ⟨hx, hy⟩ := hp
  rw [abs_le] at hx hy
  have hthickness := thickness.toNat_lt
  refine foldlM_eq_some (fun image dy hdy => foldlM_eq_some (fun image dx hdx => ?_) image) image
  rw [mem_penOffsets] at hdx hdy
  have hwords : IsWord (p.x + dx) ∧ IsWord (p.y + dy) := by
    simp only [IsWord]
    omega
  rw [if_pos hwords, put?_eq]

theorem isWord_numbers (hp : p.IsNear) (hq : q.IsNear) : ∀ m ∈ Way.numbers p q, IsWord m := by
  obtain ⟨hpx, hpy⟩ := hp
  obtain ⟨hqx, hqy⟩ := hq
  rw [abs_le] at hpx hpy hqx hqy
  simp only [Way.numbers, Way.between, IsWord, List.forall_mem_cons, List.not_mem_nil,
    IsEmpty.forall_iff, implies_true, and_true]
  omega

theorem isNear_standAt (hp : p.IsNear) (hq : q.IsNear) (hk : k ≤ span p q) :
    (standAt p q k).point.IsNear := by
  obtain ⟨hpx, hpy⟩ := hp
  obtain ⟨hqx, hqy⟩ := hq
  obtain ⟨hx, hy⟩ := between_standAt hk
  rw [abs_le] at hpx hpy hqx hqy
  constructor <;> rw [abs_le] <;> omega

theorem abs_balance_le (hp : p.IsNear) (hq : q.IsNear) (k : Nat) :
    |(standAt p q k).balance| ≤ 2 ^ 61 := by
  have hlead := abs_lead_le p q k
  have hbalance : (standAt p q k).balance =
      (reachX p q : Int) * share (span p q) (reachY p q) k -
        reachY p q * share (span p q) (reachX p q) k + reachX p q - reachY p q := by
    simp only [standAt, Way.between, reachX, reachY]
    ring
  obtain ⟨hpx, hpy⟩ := hp
  obtain ⟨hqx, hqy⟩ := hq
  have hreachX : (reachX p q : Int) ≤ 2 ^ 60 := by
    rw [abs_le] at hpx hqx
    rw [reachX]
    omega
  have hreachY : (reachY p q : Int) ≤ 2 ^ 60 := by
    rw [abs_le] at hpy hqy
    rw [reachY]
    omega
  have hspan : span p q = max (reachX p q) (reachY p q) := rfl
  rw [abs_le] at hlead ⊢
  omega

theorem isWord_stepNumbers (hp : p.IsNear) (hq : q.IsNear) (hk : k ≤ span p q) :
    ∀ m ∈ (Way.between p q).stepNumbers (standAt p q k), IsWord m := by
  have hbalance := abs_balance_le hp hq k
  have hnear := isNear_standAt hp hq hk
  obtain ⟨hpx, hpy⟩ := hp
  obtain ⟨hqx, hqy⟩ := hq
  obtain ⟨hx, hy⟩ := hnear
  rw [abs_le] at hbalance hpx hpy hqx hqy hx hy
  have hacross : 0 ≤ (Way.between p q).across ∧ (Way.between p q).across ≤ 2 ^ 60 := by
    simp only [Way.between]
    omega
  have hdown : -2 ^ 60 ≤ (Way.between p q).down ∧ (Way.between p q).down ≤ 0 := by
    simp only [Way.between]
    omega
  have hstepX := abs_le.mp (abs_stepX p q).le
  have hstepY := abs_le.mp (abs_stepY p q).le
  rw [Way.stepNumbers]
  intro m hm
  simp only [List.mem_cons, List.mem_append, List.mem_ite_nil_right, List.not_mem_nil,
    or_false] at hm
  rw [IsWord]
  split_ifs at hm <;> omega

theorem run?_standAt (hp : p.IsNear) (hq : q.IsNear) (thickness : UInt32) (c : Rgba) {n : Nat}
    (hk : k ≤ span p q) (image : Raster) :
    (Way.between p q).run? q (penOffsets thickness.toNat) c n (standAt p q k) image =
      if span p q - k < n then
        some ((((List.range' k (span p q - k + 1)).map fun k => (standAt p q k).point).foldl
          (stamp (penOffsets thickness.toNat) c) image))
      else none := by
  induction n generalizing k image with
  | zero => rw [Way.run?, if_neg (Nat.not_lt_zero _)]
  | succ n ih =>
      rw [Way.run?, stamp?_eq (isNear_standAt hp hq hk), Option.bind_some]
      by_cases hlast : k = span p q
      · rw [if_pos ((point_standAt_eq_iff hk).mpr hlast), hlast]
        simp
      · have hstep : span p q - k = span p q - (k + 1) + 1 := by omega
        rw [if_neg (fun hq => hlast ((point_standAt_eq_iff hk).mp hq)),
          if_pos (isWord_stepNumbers hp hq hk), step_standAt (by omega), hstep, List.range'_succ,
          List.map_cons, List.foldl_cons, ih (by omega)]
        simp only [Nat.succ_lt_succ_iff]

theorem drawLine?_eq (hp : p.IsNear) (hq : q.IsNear) (n : Nat) (image : Raster)
    (thickness : UInt32) (c : Rgba) :
    drawLine? n image p q thickness.toNat c =
      if span p q < n then some (image.drawLine p q thickness.toNat c) else none := by
  have hrun := run?_standAt hp hq thickness c (n := n) (Nat.zero_le _) image
  rw [standAt_zero, Nat.sub_zero, ← List.range_eq_range', ← points_eq] at hrun
  rw [drawLine?, if_pos (isWord_numbers hp hq)]
  exact hrun

def Covered (p q : Point) (thickness : UInt32) (x y : Nat) : Prop :=
  let width := max thickness.toNat 1
  ∃ r ∈ points p q,
    (-((width - 1) / 2 : Nat) ≤ x - r.x ∧ x - r.x ≤ (width / 2 : Nat)) ∧
    (-((width - 1) / 2 : Nat) ≤ y - r.y ∧ y - r.y ≤ (width / 2 : Nat))

structure LineDrawn (image : Raster) (p q : Point) (thickness : UInt32) (c : Rgba)
    (after : Raster) : Prop where
  /-- No number overflows, no index is out of range, and `n` stamps of the pen are enough if there
  are as many as points. -/
  finishes : ∀ n, drawLine? n image p q thickness.toNat c =
    if (points p q).length ≤ n then some after else none
  stamps : (points p q).length = max (q.x - p.x).natAbs (q.y - p.y).natAbs + 1
  first : (points p q).head? = some p
  last : (points p q).getLast? = some q
  steps : ∀ k r s, (points p q)[k]? = some r → (points p q)[k + 1]? = some s → Adjacent p q r s
  straight : ∀ r ∈ points p q, Beside p q r
  drawn : ∀ x y, x < image.width.toNat → y < image.height.toNat → Covered p q thickness x y →
    read after.pixels (image.address x y) = c
  spared : ∀ x y i, image.Holds x y i → ¬ Covered p q thickness x y →
    after.pixels[i]? = image.pixels[i]?
  padding : ∀ i, (∀ x y, ¬ image.Holds x y i) → after.pixels[i]? = image.pixels[i]?
  shape : SameShape image after

theorem covered_iff {thickness : UInt32} {x y : Nat} :
    Covered p q thickness x y ↔
      (⟨x, y⟩ : Point) ∈ (points p q).flatMap (footprint (penOffsets thickness.toNat)) := by
  simp only [Covered, List.mem_flatMap, mem_footprint, mem_penOffsets]

theorem line_drawn (image : Raster) (p q : Point) (hp : p.IsNear) (hq : q.IsNear)
    (thickness : UInt32) (c : Rgba) :
    LineDrawn image p q thickness c (image.drawLine p q thickness.toNat c) where
  finishes n := by
    rw [drawLine?_eq hp hq, length_points]
    rfl
  stamps := length_points p q
  first := head?_points p q
  last := getLast?_points p q
  steps k r s hr hs := by
    obtain ⟨hk, -⟩ := List.getElem?_eq_some_iff.mp hs
    rw [length_points] at hk
    rw [getElem?_points (by omega), Option.some_inj] at hr hs
    rw [← hr, ← hs]
    exact adjacent_standAt (by omega) k
  straight r hr := by
    obtain ⟨k, hk, rfl⟩ := mem_points.mp hr
    exact beside_standAt hk
  drawn x y hx hy hcovered := by
    refine read_eq_of_bytes fun d hd => ?_
    have hholds : image.Holds x y (image.address x y + d) := ⟨hx, hy, by omega, by omega⟩
    rw [drawLine_eq_paint, getElem?_paint_of_holds hholds, if_pos (covered_iff.mp hcovered),
      Nat.add_sub_cancel_left]
  spared x y i hholds hfree := by
    rw [drawLine_eq_paint, getElem?_paint_of_holds hholds, if_neg (mt covered_iff.mpr hfree)]
  padding i hfree := by
    rw [drawLine_eq_paint, getElem?_paint_of_free hfree]
  shape := by
    rw [drawLine_eq_paint]
    exact sameShape_paint _ _ _

def padded : Raster where
  width := 3
  height := 2
  stride := 16
  pixels := Array.replicate 40 0
  row_le_stride := by decide
  rows_le_size := by decide

theorem line_drawn_padded :
    ((⟨-1, 0⟩ : Point).IsNear ∧ (⟨4, 1⟩ : Point).IsNear) ∧
      LineDrawn padded ⟨-1, 0⟩ ⟨4, 1⟩ 2 ⟨255, 0, 0, 255⟩
        (padded.drawLine ⟨-1, 0⟩ ⟨4, 1⟩ 2 ⟨255, 0, 0, 255⟩) :=
  have hstart : (⟨-1, 0⟩ : Point).IsNear := ⟨by decide, by decide⟩
  have hend : (⟨4, 1⟩ : Point).IsNear := ⟨by decide, by decide⟩
  ⟨⟨hstart, hend⟩, line_drawn padded ⟨-1, 0⟩ ⟨4, 1⟩ hstart hend 2 ⟨255, 0, 0, 255⟩⟩

end Symbology.Raster
