import Mathlib
import Symbology.Raster.Line

/-!
The walk from one point to another. After `k` of its steps each coordinate has gone `k` equal parts
of its way, rounded to whole pixels, so the walk ends at the target and stays next to the line.
-/

namespace Symbology.Raster

/-- The first `k` of `n` equal parts of a distance, rounded to a whole number. -/
def share (n distance k : Nat) : Nat :=
  (2 * distance * k + n) / (2 * n)

variable {n a b k : Nat}

theorem share_le_iff (hn : 0 < n) {m : Nat} : m ≤ share n a k ↔ 2 * n * m ≤ 2 * a * k + n := by
  rw [share, Nat.le_div_iff_mul_le (by omega), Nat.mul_comm m]

theorem share_lt_iff (hn : 0 < n) {m : Nat} : share n a k < m ↔ 2 * a * k + n < 2 * n * m := by
  rw [← not_le, share_le_iff hn, not_le]

theorem share_start (n a : Nat) : share n a 0 = 0 := by
  rw [share, Nat.mul_zero, Nat.zero_add, Nat.div_eq_zero_iff]
  omega

theorem share_self (hn : 0 < n) : share n n k = k := by
  have hbelow : share n n k < k + 1 := (share_lt_iff hn).mpr (by rw [Nat.mul_succ]; omega)
  exact Nat.le_antisymm (Nat.lt_add_one_iff.mp hbelow) ((share_le_iff hn).mpr (by omega))

theorem share_end (ha : a ≤ n) : share n a n = a := by
  rcases Nat.eq_zero_or_pos n with rfl | hn
  · rw [share_start, Nat.eq_zero_of_le_zero ha]
  have hcomm : 2 * a * n = 2 * n * a := by ring
  have hbelow : share n a n < a + 1 := (share_lt_iff hn).mpr (by rw [Nat.mul_succ]; omega)
  exact Nat.le_antisymm (Nat.lt_add_one_iff.mp hbelow) ((share_le_iff hn).mpr (by omega))

theorem share_succ (hn : 0 < n) (ha : a ≤ n) :
    share n a (k + 1) =
      if 2 * n * (share n a k + 1) ≤ 2 * a * (k + 1) + n then share n a k + 1 else share n a k := by
  have hlow := (share_le_iff (a := a) (k := k) hn).mp (Nat.le_refl _)
  have hhigh := (share_lt_iff (a := a) (k := k) hn).mp (Nat.lt_add_one _)
  have hpart : 2 * a * (k + 1) = 2 * a * k + 2 * a := Nat.mul_succ _ _
  have hpixel (m : Nat) : 2 * n * (m + 1) = 2 * n * m + 2 * n := Nat.mul_succ _ _
  have hone := hpixel (share n a k)
  have htwo := hpixel (share n a k + 1)
  split
  · next h =>
      have hbelow : share n a (k + 1) < share n a k + 1 + 1 := (share_lt_iff hn).mpr (by omega)
      exact Nat.le_antisymm (Nat.lt_add_one_iff.mp hbelow) ((share_le_iff hn).mpr h)
  · next h =>
      have hbelow : share n a (k + 1) < share n a k + 1 := (share_lt_iff hn).mpr (by omega)
      exact Nat.le_antisymm (Nat.lt_add_one_iff.mp hbelow) ((share_le_iff hn).mpr (by omega))

theorem share_succ_cases (hn : 0 < n) (ha : a ≤ n) (k : Nat) :
    share n a (k + 1) = share n a k ∨ 0 < a ∧ share n a (k + 1) = share n a k + 1 := by
  rw [share_succ hn ha]
  split
  · next h =>
      refine .inr ⟨Nat.pos_of_ne_zero ?_, rfl⟩
      rintro rfl
      rw [Nat.mul_succ, Nat.mul_zero, Nat.zero_mul] at h
      omega
  · exact .inl rfl

theorem share_mono (hn : 0 < n) {l : Nat} (hkl : k ≤ l) : share n a k ≤ share n a l := by
  have hlow := (share_le_iff (a := a) (k := k) hn).mp (Nat.le_refl _)
  have hparts : 2 * a * k ≤ 2 * a * l := Nat.mul_le_mul_left _ hkl
  exact (share_le_iff hn).mpr (by omega)

theorem share_le (ha : a ≤ n) (hk : k ≤ n) : share n a k ≤ a := by
  rcases Nat.eq_zero_or_pos n with rfl | hn
  · rw [Nat.eq_zero_of_le_zero hk, share_start]
    exact Nat.zero_le a
  · exact (share_mono hn hk).trans_eq (share_end ha)

theorem drift_le (hn : 0 < n) : |2 * ((n : Int) * share n a k - a * k)| ≤ n := by
  have hlow := (share_le_iff (a := a) (k := k) hn).mp (Nat.le_refl _)
  have hhigh := (share_lt_iff (a := a) (k := k) hn).mp (Nat.lt_add_one _)
  have hpixel : ((2 * n * share n a k : Nat) : Int) = 2 * ((n : Int) * share n a k) := by
    push_cast
    ring
  have hparts : ((2 * a * k : Nat) : Int) = 2 * ((a : Int) * k) := by
    push_cast
    ring
  rw [Nat.mul_succ] at hhigh
  rw [abs_le]
  omega

theorem lead_bounds (hn : 0 < n) (ha : a ≤ n) :
    -(a : Int) ≤ 2 * ((n : Int) * (share n a k + 1) - a * (k + 1)) ∧
      (2 * ((n : Int) * (share n a k + 1) - a * (k + 1)) ≤ n ↔
        2 * n * (share n a k + 1) ≤ 2 * a * (k + 1) + n) := by
  have hhigh := (share_lt_iff (a := a) (k := k) hn).mp (Nat.lt_add_one _)
  have hpart : 2 * a * (k + 1) = 2 * a * k + 2 * a := Nat.mul_succ _ _
  have hpixel : ((2 * n * (share n a k + 1) : Nat) : Int) = 2 * ((n : Int) * (share n a k + 1)) := by
    push_cast
    ring
  have hparts : ((2 * a * (k + 1) : Nat) : Int) = 2 * ((a : Int) * (k + 1)) := by
    push_cast
    ring
  omega

variable {p q : Point}

def reachX (p q : Point) : Nat := (q.x - p.x).natAbs

def reachY (p q : Point) : Nat := (q.y - p.y).natAbs

def span (p q : Point) : Nat := max (reachX p q) (reachY p q)

def standAt (p q : Point) (k : Nat) : Stand :=
  let w := Way.between p q
  let i := share (span p q) (reachX p q) k
  let j := share (span p q) (reachY p q) k
  { point := { x := p.x + i * w.stepX, y := p.y + j * w.stepY }
    balance := w.across * (j + 1) + w.down * (i + 1) }

theorem standAt_zero (p q : Point) :
    standAt p q 0 =
      { point := p, balance := (Way.between p q).across + (Way.between p q).down } := by
  simp [standAt, share_start]

theorem grows_iff (h : 0 < span p q) (k : Nat) :
    ((Way.between p q).down ≤ 2 * (standAt p q k).balance ↔
      2 * span p q * (share (span p q) (reachX p q) k + 1) ≤
        2 * reachX p q * (k + 1) + span p q) ∧
    (2 * (standAt p q k).balance ≤ (Way.between p q).across ↔
      2 * span p q * (share (span p q) (reachY p q) k + 1) ≤
        2 * reachY p q * (k + 1) + span p q) := by
  have hbalance : (standAt p q k).balance =
      (reachX p q : Int) * (share (span p q) (reachY p q) k + 1) -
        (reachY p q : Int) * (share (span p q) (reachX p q) k + 1) := by
    simp only [standAt, Way.between, reachX, reachY]
    ring
  have hdown : (Way.between p q).down = -(reachY p q : Int) := rfl
  have hacross : (Way.between p q).across = (reachX p q : Int) := rfl
  rw [hbalance, hdown, hacross]
  rcases Nat.le_total (reachY p q) (reachX p q) with hle | hle
  · have hspan : span p q = reachX p q := Nat.max_eq_left hle
    rw [hspan] at h ⊢
    obtain ⟨hlow, hiff⟩ := lead_bounds (k := k) h hle
    rw [share_self h]
    exact ⟨⟨fun _ => Nat.le_add_right _ _, fun _ => hlow⟩, hiff⟩
  · have hspan : span p q = reachY p q := Nat.max_eq_right hle
    rw [hspan] at h ⊢
    obtain ⟨hlow, hiff⟩ := lead_bounds (k := k) h hle
    rw [share_self h]
    refine ⟨⟨fun hx => hiff.mp (by omega), fun hx => ?_⟩,
      ⟨fun _ => Nat.le_add_right _ _, fun _ => by omega⟩⟩
    have := hiff.mpr hx
    omega

theorem step_standAt (h : 0 < span p q) (k : Nat) :
    (Way.between p q).step (standAt p q k) = standAt p q (k + 1) := by
  obtain ⟨hx, hy⟩ := grows_iff h k
  have hi : share (span p q) (reachX p q) (k + 1) = _ := share_succ h (Nat.le_max_left _ _)
  have hj : share (span p q) (reachY p q) (k + 1) = _ := share_succ h (Nat.le_max_right _ _)
  simp only [Way.step, hx, hy]
  simp only [standAt, hi, hj]
  split_ifs <;> simp <;> ring_nf <;> simp

theorem abs_stepX (p q : Point) : |(Way.between p q).stepX| = 1 := by
  simp only [Way.between]
  split <;> rfl

theorem abs_stepY (p q : Point) : |(Way.between p q).stepY| = 1 := by
  simp only [Way.between]
  split <;> rfl

theorem reachX_mul_stepX (p q : Point) :
    (reachX p q : Int) * (Way.between p q).stepX = q.x - p.x := by
  simp only [reachX, Way.between]
  split <;> omega

theorem reachY_mul_stepY (p q : Point) :
    (reachY p q : Int) * (Way.between p q).stepY = q.y - p.y := by
  simp only [reachY, Way.between]
  split <;> omega

theorem point_standAt_span (p q : Point) : (standAt p q (span p q)).point = q := by
  have hi : share (span p q) (reachX p q) (span p q) = reachX p q := share_end (Nat.le_max_left _ _)
  have hj : share (span p q) (reachY p q) (span p q) = reachY p q := share_end (Nat.le_max_right _ _)
  simp only [standAt, hi, hj, reachX_mul_stepX, reachY_mul_stepY, add_sub_cancel]

theorem share_of_reached {s t u : Int} (hs : s ≠ 0) (hreach : a * s = u - t)
    (h : t + share n a k * s = u) : share n a k = a := by
  have hsame : (share n a k : Int) = a := mul_right_cancel₀ hs (by omega)
  exact_mod_cast hsame

theorem point_standAt_eq_iff (hk : k ≤ span p q) :
    (standAt p q k).point = q ↔ k = span p q := by
  have hstepX : (Way.between p q).stepX ≠ 0 := abs_pos.mp (by rw [abs_stepX]; exact one_pos)
  have hstepY : (Way.between p q).stepY ≠ 0 := abs_pos.mp (by rw [abs_stepY]; exact one_pos)
  refine ⟨fun hq => ?_, ?_⟩
  · rcases Nat.eq_zero_or_pos (span p q) with h | h
    · omega
    rcases Nat.le_total (reachY p q) (reachX p q) with hle | hle
    · have hspan : span p q = reachX p q := Nat.max_eq_left hle
      have hsame := share_of_reached hstepX (reachX_mul_stepX p q) (congrArg Point.x hq)
      rwa [hspan, share_self (hspan ▸ h), ← hspan] at hsame
    · have hspan : span p q = reachY p q := Nat.max_eq_right hle
      have hsame := share_of_reached hstepY (reachY_mul_stepY p q) (congrArg Point.y hq)
      rwa [hspan, share_self (hspan ▸ h), ← hspan] at hsame
  · rintro rfl
    exact point_standAt_span p q

theorem walk_standAt {fuel : Nat} (hk : k ≤ span p q) (hfuel : span p q - k ≤ fuel) :
    (Way.between p q).walk q fuel (standAt p q k) =
      (List.range' k (span p q - k + 1)).map fun k => (standAt p q k).point := by
  induction fuel generalizing k with
  | zero =>
      have hlast : span p q - k = 0 := by omega
      simp [Way.walk, hlast]
  | succ fuel ih =>
      rw [Way.walk]
      by_cases hlast : k = span p q
      · rw [if_pos ((point_standAt_eq_iff hk).mpr hlast), hlast]
        simp
      · have hstep : span p q - k = span p q - (k + 1) + 1 := by omega
        rw [if_neg (fun hq => hlast ((point_standAt_eq_iff hk).mp hq)), step_standAt (by omega),
          hstep, List.range'_succ, List.map_cons, ih (by omega) (by omega)]

theorem points_eq (p q : Point) :
    points p q = (List.range (span p q + 1)).map fun k => (standAt p q k).point := by
  have hfuel : span p q - 0 ≤ reachX p q + reachY p q := by
    rw [span]
    omega
  have hwalk := walk_standAt (Nat.zero_le _) hfuel
  rw [standAt_zero, Nat.sub_zero, ← List.range_eq_range'] at hwalk
  exact hwalk

theorem length_points (p q : Point) : (points p q).length = span p q + 1 := by
  simp [points_eq]

theorem getElem?_points (hk : k ≤ span p q) : (points p q)[k]? = some (standAt p q k).point := by
  rw [points_eq, List.getElem?_map, List.getElem?_range (by omega), Option.map_some]

theorem mem_points {r : Point} : r ∈ points p q ↔ ∃ k ≤ span p q, (standAt p q k).point = r := by
  simp [points_eq]

theorem head?_points (p q : Point) : (points p q).head? = some p := by
  rw [List.head?_eq_getElem?, getElem?_points (Nat.zero_le _), standAt_zero]

theorem getLast?_points (p q : Point) : (points p q).getLast? = some q := by
  rw [List.getLast?_eq_getElem?, length_points, Nat.add_sub_cancel,
    getElem?_points (Nat.le_refl _), point_standAt_span]

theorem stepX_eq_sign (h : 0 < reachX p q) : (Way.between p q).stepX = (q.x - p.x).sign := by
  simp only [reachX, Way.between] at h ⊢
  split
  · rw [Int.sign_eq_one_of_pos (by omega)]
  · rw [Int.sign_eq_neg_one_of_neg (by omega)]

theorem stepY_eq_sign (h : 0 < reachY p q) : (Way.between p q).stepY = (q.y - p.y).sign := by
  simp only [reachY, Way.between] at h ⊢
  split
  · rw [Int.sign_eq_one_of_pos (by omega)]
  · rw [Int.sign_eq_neg_one_of_neg (by omega)]

theorem share_step (hn : 0 < n) (ha : a ≤ n) {s d : Int} (hs : 0 < a → s = d) (t : Int) (k : Nat) :
    t + share n a (k + 1) * s = t + share n a k * s ∨
      t + share n a (k + 1) * s = t + share n a k * s + d := by
  rcases share_succ_cases hn ha k with hsame | ⟨hpos, hmore⟩
  · left
    rw [hsame]
  · right
    rw [hmore, hs hpos]
    push_cast
    ring

structure Adjacent (p q r s : Point) : Prop where
  x : s.x = r.x ∨ s.x = r.x + (q.x - p.x).sign
  y : s.y = r.y ∨ s.y = r.y + (q.y - p.y).sign

theorem adjacent_standAt (h : 0 < span p q) (k : Nat) :
    Adjacent p q (standAt p q k).point (standAt p q (k + 1)).point where
  x := share_step h (Nat.le_max_left _ _) stepX_eq_sign p.x k
  y := share_step h (Nat.le_max_right _ _) stepY_eq_sign p.y k

theorem between_standAt (hk : k ≤ span p q) :
    (min p.x q.x ≤ (standAt p q k).point.x ∧ (standAt p q k).point.x ≤ max p.x q.x) ∧
      min p.y q.y ≤ (standAt p q k).point.y ∧ (standAt p q k).point.y ≤ max p.y q.y := by
  have hi : share (span p q) (reachX p q) k ≤ reachX p q := share_le (Nat.le_max_left _ _) hk
  have hj : share (span p q) (reachY p q) k ≤ reachY p q := share_le (Nat.le_max_right _ _) hk
  constructor
  · simp only [standAt, Way.between, reachX] at hi ⊢
    split <;> omega
  · simp only [standAt, Way.between, reachY] at hj ⊢
    split <;> omega

structure Point.NextTo (r s : Point) : Prop where
  x : |s.x - r.x| ≤ 1
  y : |s.y - r.y| ≤ 1

theorem abs_sub_le_one {s t d : Int} (h : t = s ∨ t = s + d.sign) : |t - s| ≤ 1 := by
  have hsign := Int.sign_trichotomy d
  rw [abs_le]
  omega

theorem Adjacent.nextTo {r s : Point} (h : Adjacent p q r s) : r.NextTo s :=
  ⟨abs_sub_le_one h.x, abs_sub_le_one h.y⟩

theorem isChain_points (p q : Point) : (points p q).IsChain Point.NextTo := by
  rw [points_eq, List.isChain_map, List.isChain_range_succ]
  exact fun k hk => (adjacent_standAt (Nat.zero_lt_of_lt hk) k).nextTo

theorem abs_lead_le (p q : Point) (k : Nat) :
    |2 * ((reachX p q : Int) * share (span p q) (reachY p q) k -
      reachY p q * share (span p q) (reachX p q) k)| ≤ span p q := by
  rcases Nat.eq_zero_or_pos (span p q) with h | h
  · have hnone : reachX p q = 0 ∧ reachY p q = 0 := by
      rw [span] at h
      omega
    simp [hnone]
  rcases Nat.le_total (reachY p q) (reachX p q) with hle | hle
  · have hspan : span p q = reachX p q := Nat.max_eq_left hle
    rw [hspan] at h ⊢
    rw [share_self h]
    exact drift_le h
  · have hspan : span p q = reachY p q := Nat.max_eq_right hle
    rw [hspan] at h ⊢
    rw [share_self h, abs_mul, abs_sub_comm, ← abs_mul]
    exact drift_le h

/-- A point of the line is met exactly in the direction in which the line is longer, and to half a
pixel in the other. -/
def Beside (p q r : Point) : Prop :=
  ∃ t : ℚ, 0 ≤ t ∧ t ≤ 1 ∧
    |r.x - (p.x + t * (q.x - p.x))| ≤ 1 / 2 ∧ |r.y - (p.y + t * (q.y - p.y))| ≤ 1 / 2 ∧
    (reachY p q ≤ reachX p q → r.x = p.x + t * (q.x - p.x)) ∧
    (reachX p q ≤ reachY p q → r.y = p.y + t * (q.y - p.y))

theorem abs_share_sub_le (n a k : Nat) : |(share n a k : ℚ) - k / n * a| ≤ 1 / 2 := by
  rcases Nat.eq_zero_or_pos n with rfl | hn
  · simp [share]
  have hdrift : |2 * ((n : ℚ) * share n a k - a * k)| ≤ n := by
    exact_mod_cast drift_le (a := a) (k := k) hn
  have hpos : (0 : ℚ) < n := by exact_mod_cast hn
  have hscaled : (share n a k : ℚ) - k / n * a =
      2 * ((n : ℚ) * share n a k - a * k) / (2 * n) := by
    field_simp
  rw [hscaled, abs_div, abs_of_pos (by positivity : (0 : ℚ) < 2 * n), div_le_iff₀ (by positivity)]
  linarith

theorem share_self_eq (hk : k ≤ n) : (share n n k : ℚ) = k / n * n := by
  rcases Nat.eq_zero_or_pos n with rfl | hn
  · simp [Nat.eq_zero_of_le_zero hk, share]
  · rw [share_self hn, div_mul_cancel₀ _ (by exact_mod_cast hn.ne')]

section

variable {s t u : Int} (hreach : a * s = u - t)
include hreach

theorem share_sub_part (n k : Nat) :
    ((t + share n a k * s : Int) : ℚ) - (t + (k : ℚ) / n * (u - t)) =
      (share n a k - k / n * a) * s := by
  have hway : (u - t : ℚ) = a * s := by exact_mod_cast hreach.symm
  rw [hway]
  push_cast
  ring

theorem abs_share_sub_part_le (hs : |s| = 1) (n k : Nat) :
    |((t + share n a k * s : Int) : ℚ) - (t + (k : ℚ) / n * (u - t))| ≤ 1 / 2 := by
  have hstep : |(s : ℚ)| = 1 := by exact_mod_cast hs
  rw [share_sub_part hreach, abs_mul, hstep, mul_one]
  exact abs_share_sub_le _ _ _

theorem share_eq_part (hk : k ≤ n) (ha : n = a) :
    ((t + share n a k * s : Int) : ℚ) = t + (k : ℚ) / n * (u - t) := by
  have hoffset := share_sub_part hreach n k
  rw [← ha, share_self_eq hk, sub_self, zero_mul] at hoffset
  rw [← ha]
  linarith

end

theorem beside_standAt (hk : k ≤ span p q) : Beside p q (standAt p q k).point := by
  have hle : (k : ℚ) ≤ span p q := by exact_mod_cast hk
  have hx := reachX_mul_stepX p q
  have hy := reachY_mul_stepY p q
  refine ⟨k / span p q, by positivity, div_le_one_of_le₀ hle (by positivity), ?_, ?_, ?_, ?_⟩
  · exact abs_share_sub_part_le hx (abs_stepX p q) _ _
  · exact abs_share_sub_part_le hy (abs_stepY p q) _ _
  · exact fun hlong => share_eq_part hx hk (Nat.max_eq_left hlong)
  · exact fun hlong => share_eq_part hy hk (Nat.max_eq_right hlong)

end Symbology.Raster
