import Symbology.Proofs.Double.Fields
import Symbology.Double.Shortest

namespace Symbology.Double

variable {x y : Float} {n : Nat}

theorem units_add_gap_le (x : Float) : units x + gap x ≤ 2 ^ 53 * gap x := by
  have h := Nat.mul_le_mul_right (gap x) (mantissa_lt x)
  rw [Nat.succ_mul] at h
  exact h

theorem full_of_gap_lt (h : gap x < gap y) :
    1 < biasedExponent y ∧ 2 * gap x ≤ gap y ∧ 2 ^ 52 * gap y ≤ units y := by
  have hexponent : biasedExponent x - 1 < biasedExponent y - 1 := by
    rw [gap, gap, Nat.one_shiftLeft, Nat.one_shiftLeft] at h
    exact (Nat.pow_lt_pow_iff_right (by decide)).mp h
  refine ⟨by omega, ?_, Nat.mul_le_mul_right _ (mantissa_ge (by omega))⟩
  rw [gap, gap, Nat.one_shiftLeft, Nat.one_shiftLeft, ← Nat.pow_succ']
  exact Nat.pow_le_pow_right (by decide) hexponent

theorem gap_le_of_units_lt (h : units x < units y) : gap x ≤ gap y := by
  by_contra hgap
  obtain ⟨-, hdouble, hfull⟩ := full_of_gap_lt (Nat.lt_of_not_le hgap)
  have hy := units_add_gap_le y
  have hpos := gap_pos y
  omega

theorem toNat_toBits (x : Float) : x.toBits.toNat =
    (signBit x).toNat * 2 ^ 63 + biasedExponent x * 2 ^ 52 + fraction x := by
  have hbits := x.toBits.toNat_lt
  rw [signBit, biasedExponent, fraction, Nat.toNat_testBit, Nat.one_shiftLeft, Nat.one_shiftLeft,
    Nat.shiftRight_eq_div_pow]
  omega

theorem eq_of_toBits_eq (h : x.toBits = y.toBits) : x = y := by
  obtain ⟨⟨a, ha⟩⟩ := x
  obtain ⟨⟨b, hb⟩⟩ := y
  obtain rfl : a = b := h
  rfl

theorem eq_of_units_eq (hsign : signBit x = signBit y) (h : units x = units y) : x = y := by
  have hgap (x y : Float) (h : units x = units y) : ¬ gap x < gap y := by
    intro hless
    obtain ⟨-, hdouble, hfull⟩ := full_of_gap_lt hless
    have hx := units_add_gap_le x
    have hpos := gap_pos x
    omega
  have hsame : gap x = gap y :=
    Nat.le_antisymm (Nat.le_of_not_lt (hgap y x h.symm)) (Nat.le_of_not_lt (hgap x y h))
  have hmantissa : mantissa x = mantissa y := by
    rw [units, units, hsame] at h
    exact Nat.mul_right_cancel (gap_pos y) h
  have hexponent : biasedExponent x - 1 = biasedExponent y - 1 := by
    rw [gap, gap, Nat.one_shiftLeft, Nat.one_shiftLeft] at hsame
    exact Nat.pow_right_injective (Nat.le_refl 2) hsame
  have hx : fraction x < 2 ^ 52 := Nat.mod_lt _ (by decide)
  have hy : fraction y < 2 ^ 52 := Nat.mod_lt _ (by decide)
  have hfields : biasedExponent x = biasedExponent y ∧ fraction x = fraction y := by
    rw [mantissa, mantissa, Nat.one_shiftLeft] at hmantissa
    split_ifs at hmantissa <;> omega
  refine eq_of_toBits_eq (UInt64.toNat_inj.mp ?_)
  rw [toNat_toBits, toNat_toBits, hsign, hfields.1, hfields.2]

def reach (x : Float) : Nat :=
  if fraction x = 0 ∧ 1 < biasedExponent x then gap x else 2 * gap x

theorem reach_bounds (x : Float) : gap x ≤ reach x ∧ reach x ≤ 2 * gap x := by
  rw [reach]
  split <;> omega

/-- The basins of two doubles meet at most in one point, and it belongs to one of them. -/
theorem upper_le_lower (h : units x < units y) :
    4 * units x + 2 * gap x ≤ 4 * units y - reach y ∧
      (mantissa x % 2 = 0 → mantissa y % 2 = 0 →
        4 * units x + 2 * gap x < 4 * units y - reach y) := by
  have hgap := gap_pos x
  rcases (gap_le_of_units_lt h).eq_or_lt with hsame | hless
  · have hreach := (reach_bounds y).2
    have hmantissa : mantissa x < mantissa y := by
      rw [units, units, hsame] at h
      exact Nat.lt_of_mul_lt_mul_right h
    have hnext (k : Nat) (hk : mantissa x + k ≤ mantissa y) : units x + k * gap x ≤ units y := by
      rw [units, units, ← hsame, ← Nat.add_mul]
      exact Nat.mul_le_mul_right _ hk
    have hone := hnext 1 hmantissa
    refine ⟨by omega, fun hx hy => ?_⟩
    have htwo := hnext 2 (by omega)
    omega
  · obtain ⟨hnormal, hdouble, hfull⟩ := full_of_gap_lt hless
    have hx := units_add_gap_le x
    have hroom : 2 ^ 54 * gap y ≤ 4 * units y - reach y + gap y := by
      rw [reach]
      split
      · omega
      · next hfraction =>
          have hmantissa : 2 ^ 52 + 1 ≤ mantissa y := by
            rw [mantissa, if_neg (by omega), Nat.one_shiftLeft]
            omega
          have hmore : (2 ^ 52 + 1) * gap y ≤ units y := Nat.mul_le_mul_right _ hmantissa
          omega
    refine ⟨by omega, fun heven _ => ?_⟩
    have hshort : (mantissa x + 2) * gap x ≤ 2 ^ 53 * gap x := by
      have := mantissa_lt x
      exact Nat.mul_le_mul_right _ (by omega)
    have hless : units x + 2 * gap x ≤ 2 ^ 53 * gap x := by
      rw [units, ← Nat.add_mul]
      exact hshort
    omega

theorem powerOfTen_pos (n : Nat) : 0 < powerOfTen n :=
  Nat.pow_pos (by decide)

theorem not_contains_of_units_lt (h : units x < units y) (hx : (basin x).contains n = true) :
    (basin y).contains n = false := by
  obtain ⟨hmeet, hbelong⟩ := upper_le_lower h
  have hscale := powerOfTen_pos shift
  have hupper : (basin x).upper ≤ (basin y).lower := Nat.mul_le_mul_right _ hmeet
  have hapart (hx : mantissa x % 2 = 0) (hy : mantissa y % 2 = 0) :
      (basin x).upper < (basin y).lower := Nat.mul_lt_mul_of_pos_right (hbelong hx hy) hscale
  have hclosed (x : Float) : (basin x).closed = true ↔ mantissa x % 2 = 0 := decide_eq_true_iff
  rw [Basin.contains] at hx ⊢
  split at hx
  · next hcx =>
      split
      · next hcy =>
          have := hapart ((hclosed x).mp hcx) ((hclosed y).mp hcy)
          simp only [Bool.and_eq_true, decide_eq_true_eq, Bool.and_eq_false_iff,
            decide_eq_false_iff_not] at hx ⊢
          omega
      · simp only [Bool.and_eq_true, decide_eq_true_eq, Bool.and_eq_false_iff,
          decide_eq_false_iff_not] at hx ⊢
        omega
  · simp only [Bool.and_eq_true, decide_eq_true_eq] at hx
    split <;> simp only [Bool.and_eq_false_iff, decide_eq_false_iff_not] <;> omega

theorem units_eq_of_contains (hx : (basin x).contains n = true) (hy : (basin y).contains n = true) :
    units x = units y := by
  rcases Nat.lt_trichotomy (units x) (units y) with h | h | h
  · rw [not_contains_of_units_lt h hx] at hy
    cases hy
  · exact h
  · rw [not_contains_of_units_lt h hy] at hx
    cases hx

theorem search_cases {tie : Tie} {b : Basin} {size k places d p : Nat}
    (h : search tie b size k places = (d, p)) :
    b.contains (d * grid p) = true ∨ d = size / grid p ∧ p = places - k := by
  induction k generalizing places with
  | zero =>
      cases h
      exact .inr ⟨rfl, rfl⟩
  | succ k ih =>
      rw [search] at h
      split at h
      · next hcandidate =>
          cases h
          exact .inl (candidate?_mem hcandidate)
      · rcases ih h with hcontains | ⟨hd, hp⟩
        · exact .inl hcontains
        · exact .inr ⟨hd, by omega⟩

theorem powerOfTen_add (m n : Nat) : powerOfTen (m + n) = powerOfTen m * powerOfTen n :=
  Nat.pow_add 10 m n

theorem one_shiftLeft_le_powerOfTen {k : Nat} (h : k ≤ 3 * n) : 1 <<< k ≤ powerOfTen n := by
  rw [Nat.one_shiftLeft]
  calc 2 ^ k ≤ 2 ^ (3 * n) := Nat.pow_le_pow_right (by decide) h
    _ = (2 ^ 3) ^ n := Nat.pow_mul 2 3 n
    _ ≤ 10 ^ n := Nat.pow_le_pow_left (by decide) n

theorem powerOfTen_shift_ge : powerOfTen 18 * 1 <<< 1076 ≤ powerOfTen shift := by
  have hsplit : powerOfTen shift = powerOfTen 18 * powerOfTen 382 := powerOfTen_add 18 382
  rw [hsplit]
  exact Nat.mul_le_mul_left _ (one_shiftLeft_le_powerOfTen (by decide))

theorem le_shiftRight_iff {a b k : Nat} : a ≤ b >>> k ↔ a * 1 <<< k ≤ b := by
  rw [Nat.shiftRight_eq_div_pow, Nat.one_shiftLeft, Nat.le_div_iff_mul_le (Nat.two_pow_pos k)]

theorem size_shiftRight_ge (h : 0 < units x) : powerOfTen 18 ≤ size x >>> 1076 := by
  have hsize : powerOfTen shift ≤ size x := Nat.le_mul_of_pos_left _ (by omega)
  exact le_shiftRight_iff.mpr (powerOfTen_shift_ge.trans hsize)

theorem contains_size_div (h : 0 < units x) {g : Nat} (hg : 0 < g) (hfine : g ≤ gap x * powerOfTen shift) :
    (basin x).contains (size x / g * g) = true := by
  have hdivision := Nat.div_add_mod' (size x) g
  have hrest := Nat.mod_lt (size x) hg
  have hnear := Nat.mul_le_mul_right (powerOfTen shift) (reach_bounds x).1
  have hfar := Nat.mul_le_mul_right (powerOfTen shift) (reach_bounds x).2
  have hlower : (basin x).lower = size x - reach x * powerOfTen shift := Nat.sub_mul _ _ _
  have hupper : (basin x).upper = size x + 2 * gap x * powerOfTen shift := Nat.add_mul _ _ _
  rw [Nat.mul_assoc] at hfar hupper
  have hgap := Nat.mul_pos (gap_pos x) (powerOfTen_pos shift)
  have hroom : 4 * (gap x * powerOfTen shift) ≤ size x := by
    rw [size, Nat.mul_assoc]
    exact Nat.mul_le_mul_left 4 (Nat.mul_le_mul_right _
      (Nat.le_mul_of_pos_left _ (Nat.pos_of_mul_pos_right h)))
  rw [Basin.contains, hlower, hupper]
  split <;> simp only [Bool.and_eq_true, decide_eq_true_eq] <;> omega

theorem digitCount_bounds {k : Nat} (hk : 0 < k) (h : powerOfTen k ≤ n) :
    k < digitCount n ∧ powerOfTen (digitCount n - 1) ≤ n := by
  have hlong : k < digitCount n := by
    by_contra hshort
    have := (Nat.length_repr_le_iff hk).mp (Nat.le_of_not_lt hshort)
    exact absurd h (Nat.not_le.mpr this)
  refine ⟨hlong, Nat.le_of_not_lt fun hless => ?_⟩
  have : digitCount n ≤ digitCount n - 1 := (Nat.length_repr_le_iff (by omega)).mpr hless
  omega

theorem grid_le_gap {places : Nat} (hplaces : 17 ≤ places)
    (h : powerOfTen places ≤ size x >>> 1076) :
    grid (places - 17) ≤ gap x * powerOfTen shift := by
  have hsplit : powerOfTen places = powerOfTen (places - 17) * powerOfTen 17 := by
    rw [← powerOfTen_add, Nat.sub_add_cancel hplaces]
  have hgrid : grid (places - 17) * powerOfTen 17 ≤ size x := by
    rw [grid, Nat.mul_right_comm, ← hsplit]
    exact le_shiftRight_iff.mp h
  have hsize : size x ≤ 4 * (2 ^ 53 * (gap x * powerOfTen shift)) := by
    have hunits := units_add_gap_le x
    rw [size, Nat.mul_assoc, ← Nat.mul_assoc (2 ^ 53)]
    exact Nat.mul_le_mul_left 4 (Nat.mul_le_mul_right _ (by omega))
  have hdigits : powerOfTen 17 = 10 ^ 17 := rfl
  rw [hdigits] at hgrid
  omega

theorem contains_shortest (tie : Tie) (h : 0 < units x) :
    ∃ d p, shortest tie x = Decimal.ofMultiple d p ∧ (basin x).contains (d * grid p) = true := by
  obtain ⟨hlong, hplaces⟩ := digitCount_bounds (by decide) (size_shiftRight_ge h)
  rcases hsearch : search tie (basin x) (size x) 17 (digitCount (size x >>> 1076) - 1) with ⟨d, p⟩
  refine ⟨d, p, by simp only [shortest, hsearch], ?_⟩
  rcases search_cases hsearch with hcontains | ⟨rfl, rfl⟩
  · exact hcontains
  · have hpos : 0 < grid (digitCount (size x >>> 1076) - 1 - 17) := by
      rw [grid, Nat.one_shiftLeft]
      exact Nat.mul_pos (powerOfTen_pos _) (by positivity)
    exact contains_size_div h hpos (grid_le_gap (by omega) hplaces)

end Symbology.Double
