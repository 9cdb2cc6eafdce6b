import Symbology.Proofs.Double.Finite

/-!
The arithmetic of doubles as exact arithmetic followed by rounding. Rounding is a monotone function
of the exact result, so an operation that is monotone on numbers is monotone on doubles.
-/

namespace Symbology.Double

open Float.Model (UnpackedFloat totalExponent)
open Float.Model.UnpackedFloat
open Float.Model.Format (binary64)

/-- The nearest whole number, halves going to the even one. -/
def roundEven (x : ℚ) : Nat :=
  let n := ⌊x⌋₊
  if x < n + 1 / 2 then n else if x ≤ n + 1 / 2 then n + n % 2 else n + 1

variable {x y v w : ℚ} {n m : Nat} {e : Int}

theorem roundEven_natCast (n : Nat) : roundEven n = n := by
  simp [roundEven]

theorem floor_le_roundEven (x : ℚ) : ⌊x⌋₊ ≤ roundEven x := by
  simp only [roundEven]
  split_ifs <;> omega

theorem roundEven_le_floor (x : ℚ) : roundEven x ≤ ⌊x⌋₊ + 1 := by
  simp only [roundEven]
  split_ifs <;> omega

theorem roundEven_mono (h : x ≤ y) : roundEven x ≤ roundEven y := by
  rcases (Nat.floor_mono h).eq_or_lt with hsame | hless
  · simp only [roundEven, hsame]
    split_ifs <;> first | omega | linarith
  · exact (roundEven_le_floor x).trans (Nat.le_trans hless (floor_le_roundEven y))

theorem le_roundEven (h : (n : ℚ) ≤ x) : n ≤ roundEven x :=
  (roundEven_natCast n).symm.trans_le (roundEven_mono h)

theorem roundEven_le (h : x ≤ n) : roundEven x ≤ n :=
  (roundEven_mono h).trans_eq (roundEven_natCast n)

def place (v : ℚ) : Int :=
  max (Int.log 2 v - 52) (-1074)

/-- The double nearest to a number, as a number, if exponents had no upper limit. -/
def rounded (v : ℚ) : ℚ :=
  roundEven (v / 2 ^ place v) * 2 ^ place v

theorem two_zpow_pos (e : Int) : (0 : ℚ) < 2 ^ e :=
  zpow_pos (by norm_num) e

theorem rounded_nonneg (v : ℚ) : 0 ≤ rounded v :=
  mul_nonneg (Nat.cast_nonneg _) (two_zpow_pos _).le

theorem rounded_zero : rounded 0 = 0 := by
  simp [rounded, roundEven]

theorem two_zpow_eq {e f : Int} (h : e ≤ f) : (2 : ℚ) ^ f = ((2 ^ (f - e).toNat : Nat) : ℚ) * 2 ^ e := by
  have hf : f = ((f - e).toNat : Int) + e := by omega
  rw [Nat.cast_pow, Nat.cast_ofNat, ← zpow_natCast, ← zpow_add₀ (by norm_num), ← hf]

theorem rounded_le_power {k : Int} (hk : place v ≤ k) (h : v ≤ 2 ^ k) : rounded v ≤ 2 ^ k := by
  have hpos := two_zpow_pos (place v)
  have hquotient : v / 2 ^ place v ≤ ((2 ^ (k - place v).toNat : Nat) : ℚ) := by
    rw [div_le_iff₀ hpos, ← two_zpow_eq hk]
    exact h
  rw [rounded, two_zpow_eq hk]
  exact mul_le_mul_of_nonneg_right (by exact_mod_cast roundEven_le hquotient) hpos.le

theorem power_le_rounded {k : Int} (hk : place v ≤ k) (h : 2 ^ k ≤ v) : 2 ^ k ≤ rounded v := by
  have hpos := two_zpow_pos (place v)
  have hquotient : ((2 ^ (k - place v).toNat : Nat) : ℚ) ≤ v / 2 ^ place v := by
    rw [le_div_iff₀ hpos, ← two_zpow_eq hk]
    exact h
  rw [rounded, two_zpow_eq hk]
  exact mul_le_mul_of_nonneg_right (by exact_mod_cast le_roundEven hquotient) hpos.le

theorem rounded_mono (hv : 0 ≤ v) (h : v ≤ w) : rounded v ≤ rounded w := by
  rcases hv.eq_or_lt with rfl | hv
  · rw [rounded_zero]
    exact rounded_nonneg w
  have hlog : Int.log 2 v ≤ Int.log 2 w := Int.log_mono_right hv h
  by_cases hplace : place v = place w
  · have hpos := two_zpow_pos (place w)
    rw [rounded, rounded, hplace]
    refine mul_le_mul_of_nonneg_right ?_ hpos.le
    exact_mod_cast roundEven_mono (div_le_div_of_nonneg_right h hpos.le)
  · -- between the two there is a power of two, where the places change
    have hless : Int.log 2 v < Int.log 2 w := by
      simp only [place] at hplace
      omega
    have hbelow : v < 2 ^ Int.log 2 w := (Int.lt_zpow_iff_log_lt (by decide) hv).mpr hless
    have habove : (2 : ℚ) ^ Int.log 2 w ≤ w :=
      Int.zpow_log_le_self (by decide) (hv.trans_le h)
    exact (rounded_le_power (by simp only [place] at hplace ⊢; omega) hbelow.le).trans
      (power_le_rounded (by simp only [place] at hplace ⊢; omega) habove)

theorem log_eq {k : Int} (hlow : 2 ^ k ≤ v) (hhigh : v < 2 ^ (k + 1)) : Int.log 2 v = k := by
  have hpos : 0 < v := (two_zpow_pos k).trans_le hlow
  have hle : k ≤ Int.log 2 v := (Int.zpow_le_iff_le_log (by decide) hpos).mp hlow
  have hlt : Int.log 2 v < k + 1 := (Int.lt_zpow_iff_log_lt (by decide) hpos).mp hhigh
  omega

theorem rounded_power {k : Int} (h : -1074 ≤ k) : rounded (2 ^ k) = 2 ^ k := by
  have hnext : (2 : ℚ) ^ k < 2 ^ (k + 1) := zpow_lt_zpow_right₀ (by norm_num) (by omega)
  have hplace : place (2 ^ k) ≤ k := by
    rw [place, log_eq le_rfl hnext]
    omega
  exact le_antisymm (rounded_le_power hplace le_rfl) (power_le_rounded hplace le_rfl)

theorem natCast_log2_bounds (hm : 0 < m) (e : Int) :
    (2 : ℚ) ^ (m.log2 + e) ≤ m * 2 ^ e ∧ (m + 1 : ℚ) * 2 ^ e ≤ 2 ^ (m.log2 + e + 1) := by
  have hpos := two_zpow_pos e
  have hlow : ((2 ^ m.log2 : Nat) : ℚ) ≤ m := by
    exact_mod_cast Nat.log2_self_le (Nat.pos_iff_ne_zero.mp hm)
  have hhigh : (m + 1 : ℚ) ≤ ((2 ^ (m.log2 + 1) : Nat) : ℚ) := by
    exact_mod_cast Nat.lt_log2_self
  constructor
  · rw [zpow_add₀ (by norm_num), zpow_natCast]
    exact mul_le_mul_of_nonneg_right (by exact_mod_cast hlow) hpos.le
  · rw [show (m.log2 : Int) + e + 1 = ((m.log2 + 1 : Nat) : Int) + e by push_cast; ring,
      zpow_add₀ (by norm_num), zpow_natCast]
    exact mul_le_mul_of_nonneg_right (by exact_mod_cast hhigh) hpos.le

theorem targetExponent_eq_place (hv : 0 < v) (hlow : m * 2 ^ e ≤ v) (hhigh : v < (m + 1) * 2 ^ e)
    (he : e ≤ place v) : binary64.targetExponent (totalExponent m e) = place v := by
  have htarget : binary64.targetExponent (totalExponent m e) =
      max ((m.log2 : Int) + 1 + e - 53) (-1074) := rfl
  rw [htarget]
  rcases Nat.eq_zero_or_pos m with rfl | hm
  · have hless : Int.log 2 v < e := by
      refine (Int.lt_zpow_iff_log_lt (by decide) hv).mp ?_
      simpa using hhigh
    have hlog : Nat.log2 0 = 0 := rfl
    simp only [place, hlog] at he ⊢
    omega
  · obtain ⟨hfrom, hto⟩ := natCast_log2_bounds hm e
    have hlog : Int.log 2 v = m.log2 + e := log_eq (hfrom.trans hlow) (hhigh.trans_le hto)
    simp only [place, hlog]
    omega

/-- A mantissa with a bit after it, and whether there are more bits, stands for these numbers. -/
inductive Represents : ExtendedMantissa → ℚ → Prop where
  | exact {m : Nat} {x : ℚ} (h : x = m) : Represents ⟨m, false, false⟩ x
  | below {m : Nat} {x : ℚ} (hlow : m < x) (hhigh : x < m + 1 / 2) : Represents ⟨m, false, true⟩ x
  | half {m : Nat} {x : ℚ} (h : x = m + 1 / 2) : Represents ⟨m, true, false⟩ x
  | above {m : Nat} {x : ℚ} (hlow : m + 1 / 2 < x) (hhigh : x < m + 1) :
      Represents ⟨m, true, true⟩ x

variable {em : ExtendedMantissa}

theorem Represents.bounds (h : Represents em x) : em.mantissa ≤ x ∧ x < em.mantissa + 1 := by
  cases h <;> simp only at * <;> constructor <;> linarith

theorem Represents.roundedMantissa (h : Represents em x) : em.roundedMantissa = roundEven x := by
  have hfloor : ⌊x⌋₊ = em.mantissa := by
    obtain ⟨hlow, hhigh⟩ := h.bounds
    exact (Nat.floor_eq_iff ((Nat.cast_nonneg _).trans hlow)).mpr ⟨hlow, hhigh⟩
  simp only [roundEven, hfloor]
  cases h with
  | exact h => rw [if_pos (by rw [h]; linarith)]; rfl
  | below hlow hhigh => rw [if_pos hhigh]; rfl
  | half h => rw [if_neg (by rw [h]; exact lt_irrefl _), if_pos h.le]; rfl
  | above hlow hhigh => rw [if_neg (by linarith), if_neg (by linarith)]; rfl

theorem Represents.shiftRightOne (h : Represents em x) : Represents em.shiftRightOne (x / 2) := by
  obtain ⟨m, r, s⟩ := em
  have hm : (m : ℚ) = 2 * (m / 2 : Nat) + (m % 2 : Nat) := by
    exact_mod_cast (Nat.div_add_mod m 2).symm
  rcases Nat.mod_two_eq_zero_or_one m with heven | hodd
  · rw [heven] at hm
    have hshift : ExtendedMantissa.shiftRightOne ⟨m, r, s⟩ = ⟨m / 2, false, r || s⟩ := by
      simp [ExtendedMantissa.shiftRightOne, heven]
    rw [hshift]
    push_cast at hm
    cases h with
    | exact h => exact .exact (by linarith)
    | below hlow hhigh => exact .below (by linarith) (by linarith)
    | half h => exact .below (by linarith) (by linarith)
    | above hlow hhigh => exact .below (by linarith) (by linarith)
  · rw [hodd] at hm
    have hshift : ExtendedMantissa.shiftRightOne ⟨m, r, s⟩ = ⟨m / 2, true, r || s⟩ := by
      simp [ExtendedMantissa.shiftRightOne, hodd]
    rw [hshift]
    push_cast at hm
    cases h with
    | exact h => exact .half (by linarith)
    | below hlow hhigh => exact .above (by linarith) (by linarith)
    | half h => exact .above (by linarith) (by linarith)
    | above hlow hhigh => exact .above (by linarith) (by linarith)

theorem Represents.shiftRight (h : Represents em x) (n : Nat) :
    Represents (em >>> n) (x / 2 ^ n) := by
  change Represents (n.repeat ExtendedMantissa.shiftRightOne em) _
  induction n with
  | zero => simpa [Nat.repeat] using h
  | succ n ih =>
      rw [Nat.repeat, pow_succ, ← div_div]
      exact ih.shiftRightOne

inductive Amounts : UnpackedFloat → ℚ → Prop where
  | zero : Amounts (.zero .positive) 0
  | finite {m : Nat} {e : Int} {hm : 0 < m} {v : ℚ} (hlt : m < 2 ^ 53) (hlow : -1074 ≤ e)
      (hlong : e = -1074 ∨ 2 ^ 52 ≤ m) (h : v = m * 2 ^ e) : Amounts (.finite .positive m e hm) v

theorem place_ge (v : ℚ) : -1074 ≤ place v :=
  le_max_right _ _

theorem roundEven_place (hv : 0 < v) :
    roundEven (v / 2 ^ place v) ≤ 2 ^ 53 ∧
      (place v = -1074 ∨ 2 ^ 52 ≤ roundEven (v / 2 ^ place v)) := by
  have hpos := two_zpow_pos (place v)
  have hhigh : v < 2 ^ (Int.log 2 v + 1) := Int.lt_zpow_succ_log_self (by decide) v
  have hlow : 2 ^ Int.log 2 v ≤ v := Int.zpow_log_le_self (by decide) hv
  constructor
  · refine roundEven_le ?_
    have hplace : (2 : ℚ) ^ (Int.log 2 v + 1) ≤ 2 ^ (53 + place v) :=
      zpow_le_zpow_right₀ (by norm_num) (by simp only [place]; omega)
    rw [div_le_iff₀ hpos]
    rw [zpow_add₀ (by norm_num) 53] at hplace
    push_cast
    exact (hhigh.trans_le hplace).le
  · by_cases hdeep : place v = -1074
    · exact .inl hdeep
    · right
      refine le_roundEven ?_
      have hplace : Int.log 2 v = 52 + place v := by
        simp only [place] at hdeep ⊢
        omega
      rw [le_div_iff₀ hpos]
      rw [hplace, zpow_add₀ (by norm_num)] at hlow
      push_cast
      exact hlow

def fitted (r : Nat) (e : Int) : UnpackedFloat :=
  let n := (binary64.targetExponent (totalExponent r e) - e).toNat
  if h : r / 2 ^ n = 0 then .zero .positive
  else .finite .positive (r / 2 ^ n) (e + n) (Nat.pos_of_ne_zero h)

theorem amounts_fitted {r : Nat} (hr : r ≤ 2 ^ 53) (hlow : -1074 ≤ e)
    (hlong : e = -1074 ∨ 2 ^ 52 ≤ r) : Amounts (fitted r e) (r * 2 ^ e) := by
  have htarget : binary64.targetExponent (totalExponent r e) =
      max ((r.log2 : Int) + 1 + e - 53) (-1074) := rfl
  rcases hr.lt_or_eq with hlt | rfl
  · have hlog : r.log2 < 53 := by
      rcases Nat.eq_zero_or_pos r with rfl | hpos
      · decide
      · exact (Nat.log2_lt (by omega)).mpr hlt
    have hshift : (binary64.targetExponent (totalExponent r e) - e).toNat = 0 := by
      rw [htarget]
      omega
    simp only [fitted, hshift, Nat.pow_zero, Nat.div_one, Nat.cast_zero, add_zero]
    split
    · next hzero =>
        rw [hzero, Nat.cast_zero, zero_mul]
        exact .zero
    · exact .finite hlt hlow hlong rfl
  · have hshift : (binary64.targetExponent (totalExponent (2 ^ 53) e) - e).toNat = 1 := by
      rw [htarget, Nat.log2_two_pow]
      omega
    have hhalf : 2 ^ 53 / 2 ^ 1 = 2 ^ 52 := by decide
    simp only [fitted, hshift, hhalf]
    rw [dif_neg (by decide)]
    refine .finite (by decide) (by omega) (.inr (Nat.le_refl _)) ?_
    rw [Nat.cast_one, zpow_add_one₀ (by norm_num)]
    push_cast
    ring

theorem amounts_roundWithAccuracy {acc : Accuracy} (hv : 0 < v)
    (h : Represents (.ofMantissaAndAccuracy m acc) (v / 2 ^ e)) (he : e ≤ place v) :
    Amounts (roundWithAccuracy binary64 .positive m e acc) (rounded v) := by
  have hpos := two_zpow_pos e
  obtain ⟨hlow, hhigh⟩ := h.bounds
  rw [mantissa_ofMantissaAndAccuracy] at hlow hhigh
  have htarget : binary64.targetExponent (totalExponent m e) = place v :=
    targetExponent_eq_place hv ((le_div_iff₀ hpos).mp hlow) ((div_lt_iff₀ hpos).mp hhigh) he
  have hshift : v / 2 ^ e / 2 ^ (place v - e).toNat = v / 2 ^ place v := by
    rw [div_div, ← zpow_natCast, ← zpow_add₀ (by norm_num)]
    congr 2
    omega
  have hround : (ExtendedMantissa.ofMantissaAndAccuracy m acc >>>
      (place v - e).toNat).roundedMantissa = roundEven (v / 2 ^ place v) := by
    rw [(h.shiftRight _).roundedMantissa, hshift]
  have hplace : e + (place v - e).toNat = place v := by omega
  obtain ⟨hle, hlong⟩ := roundEven_place hv
  have hdeep := place_ge v
  simp only [roundWithAccuracy, shiftToTargetExponent, shiftToExponent, htarget, hround, hplace,
    mantissa_shiftRight, mantissa_ofMantissaAndAccuracy]
  exact amounts_fitted hle hdeep hlong

theorem place_natCast_mul (hm : 0 < m) (e : Int) :
    place (m * 2 ^ e) = max ((m.log2 : Int) + e - 52) (-1074) := by
  obtain ⟨hfrom, hto⟩ := natCast_log2_bounds hm e
  have hnext : (m : ℚ) * 2 ^ e < (m + 1) * 2 ^ e := by
    have := two_zpow_pos e
    linarith
  rw [place, log_eq hfrom (hnext.trans_le hto)]

theorem represents_exact (h : x = m) : Represents (.ofMantissaAndAccuracy m .exact) x :=
  .exact h

theorem natCast_shiftLeft_mul (m n : Nat) (e : Int) :
    ((m <<< n : Nat) : ℚ) * 2 ^ (e - n) = m * 2 ^ e := by
  rw [Nat.shiftLeft_eq, zpow_sub₀ (by norm_num), zpow_natCast]
  push_cast
  field_simp

theorem normalize_natCast (hm : 0 < m) (e : Int) (s : Sign) :
    UnpackedFloat.normalize binary64 m e s = round binary64 .positive m e := by
  have hcompare : compare (m : Int) 0 = .gt := Int.compare_eq_gt.mpr (by omega)
  simp only [UnpackedFloat.normalize, hcompare, Int.toNat_natCast]

theorem amounts_round (hm : 0 < m) (e : Int) :
    Amounts (round binary64 .positive m e) (rounded (m * 2 ^ e)) := by
  let n := (e - binary64.targetExponent (totalExponent m e)).toNat
  have htarget : binary64.targetExponent (totalExponent m e) =
      max ((m.log2 : Int) + 1 + e - 53) (-1074) := rfl
  have hplace : e - n ≤ place (m * 2 ^ e) := by
    rw [place_natCast_mul hm]
    omega
  have hmantissa : (m * 2 ^ e : ℚ) / 2 ^ (e - n) = (m <<< n : Nat) := by
    rw [div_eq_iff (two_zpow_pos _).ne', natCast_shiftLeft_mul]
  exact amounts_roundWithAccuracy (mul_pos (by exact_mod_cast hm) (two_zpow_pos e))
    (represents_exact hmantissa) hplace

theorem Amounts.nonneg {u : UnpackedFloat} (h : Amounts u v) : 0 ≤ v := by
  cases h with
  | zero => exact le_refl 0
  | finite _ _ _ h =>
      rw [h]
      exact mul_nonneg (Nat.cast_nonneg _) (two_zpow_pos _).le

theorem Amounts.rounded_eq {u : UnpackedFloat} (h : Amounts u v) : rounded v = v := by
  cases h with
  | zero => exact rounded_zero
  | @finite m e hm _ hlt hlow hlong h =>
      have hlog : m.log2 < 53 := (Nat.log2_lt (by omega)).mpr hlt
      have hplace : place v = e := by
        rw [h, place_natCast_mul hm]
        rcases hlong with hdeep | hlong
        · omega
        · have : 52 ≤ m.log2 := (Nat.le_log2 (by omega)).mpr hlong
          omega
      rw [rounded, hplace, h, mul_div_cancel_right₀ _ (two_zpow_pos e).ne', roundEven_natCast]

variable {a b : UnpackedFloat}

theorem amounts_add (ha : Amounts a v) (hb : Amounts b w) : Amounts (add binary64 a b) (rounded (v + w)) := by
  cases ha with
  | zero =>
      rw [zero_add, hb.rounded_eq]
      cases hb with
      | zero => exact .zero
      | finite hlt hlow hlong h => exact .finite hlt hlow hlong h
  | @finite m e hm _ hlt hlow hlong hv =>
      cases hb with
      | zero =>
          have ha : Amounts (.finite .positive m e hm) v := .finite hlt hlow hlong hv
          rw [add_zero, ha.rounded_eq]
          exact ha
      | @finite n f hn _ _ _ _ hw =>
          let low := min e f
          have hsum : 0 < m <<< (e - low).toNat + n <<< (f - low).toNat :=
            Nat.add_pos_left (Nat.shiftLeft_pos_iff.mpr hm) _
          have hleft := natCast_shiftLeft_mul m (e - low).toNat e
          have hright := natCast_shiftLeft_mul n (f - low).toNat f
          have hlow : e - (e - low).toNat = low ∧ f - (f - low).toNat = low := by omega
          rw [hlow.1] at hleft
          rw [hlow.2] at hright
          have hvalue : v + w =
              ((m <<< (e - low).toNat + n <<< (f - low).toNat : Nat) : ℚ) * 2 ^ low := by
            rw [hv, hw, Nat.cast_add, add_mul, hleft, hright]
          have hadd := amounts_round hsum low
          rw [hvalue]
          rw [← normalize_natCast hsum] at hadd
          exact hadd

theorem amounts_mul_finite {m p : Nat} {q : Int} (hm : 0 < m) (hp : 0 < p)
    (hlong : 2 ^ 52 ≤ m * p) :
    Amounts (mul binary64 (.finite .positive m e hm) (.finite .positive p q hp))
      (rounded ((m * p : Nat) * 2 ^ (e + q))) := by
  have hmp := Nat.mul_pos hm hp
  have hlog : 52 ≤ (m * p).log2 := (Nat.le_log2 (by omega)).mpr hlong
  refine amounts_roundWithAccuracy (mul_pos (by exact_mod_cast hmp) (two_zpow_pos _))
    (represents_exact (mul_div_cancel_right₀ _ (two_zpow_pos _).ne')) ?_
  rw [place_natCast_mul hmp]
  omega

theorem amounts_mul {p : Nat} {q : Int} (hp : 0 < p) (ha : Amounts a v) (hlong : 2 ^ 52 ≤ p) :
    Amounts (mul binary64 a (.finite .positive p q hp)) (rounded (v * (p * 2 ^ q))) := by
  cases ha with
  | zero =>
      rw [zero_mul, rounded_zero]
      exact .zero
  | @finite m e hm _ _ _ _ hv =>
      have hvalue : v * (p * 2 ^ q) = ((m * p : Nat) : ℚ) * 2 ^ (e + q) := by
        rw [hv, zpow_add₀ (by norm_num)]
        push_cast
        ring
      rw [hvalue]
      exact amounts_mul_finite hm hp (hlong.trans (Nat.le_mul_of_pos_left p hm))

theorem represents_div (hn : 0 < n) (m : Nat) :
    Represents (.ofMantissaAndAccuracy (m / n) (accuracyOfFraction (m % n) n)) (m / n : ℚ) := by
  have hpos : (0 : ℚ) < n := by exact_mod_cast hn
  have hquotient : (m : ℚ) / n = (m / n : Nat) + (m % n : Nat) / n := by
    have hm : (m : ℚ) = n * (m / n : Nat) + (m % n : Nat) := by
      exact_mod_cast (Nat.div_add_mod m n).symm
    rw [div_eq_iff hpos.ne', add_mul, div_mul_cancel₀ _ hpos.ne', mul_comm _ (n : ℚ)]
    exact hm
  have hrest : ((m % n : Nat) : ℚ) / n < 1 := by
    rw [div_lt_one hpos]
    exact_mod_cast Nat.mod_lt m hn
  rw [accuracyOfFraction]
  split
  · next hzero =>
      rw [hzero, Nat.cast_zero, zero_div, add_zero] at hquotient
      exact represents_exact hquotient
  · next hsome =>
      have hsome : (0 : ℚ) < (m % n : Nat) / n :=
        div_pos (by exact_mod_cast Nat.pos_of_ne_zero hsome) hpos
      rcases lt_trichotomy (2 * (m % n)) n with hless | hhalf | hmore
      · have hcompare : compare (2 * (m % n)) n = .lt := Nat.compare_eq_lt.mpr hless
        have hhalf : ((m % n : Nat) : ℚ) / n < 1 / 2 := by
          rw [div_lt_iff₀ hpos]
          have : (2 : ℚ) * (m % n : Nat) < n := by exact_mod_cast hless
          linarith
        rw [hcompare]
        exact .below (by linarith) (by linarith)
      · have hcompare : compare (2 * (m % n)) n = .eq := Nat.compare_eq_eq.mpr hhalf
        have hhalf : ((m % n : Nat) : ℚ) / n = 1 / 2 := by
          rw [div_eq_iff hpos.ne']
          have : (2 : ℚ) * (m % n : Nat) = n := by exact_mod_cast hhalf
          linarith
        rw [hcompare]
        exact .half (by linarith)
      · have hcompare : compare (2 * (m % n)) n = .gt := Nat.compare_eq_gt.mpr hmore
        have hhalf : 1 / 2 < ((m % n : Nat) : ℚ) / n := by
          rw [lt_div_iff₀ hpos]
          have : (n : ℚ) < 2 * (m % n : Nat) := by exact_mod_cast hmore
          linarith
        rw [hcompare]
        exact .above (by linarith) (by linarith)

theorem log_div_ge (hm : 0 < m) (hn : 0 < n) (e f : Int) :
    (m.log2 : Int) - n.log2 - 1 + (e - f) ≤ Int.log 2 (m * 2 ^ e / (n * 2 ^ f) : ℚ) := by
  have hm0 : (0 : ℚ) < m * 2 ^ e := mul_pos (by exact_mod_cast hm) (two_zpow_pos e)
  have hn0 : (0 : ℚ) < n * 2 ^ f := mul_pos (by exact_mod_cast hn) (two_zpow_pos f)
  obtain ⟨hlow, -⟩ := natCast_log2_bounds hm e
  obtain ⟨-, hhigh⟩ := natCast_log2_bounds hn f
  have hdivisor : (n * 2 ^ f : ℚ) ≤ 2 ^ ((n.log2 : Int) + f + 1) := by
    have := two_zpow_pos f
    linarith
  refine (Int.zpow_le_iff_le_log (by decide) (div_pos hm0 hn0)).mp ?_
  rw [le_div_iff₀ hn0]
  calc (2 : ℚ) ^ ((m.log2 : Int) - n.log2 - 1 + (e - f)) * (n * 2 ^ f)
      ≤ 2 ^ ((m.log2 : Int) - n.log2 - 1 + (e - f)) * 2 ^ ((n.log2 : Int) + f + 1) :=
        mul_le_mul_of_nonneg_left hdivisor (two_zpow_pos _).le
    _ = 2 ^ ((m.log2 : Int) + e) := by
        rw [← zpow_add₀ (by norm_num)]
        congr 1
        ring
    _ ≤ m * 2 ^ e := hlow

theorem div_eq_shiftLeft_div (hn : 0 < n) (m k : Nat) (e f : Int) :
    (m * 2 ^ e / (n * 2 ^ f) : ℚ) / 2 ^ (e - f - k) = ((m <<< k : Nat) : ℚ) / n := by
  have hshifted := natCast_shiftLeft_mul m k (e - f)
  have hn0 : (n : ℚ) ≠ 0 := by exact_mod_cast hn.ne'
  have hf := (two_zpow_pos f).ne'
  have htarget := (two_zpow_pos (e - f - k)).ne'
  rw [zpow_sub₀ (by norm_num) e, ← mul_div_assoc, eq_div_iff hf] at hshifted
  rw [div_div, div_eq_div_iff (by positivity) hn0]
  linear_combination (-(n : ℚ)) * hshifted

theorem amounts_div (ha : Amounts a v) (hb : Amounts b w) (hw : 0 < w) :
    Amounts (div binary64 a b) (rounded (v / w)) := by
  cases hb with
  | zero => exact absurd hw (lt_irrefl 0)
  | @finite n f hn _ _ _ _ hw' =>
      cases ha with
      | zero =>
          rw [zero_div, rounded_zero]
          exact .zero
      | @finite m e hm _ hlt hlow hlong hv =>
          let first := binary64.targetExponent (totalExponent m e - totalExponent n f)
          let target := min (e - f) first
          let k := (e - f - target).toNat
          have hquotient : v / w / 2 ^ target = ((m <<< k : Nat) : ℚ) / n := by
            have hk : e - f - (k : Int) = target := by omega
            rw [hv, hw', ← div_eq_shiftLeft_div hn m k e f, hk]
          have htarget : target ≤ place (v / w) := by
            have hlog := log_div_ge hm hn e f
            have hfirst : first = max (totalExponent m e - totalExponent n f - 53) (-1074) := rfl
            rw [← hv, ← hw'] at hlog
            simp only [place, target, hfirst, totalExponent]
            omega
          have hpos : 0 < v := by
            rw [hv]
            exact mul_pos (by exact_mod_cast hm) (two_zpow_pos e)
          have hrepresents := represents_div hn (m <<< k)
          rw [← hquotient] at hrepresents
          exact amounts_roundWithAccuracy (div_pos hpos hw) hrepresents htarget

end Symbology.Double
