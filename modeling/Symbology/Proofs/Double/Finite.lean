import Mathlib
import Symbology.Json.Number

/-!
Doubles that stay finite. What decides is the place of the leading bit: an operation moves it by a
known amount, and a number is packed as infinity only when that place is too high.
-/

namespace Symbology.Double

open Float.Model (UnpackedFloat totalExponent)
open Float.Model.UnpackedFloat
open Float.Model.Format (binary64)

variable {i j k : Int} {u v : UnpackedFloat}

/-- A real number with its leading bit at place `k` or below. -/
inductive Within (k : Int) : UnpackedFloat → Prop where
  | zero (s : Sign) : Within k (.zero s)
  | finite {s : Sign} {m : Nat} {e : Int} {hm : 0 < m} (h : totalExponent m e ≤ k) :
      Within k (.finite s m e hm)

/-- A real number other than zero, with its leading bit at place `k` or above. -/
inductive Beyond (k : Int) : UnpackedFloat → Prop where
  | finite {s : Sign} {m : Nat} {e : Int} {hm : 0 < m} (h : k ≤ totalExponent m e) :
      Beyond k (.finite s m e hm)

inductive Fits : UnpackedFloat → Prop where
  | zero (s : Sign) : Fits (.zero s)
  | finite {s : Sign} {m : Nat} {e : Int} {hm : 0 < m} (h : e ≤ 971) : Fits (.finite s m e hm)

instance : Decidable (Within k u) :=
  match u with
  | .zero s => .isTrue (.zero s)
  | .finite _ m e _ =>
      if h : totalExponent m e ≤ k then .isTrue (.finite h)
      else .isFalse fun | .finite h' => h h'
  | .infinity _ | .notANumber => .isFalse nofun

instance : Decidable (Beyond k u) :=
  match u with
  | .finite _ m e _ =>
      if h : k ≤ totalExponent m e then .isTrue (.finite h)
      else .isFalse fun | .finite h' => h h'
  | .zero _ | .infinity _ | .notANumber => .isFalse nofun

theorem Within.mono (h : Within j u) (hjk : j ≤ k) : Within k u := by
  cases h with
  | zero s => exact .zero s
  | finite h => exact .finite (Int.le_trans h hjk)

theorem Within.fits (h : Within k u) (hk : k ≤ 972) : Fits u := by
  cases h with
  | zero s => exact .zero s
  | finite h =>
      simp only [totalExponent] at h
      exact .finite (by omega)

theorem Fits.neg (h : Fits u) : Fits u.neg := by
  cases h with
  | zero s => exact .zero _
  | finite h => exact .finite h

theorem Fits.isNaN (h : Fits u) : u.isNaN = false := by
  cases h <;> rfl

theorem Fits.isInf (h : Fits u) : u.isInf = false := by
  cases h <;> rfl

theorem Within.isFinite (h : Within k u) : u.isFinite = true := by
  cases h <;> rfl

theorem mantissa_shiftRight (em : ExtendedMantissa) (n : Nat) :
    (em >>> n).mantissa = em.mantissa / 2 ^ n := by
  change (n.repeat ExtendedMantissa.shiftRightOne em).mantissa = _
  induction n with
  | zero => simp [Nat.repeat]
  | succ n ih =>
      rw [Nat.repeat, ExtendedMantissa.shiftRightOne, ih, Nat.pow_succ, Nat.div_div_eq_div_mul]

theorem mantissa_ofMantissaAndAccuracy (m : Nat) (acc : Accuracy) :
    (ExtendedMantissa.ofMantissaAndAccuracy m acc).mantissa = m := by
  cases acc with
  | exact => rfl
  | inexact o => cases o <;> rfl

theorem roundedMantissa_le (em : ExtendedMantissa) : em.roundedMantissa ≤ em.mantissa + 1 := by
  obtain ⟨m, r, s⟩ := em
  have hm : m % 2 < 2 := Nat.mod_lt m (by decide)
  cases r <;> cases s <;>
    simp only [ExtendedMantissa.roundedMantissa, ExtendedMantissa.accuracy,
      Accuracy.roundToNearestEven] <;> omega

theorem log2_mono {m n : Nat} (h : m ≤ n) : m.log2 ≤ n.log2 := by
  rcases Nat.eq_zero_or_pos m with rfl | hm
  · simp [Nat.log2_zero]
  · exact (Nat.le_log2 (by omega)).mpr (Nat.le_trans (Nat.log2_self_le (by omega)) h)

theorem totalExponent_div {m n : Nat} {e : Int} (h : m / 2 ^ n ≠ 0) :
    totalExponent (m / 2 ^ n) (e + n) ≤ totalExponent m e := by
  have hlow : 2 ^ (m / 2 ^ n).log2 * 2 ^ n ≤ m :=
    (Nat.le_div_iff_mul_le (Nat.two_pow_pos n)).mp (Nat.log2_self_le h)
  have hm : m ≠ 0 := by
    rintro rfl
    simp at h
  have hlog : (m / 2 ^ n).log2 + n ≤ m.log2 :=
    (Nat.le_log2 hm).mpr (by rwa [Nat.pow_add])
  simp only [totalExponent]
  omega

theorem within_roundWithAccuracy {s : Sign} {m : Nat} {e : Int} {acc : Accuracy}
    (h : totalExponent m e < k) (hk : -1073 ≤ k) :
    Within k (roundWithAccuracy binary64 s m e acc) := by
  let n := (binary64.targetExponent (totalExponent m e) - e).toNat
  let r := (ExtendedMantissa.ofMantissaAndAccuracy m acc >>> n).roundedMantissa
  have hr : r ≤ m / 2 ^ n + 1 := by
    have := roundedMantissa_le (ExtendedMantissa.ofMantissaAndAccuracy m acc >>> n)
    rwa [mantissa_shiftRight, mantissa_ofMantissaAndAccuracy] at this
  have hfirst : r ≠ 0 → totalExponent r (e + n) ≤ k := by
    intro hr0
    by_cases hq : m / 2 ^ n = 0
    · have hr1 : r = 1 := by omega
      have hn : e + n ≤ max e (binary64.targetExponent (totalExponent m e)) := by omega
      have htarget : binary64.targetExponent (totalExponent m e) =
          max (totalExponent m e - 53) (-1074) := rfl
      have he : e < totalExponent m e := by
        simp only [totalExponent]
        omega
      have hlog : r.log2 = 0 := by
        rw [hr1]
        rfl
      simp only [totalExponent] at *
      omega
    · have hlog : r.log2 ≤ (m / 2 ^ n).log2 + 1 := by
        rw [← Nat.log2_two_mul hq]
        exact log2_mono (by omega)
      have := totalExponent_div (e := e) hq
      simp only [totalExponent] at *
      omega
  simp only [roundWithAccuracy, shiftToTargetExponent, shiftToExponent, mantissa_shiftRight,
    mantissa_ofMantissaAndAccuracy]
  split
  · exact .zero s
  · next hq =>
      have hr0 : r ≠ 0 := by
        intro h0
        have hrounded : (ExtendedMantissa.ofMantissaAndAccuracy m acc >>> n).roundedMantissa = 0 := h0
        rw [hrounded, Nat.zero_div] at hq
        exact hq rfl
      exact .finite (Int.le_trans (totalExponent_div hq) (hfirst hr0))

theorem sticky_succ (m n : Nat) :
    (m / 2 ^ n % 2 != 0 || m % 2 ^ n != 0) = (m % 2 ^ (n + 1) != 0) := by
  have hpos := Nat.two_pow_pos n
  rw [Nat.mod_pow_succ, Bool.eq_iff_iff]
  simp only [Bool.or_eq_true, bne_iff_ne, ne_eq, Nat.add_eq_zero_iff, Nat.mul_eq_zero]
  omega

theorem shiftRight_exact (m n : Nat) :
    ExtendedMantissa.ofMantissaAndAccuracy m .exact >>> n =
      ⟨m / 2 ^ n, n ≠ 0 && m / 2 ^ (n - 1) % 2 != 0, m % 2 ^ (n - 1) != 0⟩ := by
  change n.repeat ExtendedMantissa.shiftRightOne _ = _
  induction n with
  | zero => simp [Nat.repeat, ExtendedMantissa.ofMantissaAndAccuracy, Nat.mod_one]
  | succ n ih =>
      rw [Nat.repeat, ExtendedMantissa.shiftRightOne, ih]
      cases n with
      | zero => simp [Nat.mod_one]
      | succ n =>
          have hmantissa : m / 2 ^ (n + 1) / 2 = m / 2 ^ (n + 2) := by
            rw [Nat.div_div_eq_div_mul, ← Nat.pow_succ]
          simp [hmantissa, ← sticky_succ m n]

def roundExact (s : Sign) (m : Nat) (e : Int) : UnpackedFloat :=
  let n := (binary64.targetExponent (totalExponent m e) - e).toNat
  let r := ExtendedMantissa.roundedMantissa
    ⟨m / 2 ^ n, n ≠ 0 && m / 2 ^ (n - 1) % 2 != 0, m % 2 ^ (n - 1) != 0⟩
  let e := e + n
  let n := (binary64.targetExponent (totalExponent r e) - e).toNat
  if h : r / 2 ^ n = 0 then .zero s else .finite s (r / 2 ^ n) (e + n) (Nat.pos_of_ne_zero h)

theorem roundWithAccuracy_exact (s : Sign) (m : Nat) (e : Int) :
    roundWithAccuracy binary64 s m e .exact = roundExact s m e := by
  simp only [roundWithAccuracy, shiftToTargetExponent, shiftToExponent, shiftRight_exact,
    roundExact]

theorem within_unpack {b : BitVec binary64.numBits} (h : (unpackExponent b).toNat ≠ 2047) :
    Within ((unpackExponent b).toNat - 1022) (unpack binary64 b) := by
  have htop : unpackExponent b ≠ -1#11 := by
    intro htop
    exact h (by rw [htop]; rfl)
  have hfraction : (unpackMantissa b).toNat < 2 ^ 52 := (unpackMantissa b).isLt
  simp only [unpack, htop, if_false]
  split
  · next hzero =>
      split
      · exact .zero _
      · next hm =>
          have hm0 : (unpackMantissa b).toNat ≠ 0 := fun h0 => hm (BitVec.eq_of_toNat_eq h0)
          have hlog := (Nat.log2_lt hm0).mpr hfraction
          refine .finite ?_
          simp only [totalExponent, hzero, BitVec.toNat_zero]
          change ((unpackMantissa b).toNat.log2 : Int) + 1 + (((0 : Nat) : Int) - 1075 + 1) ≤ _
          omega
  · have hm0 : 0 < (1#1 ++ unpackMantissa b).toNat := by
      rw [BitVec.toNat_append]
      exact Nat.lt_of_lt_of_le (by decide) Nat.left_le_or
    have hlog : (1#1 ++ unpackMantissa b).toNat.log2 < 53 :=
      (Nat.log2_lt (Nat.pos_iff_ne_zero.mp hm0)).mpr (1#1 ++ unpackMantissa b).isLt
    refine .finite ?_
    simp only [totalExponent]
    change ((1#1 ++ unpackMantissa b).toNat.log2 : Int) + 1 +
      ((unpackExponent b).toNat - 1075) ≤ _
    omega

theorem fits_unpack {b : BitVec binary64.numBits} (h : (unpack binary64 b).isFinite = true) :
    Fits (unpack binary64 b) := by
  have hexponent : (unpackExponent b).toNat < 2048 := (unpackExponent b).isLt
  simp only [unpack] at h ⊢
  split at h
  · split at h <;> cases h
  · next htop =>
      have htop' : (unpackExponent b).toNat ≠ 2047 := fun he => htop (BitVec.eq_of_toNat_eq he)
      simp only [htop, if_false]
      split
      · next hzero =>
          split
          · exact .zero _
          · refine .finite ?_
            simp only [hzero, BitVec.toNat_zero]
            change ((0 : Nat) : Int) - 1075 + 1 ≤ 971
            omega
      · refine .finite ?_
        change ((unpackExponent b).toNat : Int) - 1075 ≤ 971
        omega

theorem unpackExponent_pack (h : Fits u) (hk : Within k u) :
    (unpackExponent (pack binary64 u)).toNat ≠ 2047 ∧
      ((unpackExponent (pack binary64 u)).toNat : Int) ≤ max 0 (k + 1022) := by
  cases h with
  | zero s =>
      simp only [pack, packedZero, unpackExponent_packComponents]
      change (0 : Nat) ≠ 2047 ∧ ((0 : Nat) : Int) ≤ _
      omega
  | @finite s m e hm h =>
      have hk : totalExponent m e ≤ k := by cases hk; assumption
      simp only [totalExponent] at hk
      have hb : ¬ 2 ^ 11 ≤ (e + (1023 : Nat) + (52 : Nat)).toNat + 1 := by omega
      have hpack : pack binary64 (.finite s m e hm) =
          if m.log2 + 1 = 53 then
            packComponents binary64 s (BitVec.ofNat _ (e + (1023 : Nat) + (52 : Nat)).toNat)
              (BitVec.ofNat _ m)
          else packComponents binary64 s 0#_ (BitVec.ofNat _ m) := if_neg hb
      rw [hpack]
      by_cases hbits : m.log2 + 1 = 53
      · rw [if_pos hbits, unpackExponent_packComponents, BitVec.toNat_ofNat,
          Nat.mod_eq_of_lt (by change _ < 2048; omega)]
        omega
      · rw [if_neg hbits, unpackExponent_packComponents]
        change (0 : Nat) ≠ 2047 ∧ ((0 : Nat) : Int) ≤ _
        omega

theorem within_unpack_pack (h : Within k u) (hlow : -1022 ≤ k) (hhigh : k ≤ 972) :
    Within k (unpack binary64 (pack binary64 u)) := by
  obtain ⟨htop, hle⟩ := unpackExponent_pack (h.fits hhigh) h
  exact (within_unpack htop).mono (by omega)

theorem isFinite_unpack_pack (h : Fits u) :
    (unpack binary64 (pack binary64 u)).isFinite = true := by
  have ⟨k, hk⟩ : ∃ k, Within k u := by
    cases h with
    | zero s => exact ⟨0, .zero s⟩
    | finite h => exact ⟨_, .finite (Int.le_refl _)⟩
  exact (within_unpack (unpackExponent_pack h hk).1).isFinite

theorem isFinite_or_isInf_unpack_pack (h : Within k u) :
    (unpack binary64 (pack binary64 u)).isFinite = true ∨
      (unpack binary64 (pack binary64 u)).isInf = true := by
  cases h with
  | zero s => exact .inl (isFinite_unpack_pack (.zero s))
  | @finite s m e hm h =>
      by_cases he : e ≤ 971
      · exact .inl (isFinite_unpack_pack (.finite he))
      · have hb : 2 ^ 11 ≤ (e + (1023 : Nat) + (52 : Nat)).toNat + 1 := by omega
        have hpack : pack binary64 (.finite s m e hm) = packedInfinity binary64 s := if_pos hb
        right
        rw [hpack, unpack, packedInfinity]
        simp only [unpackExponent_packComponents, unpackMantissa_packComponents, if_true]
        rfl

theorem totalExponent_mul {m₁ m₂ : Nat} (e₁ e₂ : Int) (h₁ : 0 < m₁) (h₂ : 0 < m₂) :
    totalExponent (m₁ * m₂) (e₁ + e₂) ≤ totalExponent m₁ e₁ + totalExponent m₂ e₂ := by
  have hlt : m₁ * m₂ < 2 ^ ((m₁.log2 + 1) + (m₂.log2 + 1)) := by
    rw [Nat.pow_add]
    exact Nat.mul_lt_mul'' Nat.lt_log2_self Nat.lt_log2_self
  have hlog := (Nat.log2_lt (Nat.pos_iff_ne_zero.mp (Nat.mul_pos h₁ h₂))).mpr hlt
  simp only [totalExponent]
  omega

theorem within_mul (hu : Within j u) (hv : Within k v) (h : -1074 ≤ j + k) :
    Within (j + k + 1) (mul binary64 u v) := by
  cases hu with
  | zero s => cases hv <;> exact .zero _
  | @finite s m e hm hu =>
      cases hv with
      | zero t => exact .zero _
      | @finite t n f hn hv =>
          have := totalExponent_mul e f hm hn
          exact within_roundWithAccuracy (by omega) (by omega)

theorem log2_div_le {m n : Nat} (hm : 0 < m / n) (hn : 0 < n) : (m / n).log2 + n.log2 ≤ m.log2 := by
  have hlow : 2 ^ (m / n).log2 * 2 ^ n.log2 ≤ m :=
    calc 2 ^ (m / n).log2 * 2 ^ n.log2
        ≤ m / n * n := Nat.mul_le_mul (Nat.log2_self_le (by omega)) (Nat.log2_self_le (by omega))
      _ ≤ m := Nat.div_mul_le_self m n
  have hm0 : m ≠ 0 := by
    rintro rfl
    simp at hm
  exact (Nat.le_log2 hm0).mpr (by rwa [Nat.pow_add])

theorem log2_shiftLeft {m n : Nat} (h : 0 < m) : (m <<< n).log2 = m.log2 + n := by
  induction n with
  | zero => rfl
  | succ n ih =>
      have hpos : m <<< n ≠ 0 := Nat.pos_iff_ne_zero.mp (Nat.shiftLeft_pos_iff.mpr h)
      rw [Nat.shiftLeft_succ, Nat.log2_two_mul hpos, ih, Nat.add_assoc]

theorem within_div (hu : Within j u) (hv : Beyond i v) (h : j - i + 1 < k) (hk : -1072 ≤ k) :
    Within k (div binary64 u v) := by
  obtain @⟨t, n, f, hn, hv⟩ := hv
  cases hu with
  | zero s => exact .zero _
  | @finite s m e hm hu =>
      let target := min (e - f) (binary64.targetExponent (totalExponent m e - totalExponent n f))
      have hle : target ≤ e - f := Int.min_le_left _ _
      have htarget : target ≤ max (totalExponent m e - totalExponent n f - 53) (-1074) :=
        Int.min_le_right _ _
      have hexponent : totalExponent (m <<< (e - f - target).toNat / n) target < k := by
        by_cases hq : m <<< (e - f - target).toNat / n = 0
        · have hlog : (m <<< (e - f - target).toNat / n).log2 = 0 := by
            rw [hq]
            rfl
          simp only [totalExponent] at *
          omega
        · have hlog := log2_div_le (Nat.pos_of_ne_zero hq) hn
          rw [log2_shiftLeft hm] at hlog
          simp only [totalExponent] at *
          omega
      exact within_roundWithAccuracy hexponent (by omega)

theorem within_round {s : Sign} {m : Nat} {e : Int} (hm : 0 < m) (h : totalExponent m e < k)
    (hk : -1073 ≤ k) : Within k (round binary64 s m e) := by
  refine within_roundWithAccuracy ?_ hk
  simp only [totalExponent] at *
  rw [log2_shiftLeft hm]
  omega

theorem within_ofNat {n : Nat} (h : n < 2 ^ 64) : Within 65 (ofNat binary64 n) := by
  rcases Nat.eq_zero_or_pos n with rfl | hn
  · exact .zero _
  · have hlog : n.log2 < 64 := (Nat.log2_lt (by omega)).mpr h
    have hcompare : compare (n : Int) 0 = .gt := Int.compare_eq_gt.mpr (by omega)
    simp only [ofNat, ofInt, UnpackedFloat.normalize, hcompare, Int.toNat_natCast]
    exact within_round hn (by simp only [totalExponent]; omega) (by omega)

theorem ofScientific_eq_mul {n : Nat} (hn : 0 < n) :
    ofScientific binary64 n 0 =
      mul binary64 (.finite .positive (n <<< 53) (-53) (Nat.shiftLeft_pos_iff.mpr hn))
        (.finite .positive 1 0 (by decide)) := by
  have hlow : ¬ (0 : Int) < -(2 ^ 11 + (n.log2 : Int)) := by omega
  rw [ofScientific, dif_neg (by omega), if_neg (by decide), if_neg hlow, if_pos (by decide)]
  rfl

theorem finite_of_within {x : Float} (h : Within k x.toModel.unpack) : x.isFinite = true :=
  h.isFinite

theorem isNaN_of_finite {x : Float} (h : x.isFinite = true) : x.isNaN = false :=
  (fits_unpack h).isNaN

theorem isInf_of_finite {x : Float} (h : x.isFinite = true) : x.isInf = false :=
  (fits_unpack h).isInf

theorem finite_neg {x : Float} (h : x.isFinite = true) : (-x).isFinite = true := by
  have hfits : Fits x.toModel.unpack := fits_unpack h
  exact isFinite_unpack_pack hfits.neg

theorem within_float_mul {x y : Float} (hx : Within j x.toModel.unpack)
    (hy : Within k y.toModel.unpack) (hlow : -1023 ≤ j + k) (hhigh : j + k ≤ 971) :
    Within (j + k + 1) (x * y).toModel.unpack :=
  within_unpack_pack (within_mul hx hy (by omega)) (by omega) (by omega)

theorem finite_or_inf_mul {x y : Float} (hx : Within j x.toModel.unpack)
    (hy : Within k y.toModel.unpack) (h : -1074 ≤ j + k) :
    (x * y).isFinite = true ∨ (x * y).isInf = true :=
  isFinite_or_isInf_unpack_pack (within_mul hx hy h)

theorem within_float_div {x y : Float} (hx : Within j x.toModel.unpack)
    (hy : Beyond i y.toModel.unpack) (h : j - i + 1 < k) (hlow : -1022 ≤ k) (hhigh : k ≤ 972) :
    Within k (x / y).toModel.unpack :=
  within_unpack_pack (within_div hx hy h (by omega)) hlow hhigh

theorem ofNat_eq_mul_one {n : Nat} (h : n < 2 ^ 53) :
    Float.ofNat n = n.toUInt64.toFloat * Float.ofBits 0x3FF0000000000000 := by
  have hsmall : n < 9007199254740992 := h
  simp [Float.ofNat, OfScientific.ofScientific, Float.ofScientific, hsmall,
    Float.exactlyRepresentablePowersOfTen]

theorem ofNat_eq_ofScientific {n : Nat} (h : 2 ^ 53 ≤ n) :
    Float.ofNat n = .ofModel (Float.Model.ofScientific n 0) := by
  have hlarge : ¬ n < 9007199254740992 := not_lt.mpr h
  simp [Float.ofNat, OfScientific.ofScientific, Float.ofScientific, hlarge]

theorem within_float_ofNat {n : Nat} (h : n < 2 ^ 64) :
    Within 67 (Float.ofNat n).toModel.unpack := by
  rcases Nat.lt_or_ge n (2 ^ 53) with hsmall | hlarge
  · have hn : Within 65 n.toUInt64.toFloat.toModel.unpack :=
      within_unpack_pack (within_ofNat n.toUInt64.toNat_lt) (by decide) (by decide)
    have hone : Within 1 (Float.ofBits 0x3FF0000000000000).toModel.unpack := by decide
    rw [ofNat_eq_mul_one hsmall]
    exact within_float_mul hn hone (by decide) (by decide)
  · have hn : 0 < n := by omega
    have hlog : n.log2 < 64 := (Nat.log2_lt (by omega)).mpr h
    have hshifted :
        Within 64 (.finite .positive (n <<< 53) (-53) (Nat.shiftLeft_pos_iff.mpr hn)) := by
      refine .finite ?_
      simp only [totalExponent, log2_shiftLeft hn]
      omega
    have hone : Within 2 (.finite .positive 1 0 (by decide)) := .finite (by decide)
    have hproduct := within_mul hshifted hone (by decide)
    rw [← ofScientific_eq_mul hn] at hproduct
    rw [ofNat_eq_ofScientific hlarge]
    exact within_unpack_pack hproduct (by decide) (by decide)

end Symbology.Double

namespace Symbology.Json.Literal

open Double
open Float.Model (UnpackedFloat)
open Float.Model.UnpackedFloat
open Float.Model.Format (binary64)

def roundedPower (n : Nat) : UnpackedFloat :=
  unpack binary64 (pack binary64 (roundExact .positive (2 ^ 53 * 10 ^ n) (-53)))

theorem unpack_power {n : Nat} (h : 22 < n) (h' : n < 309) :
    (power n).toModel.unpack = roundedPower n := by
  have hslow : power n = .ofModel (Float.Model.ofScientific 1 n) := by
    simp [power, Float.ofScientific, show ¬ n ≤ 22 by omega]
  have hproduct : ofScientific binary64 1 n = roundExact .positive (2 ^ 53 * 10 ^ n) (-53) := by
    have hhigh : ¬ (n : Int) > 2 ^ 11 := by omega
    have hlow : ¬ (n : Int) < -(2 ^ 11 + (Nat.log2 1 : Int)) := by omega
    rw [← roundWithAccuracy_exact, ofScientific, dif_neg (by decide), if_neg hhigh, if_neg hlow,
      if_pos (by omega)]
    rfl
  rw [hslow, roundedPower, ← hproduct]
  rfl

theorem exact_power_range : ∀ n < 23,
    Within 1024 (power n).toModel.unpack ∧ Beyond 1 (power n).toModel.unpack := by
  decide +kernel

theorem roundedPower_range : ∀ n < 309, 22 < n →
    Within 1024 (roundedPower n) ∧ Beyond 1 (roundedPower n) := by
  decide +kernel

theorem power_range {n : Nat} (h : n < 309) :
    Within 1024 (power n).toModel.unpack ∧ Beyond 1 (power n).toModel.unpack := by
  by_cases hn : n < 23
  · exact exact_power_range n hn
  · rw [unpack_power (by omega) h]
    exact roundedPower_range n h (by omega)

theorem beyond_power_last : Beyond 1024 (power 308).toModel.unpack := by
  decide +kernel

theorem finite_scaleDown {x : Float} (h : Within 67 x.toModel.unpack) (n : Nat) :
    (scaleDown x n).isFinite = true := by
  fun_induction scaleDown x n with
  | case1 x n hn =>
      have hpower := (power_range (n := n) (by omega)).2
      exact finite_of_within (k := 68)
        (within_float_div h hpower (by decide) (by decide) (by decide))
  | case2 x n hn hzero => exact finite_of_within h
  | case3 x n hn hzero ih =>
      exact ih (within_float_div h beyond_power_last (by decide) (by decide) (by decide))

theorem finite_scaleUp? {x y : Float} (h : Within 67 x.toModel.unpack) {n : Nat}
    (hy : scaleUp? x n = some y) : y.isFinite = true := by
  unfold scaleUp? at hy
  split at hy
  · next hn =>
      have hfinite := finite_or_inf_mul h (power_range (n := n) (by omega)).1 (by decide)
      simp only at hy
      split at hy
      · cases hy
      · next hinf =>
          cases hy
          exact hfinite.resolve_right hinf
  · split at hy
    · cases hy
      exact finite_of_within h
    · cases hy

theorem finite_scaled? {significand : Nat} {exponent : Int} {x : Float}
    (h : significand < 2 ^ 64) (hx : scaled? significand exponent = some x) :
    x.isFinite = true := by
  unfold scaled? at hx
  split at hx
  · exact finite_scaleUp? (within_float_ofNat h) hx
  · cases hx
    exact finite_scaleDown (within_float_ofNat h) _

end Symbology.Json.Literal
