import Symbology.Proofs.Double.Ordered
import Symbology.Proofs.Double.Worth

namespace Symbology.Double

open Float.Model (UnpackedFloat)
open Float.Model.UnpackedFloat
open Float.Model.Format (binary64)

variable {x y : Float} {v : ℚ} {m n : Int}

theorem unpack_pack_mantissa (hx : x.isFinite = true) (s : Sign) (hm : 0 < mantissa x) :
    unpack binary64
        (pack binary64 (.finite s (mantissa x) ((biasedExponent x - 1 : Nat) - 1074) hm)) =
      .finite s (mantissa x) ((biasedExponent x - 1 : Nat) - 1074) hm := by
  have htop := isFinite_iff.mp hx
  have hbiased : biasedExponent x < 1 <<< 11 := Nat.mod_lt _ (by decide)
  refine unpack_pack_finite (mantissa_lt x) (by omega) ?_ (by omega)
  by_cases hzero : biasedExponent x = 0
  · left
    omega
  · exact .inr (mantissa_ge hzero)

theorem unpack_neg (hx : x.isFinite = true) : (-x).toModel.unpack = x.toModel.unpack.neg := by
  change unpack binary64 (pack binary64 x.toModel.unpack.neg) = _
  rcases unpack_of_finite (isFinite_iff.mp hx) with ⟨-, hunpack⟩ | ⟨hm, hunpack⟩
  · rw [hunpack]
    cases signOf x <;> rfl
  · rw [hunpack]
    exact unpack_pack_mantissa hx _ hm

theorem signBit_eq_not (h : signOf x = -signOf y) : signBit x = !signBit y := by
  cases hx : signBit x <;> cases hy : signBit y
  case false.true | true.false => rfl
  case false.false | true.true =>
    rw [signOf, signOf, hx, hy] at h
    cases h

theorem level_neg (hx : x.isFinite = true) : level (-x) = -level x := by
  have hneg := unpack_neg hx
  rcases unpack_of_finite (isFinite_iff.mp hx) with ⟨hzero, hunpack⟩ | ⟨hm, hunpack⟩
  · rcases unpack_of_finite (isFinite_iff.mp (finite_neg hx)) with ⟨hzero', -⟩ | ⟨hm', hunpack'⟩
    · simp [level, units, hzero, hzero']
    · rw [hunpack, hunpack'] at hneg
      cases hneg
  · rcases unpack_of_finite (isFinite_iff.mp (finite_neg hx)) with ⟨-, hunpack'⟩ | ⟨hm', hunpack'⟩
    · rw [hunpack, hunpack'] at hneg
      cases hneg
    · rw [hunpack, hunpack', UnpackedFloat.neg, UnpackedFloat.finite.injEq] at hneg
      obtain ⟨hsign, hmantissa, hexponent⟩ := hneg
      have hunits : units (-x) = units x := by
        rw [units_eq, units_eq, hmantissa]
        congr 2
        omega
      rw [level, level, signBit_eq_not hsign, hunits]
      cases signBit x <;> simp

theorem unpack_abs (hx : x.isFinite = true) : x.abs.toModel.unpack = x.toModel.unpack.abs := by
  change unpack binary64 (pack binary64 x.toModel.unpack.abs) = _
  rcases unpack_of_finite (isFinite_iff.mp hx) with ⟨-, hunpack⟩ | ⟨hm, hunpack⟩
  · rw [hunpack]
    change unpack binary64 (pack binary64 (.zero .positive)) = .zero .positive
    rfl
  · rw [hunpack]
    exact unpack_pack_mantissa hx _ hm

theorem abs_level (x : Float) : |(level x : ℚ)| = units x := by
  rw [level]
  split <;> simp

theorem isWorth_abs (hx : x.isFinite = true) : IsWorth x.abs (|(level x : ℚ)| / 2 ^ 1074) := by
  rw [IsWorth, unpack_abs hx, abs_level]
  exact amounts_units hx

theorem nearestNat_abs (bound : Nat) (x : Float) :
    nearestNat bound x.abs =
      if x.isNaN then 0
      else if x.isInf then bound
      else min bound ⌊|(level x : ℚ)| / 2 ^ 1074 + 1 / 2⌋₊ := by
  by_cases hfinite : x.isFinite = true
  · rw [nearestNat_eq (isWorth_abs hfinite), isNaN_of_finite hfinite, isInf_of_finite hfinite]
    rfl
  · have habs : x.abs = ⟨.pack x.toModel.unpack.abs⟩ := rfl
    have hnan : x.isNaN = x.toModel.unpack.isNaN := rfl
    have hinf : x.isInf = x.toModel.unpack.isInf := rfl
    change ¬ x.toModel.unpack.isFinite = true at hfinite
    rw [habs, hnan, hinf]
    cases hunpack : x.toModel.unpack with
    | notANumber => rfl
    | infinity s =>
        have hsign : signBit ⟨.pack (.infinity .positive)⟩ = false := by decide +kernel
        change nearestNat bound ⟨.pack (.infinity .positive)⟩ = bound
        rw [nearestNat, hsign]
        rfl
    | zero s => exact absurd (by rw [hunpack]; rfl) hfinite
    | finite s m e hm => exact absurd (by rw [hunpack]; rfl) hfinite

theorem amounts_ofNat (n : Nat) : Amounts (ofNat binary64 n) (rounded n) := by
  rcases Nat.eq_zero_or_pos n with rfl | hn
  · rw [Nat.cast_zero, rounded_zero]
    exact .zero
  · have hround := amounts_round hn 0
    rw [zpow_zero, mul_one] at hround
    rw [ofNat, ofInt, normalize_natCast hn]
    exact hround

theorem isWorth_ofNat {n : Nat} (h : n < 2 ^ 64) : IsWorth (Float.ofNat n) (rounded n) := by
  have hfinite := finite_of_within (within_float_ofNat h)
  rcases Nat.lt_or_ge n (2 ^ 53) with hsmall | hlarge
  · have hword : IsWorth n.toUInt64.toFloat (rounded n) := by
      have hn : n.toUInt64.toNat = n := Nat.mod_eq_of_lt h
      have hvalue : rounded n = rounded n.toUInt64.toNat := by rw [hn]
      rw [hvalue]
      exact amounts_packed (amounts_ofNat _) ((within_ofNat n.toUInt64.toNat_lt).fits (by decide))
    have hone : (2 ^ 52 : Nat) * (2 : ℚ) ^ (-52 : Int) = 1 := by norm_num
    have hproduct := amounts_mul (p := 2 ^ 52) (q := -52) (by decide) hword (Nat.le_refl _)
    rw [hone, mul_one, Amounts.rounded_eq hword] at hproduct
    rw [ofNat_eq_mul_one hsmall] at hfinite ⊢
    exact amounts_packed hproduct (hproduct.fits_of_isFinite hfinite)
  · have hn : 0 < n := by omega
    have hlong : 2 ^ 52 ≤ n <<< 53 * 1 := by
      rw [Nat.mul_one, Nat.shiftLeft_eq]
      omega
    have hproduct := amounts_mul_finite (e := -53) (q := 0) (Nat.shiftLeft_pos_iff.mpr hn)
      (by decide) hlong
    have hvalue : ((n <<< 53 * 1 : Nat) : ℚ) * 2 ^ (-53 + 0 : Int) = n := by
      rw [Nat.mul_one]
      exact (natCast_shiftLeft_mul n 53 0).trans (by rw [zpow_zero, mul_one])
    rw [hvalue, ← ofScientific_eq_mul hn] at hproduct
    rw [ofNat_eq_ofScientific hlarge] at hfinite ⊢
    exact amounts_packed hproduct (hproduct.fits_of_isFinite hfinite)

def nearest (n : Int) : ℚ :=
  n.sign * rounded n.natAbs

theorem nearest_natCast (n : Nat) : nearest n = rounded n := by
  rcases Nat.eq_zero_or_pos n with rfl | hn
  · simp [nearest, rounded_zero]
  · rw [nearest, Int.sign_natCast_of_ne_zero (by omega), Int.natAbs_natCast, Int.cast_one, one_mul]

theorem nearest_neg (n : Int) : nearest (-n) = -nearest n := by
  rw [nearest, nearest, Int.sign_neg, Int.natAbs_neg, Int.cast_neg, neg_mul]

theorem level_ofInt (h : n.natAbs < 2 ^ 64) :
    (Float.ofInt n).isFinite = true ∧ (level (Float.ofInt n) : ℚ) = nearest n * 2 ^ 1074 := by
  have hnat {k : Nat} (hk : k < 2 ^ 64) : (Float.ofNat k).isFinite = true ∧
      (level (Float.ofNat k) : ℚ) = nearest k * 2 ^ 1074 := by
    have hworth := isWorth_ofNat hk
    rw [level, hworth.signBit, nearest_natCast, hworth.eq_units]
    exact ⟨hworth.isFinite, by simp⟩
  cases n with
  | ofNat k => exact hnat h
  | negSucc k =>
      obtain ⟨hfinite, hlevel⟩ := hnat (k := k + 1) h
      have hneg : Float.ofInt (.negSucc k) = -Float.ofNat (k + 1) := rfl
      rw [hneg, level_neg hfinite, Int.cast_neg, hlevel, Int.negSucc_eq, nearest_neg, neg_mul]
      exact ⟨finite_neg hfinite, rfl⟩

theorem beq_ofInt_iff (hm : m.natAbs < 2 ^ 64) (hn : n.natAbs < 2 ^ 64) :
    (Float.ofInt m == Float.ofInt n) = true ↔ nearest m = nearest n := by
  obtain ⟨hmf, hml⟩ := level_ofInt hm
  obtain ⟨hnf, hnl⟩ := level_ofInt hn
  rw [beq_iff_level hmf hnf, ← Int.cast_inj (α := ℚ), hml, hnl]
  exact mul_left_inj' (by positivity)

theorem ofInt_lt_iff (hm : m.natAbs < 2 ^ 64) (hn : n.natAbs < 2 ^ 64) :
    Float.ofInt m < Float.ofInt n ↔ nearest m < nearest n := by
  obtain ⟨hmf, hml⟩ := level_ofInt hm
  obtain ⟨hnf, hnl⟩ := level_ofInt hn
  rw [lt_iff_level hmf hnf, ← Int.cast_lt (R := ℚ), hml, hnl]
  exact mul_lt_mul_iff_left₀ (by positivity)

theorem abs_roundEven_sub_le (hv : 0 ≤ v) : |roundEven v - v| ≤ 1 / 2 := by
  have hlow := Nat.floor_le hv
  have hhigh := Nat.lt_floor_add_one v
  rw [abs_le]
  simp only [roundEven]
  split_ifs with hbelow hhalf
  · constructor <;> linarith
  · have hv : v = ⌊v⌋₊ + 1 / 2 := le_antisymm hhalf (not_lt.mp hbelow)
    have hodd : ((⌊v⌋₊ % 2 : Nat) : ℚ) = 0 ∨ ((⌊v⌋₊ % 2 : Nat) : ℚ) = 1 := by
      rcases Nat.mod_two_eq_zero_or_one ⌊v⌋₊ with h | h <;> simp [h]
    rw [Nat.cast_add]
    rcases hodd with h | h <;> rw [h] <;> constructor <;> linarith
  · push_cast
    constructor <;> linarith

theorem abs_rounded_sub_le (hv : 1 ≤ v) : |rounded v - v| ≤ v / 2 ^ 53 := by
  have hpos := two_zpow_pos (place v)
  have hlog : 0 ≤ Int.log 2 v := by
    rw [← Int.zpow_le_iff_le_log (by decide) (by linarith), zpow_zero]
    exact hv
  have hplace : place v = Int.log 2 v - 52 := by
    rw [place]
    omega
  have hlast : (2 : ℚ) ^ place v * 2 ^ 52 ≤ v := by
    have hpower : (2 : ℚ) ^ place v * 2 ^ 52 = 2 ^ Int.log 2 v := by
      rw [hplace, zpow_sub₀ (by norm_num)]
      norm_num
    rw [hpower]
    exact Int.zpow_log_le_self (by decide) (by linarith)
  have hscaled : rounded v - v = (roundEven (v / 2 ^ place v) - v / 2 ^ place v) * 2 ^ place v := by
    rw [rounded, sub_mul, div_mul_cancel₀ _ hpos.ne']
  have hhalf := abs_roundEven_sub_le (div_nonneg (by linarith : (0 : ℚ) ≤ v) hpos.le)
  calc |rounded v - v|
      = |roundEven (v / 2 ^ place v) - v / 2 ^ place v| * 2 ^ place v := by
        rw [hscaled, abs_mul, abs_of_pos hpos]
    _ ≤ 1 / 2 * 2 ^ place v := mul_le_mul_of_nonneg_right hhalf hpos.le
    _ ≤ v / 2 ^ 53 := by
        rw [le_div_iff₀ (by positivity)]
        linarith

theorem rounded_natCast {n : Nat} (h : n ≤ 2 ^ 53) : rounded n = n := by
  rcases h.eq_or_lt with rfl | hlt
  · have hpower := rounded_power (k := 53) (by decide)
    exact_mod_cast hpower
  · rcases Nat.eq_zero_or_pos n with rfl | hn
    · exact_mod_cast rounded_zero
    have hpos := two_zpow_pos (place n)
    have hplace : place n ≤ 0 := by
      have hlog := place_natCast_mul hn 0
      have := (Nat.log2_lt (by omega)).mpr hlt
      rw [zpow_zero, mul_one] at hlog
      rw [hlog]
      omega
    -- every place up to the point keeps a whole number whole
    have hone := two_zpow_eq hplace
    rw [zpow_zero] at hone
    have hquotient : (n : ℚ) / 2 ^ place n = (n * 2 ^ (0 - place n).toNat : Nat) := by
      rw [div_eq_iff hpos.ne', Nat.cast_mul, mul_assoc, ← hone, mul_one]
    rw [rounded, hquotient, roundEven_natCast, ← hquotient, div_mul_cancel₀ _ hpos.ne']

theorem nearest_mono (h : m ≤ n) : nearest m ≤ nearest n := by
  have hnat {j k : Nat} (hjk : j ≤ k) : rounded j ≤ rounded k :=
    rounded_mono (Nat.cast_nonneg _) (by exact_mod_cast hjk)
  rcases le_total 0 m with hm | hm
  · lift m to Nat using hm
    lift n to Nat using by omega
    rw [nearest_natCast, nearest_natCast]
    exact hnat (by omega)
  · obtain ⟨j, rfl⟩ := Int.exists_eq_neg_ofNat hm
    rw [nearest_neg, nearest_natCast]
    rcases le_total 0 n with hn | hn
    · lift n to Nat using hn
      rw [nearest_natCast]
      linarith [rounded_nonneg j, rounded_nonneg n]
    · obtain ⟨k, rfl⟩ := Int.exists_eq_neg_ofNat hn
      rw [nearest_neg, nearest_natCast]
      exact neg_le_neg (hnat (by omega))

theorem nearest_eq_self (h : n.natAbs ≤ 2 ^ 53) : nearest n = n := by
  rw [nearest, rounded_natCast h, ← Int.cast_natCast, ← Int.cast_mul, Int.sign_mul_natAbs]

theorem abs_nearest_sub_le (n : Int) : |nearest n - n| ≤ n.natAbs / 2 ^ 53 := by
  have hnat (k : Nat) : |rounded k - k| ≤ k / 2 ^ 53 := by
    rcases Nat.eq_zero_or_pos k with rfl | hk
    · simp [rounded_zero]
    · exact abs_rounded_sub_le (by exact_mod_cast hk)
  rcases le_total 0 n with hn | hn
  · lift n to Nat using hn
    rw [nearest_natCast, Int.cast_natCast, Int.natAbs_natCast]
    exact hnat n
  · obtain ⟨k, rfl⟩ := Int.exists_eq_neg_ofNat hn
    rw [nearest_neg, nearest_natCast, Int.cast_neg, Int.cast_natCast, Int.natAbs_neg,
      Int.natAbs_natCast, ← neg_sub_neg, neg_neg, neg_neg, abs_sub_comm]
    exact hnat k

theorem nearest_lt_nearest (hmn : m < n) (h : m.natAbs < 2 ^ 53 ∨ n.natAbs < 2 ^ 53) :
    nearest m < nearest n := by
  have hfrom {m n : Int} (hmn : m < n) (hm : m.natAbs < 2 ^ 53) : nearest m < nearest n :=
    calc nearest m = m := nearest_eq_self hm.le
      _ < (min n (2 ^ 53) : Int) := by
        rw [Int.cast_lt]
        omega
      _ = nearest (min n (2 ^ 53)) := (nearest_eq_self (by omega)).symm
      _ ≤ nearest n := nearest_mono (min_le_left _ _)
  rcases h with hm | hn
  · exact hfrom hmn hm
  · have hneg := hfrom (neg_lt_neg hmn) (by rwa [Int.natAbs_neg])
    rw [nearest_neg, nearest_neg] at hneg
    exact neg_lt_neg_iff.mp hneg

theorem nearest_lt_iff (h : m.natAbs < 2 ^ 53 ∨ n.natAbs < 2 ^ 53) :
    nearest m < nearest n ↔ m < n :=
  ⟨fun hlt => lt_of_not_ge fun hle => (nearest_mono hle).not_gt hlt,
    fun hlt => nearest_lt_nearest hlt h⟩

theorem nearest_eq_iff (h : m.natAbs < 2 ^ 53 ∨ n.natAbs < 2 ^ 53) :
    nearest m = nearest n ↔ m = n := by
  refine ⟨fun heq => ?_, fun heq => by rw [heq]⟩
  rcases Int.lt_trichotomy m n with hlt | hsame | hgt
  · exact absurd heq (nearest_lt_nearest hlt h).ne
  · exact hsame
  · exact absurd heq (nearest_lt_nearest hgt h.symm).ne'

theorem natAbs_sub_le_of_nearest_eq (h : nearest m = nearest n) :
    2 ^ 53 * (m - n).natAbs ≤ m.natAbs + n.natAbs := by
  have hm := abs_nearest_sub_le m
  have hn := abs_nearest_sub_le n
  have hdistance : |(m : ℚ) - n| ≤ (m.natAbs + n.natAbs) / 2 ^ 53 :=
    calc |(m : ℚ) - n| = |(nearest n - n) - (nearest m - m)| := by
          rw [h]
          congr 1
          ring
      _ ≤ |nearest n - n| + |nearest m - m| := abs_sub _ _
      _ ≤ (m.natAbs + n.natAbs) / 2 ^ 53 := by
          rw [add_div]
          linarith
  rw [le_div_iff₀ (by positivity), mul_comm] at hdistance
  have hcast : ((m - n).natAbs : ℚ) = |(m : ℚ) - n| := by
    rw [Nat.cast_natAbs, Int.cast_abs, Int.cast_sub]
  rw [← hcast] at hdistance
  exact_mod_cast hdistance

end Symbology.Double
