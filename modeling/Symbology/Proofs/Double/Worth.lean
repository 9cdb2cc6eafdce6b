import Symbology.Proofs.Double.Fields
import Symbology.Proofs.Double.Rounded

namespace Symbology.Double

open Float.Model (UnpackedFloat totalExponent)
open Float.Model.UnpackedFloat
open Float.Model.Format (binary64)

variable {u : UnpackedFloat} {v w : ℚ} {x y : Float}

theorem unpackSign_packComponents (s : Sign) (e : BitVec 11) (m : BitVec 52) :
    unpackSign (packComponents binary64 s e m) = s.toBitVec := by
  apply BitVec.eq_of_toNat_eq
  have hbits : (s.toBitVec.toNat <<< 11 ||| e.toNat) <<< 52 ||| m.toNat =
      (s.toBitVec.toNat * 2 ^ 11 + e.toNat) * 2 ^ 52 + m.toNat := by
    rw [← Nat.shiftLeft_add_eq_or_of_lt m.isLt, ← Nat.shiftLeft_add_eq_or_of_lt e.isLt,
      Nat.shiftLeft_eq, Nat.shiftLeft_eq]
  simp only [unpackSign, packComponents, BitVec.toNat_cast, BitVec.extractLsb_toNat,
    BitVec.toNat_append]
  rw [hbits, Nat.shiftRight_eq_div_pow]
  change _ / 2 ^ 63 % 2 ^ 1 = _
  have hs := s.toBitVec.isLt
  have he := e.isLt
  have hm := m.isLt
  omega

theorem ofBitVec_toBitVec (s : Sign) : Sign.ofBitVec s.toBitVec = s := by
  cases s <;> rfl

theorem unpack_normal {s : Sign} {f : BitVec 11} {m : BitVec 52} (htop : f ≠ -1#11)
    (hzero : f ≠ 0#11) :
    ∃ hm, unpack binary64 (packComponents binary64 s f m) =
      .finite s (2 ^ 52 + m.toNat) (f.toNat - 1075) hm := by
  have hmantissa : (1#1 ++ m).toNat = 2 ^ 52 + m.toNat := by
    rw [BitVec.toNat_append, ← Nat.shiftLeft_add_eq_or_of_lt m.isLt]
    rfl
  refine ⟨by omega, ?_⟩
  rw [unpack]
  simp only [unpackExponent_packComponents, unpackMantissa_packComponents,
    unpackSign_packComponents]
  rw [if_neg htop, if_neg hzero]
  simp only [UnpackedFloat.finite.injEq]
  exact ⟨ofBitVec_toBitVec s, hmantissa, rfl⟩

theorem unpack_subnormal {s : Sign} {m : BitVec 52} (h : 0 < m.toNat) :
    unpack binary64 (packComponents binary64 s 0#11 m) = .finite s m.toNat (-1074) h := by
  have hm : m ≠ 0#52 := by
    rintro rfl
    exact Nat.lt_irrefl 0 h
  rw [unpack]
  simp only [unpackExponent_packComponents, unpackMantissa_packComponents,
    unpackSign_packComponents]
  rw [if_neg (by decide), if_true, dif_neg hm]
  simp only [UnpackedFloat.finite.injEq]
  exact ⟨ofBitVec_toBitVec s, trivial, rfl⟩

theorem unpack_pack_finite {s : Sign} {m : Nat} {e : Int} {hm : 0 < m} (hlt : m < 2 ^ 53)
    (hlow : -1074 ≤ e) (hlong : e = -1074 ∨ 2 ^ 52 ≤ m) (hhigh : e ≤ 971) :
    unpack binary64 (pack binary64 (.finite s m e hm)) = .finite s m e hm := by
  have hb : ¬ 2 ^ 11 ≤ (e + (1023 : Nat) + (52 : Nat)).toNat + 1 := by omega
  have hpack : pack binary64 (.finite s m e hm) =
      if m.log2 + 1 = 53 then
        packComponents binary64 s (BitVec.ofNat 11 (e + (1023 : Nat) + (52 : Nat)).toNat)
          (BitVec.ofNat 52 m)
      else packComponents binary64 s 0#11 (BitVec.ofNat 52 m) := if_neg hb
  have hlog : m.log2 + 1 = 53 ↔ 2 ^ 52 ≤ m := by
    rw [← Nat.le_log2 (by omega)]
    have := (Nat.log2_lt (by omega)).mpr hlt
    omega
  rw [hpack]
  by_cases hnormal : 2 ^ 52 ≤ m
  · have hexponent : (BitVec.ofNat 11 (e + (1023 : Nat) + (52 : Nat)).toNat).toNat =
        (e + 1075).toNat := by
      rw [BitVec.toNat_ofNat, Nat.mod_eq_of_lt (by omega)]
      omega
    generalize BitVec.ofNat 11 (e + (1023 : Nat) + (52 : Nat)).toNat = f at hexponent ⊢
    have htop : f ≠ -1#11 := by
      rintro rfl
      have : 2047 = (e + 1075).toNat := hexponent
      omega
    have hzero : f ≠ 0#11 := by
      rintro rfl
      have : 0 = (e + 1075).toNat := hexponent
      omega
    obtain ⟨hpos, hunpack⟩ := unpack_normal (s := s) (m := BitVec.ofNat 52 m) htop hzero
    rw [if_pos (hlog.mpr hnormal), hunpack, UnpackedFloat.finite.injEq, BitVec.toNat_ofNat]
    exact ⟨rfl, by omega, by omega⟩
  · have hmantissa : (BitVec.ofNat 52 m).toNat = m := by
      rw [BitVec.toNat_ofNat, Nat.mod_eq_of_lt (by omega)]
    rw [if_neg (mt hlog.mp hnormal), unpack_subnormal (by omega), UnpackedFloat.finite.injEq]
    exact ⟨rfl, hmantissa, by omega⟩

theorem Amounts.unpack_pack (h : Amounts u v) (hfits : Fits u) :
    unpack binary64 (pack binary64 u) = u := by
  cases h with
  | zero => rfl
  | finite hlt hlow hlong h =>
      cases hfits with
      | finite hhigh => exact unpack_pack_finite hlt hlow hlong hhigh

theorem Amounts.fits (h : Amounts u v) (hv : v ≤ 16) : Fits u := by
  cases h with
  | zero => exact .zero _
  | @finite m e hm _ hlt hlow hlong h =>
      have hone : (1 : ℚ) ≤ m := by exact_mod_cast hm
      have hpower : (2 : ℚ) ^ e ≤ 2 ^ (4 : Int) :=
        calc (2 : ℚ) ^ e ≤ m * 2 ^ e := le_mul_of_one_le_left (two_zpow_pos e).le hone
          _ ≤ 16 := h ▸ hv
          _ = 2 ^ (4 : Int) := by norm_num
      have he := (zpow_le_zpow_iff_right₀ (by norm_num : (1 : ℚ) < 2)).mp hpower
      exact .finite (by omega)

theorem Amounts.unpack_pack_of_not_fits (h : Amounts u v) (hfits : ¬ Fits u) :
    unpack binary64 (pack binary64 u) = .infinity .positive := by
  cases h with
  | zero => exact absurd (.zero _) hfits
  | @finite m e hm _ hlt hlow hlong h =>
      have he : ¬ e ≤ 971 := fun he => hfits (.finite he)
      have hb : 2 ^ 11 ≤ (e + (1023 : Nat) + (52 : Nat)).toNat + 1 := by omega
      have hpack : pack binary64 (.finite .positive m e hm) = packedInfinity binary64 .positive :=
        if_pos hb
      rw [hpack]
      rfl

theorem Amounts.fits_of_isFinite (h : Amounts u v)
    (hfinite : (unpack binary64 (pack binary64 u)).isFinite = true) : Fits u := by
  by_contra hfits
  rw [h.unpack_pack_of_not_fits hfits] at hfinite
  cases hfinite

theorem Amounts.isFinite (h : Amounts u v) : u.isFinite = true := by
  cases h <;> rfl

theorem Amounts.unique (hv : Amounts u v) (hw : Amounts u w) : v = w := by
  cases hv with
  | zero => cases hw; rfl
  | finite _ _ _ h =>
      cases hw with
      | finite _ _ _ h' => rw [h, h']

def IsWorth (x : Float) (v : ℚ) : Prop :=
  Amounts x.toModel.unpack v

theorem amounts_packed (h : Amounts u v) (hfits : Fits u) :
    Amounts (unpack binary64 (pack binary64 u)) v := by
  rw [h.unpack_pack hfits]
  exact h

theorem IsWorth.add (hx : IsWorth x v) (hy : IsWorth y w) (h : (x + y).isFinite = true) :
    IsWorth (x + y) (rounded (v + w)) :=
  have hsum := amounts_add hx hy
  amounts_packed hsum (hsum.fits_of_isFinite h)

theorem IsWorth.div (hx : IsWorth x v) (hy : IsWorth y w) (hw : 0 < w)
    (h : rounded (v / w) ≤ 16) : IsWorth (x / y) (rounded (v / w)) :=
  have hquotient := amounts_div hx hy hw
  amounts_packed hquotient (hquotient.fits h)

theorem IsWorth.mul_sixteen (hx : IsWorth x v) (h : rounded (v * 16) ≤ 16) :
    IsWorth (x * 16) (rounded (v * 16)) := by
  have hproduct : Amounts (mul binary64 x.toModel.unpack (16 : Float).toModel.unpack)
      (rounded (v * 16)) := by
    have hsixteen : ((2 ^ 52 : Nat) : ℚ) * 2 ^ (-48 : Int) = 16 := by norm_num
    rw [← hsixteen]
    exact amounts_mul (p := 2 ^ 52) (q := -48) (by decide) hx (Nat.le_refl _)
  exact amounts_packed hproduct (hproduct.fits h)

theorem isWorth_zero : IsWorth 0 0 :=
  Amounts.zero

theorem amounts_units (hfinite : x.isFinite = true) :
    Amounts x.toModel.unpack.abs (units x / 2 ^ 1074) := by
  rw [units_eq]
  rcases unpack_of_finite (isFinite_iff.mp hfinite) with ⟨hzero, hunpack⟩ | ⟨hm, hunpack⟩
  · rw [hunpack, hzero, Nat.zero_mul, Nat.cast_zero, zero_div]
    exact .zero
  · rw [hunpack]
    refine .finite (mantissa_lt x) (by omega) ?_ ?_
    · by_cases hbiased : biasedExponent x = 0
      · left
        omega
      · exact .inr (mantissa_ge hbiased)
    · push_cast
      rw [zpow_sub₀ (by norm_num), mul_div_assoc]
      norm_cast

theorem isWorth_units (hfinite : x.isFinite = true) (hsign : signBit x = false) :
    IsWorth x (units x / 2 ^ 1074) := by
  have hpositive : signOf x = .positive := by rw [signOf, hsign]; rfl
  have habs : x.toModel.unpack.abs = x.toModel.unpack := by
    rcases unpack_of_finite (isFinite_iff.mp hfinite) with ⟨-, hunpack⟩ | ⟨hm, hunpack⟩ <;>
      rw [hunpack, hpositive] <;> rfl
  rw [IsWorth, ← habs]
  exact amounts_units hfinite

theorem IsWorth.isFinite (h : IsWorth x v) : x.isFinite = true :=
  Amounts.isFinite h

theorem signBit_eq_false (h : signOf x = .positive) : signBit x = false := by
  rw [signOf] at h
  cases hsign : signBit x with
  | false => rfl
  | true =>
      rw [hsign] at h
      cases h

theorem IsWorth.signBit (h : IsWorth x v) : signBit x = false := by
  refine signBit_eq_false ?_
  rw [IsWorth] at h
  rcases unpack_of_finite (isFinite_iff.mp h.isFinite) with ⟨-, hunpack⟩ | ⟨hm, hunpack⟩
  · rw [hunpack] at h
    generalize signOf x = s at h
    cases h
    rfl
  · rw [hunpack] at h
    generalize signOf x = s at h
    cases h
    rfl

theorem IsWorth.eq_units (h : IsWorth x v) : v = units x / 2 ^ 1074 :=
  h.unique (isWorth_units h.isFinite h.signBit)

theorem isWorth_of_pos (hfinite : x.isFinite = true) (h : 0 < x) : ∃ v, 0 < v ∧ IsWorth x v := by
  have hlt : UnpackedFloat.lt (.zero .positive) x.toModel.unpack = true := by
    have : decide ((0 : Float).toModel < x.toModel) = true := h
    exact of_decide_eq_true this
  rcases unpack_of_finite (isFinite_iff.mp hfinite) with ⟨-, hunpack⟩ | ⟨hm, hunpack⟩
  · rw [hunpack] at hlt
    cases hlt
  · have hpositive : signOf x = .positive := by
      rw [hunpack] at hlt
      cases hsign : signOf x with
      | positive => rfl
      | negative =>
          rw [hsign] at hlt
          cases hlt
    refine ⟨_, ?_, isWorth_units hfinite (signBit_eq_false hpositive)⟩
    have hunits : 0 < units x := Nat.mul_pos hm (gap_pos x)
    exact div_pos (by exact_mod_cast hunits) (by positivity)

theorem floor_add_half {n p : Nat} (hp : 0 < p) :
    ⌊(n : ℚ) / (2 * p) + 1 / 2⌋₊ = (n + p) / (2 * p) := by
  have hp : (p : ℚ) ≠ 0 := by exact_mod_cast hp.ne'
  rw [← Nat.floor_div_eq_div (K := ℚ)]
  congr 1
  push_cast
  field_simp

theorem nearestNat_eq (h : IsWorth x v) (bound : Nat) :
    nearestNat bound x = min bound ⌊v + 1 / 2⌋₊ := by
  have hhalf : 0 < 2 ^ 1073 := by positivity
  have hpower : (2 : ℚ) ^ 1074 = 2 * (2 ^ 1073 : Nat) := by
    rw [Nat.cast_pow, Nat.cast_ofNat, ← pow_succ']
  have hfloor : ⌊v + 1 / 2⌋₊ = (units x + 1 <<< 1073) >>> 1074 := by
    rw [h.eq_units, hpower, floor_add_half hhalf, Nat.one_shiftLeft,
      Nat.shiftRight_eq_div_pow, ← pow_succ']
  rw [nearestNat, isNaN_of_finite h.isFinite, isInf_of_finite h.isFinite, h.signBit, hfloor]
  simp only [Bool.or_self, Bool.false_eq_true, if_false]

theorem finite_or_infinite_add (hx : IsWorth x v) (hy : IsWorth y w) :
    (x + y).isFinite = true ∨ (x + y).toModel.unpack = .infinity .positive := by
  have hsum := amounts_add hx hy
  by_cases hfits : Fits (add binary64 x.toModel.unpack y.toModel.unpack)
  · exact .inl (amounts_packed hsum hfits).isFinite
  · exact .inr (hsum.unpack_pack_of_not_fits hfits)

theorem infinite_add (hx : x.toModel.unpack = .infinity .positive) (hy : IsWorth y w) :
    (x + y).toModel.unpack = .infinity .positive := by
  have hsum : add binary64 x.toModel.unpack y.toModel.unpack = .infinity .positive := by
    rw [hx]
    rw [IsWorth] at hy
    generalize y.toModel.unpack = u at hy
    cases hy <;> rfl
  change unpack binary64 (pack binary64 (add binary64 x.toModel.unpack y.toModel.unpack)) = _
  rw [hsum]
  rfl

theorem div_infinite (hx : IsWorth x v) (hy : y.toModel.unpack = .infinity .positive) :
    IsWorth (x / y) 0 := by
  have hquotient : div binary64 x.toModel.unpack y.toModel.unpack = .zero .positive := by
    rw [hy]
    rw [IsWorth] at hx
    generalize x.toModel.unpack = u at hx
    cases hx <;> rfl
  change Amounts (unpack binary64 (pack binary64 (div binary64 x.toModel.unpack y.toModel.unpack))) 0
  rw [hquotient]
  exact Amounts.zero

theorem infinite_div_infinite (hx : x.toModel.unpack = .infinity .positive)
    (hy : y.toModel.unpack = .infinity .positive) : (x / y).toModel.unpack = .notANumber := by
  change unpack binary64 (pack binary64 (div binary64 x.toModel.unpack y.toModel.unpack)) = _
  rw [hx, hy]
  rfl

theorem isNaN_mul (hx : x.toModel.unpack = .notANumber) (y : Float) : (x * y).isNaN = true := by
  have hproduct : mul binary64 x.toModel.unpack y.toModel.unpack = .notANumber := by
    rw [hx]
    cases y.toModel.unpack <;> rfl
  change (unpack binary64 (pack binary64 (mul binary64 x.toModel.unpack y.toModel.unpack))).isNaN = _
  rw [hproduct]
  rfl

/-- Nothing takes a share of an infinite whole, not even the whole itself. -/
theorem nearestNat_share_infinite
    (hx : (∃ v, IsWorth x v) ∨ x.toModel.unpack = .infinity .positive)
    (hy : y.toModel.unpack = .infinity .positive) (bound : Nat) :
    nearestNat bound (x / y * 16) = 0 := by
  rcases hx with ⟨v, hx⟩ | hx
  · have hnone : rounded (0 * 16) = 0 := by rw [zero_mul, rounded_zero]
    have hshare := (div_infinite hx hy).mul_sixteen (hnone.trans_le (by norm_num))
    have hhalf : ⌊(0 : ℚ) + 1 / 2⌋₊ = 0 := Nat.floor_eq_zero.mpr (by norm_num)
    rw [nearestNat_eq hshare, hnone, hhalf, Nat.min_zero]
  · rw [nearestNat, isNaN_mul (infinite_div_infinite hx hy), Bool.true_or, if_pos rfl]

theorem IsWorth.le_add (hx : IsWorth x v) (hy : IsWorth y w) :
    v ≤ rounded (v + w) ∧ w ≤ rounded (v + w) := by
  have hv := Amounts.nonneg hx
  have hw := Amounts.nonneg hy
  constructor
  · calc v = rounded v := (Amounts.rounded_eq hx).symm
      _ ≤ rounded (v + w) := rounded_mono hv (le_add_of_nonneg_right hw)
  · calc w = rounded w := (Amounts.rounded_eq hy).symm
      _ ≤ rounded (v + w) := rounded_mono hw (le_add_of_nonneg_left hv)

def sixteenths (v w : ℚ) : ℚ :=
  rounded (rounded (v / w) * 16)

theorem rounded_one : rounded 1 = 1 := by
  simpa using rounded_power (k := 0) (by decide)

theorem rounded_sixteen : rounded 16 = 16 := by
  have h := rounded_power (k := 4) (by decide)
  norm_num at h
  exact h

theorem sixteenths_mono {v' : ℚ} (hv : 0 ≤ v) (hw : 0 < w) (h : v ≤ v') :
    sixteenths v w ≤ sixteenths v' w := by
  have hquotient : rounded (v / w) ≤ rounded (v' / w) :=
    rounded_mono (div_nonneg hv hw.le) (div_le_div_of_nonneg_right h hw.le)
  exact rounded_mono (mul_nonneg (rounded_nonneg _) (by norm_num))
    (mul_le_mul_of_nonneg_right hquotient (by norm_num))

theorem sixteenths_zero (w : ℚ) : sixteenths 0 w = 0 := by
  rw [sixteenths, zero_div, rounded_zero, zero_mul, rounded_zero]

theorem sixteenths_self (hw : 0 < w) : sixteenths w w = 16 := by
  rw [sixteenths, div_self hw.ne', rounded_one, one_mul, rounded_sixteen]

theorem isWorth_sixteenths (hx : IsWorth x v) (hy : IsWorth y w) (hw : 0 < w) (h : v ≤ w) :
    IsWorth (x / y * 16) (sixteenths v w) := by
  have hv := Amounts.nonneg hx
  have hquotient : rounded (v / w) ≤ 1 :=
    (rounded_mono (div_nonneg hv hw.le) ((div_le_one hw).mpr h)).trans_eq rounded_one
  have hproduct : sixteenths v w ≤ 16 :=
    (sixteenths_mono hv hw h).trans_eq (sixteenths_self hw)
  exact (hx.div hy hw (hquotient.trans (by norm_num))).mul_sixteen hproduct

end Symbology.Double
