import Mathlib
import Symbology.Double.Exact

namespace Symbology.Double

open Float.Model (UnpackedFloat totalExponent)
open Float.Model.UnpackedFloat
open Float.Model.Format (binary64)

variable {x y : Float}

def word (x : Float) : BitVec binary64.numBits :=
  x.toModel.toBits.toBitVec

theorem toNat_unpackMantissa (x : Float) :
    (unpackMantissa (word x)).toNat = fraction x := by
  simp only [unpackMantissa, BitVec.toNat_cast, BitVec.extractLsb_toNat, Nat.shiftRight_zero]
  rfl

theorem toNat_unpackExponent (x : Float) :
    (unpackExponent (word x)).toNat = biasedExponent x := by
  simp only [unpackExponent, BitVec.toNat_cast, BitVec.extractLsb_toNat]
  rfl

def signOf (x : Float) : Sign :=
  if signBit x then .negative else .positive

theorem ofBitVec_unpackSign (x : Float) :
    Sign.ofBitVec (unpackSign (word x)) = signOf x := by
  have hbit : (unpackSign (word x)).toNat = (signBit x).toNat := by
    simp only [unpackSign, BitVec.toNat_cast, BitVec.extractLsb_toNat, signBit, Nat.toNat_testBit,
      Nat.shiftRight_eq_div_pow]
    rfl
  rw [Sign.ofBitVec, signOf]
  cases hsign : signBit x with
  | false =>
      rw [hsign] at hbit
      rw [if_pos (BitVec.eq_of_toNat_eq hbit)]; rfl
  | true =>
      rw [hsign] at hbit
      rw [if_neg (fun h => by rw [h] at hbit; cases hbit)]; rfl

theorem unpack_of_finite (h : biasedExponent x ≠ 2047) :
    (mantissa x = 0 ∧ x.toModel.unpack = .zero (signOf x)) ∨
      ∃ hm, x.toModel.unpack =
        .finite (signOf x) (mantissa x) ((biasedExponent x - 1 : Nat) - 1074) hm := by
  have htop : unpackExponent (word x) ≠ -1#11 := by
    intro htop
    exact h (by rw [← toNat_unpackExponent, htop]; rfl)
  have hfraction := toNat_unpackMantissa x
  have hexponent := toNat_unpackExponent x
  rw [Float.Model.unpack, ← word, unpack]
  simp only [htop, if_false, ofBitVec_unpackSign]
  split
  · next hzero =>
      have hbiased : biasedExponent x = 0 := by rw [← hexponent, hzero]; rfl
      split
      · next hm =>
          left
          refine ⟨?_, rfl⟩
          rw [mantissa, if_pos hbiased, ← hfraction, hm]
          rfl
      · next hm =>
          right
          have hmantissa : mantissa x = fraction x := if_pos hbiased
          have hpos : 0 < mantissa x := by
            rw [hmantissa, ← hfraction]
            exact Nat.pos_of_ne_zero fun h0 => hm (BitVec.eq_of_toNat_eq h0)
          refine ⟨hpos, ?_⟩
          simp only [UnpackedFloat.finite.injEq, true_and]
          rw [hfraction, hmantissa, hexponent, hbiased]
          exact ⟨rfl, by decide⟩
  · next hzero =>
      right
      have hbiased : biasedExponent x ≠ 0 := by
        rw [← hexponent]
        exact fun h0 => hzero (BitVec.eq_of_toNat_eq h0)
      have hmantissa : mantissa x = (1 <<< 52) + fraction x := if_neg hbiased
      refine ⟨by rw [hmantissa]; omega, ?_⟩
      simp only [UnpackedFloat.finite.injEq, true_and]
      have hwhole : (1#1 ++ unpackMantissa (word x)).toNat = mantissa x := by
        rw [BitVec.toNat_append, hfraction, hmantissa]
        exact (Nat.shiftLeft_add_eq_or_of_lt (Nat.mod_lt _ (by decide)) 1).symm
      refine ⟨hwhole, ?_⟩
      rw [hexponent]
      change (biasedExponent x : Int) - 1075 = _
      omega

theorem isFinite_iff : x.isFinite = true ↔ biasedExponent x ≠ 2047 := by
  constructor
  · intro h htop
    have htop : unpackExponent (word x) = -1#11 :=
      BitVec.eq_of_toNat_eq (by rw [toNat_unpackExponent, htop]; rfl)
    have hunpack : (unpack binary64 (word x)).isFinite = true := h
    simp only [unpack, htop, if_true] at hunpack
    split at hunpack <;> cases hunpack
  · intro h
    change x.toModel.unpack.isFinite = true
    rcases unpack_of_finite h with ⟨-, hzero⟩ | ⟨hm, hunpack⟩
    · rw [hzero]
      rfl
    · rw [hunpack]
      rfl

theorem mantissa_lt (x : Float) : mantissa x < 2 ^ 53 := by
  have hfraction : fraction x < 1 <<< 52 := Nat.mod_lt _ (by decide)
  rw [mantissa]
  split <;> omega

theorem mantissa_ge (h : biasedExponent x ≠ 0) : 2 ^ 52 ≤ mantissa x := by
  rw [mantissa, if_neg h, Nat.one_shiftLeft]
  exact Nat.le_add_right _ _

theorem units_eq (x : Float) : units x = mantissa x * 2 ^ (biasedExponent x - 1) := by
  rw [units, gap, Nat.one_shiftLeft]

end Symbology.Double
