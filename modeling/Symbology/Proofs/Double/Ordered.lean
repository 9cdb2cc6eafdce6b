import Symbology.Proofs.Double.Basins

namespace Symbology.Double

open Float.Model (UnpackedFloat)

variable {x y : Float}

/-- The exact value of a finite double, in units of 2^-1074. -/
def level (x : Float) : Int :=
  if signBit x then -(units x : Int) else units x

theorem units_lt_of_exponent_lt (h : biasedExponent x - 1 < biasedExponent y - 1) :
    units x < units y := by
  have hgap : gap x < gap y := by
    rw [gap, gap, Nat.one_shiftLeft, Nat.one_shiftLeft]
    exact Nat.pow_lt_pow_right (by decide) h
  obtain ⟨-, hdouble, hfull⟩ := full_of_gap_lt hgap
  have hx := units_add_gap_le x
  have hpos := gap_pos x
  omega

theorem compare_units (x y : Float) :
    (compare ((biasedExponent x - 1 : Nat) - 1074 : Int) ((biasedExponent y - 1 : Nat) - 1074)).then
      (compare (mantissa x) (mantissa y)) = compare (units x : Int) (units y) := by
  rcases Nat.lt_trichotomy (biasedExponent x - 1) (biasedExponent y - 1) with hlt | heq | hgt
  · have hunits := units_lt_of_exponent_lt hlt
    rw [Int.compare_eq_lt.mpr (by omega), Int.compare_eq_lt.mpr (by omega)]
    rfl
  · have hgap : gap x = gap y := by rw [gap, gap, heq]
    rw [Int.compare_eq_eq.mpr (by omega), Ordering.then]
    rcases Nat.lt_trichotomy (mantissa x) (mantissa y) with hlt | hsame | hgt
    · have hunits : units x < units y := by
        rw [units, units, hgap]
        exact Nat.mul_lt_mul_of_pos_right hlt (gap_pos y)
      rw [Nat.compare_eq_lt.mpr hlt, Int.compare_eq_lt.mpr (by omega)]
    · have hunits : units x = units y := by rw [units, units, hgap, hsame]
      rw [Nat.compare_eq_eq.mpr hsame, Int.compare_eq_eq.mpr (by omega)]
    · have hunits : units y < units x := by
        rw [units, units, hgap]
        exact Nat.mul_lt_mul_of_pos_right hgt (gap_pos y)
      rw [Nat.compare_eq_gt.mpr hgt, Int.compare_eq_gt.mpr (by omega)]
  · have hunits := units_lt_of_exponent_lt hgt
    rw [Int.compare_eq_gt.mpr (by omega), Int.compare_eq_gt.mpr (by omega)]
    rfl

theorem compare_neg_neg (m n : Int) : compare (-m) (-n) = (compare m n).swap := by
  rcases Int.lt_trichotomy m n with hlt | rfl | hgt
  · rw [Int.compare_eq_lt.mpr hlt, Int.compare_eq_gt.mpr (by omega)]
    rfl
  · rw [Int.compare_eq_eq.mpr rfl, Int.compare_eq_eq.mpr rfl]
    rfl
  · rw [Int.compare_eq_gt.mpr hgt, Int.compare_eq_lt.mpr (by omega)]
    rfl

inductive Leveled (x : Float) : UnpackedFloat → Prop where
  | zero (s : UnpackedFloat.Sign) (h : level x = 0) : Leveled x (.zero s)
  | positive {hm : 0 < mantissa x} (h : level x = units x) (hpos : 0 < units x) :
      Leveled x (.finite .positive (mantissa x) ((biasedExponent x - 1 : Nat) - 1074) hm)
  | negative {hm : 0 < mantissa x} (h : level x = -units x) (hpos : 0 < units x) :
      Leveled x (.finite .negative (mantissa x) ((biasedExponent x - 1 : Nat) - 1074) hm)

theorem leveled_unpack (hx : x.isFinite = true) : Leveled x x.toModel.unpack := by
  rcases unpack_of_finite (isFinite_iff.mp hx) with ⟨hzero, hunpack⟩ | ⟨hm, hunpack⟩
  · have hunits : units x = 0 := by rw [units, hzero, Nat.zero_mul]
    rw [hunpack]
    exact .zero _ (by rw [level, hunits]; split <;> rfl)
  · have hpos : 0 < units x := Nat.mul_pos hm (gap_pos x)
    rw [hunpack, signOf]
    cases hsign : signBit x with
    | false => exact .positive (by rw [level, hsign]; rfl) hpos
    | true => exact .negative (by rw [level, hsign]; rfl) hpos

theorem Leveled.compare_eq {u v : UnpackedFloat} (hu : Leveled x u) (hv : Leveled y v) :
    u.compare v = some (compare (level x) (level y)) := by
  have hunits := compare_units x y
  have hlt {m n : Int} (h : m < n) : some Ordering.lt = some (compare m n) :=
    congrArg some (Int.compare_eq_lt.mpr h).symm
  have hgt {m n : Int} (h : n < m) : some Ordering.gt = some (compare m n) :=
    congrArg some (Int.compare_eq_gt.mpr h).symm
  cases hu with
  | zero s hx =>
      cases hv with
      | zero s' hy => rw [hx, hy]; rfl
      | positive hy hpos => exact hlt (by omega)
      | negative hy hpos => exact hgt (by omega)
  | positive hx hpos =>
      cases hv with
      | zero s' hy => exact hgt (by omega)
      | positive hy hpos' => rw [hx, hy, ← hunits]; rfl
      | negative hy hpos' => exact hgt (by omega)
  | negative hx hpos =>
      cases hv with
      | zero s' hy => exact hlt (by omega)
      | positive hy hpos' => exact hlt (by omega)
      | negative hy hpos' => rw [hx, hy, compare_neg_neg, ← hunits]; rfl

theorem compare_unpack (hx : x.isFinite = true) (hy : y.isFinite = true) :
    x.toModel.unpack.compare y.toModel.unpack = some (compare (level x) (level y)) :=
  (leveled_unpack hx).compare_eq (leveled_unpack hy)

theorem lt_iff_level (hx : x.isFinite = true) (hy : y.isFinite = true) :
    x < y ↔ level x < level y := by
  have hlt : x < y ↔ (x.toModel.unpack.compare y.toModel.unpack == some .lt) = true :=
    ⟨fun h => of_decide_eq_true h, fun h => decide_eq_true h⟩
  rw [hlt, compare_unpack hx hy, beq_iff_eq, Option.some.injEq, Int.compare_eq_lt]

theorem beq_iff_level (hx : x.isFinite = true) (hy : y.isFinite = true) :
    (x == y) = true ↔ level x = level y := by
  have hbeq : (x == y) = (x.toModel.unpack.compare y.toModel.unpack == some .eq) := rfl
  rw [hbeq, compare_unpack hx hy, beq_iff_eq, Option.some.injEq, Int.compare_eq_eq]

def unsignedZero (x : Float) : Float :=
  if level x = 0 then 0 else x

theorem eq_of_level_eq (h : level x = level y) (hne : level x ≠ 0) : x = y := by
  have hne' : level y ≠ 0 := h ▸ hne
  rw [level, level] at h
  rw [level] at hne hne'
  cases hx : signBit x <;> cases hy : signBit y <;>
    simp only [hx, hy, if_true, Bool.false_eq_true, if_false] at h hne hne'
  · exact eq_of_units_eq (hx.trans hy.symm) (by omega)
  · omega
  · omega
  · exact eq_of_units_eq (hx.trans hy.symm) (by omega)

@[simp] theorem level_unsignedZero (x : Float) : level (unsignedZero x) = level x := by
  rw [unsignedZero]
  split
  · next h => rw [h]; rfl
  · rfl

theorem unsignedZero_eq_iff : unsignedZero x = unsignedZero y ↔ level x = level y := by
  constructor
  · intro h
    rw [← level_unsignedZero x, h, level_unsignedZero]
  · intro h
    by_cases hzero : level x = 0
    · rw [unsignedZero, if_pos hzero, unsignedZero, if_pos (h ▸ hzero)]
    · rw [eq_of_level_eq h hzero]

end Symbology.Double
