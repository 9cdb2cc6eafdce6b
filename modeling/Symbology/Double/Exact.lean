namespace Symbology.Double

def signBit (x : Float) : Bool :=
  x.toBits.toNat.testBit 63

def fraction (x : Float) : Nat :=
  x.toBits.toNat % (1 <<< 52)

def biasedExponent (x : Float) : Nat :=
  (x.toBits.toNat >>> 52) % (1 <<< 11)

def mantissa (x : Float) : Nat :=
  if biasedExponent x = 0 then fraction x else (1 <<< 52) + fraction x

/-- The distance from a finite double to the next larger magnitude, in units of 2^-1074. -/
def gap (x : Float) : Nat :=
  1 <<< (biasedExponent x - 1)

/-- The magnitude of a finite double, in units of 2^-1074. -/
def units (x : Float) : Nat :=
  mantissa x * gap x

theorem gap_pos (x : Float) : 0 < gap x := by
  rw [gap, Nat.one_shiftLeft]
  exact Nat.two_pow_pos _

/-- The nearest natural number, halves going up. Not-a-number and negative values count as zero,
and nothing exceeds `bound`. -/
def nearestNat (bound : Nat) (x : Float) : Nat :=
  if x.isNaN || signBit x then 0
  else if x.isInf then bound
  else min bound ((units x + (1 <<< 1073)) >>> 1074)

theorem nearestNat_le (bound : Nat) (x : Float) : nearestNat bound x ≤ bound := by
  unfold nearestNat
  split
  · exact Nat.zero_le _
  · split
    · exact Nat.le_refl _
    · exact Nat.min_le_left _ _

end Symbology.Double
