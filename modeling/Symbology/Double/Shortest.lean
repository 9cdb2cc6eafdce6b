import Symbology.Double.Exact

/-!
The fewest decimal digits that identify a double: of all decimals that round to it, one with the
least number of digits, and of those the one nearest to it.
-/

namespace Symbology.Double

/-- A positive decimal d.ddd · 10^lead, given by its digits. -/
structure Decimal where
  digits : List Char
  lead : Int
  deriving DecidableEq, Repr

inductive Tie where
  | even
  | up
  deriving DecidableEq, Repr

structure Basin where
  lower : Nat
  upper : Nat
  closed : Bool
  deriving DecidableEq, Repr

namespace Basin

def contains (b : Basin) (n : Nat) : Bool :=
  if b.closed then b.lower ≤ n && n ≤ b.upper else b.lower < n && n < b.upper

theorem contains_bounds {b : Basin} {n : Nat} (h : b.contains n = true) :
    b.lower ≤ n ∧ n ≤ b.upper := by
  unfold contains at h
  split at h
  · simpa using h
  · simp only [Bool.and_eq_true, decide_eq_true_eq] at h
    omega

end Basin

/-- Decimals are compared with doubles in units of 2^-1076 · 10^-shift. -/
def shift : Nat := 400

def powerOfTen (n : Nat) : Nat :=
  Nat.pow 10 n

def size (x : Float) : Nat :=
  4 * units x * powerOfTen shift

/-- Halfway to either neighbour; below a power of two the lower neighbour is twice as near. The
ends belong to the double whose mantissa is even. -/
def basin (x : Float) : Basin :=
  let below := if fraction x = 0 ∧ 1 < biasedExponent x then gap x else 2 * gap x
  { lower := (4 * units x - below) * powerOfTen shift
    upper := (4 * units x + 2 * gap x) * powerOfTen shift
    closed := mantissa x % 2 = 0 }

def grid (places : Nat) : Nat :=
  powerOfTen places * (1 <<< 1076)

def digitCount (n : Nat) : Nat :=
  n.repr.length

def candidate? (tie : Tie) (b : Basin) (size g : Nat) : Option Nat :=
  let d := size / g
  match b.contains (d * g), b.contains ((d + 1) * g) with
  | false, false => none
  | true, false => some d
  | false, true => some (d + 1)
  | true, true =>
      if 2 * size < (2 * d + 1) * g then some d
      else if (2 * d + 1) * g < 2 * size then some (d + 1)
      else match tie with
        | .even => some (if d % 2 = 0 then d else d + 1)
        | .up => some (d + 1)

theorem candidate?_mem {tie : Tie} {b : Basin} {size g d : Nat}
    (h : candidate? tie b size g = some d) : b.contains (d * g) = true := by
  unfold candidate? at h
  grind

def search (tie : Tie) (b : Basin) (size : Nat) : Nat → Nat → Nat × Nat
  | 0, places => (size / grid places, places)
  | n + 1, places =>
      match candidate? tie b size (grid places) with
      | some d => (d, places)
      | none => search tie b size n (places - 1)

def stripZeros (digits : List Char) : List Char :=
  (digits.reverse.dropWhile (· = '0')).reverse

def Decimal.ofMultiple (d places : Nat) : Decimal :=
  let digits := d.repr.toList
  { digits := stripZeros digits
    lead := (digits.length : Int) - 1 + places - shift }

def shortest (tie : Tie) (x : Float) : Decimal :=
  let places := digitCount (size x >>> 1076) - 1
  let (d, places) := search tie (basin x) (size x) 17 places
  Decimal.ofMultiple d places

end Symbology.Double
