import Symbology.Json.Basic

namespace Symbology.Json

structure Literal where
  negative : Bool
  whole : List Char
  fraction : Option (List Char)
  exponent : Option (Bool × List Char)
  deriving DecidableEq, Repr

namespace Literal

def digitValue (c : Char) : Nat :=
  c.toNat - '0'.toNat

def absorb (significand : Nat) : List Char → Nat × List Char
  | [] => (significand, [])
  | d :: ds =>
      let next := significand * 10 + digitValue d
      if next < UInt64.size then absorb next ds else (significand, d :: ds)

theorem absorb_lt {s : Nat} (h : s < UInt64.size) (ds : List Char) : (absorb s ds).1 < UInt64.size := by
  induction ds generalizing s with
  | nil => exact h
  | cons d ds ih =>
      simp only [absorb]
      split
      · next h' => exact ih h'
      · exact h

def decimal (ds : List Char) : Nat :=
  ds.foldl (fun n d => n * 10 + digitValue d) 0

def power (n : Nat) : Float :=
  Float.ofScientific 1 false n

def scaleUp? (x : Float) (n : Nat) : Option Float :=
  if n ≤ 308 then
    let y := x * power n
    if y.isInf then none else some y
  else if x == 0 then some x
  else none

def scaleDown (x : Float) (n : Nat) : Float :=
  if n ≤ 308 then x / power n
  else if x == 0 then x
  else scaleDown (x / power 308) (n - 308)
termination_by n

def scaled? (significand : Nat) (exponent : Int) : Option Float :=
  let x := Float.ofNat significand
  if 0 ≤ exponent then scaleUp? x exponent.toNat else some (scaleDown x exponent.natAbs)

def signed (negative : Bool) (x : Float) : Float :=
  if negative then -x else x

/-- A whole number keeps its value from -2^63 to 2^64 - 1; minus zero is a double. -/
def wholeNumber (negative : Bool) (n : Nat) : Number :=
  if !negative then .int n
  else if n = 0 ∨ UInt64.size / 2 < n then .double (-Float.ofNat n)
  else .int (-n)

def writtenExponent : Option (Bool × List Char) → Int
  | none => 0
  | some (true, ds) => -decimal ds
  | some (false, ds) => decimal ds

def number? (l : Literal) : Option Number :=
  let (significand, left) := absorb 0 l.whole
  match l.fraction, l.exponent, left with
  | none, none, [] => some (wholeNumber l.negative significand)
  | fraction, exponent, left =>
      let places := fraction.getD []
      let (significand, unread) := absorb significand places
      let exponent := (left.length : Int) - (places.length - unread.length) + writtenExponent exponent
      (scaled? significand exponent).map fun x => .double (signed l.negative x)

end Literal
end Symbology.Json
