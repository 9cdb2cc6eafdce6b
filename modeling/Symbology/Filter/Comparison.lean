import Symbology.Json.Basic

namespace Symbology.Filter

inductive Comparison where
  | equal
  | different
  | less
  | atMost
  | greater
  | atLeast
  | contains
  deriving DecidableEq, Repr

def looselyEqual (a b : Json) : Bool :=
  match a.asDouble?, b.asDouble? with
  | some x, some y => x == y
  | _, _ => a.same b

def order? : Json → Json → Option Ordering
  | .num a, .num b =>
      let x := a.toDouble
      let y := b.toDouble
      if x < y then some .lt
      else if x == y then some .eq
      else if y < x then some .gt
      else none
  | .str s, .str t => some (if s < t then .lt else if s = t then .eq else .gt)
  | _, _ => none

def occursIn (part : List Char) : List Char → Bool
  | [] => part.isEmpty
  | c :: cs => part.isPrefixOf (c :: cs) || occursIn part cs

def Comparison.holds : Comparison → Json → Json → Bool
  | .equal, a, b => looselyEqual a b
  | .different, a, b => !looselyEqual a b
  | .less, a, b => order? a b = some .lt
  | .atMost, a, b => order? a b = some .lt || order? a b = some .eq
  | .greater, a, b => order? a b = some .gt
  | .atLeast, a, b => order? a b = some .gt || order? a b = some .eq
  | .contains, .str s, .str part => occursIn part.toList s.toList
  | .contains, _, _ => false

end Symbology.Filter
