import Symbology.Double.Exact
import Symbology.Stop

namespace Symbology

structure Dash where
  length : Float
  /-- The most significant bit is the first one drawn. -/
  pattern : UInt16
  deriving DecidableEq, Repr

namespace Dash

def bitCount : Nat := 16

def isRun (x : Float) : Bool :=
  x.isFinite && 0 < x

def cycle (runs : List Float) : List Float :=
  if runs.length % 2 = 0 then runs else runs ++ runs

def total (runs : List Float) : Float :=
  runs.foldl (· + ·) 0

/-- Where each run ends, in bits. The end is rounded from the length up to there, so rounding
errors do not add up. -/
def ends (total : Float) (before : Float) : List Float → List Nat
  | [] => []
  | run :: rest =>
      let upTo := before + run
      Double.nearestNat bitCount (upTo / total * 16) :: ends total upTo rest

def widths (start : Nat) : List Nat → Except Stop (List Nat)
  | [] => .ok []
  | e :: rest =>
      if e < start then .error .underflow
      else (widths e rest).map ((e - start) :: ·)

def longest (ws : List Nat) : Nat := ws.max?.getD 0

def shorten (width : Nat) : List Nat → Except Stop (List Nat)
  | [] => .ok []
  | w :: rest =>
      if w = width then
        if w = 0 then .error .underflow else .ok ((w - 1) :: rest)
      else (shorten width rest).map (w :: ·)

def fillFirst : List Nat → List Nat
  | [] => []
  | w :: rest => if w = 0 then 1 :: rest else w :: fillFirst rest

/-- The longest run, of several the first, lends one bit to the first run that has none. -/
def lend (ws : List Nat) : Except Stop (List Nat) :=
  (shorten (longest ws) ws).map fillFirst

def settle : Nat → List Nat → Except Stop (List Nat)
  | 0, ws => if 0 ∈ ws then .error .endless else .ok ws
  | loans + 1, ws => if 0 ∈ ws then lend ws >>= settle loans else .ok ws

def bits (drawn : Bool) : List Nat → List Bool
  | [] => []
  | w :: rest => List.replicate w drawn ++ bits (!drawn) rest

def mask : Nat → List Bool → Nat
  | 0, _ => 0
  | _ + 1, [] => 0
  | n + 1, b :: rest => (if b then 1 <<< n else 0) + mask n rest

/-- No more runs are without a bit than there are bits, so more loans would get nowhere. -/
def runWidths (runs : List Float) : Except Stop (List Nat) :=
  widths 0 (ends (total runs) 0 runs) >>= settle bitCount

def ofRuns? (runs : List Float) : Except Stop (Option Dash) :=
  if runs.isEmpty || runs.any (!isRun ·) then .ok none
  else
    let runs := cycle runs
    if bitCount < runs.length then .ok none
    else (runWidths runs).map fun ws =>
      some
        { length := total runs
          pattern := UInt16.ofNat (mask bitCount (bits true ws)) }

end Dash
end Symbology
