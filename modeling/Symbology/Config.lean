import Symbology.Double.Notation
import Symbology.Portrayal.Placement
import Symbology.Text.Blank

namespace Symbology

open Portrayal (Classification)

structure Config where
  dashLength : Float := 16
  fontFamily : String := "sans-serif"
  fontSize : Float := 14
  classification : Classification := .both
  minExtent : UInt32 := 1
  maxExtent : UInt32 := 1024
  deriving DecidableEq, Repr

inductive ConfigFault where
  | dashLength (length : Float)
  | fontSize (size : Float)
  | fontFamily
  | zeroExtent
  | extentRange (min max : UInt32)
  deriving DecidableEq, Repr

def ConfigFault.message : ConfigFault → String
  | .dashLength l =>
      "default_dash_length " ++ Double.Notation.plain.text l ++ " must be a positive number"
  | .fontSize s =>
      "default_font_size " ++ Double.Notation.plain.text s ++ " must be a positive number"
  | .fontFamily => "default_font_family must not be empty"
  | .zeroExtent => "leader_line_min_extent must be at least 1"
  | .extentRange min max =>
      "leader_line_max_extent " ++ max.toNat.repr ++ " is below leader_line_min_extent " ++
        min.toNat.repr

def isPositive (x : Float) : Bool :=
  x.isFinite && 0 < x

def Config.fault? (c : Config) : Option ConfigFault :=
  if !isPositive c.dashLength then some (.dashLength c.dashLength)
  else if !isPositive c.fontSize then some (.fontSize c.fontSize)
  else if Text.isAllBlank c.fontFamily then some .fontFamily
  else if c.minExtent = 0 then some .zeroExtent
  else if c.maxExtent < c.minExtent then some (.extentRange c.minExtent c.maxExtent)
  else none

def Config.checked (c : Config) : Except ConfigFault Config :=
  match c.fault? with
  | some fault => .error fault
  | none => .ok c

end Symbology
