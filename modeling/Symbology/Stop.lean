namespace Symbology

/-- Ways to end that no caller can handle. -/
inductive Stop where
  | underflow
  | addressOverflow
  | capacityOverflow
  | endless
  deriving DecidableEq, Repr

def Stop.message : Stop → String
  | .underflow => "subtraction below zero"
  | .addressOverflow => "pixel address too large"
  | .capacityOverflow => "buffer too large"
  | .endless => "loop without an end"

end Symbology
