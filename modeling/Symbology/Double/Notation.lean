import Symbology.Double.Shortest

namespace Symbology.Double

structure Notation where
  least : Int
  greatest : Int
  keepsPoint : Bool
  signsExponent : Bool
  tie : Tie
  notANumber : String
  infinity : String
  deriving DecidableEq, Repr

def zeros (n : Nat) : List Char :=
  List.replicate n '0'

def Notation.plain : Notation where
  least := -400
  greatest := 400
  keepsPoint := false
  signsExponent := false
  tie := .up
  notANumber := "NaN"
  infinity := "inf"

def Notation.positional (n : Notation) (d : Decimal) : List Char :=
  if d.lead < 0 then
    '0' :: '.' :: zeros ((-d.lead).toNat - 1) ++ d.digits
  else
    let whole := d.lead.toNat + 1
    if d.digits.length ≤ whole then
      d.digits ++ zeros (whole - d.digits.length) ++ (if n.keepsPoint then ['.', '0'] else [])
    else
      d.digits.take whole ++ '.' :: d.digits.drop whole

def Notation.exponent (n : Notation) (e : Int) : List Char :=
  let sign := if e < 0 then ['-'] else if n.signsExponent then ['+'] else []
  'e' :: sign ++ e.natAbs.repr.toList

def Notation.scientific (n : Notation) (d : Decimal) : List Char :=
  match d.digits with
  | [] => n.exponent d.lead
  | [c] => c :: n.exponent d.lead
  | c :: rest => c :: '.' :: rest ++ n.exponent d.lead

def Notation.layout (n : Notation) (d : Decimal) : List Char :=
  if n.least ≤ d.lead ∧ d.lead ≤ n.greatest then n.positional d else n.scientific d

def Notation.magnitude (n : Notation) (x : Float) : List Char :=
  if x.isInf then n.infinity.toList
  else if units x = 0 then n.positional { digits := ['0'], lead := 0 }
  else n.layout (shortest n.tie x)

def Notation.chars (n : Notation) (x : Float) : List Char :=
  if x.isNaN then n.notANumber.toList
  else if signBit x then '-' :: n.magnitude x
  else n.magnitude x

def Notation.text (n : Notation) (x : Float) : String :=
  String.ofList (n.chars x)

end Symbology.Double
