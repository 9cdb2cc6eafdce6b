import Symbology.Error
import Symbology.Filter.Comparison
import Symbology.Properties

namespace Symbology.Filter

inductive Operator where
  | all
  | any
  | not
  | compare (c : Comparison)
  deriving DecidableEq, Repr

def Operator.ofName? : String → Option Operator
  | "&&" => some .all
  | "||" => some .any
  | "!" => some .not
  | "==" => some (.compare .equal)
  | "!=" => some (.compare .different)
  | "<" => some (.compare .less)
  | "<=" => some (.compare .atMost)
  | ">" => some (.compare .greater)
  | ">=" => some (.compare .atLeast)
  | "*=" => some (.compare .contains)
  | _ => none

mutual

def evaluate (ps : Properties) : Json → Except FilterFault Bool
  | .bool b => .ok b
  | .arr (.str op :: args) =>
      match Operator.ofName? op with
      | none => .error (.unknownOperator op)
      | some .all => evaluateAll ps args
      | some .any => evaluateAny ps args
      | some .not =>
          match args with
          | [f] => (evaluate ps f).map (!·)
          | _ => .error (.negationOperands (.arr (.str op :: args)))
      | some (.compare c) =>
          match args with
          | [.str name, expected] => .ok (c.holds (ps.value name) expected)
          | _ => .error (.comparisonOperands op (.arr (.str op :: args)))
  | .arr items => .error (.missingOperator (.arr items))
  | e => .error (.unsupported e)

def evaluateAll (ps : Properties) : List Json → Except FilterFault Bool
  | [] => .ok true
  | f :: fs =>
      match evaluate ps f with
      | .ok true => evaluateAll ps fs
      | r => r

def evaluateAny (ps : Properties) : List Json → Except FilterFault Bool
  | [] => .ok false
  | f :: fs =>
      match evaluate ps f with
      | .ok false => evaluateAny ps fs
      | r => r

end

abbrev Evaluator := Json → Properties → Except StyleError Bool

def expressions : Evaluator := fun f ps =>
  (evaluate ps f).mapError .filterEvaluation

end Symbology.Filter
