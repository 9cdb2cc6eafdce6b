import Symbology.Double.Notation
import Symbology.Json.Print
import Symbology.Json.Read
import Symbology.Style.Kind
import Symbology.Text.Quoted

namespace Symbology

open Style (Kind)

inductive FilterFault where
  | unsupported (expression : Json)
  | missingOperator (expression : Json)
  | negationOperands (expression : Json)
  | comparisonOperands (operator : String) (expression : Json)
  | unknownOperator (operator : String)
  | refused (detail : String)
  deriving Repr

def FilterFault.message : FilterFault → String
  | .unsupported e => "unsupported expression " ++ e.text
  | .missingOperator e => "missing operator in " ++ e.text
  | .negationOperands e => "`!` takes one operand in " ++ e.text
  | .comparisonOperands op e =>
      "`" ++ op ++ "` expects an attribute name and a value in " ++ e.text
  | .unknownOperator op => "unknown operator `" ++ op ++ "`"
  | .refused detail => detail

def invalidColorMessage (color : String) : String :=
  "Invalid color: " ++ color

inductive Defect where
  | missingField (kind : Kind) (field : String)
  | badRadius (radius : Float)
  | badColor (kind : Kind) (color : String)
  deriving DecidableEq, Repr

def Defect.message : Defect → String
  | .missingField kind field => kind.name ++ " symbolizer requires `" ++ field ++ "`"
  | .badRadius r => "Mark radius " ++ Double.Notation.plain.text r ++ " must be a positive number"
  | .badColor kind color => kind.name ++ " symbolizer: " ++ invalidColorMessage color

inductive IconFault where
  | drawerFailed (detail : String)
  | notDrawn
  | notRequested
  | noIdentifier (kind : Kind)
  deriving DecidableEq, Repr

def IconFault.message : IconFault → String
  | .drawerFailed detail => "icon drawer failed: " ++ detail
  | .notDrawn => "icon drawer returned no image"
  | .notRequested => "icon was not part of the resolution batch"
  | .noIdentifier kind => kind.name ++ " symbolizer has no image identifier"

inductive StyleError where
  | malformedStyle (rule : String) (defect : Defect)
  | invalidColor (color : String)
  | iconResolution (id : String) (fault : IconFault)
  | filterEvaluation (fault : FilterFault)
  | invalidJson (cause : Json.ReadError)
  deriving Repr

def StyleError.message : StyleError → String
  | .malformedStyle rule defect =>
      "Malformed style in rule " ++ Text.quoted rule ++ ": " ++ defect.message
  | .invalidColor color => invalidColorMessage color
  | .iconResolution id fault => "Icon " ++ id ++ " could not be resolved: " ++ fault.message
  | .filterEvaluation fault => "Filter evaluation error: " ++ fault.message
  | .invalidJson _ => "Invalid style document"

end Symbology
