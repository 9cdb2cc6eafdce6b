namespace Symbology.Style

inductive Kind where
  | fill
  | line
  | mark
  | icon
  | model
  | text
  | unknown
  deriving DecidableEq, Repr

def Kind.name : Kind → String
  | .fill => "Fill"
  | .line => "Line"
  | .mark => "Mark"
  | .icon => "Icon"
  | .model => "Model"
  | .text => "Text"
  | .unknown => "Unknown"

/-- A name that stands for no kind reads as the unknown kind. -/
def Kind.ofName : String → Kind
  | "Fill" => .fill
  | "Line" => .line
  | "Mark" => .mark
  | "Icon" => .icon
  | "Model" => .model
  | "Text" => .text
  | _ => .unknown

theorem Kind.ofName_name (k : Kind) : Kind.ofName k.name = k := by
  cases k <;> rfl

end Symbology.Style
