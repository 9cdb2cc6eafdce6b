import Symbology.Json.Basic

namespace Symbology

abbrev Properties := List (String × Json)

/-- A missing attribute counts as null. -/
def Properties.value (ps : Properties) (name : String) : Json :=
  (ps.lookup name).getD .null

end Symbology
