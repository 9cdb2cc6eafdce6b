import Symbology.Icon.Cache
import Symbology.Style.Symbolizer

namespace Symbology.Icon

structure Request where
  id : String
  symbolizer : Style.Symbolizer
  deriving DecidableEq, Repr

structure DrawFailure where
  message : String
  causes : List String := []
  deriving DecidableEq, Repr

def DrawFailure.fullMessage (f : DrawFailure) : String :=
  ": ".intercalate (f.message :: f.causes)

/-- What a drawer does with a batch of requests: the icons that it stores in the cache itself, and
the images that it answers with. -/
structure Drawing where
  stored : List Icon := []
  images : Except DrawFailure (List Icon)

abbrev Drawer := List Request → Drawing

def Drawer.idle : Drawer := fun _ => { images := .ok [] }

end Symbology.Icon
