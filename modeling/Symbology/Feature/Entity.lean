import Symbology.Feature.Geometry
import Symbology.Feature.Identifier
import Symbology.Portrayal.Stroke
import Symbology.Portrayal.Symbol
import Symbology.Properties

namespace Symbology

structure Entity where
  id : EntityId
  properties : Properties
  geometry : Geometry
  position : Option Position
  polygon : Option Portrayal.Polygon := none
  polyline : Option Portrayal.Polyline := none
  billboard : Option Portrayal.Billboard := none
  label : Option Portrayal.Label := none
  model : Option Portrayal.Model := none
  leaderLines : List Portrayal.Polyline := []
  deriving Repr

def Entity.ofFeature (id : EntityId) (geometry : Geometry) (properties : Properties) : Entity :=
  { id, properties, geometry, position := geometry.anchor }

def Entity.isUnstyled (e : Entity) : Bool :=
  e.polygon.isNone && e.polyline.isNone && e.billboard.isNone && e.label.isNone &&
    e.model.isNone && e.leaderLines.isEmpty

theorem Entity.isUnstyled_ofFeature (id : EntityId) (g : Geometry) (ps : Properties) :
    (Entity.ofFeature id g ps).isUnstyled = true := rfl

end Symbology
