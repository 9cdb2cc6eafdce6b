import Symbology.Feature.Entity

namespace Symbology

structure Collection where
  entities : List Entity := []
  /-- Indices of the entities; what is drawn last lies on top. -/
  drawOrder : List Nat := []
  deriving Repr

namespace Collection

def ofList (es : List Entity) : Collection where
  entities := es
  drawOrder := List.range es.length

def push (c : Collection) (e : Entity) : Collection where
  entities := c.entities ++ [e]
  drawOrder := c.drawOrder ++ [c.entities.length]

def size (c : Collection) : Nat :=
  c.entities.length

def get? (c : Collection) (i : Nat) : Option Entity :=
  c.entities[i]?

def drawn (c : Collection) : List Entity :=
  c.drawOrder.filterMap c.get?

def orderOf (inFront : List Bool) : List Nat :=
  let indices := List.range inFront.length
  indices.filter (inFront[·]? = some false) ++ indices.filter (inFront[·]? = some true)

end Collection
end Symbology
