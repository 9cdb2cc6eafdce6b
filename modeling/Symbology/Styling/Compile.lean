import Symbology.Styling.Pass
import Symbology.Style.ImageId

namespace Symbology.Styling

structure Host where
  config : Config := {}
  drawer : Icon.Drawer := Icon.Drawer.idle
  imageId : Icon.ImageIds := Style.Symbolizer.imageId?
  evaluator : Filter.Evaluator := Filter.expressions

structure Compilation where
  result : Except StyleError Compiled
  cache : Icon.Cache
  batch : List Icon.Request := []
  notices : List Notice := []

def unavailable (r : Icon.Resolution) : List Notice :=
  (r.failures.map fun (id, _) => Notice.iconUnavailable id).mergeSort
    fun a b => a.message ≤ b.message

def Host.compile (h : Host) (cache : Icon.Cache) (d : Style.Document) : Compilation :=
  match d.defect? with
  | some e => { result := .error e, cache }
  | none =>
      let r := Icon.resolve h.drawer h.imageId cache d.symbolizers
      { result := .ok
          { document := d
            resolution := r.resolution
            imageId := h.imageId
            evaluator := h.evaluator
            config := h.config }
        cache := r.cache
        batch := r.batch
        notices := r.notices ++
          .compiled d.name d.rules.length r.resolution.icons.length :: unavailable r.resolution }

end Symbology.Styling
