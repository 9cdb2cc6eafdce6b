import Mathlib.Data.List.DropRight
import Symbology.Proofs.Icon.Batch

namespace Symbology.Icon

inductive Event where
  | stored (icon : Icon)
  | removed (id : String)
  | cleared
  deriving DecidableEq, Repr

namespace Event

def apply (cache : Cache) : Event → Cache
  | .stored icon => cache.insert icon
  | .removed id => cache.remove id
  | .cleared => .empty

def forgets (id : String) : Event → Bool
  | .stored _ => false
  | .removed gone => id = gone
  | .cleared => true

def arrival? (id : String) : Event → Option Icon
  | .stored icon => if icon.id = id then some icon else none
  | .removed _ => none
  | .cleared => none

theorem get?_apply (cache : Cache) (e : Event) (id : String) :
    (e.apply cache).get? id = if e.forgets id then none else (cache.get? id).or (e.arrival? id) := by
  cases e with
  | stored icon => exact Cache.get?_insert cache icon id
  | removed gone =>
      rw [apply, Cache.get?_remove, forgets, arrival?, Option.or_none]
      simp only [decide_eq_true_eq]
  | cleared => rfl

end Event

/-- In the order of time. -/
abbrev History := List Event

namespace History

variable (id : String) (es : History)

def cache : Cache := es.foldl Event.apply .empty

def sinceForgotten : History := es.rtakeWhile (!·.forgets id)

def firstStored? : Option Icon := (es.sinceForgotten id).findSome? (Event.arrival? id)

theorem cache_append_singleton (e : Event) : cache (es ++ [e]) = e.apply es.cache := by
  rw [cache, List.foldl_append]
  rfl

theorem firstStored?_append_singleton (e : Event) :
    firstStored? id (es ++ [e]) =
      if e.forgets id then none else (es.firstStored? id).or (e.arrival? id) := by
  rw [firstStored?, sinceForgotten, List.rtakeWhile_concat]
  cases hforgets : e.forgets id with
  | true => rfl
  | false =>
      have hlast : [e].findSome? (Event.arrival? id) = e.arrival? id := by
        cases h : e.arrival? id <;> simp [h]
      simp only [Bool.not_false, if_true, Bool.false_eq_true, if_false, List.findSome?_append,
        hlast]
      rfl

theorem get?_cache : es.cache.get? id = es.firstStored? id := by
  induction es using List.reverseRecOn with
  | nil => rfl
  | append_singleton rest e ih =>
      rw [cache_append_singleton, Event.get?_apply, ih, firstStored?_append_singleton]

theorem cache_append_stored (icons : List Icon) :
    cache (es ++ icons.map Event.stored) = es.cache.insertAll icons := by
  rw [cache, List.foldl_append, List.foldl_map]
  rfl

end History
end Symbology.Icon
