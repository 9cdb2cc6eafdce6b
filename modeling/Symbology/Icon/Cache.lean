import Symbology.Icon.Basic

namespace Symbology.Icon

structure Cache where
  icons : List Icon
  ids_nodup : (icons.map Icon.id).Nodup
  deriving DecidableEq, Repr

namespace Cache

def empty : Cache := ⟨[], List.nodup_nil⟩

def get? (c : Cache) (id : String) : Option Icon :=
  c.icons.find? (·.id = id)

def contains (c : Cache) (id : String) : Bool :=
  (c.get? id).isSome

def size (c : Cache) : Nat :=
  c.icons.length

def isEmpty (c : Cache) : Bool :=
  c.icons.isEmpty

theorem id_of_get? {c : Cache} {id : String} {i : Icon} (h : c.get? id = some i) : i.id = id := by
  simpa using List.find?_some h

theorem not_mem_of_get? {c : Cache} {id : String} (h : c.get? id = none) :
    id ∉ c.icons.map Icon.id := by
  simp only [get?, List.find?_eq_none, decide_eq_true_eq] at h
  simp only [List.mem_map, not_exists, not_and]
  exact h

def insert (c : Cache) (i : Icon) : Cache :=
  match h : c.get? i.id with
  | some _ => c
  | none =>
      { icons := c.icons ++ [i]
        ids_nodup := by
          have h := not_mem_of_get? h
          rw [List.map_append, List.nodup_append]
          refine ⟨c.ids_nodup, by simp, ?_⟩
          intro a ha b hb
          simp only [List.map_cons, List.map_nil, List.mem_singleton] at hb
          rintro rfl
          exact h (hb ▸ ha) }

def insertAll (c : Cache) (icons : List Icon) : Cache :=
  icons.foldl insert c

def remove (c : Cache) (id : String) : Cache where
  icons := c.icons.filter (·.id ≠ id)
  ids_nodup := c.ids_nodup.sublist (List.Sublist.map _ List.filter_sublist)

theorem get?_insert (c : Cache) (i : Icon) (id : String) :
    (c.insert i).get? id = (c.get? id).or (if i.id = id then some i else none) := by
  unfold insert
  split
  · next j h =>
      by_cases hid : i.id = id
      · subst hid
        simp [h]
      · simp [hid]
  · by_cases hid : i.id = id <;> simp [get?, List.find?_append, hid]

theorem get?_remove (c : Cache) (id' id : String) :
    (c.remove id').get? id = if id = id' then none else c.get? id := by
  simp only [get?, remove, List.find?_filter]
  split
  · next h =>
      subst h
      simp
  · next h =>
      congr 1
      funext i
      by_cases hi : i.id = id
      · simp [hi, h]
      · simp [hi]

end Cache
end Symbology.Icon
