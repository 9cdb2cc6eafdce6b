import Symbology.Proofs.Icon.Batch

namespace Symbology.Icon

open Style (Symbolizer)

variable {drawer : Drawer} {imageId : ImageIds} {cache : Cache} {ss : List Symbolizer}

theorem mem_of_lookup {α : Type} {entries : List (String × α)} {id : String} {a : α}
    (h : entries.lookup id = some a) : (id, a) ∈ entries := by
  obtain ⟨before, after, rfl, _⟩ := List.lookup_eq_some_iff.1 h
  simp

theorem lookup_eq_some_iff_mem {α : Type} {entries : List (String × α)} {id : String} {a : α}
    (hnodup : (entries.map Prod.fst).Nodup) :
    entries.lookup id = some a ↔ (id, a) ∈ entries := by
  constructor
  · exact mem_of_lookup
  · intro h
    obtain ⟨before, after, rfl⟩ := List.append_of_mem h
    rw [List.map_append, List.map_cons] at hnodup
    have hfirst : id ∉ before.map Prod.fst := fun hmem =>
      (List.nodup_append.1 hnodup).2.2 id hmem id List.mem_cons_self rfl
    refine List.lookup_eq_some_iff.2 ⟨before, after, rfl, fun p hp => ?_⟩
    rw [bne_iff_ne]
    rintro rfl
    exact hfirst (List.mem_map_of_mem hp)

theorem not_mem_of_lookup {α : Type} {entries : List (String × α)} {id : String}
    (h : entries.lookup id = none) : id ∉ entries.map Prod.fst := by
  intro hmem
  obtain ⟨p, hp, rfl⟩ := List.mem_map.1 hmem
  have hne := List.lookup_eq_none_iff.1 h p hp
  simp at hne

theorem mem_ids_resolution {id : String} :
    (id ∈ (resolve drawer imageId cache ss).resolution.icons.map Prod.fst ∨
      id ∈ (resolve drawer imageId cache ss).resolution.failures.map Prod.fst) ↔
      id ∈ neededIds imageId ss := by
  rw [← List.mem_append, ids_resolution_perm.mem_iff]
  exact mem_ids_needs

theorem Resolution.lookup_eq_ok_iff {r : Resolution} {id : String} {icon : Icon} :
    r.lookup id = .ok icon ↔ r.icons.lookup id = some icon := by
  rw [Resolution.lookup]
  cases r.icons.lookup id <;> simp

theorem nodup_ids_icons :
    ((resolve drawer imageId cache ss).resolution.icons.map Prod.fst).Nodup :=
  (List.nodup_append.1 (ids_resolution_perm.nodup_iff.2 (nodup_ids_needs [] ss))).1

theorem lookup_eq_fault_of_needed {id : String} {e : StyleError} (hid : id ∈ neededIds imageId ss)
    (h : (resolve drawer imageId cache ss).resolution.lookup id = .error e) :
    e = .iconResolution id (drawer (resolve drawer imageId cache ss).batch).fault := by
  rw [Resolution.lookup] at h
  split at h
  · cases h
  · next hnone =>
      cases h
      rcases mem_ids_resolution.2 hid with hicons | hfailures
      · exact absurd hicons (not_mem_of_lookup hnone)
      · cases hfault : (resolve drawer imageId cache ss).resolution.failures.lookup id with
        | none => exact absurd hfailures (not_mem_of_lookup hfault)
        | some fault => rw [Option.getD_some, fault_of_mem_failures (mem_of_lookup hfault)]

structure Settled (drawer : Drawer) (imageId : ImageIds) (cache : Cache) (ss : List Symbolizer)
    (r : Resolved) : Prop where
  asked : ∀ record, (resolveVia drawer.recorded imageId cache ss).run record =
    (r, if (neededIds imageId ss).all cache.contains then record else record ++ [r.batch])
  batch_ids : r.batch.map Request.id = (neededIds imageId ss).eraseDups.filter (!cache.contains ·)
  batch_nodup : (r.batch.map Request.id).Nodup
  batch_symbolizer : ∀ q ∈ r.batch,
    ss.find? (neededId? imageId · = some q.id) = some q.symbolizer
  ids_nodup : (r.resolution.icons.map Prod.fst ++ r.resolution.failures.map Prod.fst).Nodup
  ids_needed : ∀ id, (id ∈ r.resolution.icons.map Prod.fst ∨
    id ∈ r.resolution.failures.map Prod.fst) ↔ id ∈ neededIds imageId ss
  lookup_needed : ∀ id ∈ neededIds imageId ss, ∀ e, r.resolution.lookup id = .error e →
    ∃ fault, e = .iconResolution id fault ∧
      fault.message ≠ "icon was not part of the resolution batch"
  handed : ∀ id icon, r.resolution.lookup id = .ok icon ↔ (id, icon) ∈ r.resolution.icons
  held : ∀ id icon, (id, icon) ∈ r.resolution.icons →
    icon.id = id ∧ r.cache.get? id = some icon
  kept : ∀ id icon, cache.get? id = some icon → r.cache.get? id = some icon
  gained : ∀ id, cache.get? id = none → r.cache.get? id =
    if r.batch = [] then none else (drawer r.batch).arrivals.find? (·.id = id)
  unchanged : r.batch = [] ∨ (drawer r.batch).stored = [] ∧
    (∃ failure, (drawer r.batch).images = .error failure) → r.cache = cache

theorem resolve_settled (drawer : Drawer) (imageId : ImageIds) (cache : Cache)
    (ss : List Symbolizer) :
    Settled drawer imageId cache ss (resolve drawer imageId cache ss) where
  asked record := by
    rw [resolveVia_recorded]
    by_cases h : (resolve drawer imageId cache ss).batch = []
    · rw [if_pos h, if_pos (batch_eq_nil_iff.1 h)]
    · rw [if_neg h, if_neg (fun hall => h (batch_eq_nil_iff.2 hall))]
  batch_ids := by
    have hall : (neededIds imageId ss).filter (!([] : List String).contains ·) =
        neededIds imageId ss := List.filter_eq_self.2 (by simp)
    rw [batch_resolve, ids_missing, ids_needs, hall]
  batch_nodup := by
    rw [batch_resolve, ids_missing]
    exact (nodup_ids_needs [] ss).filter _
  batch_symbolizer q hq := by
    rw [batch_resolve] at hq
    exact find?_of_mem_needs (List.mem_filter.1 hq).1
  ids_nodup := ids_resolution_perm.nodup_iff.2 (nodup_ids_needs [] ss)
  ids_needed _ := mem_ids_resolution
  lookup_needed id hid e h :=
    ⟨_, lookup_eq_fault_of_needed hid h, Drawing.message_fault_ne _⟩
  handed _ _ := by
    rw [Resolution.lookup_eq_ok_iff]
    exact lookup_eq_some_iff_mem nodup_ids_icons
  held id icon h :=
    have hget := held_of_mem_icons h
    ⟨Cache.id_of_get? hget, hget⟩
  kept _ _ h := get?_cache_resolve h
  gained id h := by
    rw [cache_resolve]
    split
    · exact h
    · rw [Cache.get?_insertAll, h, Option.none_or]
  unchanged h := by
    rw [cache_resolve]
    split
    · rfl
    · next hasked =>
        obtain ⟨hstored, failure, hfailure⟩ := h.resolve_left hasked
        simp [Drawing.arrivals, hfailure, hstored, Cache.insertAll]

end Symbology.Icon
