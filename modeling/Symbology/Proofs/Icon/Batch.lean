import Symbology.Icon.Resolution

namespace Symbology.Icon

open Style (Symbolizer)

variable {drawer : Drawer} {imageId : ImageIds} {cache : Cache} {ss : List Symbolizer}

def neededId? (imageId : ImageIds) (s : Symbolizer) : Option String :=
  if s.needsIcon then imageId s else none

def neededIds (imageId : ImageIds) (ss : List Symbolizer) : List String :=
  ss.filterMap (neededId? imageId)

theorem ids_needs (seen : List String) (ss : List Symbolizer) :
    (needs imageId seen ss).map Request.id =
      ((neededIds imageId ss).filter (!seen.contains ·)).eraseDups := by
  induction ss generalizing seen with
  | nil => simp [needs, neededIds]
  | cons s rest ih =>
      unfold needs
      cases hs : neededId? imageId s with
      | none =>
          have hn : neededIds imageId (s :: rest) = neededIds imageId rest := by
            simp [neededIds, hs]
          rw [neededId?] at hs
          simp only [hs, hn]
          exact ih seen
      | some id =>
          have hn : neededIds imageId (s :: rest) = id :: neededIds imageId rest := by
            simp [neededIds, hs]
          rw [neededId?] at hs
          simp only [hs, hn, List.filter_cons]
          by_cases hseen : seen.contains id = true
          · simp only [hseen, if_true, Bool.not_true, Bool.false_eq_true, if_false]
            exact ih seen
          · have hfresh : ∀ b, (!(id :: seen).contains b) = (!(b == id) && !seen.contains b) := by
              intro b
              by_cases hb : b = id <;> simp [hb]
            simp only [hseen, Bool.false_eq_true, if_false, Bool.not_false, if_true,
              List.map_cons, List.eraseDups_cons, List.filter_filter]
            rw [ih (id :: seen), funext hfresh]

theorem nodup_ids_needs (seen : List String) (ss : List Symbolizer) :
    ((needs imageId seen ss).map Request.id).Nodup := by
  induction ss generalizing seen with
  | nil => simp [needs]
  | cons s rest ih =>
      unfold needs
      split
      · exact ih seen
      · next id _ =>
          split
          · exact ih seen
          · rw [List.map_cons, List.nodup_cons]
            refine ⟨?_, ih (id :: seen)⟩
            intro hmem
            obtain ⟨q, hq, hid⟩ := List.mem_map.1 hmem
            have hnew : q.id ∉ id :: seen := not_mem_of_mem_needs hq
            exact hnew (by simp [hid])

theorem find?_of_mem_needs {seen : List String} {q : Request} (h : q ∈ needs imageId seen ss) :
    ss.find? (neededId? imageId · = some q.id) = some q.symbolizer := by
  induction ss generalizing seen with
  | nil => simp [needs] at h
  | cons s rest ih =>
      have hnew : q.id ∉ seen := not_mem_of_mem_needs h
      unfold needs at h
      split at h
      · next hs =>
          have hne : neededId? imageId s ≠ some q.id := by simp [neededId?, hs]
          rw [List.find?_cons_of_neg (by simpa using hne)]
          exact ih h
      · next id hs =>
          have hid : neededId? imageId s = some id := by simpa [neededId?] using hs
          split at h
          · next hseen =>
              have hne : id ≠ q.id := by
                rintro rfl
                exact hnew (by simpa using hseen)
              rw [List.find?_cons_of_neg (by simp [hid, hne])]
              exact ih h
          · rcases List.mem_cons.1 h with rfl | h
            · rw [List.find?_cons_of_pos (by simp [hid])]
            · have hne : id ≠ q.id := by
                have hlater : q.id ∉ id :: seen := not_mem_of_mem_needs h
                rintro rfl
                exact hlater (by simp)
              rw [List.find?_cons_of_neg (by simp [hid, hne])]
              exact ih h

theorem mem_ids_needs {id : String} :
    id ∈ (needs imageId [] ss).map Request.id ↔ id ∈ neededIds imageId ss := by
  rw [ids_needs, List.mem_eraseDups]
  simp

@[simp] theorem found_nil (cache : Cache) : found cache [] = [] := rfl

theorem ids_missing (cache : Cache) (requests : List Request) :
    (missing cache requests).map Request.id =
      (requests.map Request.id).filter (!cache.contains ·) := by
  rw [missing, List.filter_map]
  rfl

theorem ids_found (cache : Cache) (requests : List Request) :
    (found cache requests).map Prod.fst = (requests.map Request.id).filter cache.contains := by
  induction requests with
  | nil => rfl
  | cons q rest ih =>
      have hcons : (found cache (q :: rest)).map Prod.fst =
          (((cache.get? q.id).map (q.id, ·)).toList.map Prod.fst) ++
            (found cache rest).map Prod.fst := by
        cases h : cache.get? q.id <;> simp [found, h]
      rw [hcons, ih, List.map_cons, List.filter_cons]
      cases h : cache.get? q.id <;> simp [Cache.contains, h]

theorem get?_of_mem_found {requests : List Request} {id : String} {icon : Icon}
    (h : (id, icon) ∈ found cache requests) : cache.get? id = some icon := by
  obtain ⟨q, _, hq⟩ := List.mem_filterMap.1 h
  obtain ⟨i, hi, heq⟩ := Option.map_eq_some_iff.1 hq
  cases heq
  exact hi

theorem ids_found_missing_perm (cache : Cache) (requests : List Request) :
    ((found cache requests).map Prod.fst ++ (missing cache requests).map Request.id).Perm
      (requests.map Request.id) := by
  rw [ids_found, ids_missing]
  exact List.filter_append_perm cache.contains (requests.map Request.id)

theorem Cache.get?_insertAll (cache : Cache) (icons : List Icon) (id : String) :
    (cache.insertAll icons).get? id = (cache.get? id).or (icons.find? (·.id = id)) := by
  induction icons generalizing cache with
  | nil => simp [insertAll]
  | cons i rest ih =>
      have hstep : cache.insertAll (i :: rest) = (cache.insert i).insertAll rest := rfl
      rw [hstep, ih, get?_insert, Option.or_assoc]
      by_cases h : i.id = id <;> simp [h]

theorem Cache.insertAll_append (cache : Cache) (icons more : List Icon) :
    cache.insertAll (icons ++ more) = (cache.insertAll icons).insertAll more := by
  simp [insertAll]

def Drawing.arrivals (d : Drawing) : List Icon :=
  match d.images with
  | .ok icons => d.stored ++ icons
  | .error _ => d.stored

theorem Drawing.cacheAfter_eq (d : Drawing) (cache : Cache) :
    d.cacheAfter cache = cache.insertAll d.arrivals := by
  rw [cacheAfter, arrivals]
  cases d.images with
  | error _ => rfl
  | ok icons => exact (Cache.insertAll_append cache d.stored icons).symm

theorem message_drawerFailed_ne (detail : String) :
    (IconFault.drawerFailed detail).message ≠ "icon was not part of the resolution batch" := by
  intro h
  have hsixth : ("icon drawer failed: " ++ detail).toList[5]? =
      "icon was not part of the resolution batch".toList[5]? := congrArg (·.toList[5]?) h
  rw [String.toList_append, List.getElem?_append_left (by decide)] at hsixth
  exact absurd hsixth (by decide)

theorem Drawing.message_fault_ne (d : Drawing) :
    d.fault.message ≠ "icon was not part of the resolution batch" := by
  rw [fault]
  cases d.images with
  | ok icons =>
      have hmessage : IconFault.notDrawn.message = "icon drawer returned no image" := rfl
      rw [hmessage]
      decide
  | error failure => exact message_drawerFailed_ne failure.message

theorem resolve_of_missing_nil (h : missing cache (needs imageId [] ss) = []) :
    resolve drawer imageId cache ss =
      { resolution := { icons := found cache (needs imageId [] ss) }
        cache
        batch := []
        notices := [] } := by
  rw [resolve, resolveVia]
  simp [h]

theorem resolve_of_missing_cons {q : Request} {rest : List Request}
    (h : missing cache (needs imageId [] ss) = q :: rest) :
    resolve drawer imageId cache ss =
      let drawing := drawer (q :: rest)
      let after := cache.insertAll drawing.arrivals
      let cached := found cache (needs imageId [] ss)
      { resolution :=
          { icons := cached ++ found after (q :: rest)
            failures := (missing after (q :: rest)).map fun r => (r.id, drawing.fault) }
        cache := after
        batch := q :: rest
        notices := .drawing (q :: rest).length cached.length ::
          drawing.notices (q :: rest).length } := by
  rw [resolve, resolveVia]
  simp [h, Drawing.cacheAfter_eq]

theorem batch_resolve :
    (resolve drawer imageId cache ss).batch = missing cache (needs imageId [] ss) := by
  cases h : missing cache (needs imageId [] ss) with
  | nil => rw [resolve_of_missing_nil h]
  | cons q rest => rw [resolve_of_missing_cons h]

theorem cache_resolve :
    (resolve drawer imageId cache ss).cache =
      if (resolve drawer imageId cache ss).batch = [] then cache
      else cache.insertAll (drawer (resolve drawer imageId cache ss).batch).arrivals := by
  cases h : missing cache (needs imageId [] ss) with
  | nil => rw [resolve_of_missing_nil h, if_pos rfl]
  | cons q rest => rw [resolve_of_missing_cons h, if_neg (List.cons_ne_nil q rest)]

theorem icons_resolve :
    (resolve drawer imageId cache ss).resolution.icons =
      found cache (needs imageId [] ss) ++
        found (resolve drawer imageId cache ss).cache (resolve drawer imageId cache ss).batch := by
  cases h : missing cache (needs imageId [] ss) with
  | nil => rw [resolve_of_missing_nil h, found_nil, List.append_nil]
  | cons q rest => rw [resolve_of_missing_cons h]

theorem failures_resolve :
    (resolve drawer imageId cache ss).resolution.failures =
      (missing (resolve drawer imageId cache ss).cache (resolve drawer imageId cache ss).batch).map
        fun q => (q.id, (drawer (resolve drawer imageId cache ss).batch).fault) := by
  cases h : missing cache (needs imageId [] ss) with
  | nil =>
      rw [resolve_of_missing_nil h]
      rfl
  | cons q rest => rw [resolve_of_missing_cons h]

theorem batch_eq_nil_iff :
    (resolve drawer imageId cache ss).batch = [] ↔
      (neededIds imageId ss).all cache.contains = true := by
  rw [batch_resolve, ← List.map_eq_nil_iff (f := Request.id), ids_missing, List.filter_eq_nil_iff,
    List.all_eq_true]
  constructor
  · intro h id hid
    simpa using h id (mem_ids_needs.2 hid)
  · intro h id hid
    simpa using h id (mem_ids_needs.1 hid)

def Drawer.recorded (drawer : Drawer) (batch : List Request) :
    StateM (List (List Request)) Drawing := do
  modify (· ++ [batch])
  pure (drawer batch)

theorem resolveVia_recorded (asked : List (List Request)) :
    (resolveVia drawer.recorded imageId cache ss).run asked =
      (resolve drawer imageId cache ss,
        if (resolve drawer imageId cache ss).batch = [] then asked
        else asked ++ [(resolve drawer imageId cache ss).batch]) := by
  rw [batch_resolve, resolve, resolveVia, resolveVia]
  cases missing cache (needs imageId [] ss) with
  | nil => rfl
  | cons q rest => rfl

theorem ids_resolution_perm :
    ((resolve drawer imageId cache ss).resolution.icons.map Prod.fst ++
      (resolve drawer imageId cache ss).resolution.failures.map Prod.fst).Perm
      ((needs imageId [] ss).map Request.id) := by
  have hfailures : (resolve drawer imageId cache ss).resolution.failures.map Prod.fst =
      (missing (resolve drawer imageId cache ss).cache
        (resolve drawer imageId cache ss).batch).map Request.id := by
    rw [failures_resolve, List.map_map]
    rfl
  rw [hfailures, icons_resolve, List.map_append, List.append_assoc]
  have hdrawn := ids_found_missing_perm (resolve drawer imageId cache ss).cache
    (resolve drawer imageId cache ss).batch
  have hcached := ids_found_missing_perm cache (needs imageId [] ss)
  have hbatch : missing cache (needs imageId [] ss) =
      (resolve drawer imageId cache ss).batch := batch_resolve.symm
  rw [hbatch] at hcached
  exact (hdrawn.append_left _).trans hcached

theorem get?_cache_resolve {id : String} {icon : Icon} (h : cache.get? id = some icon) :
    (resolve drawer imageId cache ss).cache.get? id = some icon := by
  rw [cache_resolve]
  split
  · exact h
  · rw [Cache.get?_insertAll, h, Option.some_or]

theorem held_of_mem_icons {id : String} {icon : Icon}
    (h : (id, icon) ∈ (resolve drawer imageId cache ss).resolution.icons) :
    (resolve drawer imageId cache ss).cache.get? id = some icon := by
  rw [icons_resolve] at h
  rcases List.mem_append.1 h with hcached | hdrawn
  · exact get?_cache_resolve (get?_of_mem_found hcached)
  · exact get?_of_mem_found hdrawn

theorem fault_of_mem_failures {id : String} {fault : IconFault}
    (h : (id, fault) ∈ (resolve drawer imageId cache ss).resolution.failures) :
    fault = (drawer (resolve drawer imageId cache ss).batch).fault := by
  rw [failures_resolve] at h
  obtain ⟨q, _, hq⟩ := List.mem_map.1 h
  cases hq
  rfl

end Symbology.Icon
