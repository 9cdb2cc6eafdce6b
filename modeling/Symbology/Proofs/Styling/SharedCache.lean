import Symbology.Proofs.Icon.History
import Symbology.Proofs.Icon.Settled
import Symbology.Styling.Compile

namespace Symbology

open Icon (Event History neededIds)

namespace Icon

variable {drawer : Drawer} {imageId : ImageIds} {cache : Cache} {ss : List Style.Symbolizer}
  {id : String} {icon : Icon}

theorem not_mem_batch_of_held (hheld : cache.get? id = some icon) :
    id ∉ (resolve drawer imageId cache ss).batch.map Request.id := by
  have hcontains : cache.contains id = true := by rw [Cache.contains, hheld, Option.isSome_some]
  rw [batch_resolve, ids_missing]
  simp [hcontains]

theorem mem_batch_of_mem_failures
    (h : id ∈ (resolve drawer imageId cache ss).resolution.failures.map Prod.fst) :
    id ∈ (resolve drawer imageId cache ss).batch.map Request.id := by
  rw [failures_resolve, List.map_map] at h
  obtain ⟨q, hq, hid⟩ := List.mem_map.1 h
  exact List.mem_map.2 ⟨q, (List.mem_filter.1 hq).1, hid⟩

theorem lookup_eq_ok {r : Resolution} : r.lookup id = .ok icon ↔ r.icons.lookup id = some icon := by
  rw [Resolution.lookup]
  cases r.icons.lookup id <;> simp

theorem lookup_of_held (hheld : cache.get? id = some icon) (hid : id ∈ neededIds imageId ss) :
    (resolve drawer imageId cache ss).resolution.lookup id = .ok icon := by
  rw [lookup_eq_ok]
  cases hlookup : (resolve drawer imageId cache ss).resolution.icons.lookup id with
  | none =>
      rcases mem_ids_resolution.2 hid with hicons | hfailures
      · exact absurd hicons (not_mem_of_lookup hlookup)
      · exact absurd (mem_batch_of_mem_failures hfailures) (not_mem_batch_of_held hheld)
  | some other =>
      have hafter := held_of_mem_icons (mem_of_lookup hlookup)
      rw [get?_cache_resolve hheld] at hafter
      exact hafter.symm

end Icon

namespace Styling

namespace Host

variable {h : Host} {cache : Icon.Cache} {d : Style.Document} {c : Compiled} {id : String}
  {icon : Icon}

theorem compile_of_defect {e : StyleError} (hd : d.defect? = some e) :
    h.compile cache d = { result := .error e, cache } := by
  rw [compile, hd]

theorem compile_of_checked (hd : d.defect? = none) :
    (h.compile cache d).cache = (Icon.resolve h.drawer h.imageId cache d.symbolizers).cache ∧
      (h.compile cache d).batch = (Icon.resolve h.drawer h.imageId cache d.symbolizers).batch := by
  rw [compile, hd]
  exact ⟨rfl, rfl⟩

theorem resolved_of_compile (hc : (h.compile cache d).result = .ok c) :
    c.resolution = (Icon.resolve h.drawer h.imageId cache d.symbolizers).resolution ∧
      (h.compile cache d).cache = (Icon.resolve h.drawer h.imageId cache d.symbolizers).cache := by
  cases hd : d.defect? with
  | some e =>
      rw [compile_of_defect hd] at hc
      cases hc
  | none =>
      refine ⟨?_, (compile_of_checked hd).1⟩
      rw [compile, hd] at hc
      cases hc
      rfl

theorem cache_compile :
    (h.compile cache d).cache =
      if (h.compile cache d).batch = [] then cache
      else cache.insertAll (h.drawer (h.compile cache d).batch).arrivals := by
  cases hd : d.defect? with
  | some e =>
      rw [compile_of_defect hd]
      rfl
  | none => rw [(compile_of_checked hd).1, (compile_of_checked hd).2, ← Icon.cache_resolve]

theorem unasked_of_held (hheld : cache.get? id = some icon) :
    id ∉ (h.compile cache d).batch.map Icon.Request.id := by
  cases hd : d.defect? with
  | some e =>
      rw [compile_of_defect hd]
      exact List.not_mem_nil
  | none =>
      rw [(compile_of_checked hd).2]
      exact Icon.not_mem_batch_of_held hheld

theorem lookup_compile_of_held (hc : (h.compile cache d).result = .ok c)
    (hheld : cache.get? id = some icon) (hid : id ∈ neededIds h.imageId d.symbolizers) :
    c.resolution.lookup id = .ok icon := by
  rw [(resolved_of_compile hc).1]
  exact Icon.lookup_of_held hheld hid

theorem held_of_lookup_compile (hc : (h.compile cache d).result = .ok c)
    (hlookup : c.resolution.lookup id = .ok icon) :
    (h.compile cache d).cache.get? id = some icon := by
  rw [(resolved_of_compile hc).1, Icon.lookup_eq_ok] at hlookup
  rw [(resolved_of_compile hc).2]
  exact Icon.held_of_mem_icons (Icon.mem_of_lookup hlookup)

end Host

inductive Operation where
  | insert (icon : Icon)
  | remove (id : String)
  | clear
  | write (host : Host) (document : Style.Document)

namespace Operation

def perform (cache : Icon.Cache) : Operation → Icon.Cache
  | .insert icon => cache.insert icon
  | .remove id => cache.remove id
  | .clear => .empty
  | .write h d => (h.compile cache d).cache

def events (cache : Icon.Cache) : Operation → History
  | .insert icon => [.stored icon]
  | .remove id => [.removed id]
  | .clear => [.cleared]
  | .write h d =>
      if (h.compile cache d).batch = [] then []
      else (h.drawer (h.compile cache d).batch).arrivals.map .stored

def forgets (id : String) : Operation → Bool
  | .remove gone => id = gone
  | .clear => true
  | .insert _ | .write _ _ => false

def run (cache : Icon.Cache) (ops : List Operation) : Icon.Cache :=
  ops.foldl perform cache

def log (cache : Icon.Cache) : List Operation → History
  | [] => []
  | op :: rest => op.events cache ++ log (op.perform cache) rest

variable {cache : Icon.Cache} {id : String} {icon : Icon}

theorem perform_eq (es : History) (op : Operation) :
    op.perform es.cache = History.cache (es ++ op.events es.cache) := by
  cases op with
  | insert icon => exact (es.cache_append_singleton (.stored icon)).symm
  | remove id => exact (es.cache_append_singleton (.removed id)).symm
  | clear => exact (es.cache_append_singleton .cleared).symm
  | write h d =>
      rw [perform, Host.cache_compile, events]
      split
      · rw [List.append_nil]
      · rw [History.cache_append_stored]

theorem run_eq (es : History) (ops : List Operation) :
    run es.cache ops = History.cache (es ++ log es.cache ops) := by
  induction ops generalizing es with
  | nil => rw [log, List.append_nil, run, List.foldl_nil]
  | cons op rest ih =>
      rw [log, ← List.append_assoc, perform_eq, ← ih, ← perform_eq]
      rfl

theorem get?_perform_of_held {op : Operation} (hkept : op.forgets id = false)
    (hheld : cache.get? id = some icon) : (op.perform cache).get? id = some icon := by
  cases op with
  | insert other => rw [perform, Icon.Cache.get?_insert, hheld, Option.some_or]
  | remove gone =>
      rw [forgets, decide_eq_false_iff_not] at hkept
      rw [perform, Icon.Cache.get?_remove, if_neg hkept, hheld]
  | clear => cases hkept
  | write h d =>
      rw [perform, Host.cache_compile]
      split
      · exact hheld
      · rw [Icon.Cache.get?_insertAll, hheld, Option.some_or]

theorem get?_run_of_held {ops : List Operation} (hkept : ∀ op ∈ ops, op.forgets id = false)
    (hheld : cache.get? id = some icon) : (run cache ops).get? id = some icon := by
  induction ops generalizing cache with
  | nil => exact hheld
  | cons op rest ih =>
      have hnext := get?_perform_of_held (hkept op List.mem_cons_self) hheld
      exact ih (fun other hother => hkept other (List.mem_cons_of_mem op hother)) hnext

structure Shared (ops : List Operation) (cache : Icon.Cache) : Prop where
  /-- The log ends in the cache. At each of its moments the cache holds what came in first. -/
  logged : cache = History.cache (log .empty ops)
  moments : ∀ es : History, es <+: log .empty ops → ∀ id,
    es.cache.get? id = es.firstStored? id ∧ ∀ icon, es.cache.get? id = some icon → icon.id = id
  kept : ∀ id icon, cache.get? id = some icon → ∀ later : List Operation,
    (∀ op ∈ later, op.forgets id = false) → (run cache later).get? id = some icon
  unasked : ∀ id icon, cache.get? id = some icon → ∀ (h : Host) (d : Style.Document),
    id ∉ (h.compile cache d).batch.map Icon.Request.id
  resolved : ∀ id icon, cache.get? id = some icon → ∀ (h : Host) (d : Style.Document)
    (c : Compiled), (h.compile cache d).result = .ok c →
    id ∈ neededIds h.imageId d.symbolizers → c.resolution.lookup id = .ok icon
  agreed : ∀ id icon (h : Host) (d : Style.Document) (c : Compiled),
    (h.compile cache d).result = .ok c → c.resolution.lookup id = .ok icon →
    ∀ later : List Operation, (∀ op ∈ later, op.forgets id = false) →
    ∀ (h' : Host) (d' : Style.Document) (c' : Compiled),
      (h'.compile (run (h.compile cache d).cache later) d').result = .ok c' →
      id ∈ neededIds h'.imageId d'.symbolizers → c'.resolution.lookup id = .ok icon

theorem run_shared (ops : List Operation) : Shared ops (run .empty ops) where
  logged := run_eq [] ops
  moments es _ id := ⟨es.get?_cache id, fun _ h => Icon.Cache.id_of_get? h⟩
  kept _ _ hheld _ hkept := get?_run_of_held hkept hheld
  unasked _ _ hheld _ _ := Host.unasked_of_held hheld
  resolved _ _ hheld _ _ _ hc hid := Host.lookup_compile_of_held hc hheld hid
  agreed _ _ _ _ _ hc hlookup _ hkept _ _ _ hc' hid := by
    have hheld := get?_run_of_held hkept (Host.held_of_lookup_compile hc hlookup)
    exact Host.lookup_compile_of_held hc' hheld hid

end Operation
end Styling
end Symbology
