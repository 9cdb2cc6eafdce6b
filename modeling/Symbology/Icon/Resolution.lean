import Symbology.Notice

namespace Symbology.Icon

open Style (Symbolizer)

structure Resolution where
  icons : List (String × Icon) := []
  failures : List (String × IconFault) := []
  deriving Repr

def Resolution.lookup (r : Resolution) (id : String) : Except StyleError Icon :=
  match r.icons.lookup id with
  | some icon => .ok icon
  | none => .error (.iconResolution id ((r.failures.lookup id).getD .notRequested))

def Resolution.failedIds (r : Resolution) : List String :=
  (r.failures.map Prod.fst).mergeSort (· ≤ ·)

structure Resolved where
  resolution : Resolution
  cache : Cache
  batch : List Request
  notices : List Notice
  deriving Repr

abbrev ImageIds := Symbolizer → Option String

def needs (imageId : ImageIds) (seen : List String) : List Symbolizer → List Request
  | [] => []
  | s :: rest =>
      match if s.needsIcon then imageId s else none with
      | none => needs imageId seen rest
      | some id =>
          if seen.contains id then needs imageId seen rest
          else { id, symbolizer := s } :: needs imageId (id :: seen) rest

theorem not_mem_of_mem_needs {imageId : ImageIds} {seen : List String} {ss : List Symbolizer}
    {r : Request} (h : r ∈ needs imageId seen ss) : r.id ∉ seen := by
  induction ss generalizing seen with
  | nil => simp [needs] at h
  | cons s rest ih =>
      unfold needs at h
      split at h
      · exact ih h
      · next id _ =>
          split at h
          · exact ih h
          · next hid =>
              rcases List.mem_cons.1 h with rfl | h
              · simpa using hid
              · exact fun hr => ih h (List.mem_cons_of_mem _ hr)

def Drawing.cacheAfter (d : Drawing) (cache : Cache) : Cache :=
  let cache := cache.insertAll d.stored
  match d.images with
  | .ok icons => cache.insertAll icons
  | .error _ => cache

def Drawing.fault (d : Drawing) : IconFault :=
  match d.images with
  | .ok _ => .notDrawn
  | .error failure => .drawerFailed failure.message

def Drawing.notices (d : Drawing) (requested : Nat) : List Notice :=
  match d.images with
  | .ok _ => []
  | .error failure => [.drawerFailed requested failure]

def found (cache : Cache) (requests : List Request) : List (String × Icon) :=
  requests.filterMap fun r => (cache.get? r.id).map (r.id, ·)

def missing (cache : Cache) (requests : List Request) : List Request :=
  requests.filter fun r => !cache.contains r.id

/-- Resolving with a drawer that may have effects of its own, such as keeping a record of what it
is asked for. -/
def resolveVia [Monad m] (draw : List Request → m Drawing) (imageId : ImageIds) (cache : Cache)
    (ss : List Symbolizer) : m Resolved := do
  let needed := needs imageId [] ss
  let cached := found cache needed
  match missing cache needed with
  | [] => pure { resolution := { icons := cached }, cache, batch := [], notices := [] }
  | batch =>
      let drawing ← draw batch
      let after := drawing.cacheAfter cache
      pure
        { resolution :=
            { icons := cached ++ found after batch
              failures := (missing after batch).map fun r => (r.id, drawing.fault) }
          cache := after
          batch
          notices := .drawing batch.length cached.length :: drawing.notices batch.length }

def resolve (drawer : Drawer) (imageId : ImageIds) (cache : Cache) (ss : List Symbolizer) :
    Resolved :=
  (resolveVia (fun batch => pure (drawer batch)) imageId cache ss : Id Resolved).run

def resolveOne (drawer : Drawer) (imageId : ImageIds) (cache : Cache) (s : Symbolizer) :
    Except StyleError Icon × Resolved :=
  match imageId s with
  | none =>
      (.error (.iconResolution "" (.noIdentifier s.kind)),
        { resolution := {}, cache, batch := [], notices := [] })
  | some id =>
      let r := resolve drawer imageId cache [s]
      (r.resolution.lookup id, r)

end Symbology.Icon
