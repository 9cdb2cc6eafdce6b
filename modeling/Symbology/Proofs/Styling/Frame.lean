import Mathlib.Data.List.Forall2
import Symbology.Proofs.Styling.LeaderEnds
import Symbology.Proofs.Styling.Repeated
import Symbology.Proofs.Styling.SingleLeader

namespace Symbology

open Style (Symbolizer)
open Styling.Compiled (lastHeight? shownAt shownAt_append)

namespace Geometry

variable {g : Geometry}

theorem not_isPoint_of_isLine (h : g.isLine = true) : ¬g.isPoint = true := by
  cases g <;> simp_all [isPoint, isLine]

theorem not_isPoint_of_isPolygon (h : g.isPolygon = true) : ¬g.isPoint = true := by
  cases g <;> simp_all [isPoint, isPolygon]

theorem not_isLine_of_isPolygon (h : g.isPolygon = true) : ¬g.isLine = true := by
  cases g <;> simp_all [isLine, isPolygon]

end Geometry

theorem shownAt_singleton (s : Symbolizer) (e : Entity) :
    shownAt e [s] = (Styling.raise s e).position := by
  rw [Styling.position_raise, shownAt, lastHeight?, List.filterMap_cons]
  cases s.displayHeight? <;> rfl

structure Framed (ss : List Symbolizer) (e e' : Entity) : Prop where
  feature : SameFeature e e'
  unstyled : ss = [] → e' = e
  onPoint : e.geometry.isPoint = true →
    e'.polygon = e.polygon ∧ e'.polyline = e.polyline ∧ e'.position = shownAt e ss
  onLine : e.geometry.isLine = true → ∃ polyline, e' = { e with polyline }
  onPolygon : e.geometry.isPolygon = true → ∃ polygon polyline, e' = { e with polygon, polyline }

namespace Framed

theorem refl (e : Entity) : Framed [] e e where
  feature := .refl e
  unstyled _ := rfl
  onPoint _ := by simp [shownAt, lastHeight?]
  onLine _ := ⟨e.polyline, rfl⟩
  onPolygon _ := ⟨e.polygon, e.polyline, rfl⟩

theorem trans {ss ts : List Symbolizer} {a b c : Entity} (h : Framed ss a b) (h' : Framed ts b c) :
    Framed (ss ++ ts) a c where
  feature := h.feature.trans h'.feature
  unstyled hnone := by
    obtain ⟨hss, hts⟩ := List.append_eq_nil_iff.1 hnone
    rw [h'.unstyled hts, h.unstyled hss]
  onPoint hg := by
    obtain ⟨hpolygon, hpolyline, hposition⟩ := h.onPoint hg
    obtain ⟨hpolygon', hpolyline', hposition'⟩ := h'.onPoint (h.feature.geometry ▸ hg)
    refine ⟨hpolygon'.trans hpolygon, hpolyline'.trans hpolyline, ?_⟩
    rw [hposition', shownAt_append, ← hposition, shownAt]
  onLine hg := by
    obtain ⟨polyline', hc⟩ := h'.onLine (h.feature.geometry ▸ hg)
    obtain ⟨polyline, rfl⟩ := h.onLine hg
    exact ⟨polyline', hc⟩
  onPolygon hg := by
    obtain ⟨polygon', polyline', hc⟩ := h'.onPolygon (h.feature.geometry ▸ hg)
    obtain ⟨polygon, polyline, rfl⟩ := h.onPolygon hg
    exact ⟨polygon', polyline', hc⟩

theorem of_isPoint {s : Symbolizer} {e e' : Entity} (hg : e.geometry.isPoint = true)
    (hfeature : SameFeature e e') (hpolygon : e'.polygon = e.polygon)
    (hpolyline : e'.polyline = e.polyline)
    (hposition : e'.position = (Styling.raise s e).position) : Framed [s] e e' where
  feature := hfeature
  unstyled hnone := absurd hnone (List.cons_ne_nil s [])
  onPoint _ := ⟨hpolygon, hpolyline, by rw [shownAt_singleton, hposition]⟩
  onLine hline := absurd hg (Geometry.not_isPoint_of_isLine hline)
  onPolygon harea := absurd hg (Geometry.not_isPoint_of_isPolygon harea)

theorem of_isLine {s : Symbolizer} {e : Entity} (hg : e.geometry.isLine = true)
    (polyline : Option Portrayal.Polyline) : Framed [s] e { e with polyline } where
  feature := ⟨rfl, rfl, rfl⟩
  unstyled hnone := absurd hnone (List.cons_ne_nil s [])
  onPoint hpoint := absurd hpoint (Geometry.not_isPoint_of_isLine hg)
  onLine _ := ⟨polyline, rfl⟩
  onPolygon harea := absurd hg (Geometry.not_isLine_of_isPolygon harea)

theorem of_isPolygon {s : Symbolizer} {e : Entity} (hg : e.geometry.isPolygon = true)
    (polygon : Option Portrayal.Polygon) (polyline : Option Portrayal.Polyline) :
    Framed [s] e { e with polygon, polyline } where
  feature := ⟨rfl, rfl, rfl⟩
  unstyled hnone := absurd hnone (List.cons_ne_nil s [])
  onPoint hpoint := absurd hpoint (Geometry.not_isPoint_of_isPolygon hg)
  onLine hline := absurd hline (Geometry.not_isLine_of_isPolygon hg)
  onPolygon _ := ⟨polygon, polyline, rfl⟩

end Framed

namespace Styling

variable (config : Config) (icon : Option Icon)

theorem areas_apply {s : Symbolizer} {x : Subject} (hs : s.isPointSymbol = true)
    (hshows : x.entity.geometry.shows icon s = true) :
    (x.apply config icon s).state.entity.polygon = x.entity.polygon ∧
      (x.apply config icon s).state.entity.polyline = x.entity.polyline := by
  have hpolygon : ((x.raised s).led config s).entity.polygon = x.entity.polygon :=
    graphic_raise .polygon s x.entity
  have hpolyline : ((x.raised s).led config s).entity.polyline = x.entity.polyline :=
    graphic_raise .polyline s x.entity
  rcases state_apply_of_shows config icon hs hshows with hstopped | hdrawn
  · rw [hstopped]
    exact ⟨hpolygon, hpolyline⟩
  · obtain ⟨billboard, label, model, hstate⟩ :=
      state_applyGraphics_of_isPointSymbol config icon hs ((x.raised s).led config s).entity
    rw [hdrawn, Subject.draw, Applied.state_mapState, hstate]
    exact ⟨hpolygon, hpolyline⟩

theorem framed_apply_of_shows {s : Symbolizer} {x : Subject}
    (hshows : x.entity.geometry.shows icon s = true) :
    Framed [s] x.entity (x.apply config icon s).state.entity := by
  have hcarries := (Geometry.shows_iff.1 hshows).1
  cases hs : s.isPointSymbol with
  | true =>
      have hposition := position_apply config icon s x
      rw [if_pos hshows] at hposition
      rw [carries_of_isPointSymbol hs] at hcarries
      obtain ⟨hpolygon, hpolyline⟩ := areas_apply config icon hs hshows
      exact .of_isPoint hcarries (sameFeature_apply config icon s x) hpolygon hpolyline hposition
  | false =>
      rw [apply_of_not_isPointSymbol config icon hs]
      cases s with
      | fill s =>
          obtain ⟨polygon, polyline, hstate⟩ := state_applyFill config s x.entity
          simp only [Subject.draw, Applied.state_mapState, applyGraphics, hstate]
          exact .of_isPolygon hcarries polygon polyline
      | line s =>
          obtain ⟨polyline, hstate⟩ := state_applyLine config s x.entity
          simp only [Subject.draw, Applied.state_mapState, applyGraphics, hstate]
          rcases Bool.or_eq_true_iff.1 hcarries with hline | harea
          · exact .of_isLine hline polyline
          · exact .of_isPolygon harea x.entity.polygon polyline
      | unknown => cases hcarries
      | mark s => cases hs
      | icon s => cases hs
      | model s => cases hs
      | text s => cases hs

namespace Compiled

variable (c : Compiled)

theorem shows_of_isUsable {s : Symbolizer} (h : c.isUsable s = true) (g : Geometry) :
    g.shows (c.image? s) s = g.carries s := by
  rw [isUsable] at h
  rw [Geometry.shows_eq, h, Bool.and_true]

theorem framed_foldl_take {ss : List Symbolizer} (h : ∀ s ∈ ss, c.isUsable s = true)
    (p : Progress) :
    Framed (ss.filter p.subject.entity.geometry.carries) p.subject.entity
      (ss.foldl c.take p).subject.entity := by
  induction ss generalizing p with
  | nil => exact .refl _
  | cons s rest ih =>
      have hrest := ih (fun t ht => h t (List.mem_cons_of_mem s ht)) (c.take p s)
      rw [(c.sameFeature_take p s).geometry] at hrest
      have hshows := c.shows_of_isUsable (h s List.mem_cons_self) p.subject.entity.geometry
      rw [List.foldl_cons]
      cases hg : p.subject.entity.geometry.carries s with
      | false =>
          rw [List.filter_cons_of_neg (by simp [hg])]
          rw [c.take_of_not_carries hg] at hrest ⊢
          exact hrest
      | true =>
          rw [hg] at hshows
          rw [List.filter_cons_of_pos hg]
          exact (framed_apply_of_shows c.config (c.image? s) hshows).trans hrest

theorem framed_alone (e : Entity) : Framed (c.applied e) e (c.alone e).subject.entity :=
  c.framed_foldl_take (fun _ hs => (List.mem_filter.1 hs).2) { subject := { entity := e } }

theorem applied_eq_nil {e : Entity} (h : c.matching e = []) : c.applied e = [] := by
  rw [applied, usable, h]
  rfl

def passes (cs : List Compiled) (coll : Collection) : Collection :=
  cs.foldl (fun coll c => (c.apply coll).1) coll

def passesAlone (cs : List Compiled) (e : Entity) : Entity :=
  cs.foldl (fun e c => (c.alone e).subject.entity) e

theorem entities_passes (cs : List Compiled) (coll : Collection) :
    (passes cs coll).entities = coll.entities.map (passesAlone cs) := by
  induction cs generalizing coll with
  | nil => exact (List.map_id _).symm
  | cons c cs ih =>
      rw [passes, List.foldl_cons, ← passes, ih, entities_apply, List.map_map]
      rfl

theorem framed_passesAlone (cs : List Compiled) (e : Entity) :
    Framed (cs.flatMap (·.applied e)) e (passesAlone cs e) := by
  induction cs generalizing e with
  | nil => exact .refl e
  | cons c cs ih =>
      have hfirst := c.framed_alone e
      have hrest := ih (c.alone e).subject.entity
      -- the passes that follow match the same rules, since the feature stays the same
      have hsame : (fun d : Compiled => d.applied (c.alone e).subject.entity) = (·.applied e) :=
        funext fun d => d.applied_of_sameFeature hfirst.feature
      rw [hsame] at hrest
      rw [List.flatMap_cons]
      exact hfirst.trans hrest

theorem shownAt_eq_some_iff {e : Entity} {ss : List Symbolizer} {q : Position} :
    shownAt e ss = some q ↔ ∃ p, e.position = some p ∧ q.longitude = p.longitude ∧
      q.latitude = p.latitude ∧ q.height = (lastHeight? ss).getD p.height := by
  rw [shownAt, Option.map_eq_some_iff]
  refine exists_congr fun p => and_congr_right fun _ => ?_
  rw [eq_comm, Position.ext_iff]
  cases lastHeight? ss with
  | none => rfl
  | some height =>
      rw [Option.elim_some, Position.longitude_withHeight, Position.latitude_withHeight,
        Position.height_withHeight, Option.getD_some]

theorem framed_passes (cs : List Compiled) (coll : Collection) :
    List.Forall₂
      (fun e e' => Framed (cs.flatMap (·.applied e)) e e' ∧
        (e.geometry.isPoint = true → ∀ q, e'.position = some q ↔
          ∃ p, e.position = some p ∧ q.longitude = p.longitude ∧ q.latitude = p.latitude ∧
            q.height = (lastHeight? (cs.flatMap (·.applied e))).getD p.height) ∧
        ((∀ c ∈ cs, c.matching e = []) → e' = e))
      coll.entities (passes cs coll).entities := by
  rw [entities_passes, List.forall₂_map_right_iff, List.forall₂_same]
  intro e _
  have hframed := framed_passesAlone cs e
  refine ⟨hframed, ?_, ?_⟩
  · intro hpoint q
    rw [(hframed.onPoint hpoint).2.2, shownAt_eq_some_iff]
  · intro hunmatched
    apply hframed.unstyled
    rw [List.flatMap_eq_nil_iff]
    intro c hc
    exact c.applied_eq_nil (hunmatched c hc)

example : (passes [beacon, beacon] (.ofList [peak, litPeak])).entities.map (·.position) =
    [some ⟨7, 41, 500⟩, some ⟨7, 41, 10⟩] := by decide +kernel

end Compiled
end Styling
end Symbology
