import Symbology.Proofs.Styling.LastWriter

namespace Symbology

open Style (Symbolizer)

theorem Entity.eq_with_leaderLines {e e' : Entity} {lines : List Portrayal.Polyline}
    (hsame : SameFeature e e') (hposition : e'.position = e.position)
    (hgraphic : ∀ k : Slot, e'.graphic k = e.graphic k)
    (hlines : e'.leaderLines = e.leaderLines ++ lines) :
    e' = { e with leaderLines := e.leaderLines ++ lines } := by
  have hpolygon : e'.polygon = e.polygon := hgraphic .polygon
  have hpolyline : e'.polyline = e.polyline := hgraphic .polyline
  have hbillboard : e'.billboard = e.billboard := hgraphic .billboard
  have hlabel : e'.label = e.label := hgraphic .label
  have hmodel : e'.model = e.model := hgraphic .model
  obtain ⟨hid, hproperties, hgeometry⟩ := hsame
  cases e'
  simp_all only

namespace Styling.Compiled

variable (c : Compiled) {e e' : Entity}

theorem applied_of_sameFeature (h : SameFeature e e') : c.applied e' = c.applied e := by
  have hmatch : (c.isMatch · e') = (c.isMatch · e) := funext (c.isMatch_of_sameFeature h)
  rw [applied, applied, usable, usable, matching, matching, hmatch, h.geometry]

theorem written_of_sameFeature (h : SameFeature e e') (k : Slot) (ss : List Symbolizer) :
    c.written e' k ss = c.written e k ss := by
  have hgraphic : (fun s => c.graphicOf e' s k) = fun s => c.graphicOf e s k := by
    funext s
    rw [graphicOf, graphicOf, h.geometry, h.properties]
  rw [written, written, hgraphic]

variable (e) (ss : List Symbolizer)

theorem graphic_rerun (k : Slot) (h : ∀ s ∈ ss, c.Ready s) :
    (c.run ss (c.run ss e).subject.entity).subject.entity.graphic k =
      (c.run ss e).subject.entity.graphic k := by
  have hwritten := c.written_of_sameFeature (c.sameFeature_run ss e) k ss
  by_cases hk : k = .billboard
  · subst hk
    have hconnection : c.connection (c.run ss e).subject.entity ss = c.connection e ss := by
      rw [connection, connection, isSome_position_run]
    have hfirst := c.billboard_run e ss h
    have hsecond := c.billboard_run (c.run ss e).subject.entity ss h
    rw [hwritten, hconnection, hfirst] at hsecond
    refine hsecond.trans (Eq.trans ?_ hfirst.symm)
    cases c.written e .billboard ss with
    | some b => rfl
    | none =>
        -- a connector of the first pass is a billboard to the second, which makes the same one
        rw [Option.none_or, Option.none_or, Option.or_assoc, Option.or_self]
  · rw [c.graphic_run _ k ss h hk, hwritten, c.graphic_run e k ss h hk, ← Option.or_assoc,
      Option.or_self]

theorem position_rerun :
    (c.run ss (c.run ss e).subject.entity).subject.entity.position =
      (c.run ss e).subject.entity.position := by
  rw [position_run, position_run, Option.map_map]
  cases lastHeight? ss <;> rfl

theorem inFront_rerun : (c.run ss (c.run ss e).subject.entity).inFront = (c.run ss e).inFront := by
  rw [inFront_run, inFront_run]

theorem run_rerun (h : ∀ s ∈ ss, c.Ready s) :
    ∃ first second,
      (c.run ss e).subject.entity.leaderLines = e.leaderLines ++ first ∧
      (c.run ss (c.run ss e).subject.entity).subject.entity =
        { (c.run ss e).subject.entity with
          leaderLines := (c.run ss e).subject.entity.leaderLines ++ second } ∧
      second.length = first.length ∧ first.length ≤ 1 := by
  obtain ⟨first, hfirst, hone⟩ := c.leaderLines_run e ss h
  obtain ⟨second, hsecond, htwo⟩ := c.leaderLines_run (c.run ss e).subject.entity ss h
  have hattaches : attaches (c.run ss e).subject.entity ss = attaches e ss := by
    rw [attaches, attaches, isSome_position_run]
  refine ⟨first, second, hfirst, ?_, ?_, ?_⟩
  · exact Entity.eq_with_leaderLines (c.sameFeature_run ss _) (c.position_rerun e ss)
      (fun k => c.graphic_rerun e ss k h) hsecond
  · rw [htwo, hattaches, hone]
  · rw [hone]
    exact Bool.toNat_le _

theorem alone_again (hc : c.document.defect? = none) :
    c.alone (c.alone e).subject.entity =
      c.run (c.applied e) (c.run (c.applied e) e).subject.entity := by
  rw [c.alone_eq hc e, c.alone_eq hc, c.applied_of_sameFeature (c.sameFeature_run _ e)]

theorem inFront_alone_again (hc : c.document.defect? = none) :
    (c.alone (c.alone e).subject.entity).inFront = (c.alone e).inFront := by
  rw [c.alone_again e hc, inFront_rerun, c.alone_eq hc]

theorem drawOrder_apply_again (hc : c.document.defect? = none) (coll : Collection) :
    (c.apply (c.apply coll).1).1.drawOrder = (c.apply coll).1.drawOrder := by
  have hflags : ((c.apply coll).1.entities.map fun e => (c.alone e).inFront) =
      coll.entities.map fun e => (c.alone e).inFront := by
    rw [entities_apply, List.map_map]
    refine List.map_congr_left ?_
    intro e _
    exact c.inFront_alone_again e hc
  rw [drawOrder_apply, hflags, drawOrder_apply]

end Styling.Compiled

namespace Styling.Host

theorem apply_again {h : Host} {cache : Icon.Cache} {d : Style.Document} {c : Compiled}
    (hc : (h.compile cache d).result = .ok c) (coll : Collection) :
    (c.apply (c.apply coll).1).1.drawOrder = (c.apply coll).1.drawOrder ∧
    (c.apply (c.apply coll).1).1.entities.length = coll.entities.length ∧
    ∀ (i : Nat) (e : Entity), coll.entities[i]? = some e →
      ∃ (e' : Entity) (first second : List Portrayal.Polyline),
        (c.apply coll).1.entities[i]? = some e' ∧
        e'.leaderLines = e.leaderLines ++ first ∧
        (c.apply (c.apply coll).1).1.entities[i]? =
          some { e' with leaderLines := e'.leaderLines ++ second } ∧
        second.length = first.length ∧ first.length ≤ 1 := by
  have hchecked := defect?_of_compile hc
  refine ⟨c.drawOrder_apply_again hchecked coll, ?_, ?_⟩
  · rw [Compiled.entities_apply, Compiled.entities_apply, List.length_map, List.length_map]
  · intro i e he
    have hready : ∀ s ∈ c.applied e, c.Ready s := fun s hs => c.ready_of_mem_applied hchecked hs
    obtain ⟨first, second, hfirst, hsecond, hlength, hone⟩ := c.run_rerun e (c.applied e) hready
    have hstyled : (c.apply coll).1.entities[i]? =
        some (c.run (c.applied e) e).subject.entity := by
      rw [Compiled.getElem?_entities_apply, he, Option.map_some, c.alone_eq hchecked]
    refine ⟨_, first, second, hstyled, hfirst, ?_, hlength, hone⟩
    rw [Compiled.getElem?_entities_apply, hstyled, Option.map_some, ← hsecond,
      ← c.alone_again e hchecked, c.alone_eq hchecked e]

theorem apply_again_signpost :
    ∃ c, (Host.compile {} .empty signpost).result = .ok c ∧
      (c.apply (c.apply (.ofList [peak])).1).1.drawOrder =
        (c.apply (.ofList [peak])).1.drawOrder ∧
      ∃ (e' : Entity) (second : List Portrayal.Polyline),
        (c.apply (.ofList [peak])).1.entities[0]? = some e' ∧
        (c.apply (c.apply (.ofList [peak])).1).1.entities[0]? =
          some { e' with leaderLines := e'.leaderLines ++ second } ∧
        second.length = e'.leaderLines.length := by
  obtain ⟨c, hc⟩ := exists_compile {} .empty defect?_signpost
  obtain ⟨horder, _, hentities⟩ := apply_again hc (.ofList [peak])
  obtain ⟨e', first, second, honce, hfirst, htwice, hlength, _⟩ := hentities 0 peak rfl
  have hlines : e'.leaderLines = first := hfirst
  refine ⟨c, hc, horder, e', second, honce, htwice, ?_⟩
  rw [hlength, hlines]

end Styling.Host
end Symbology
