import Symbology.Proofs.Styling.LastWriter

namespace Symbology.Styling

open Style (Symbolizer)

variable {c : Compiled} {e : Entity} {ss : List Symbolizer}

namespace Compiled

theorem leaderLine?_of_firstLeader? {s : Symbolizer} (h : firstLeader? ss = some s) :
    s.leaderLine? = some s.leaderOptions := by
  have hasked : s.leaderLine?.isSome = true := by simpa using List.find?_some h
  obtain ⟨l, hl⟩ := Option.isSome_iff_exists.1 hasked
  rw [hl, leaderLine?_eq_some hl]

theorem connection_of_text {t : Style.Label} {x y : Float} (hready : ∀ s ∈ ss, c.Ready s)
    (ht : firstLeader? ss = some (.text t)) (hoffset : t.offset = some (x, y))
    (hposition : e.position.isSome = true) :
    ∃ color, leaderColor t.leaderLine = .ok color ∧
      c.connection e ss =
        (Portrayal.connector c.config x y (leaderWidth t.leaderLine) color
          t.heightReference).toOption := by
  have hchecked := (hready _ (List.mem_of_find?_eq_some ht)).checked
  obtain ⟨color, hcolor⟩ := leaderColor_of_checked hchecked
  have hread : leaderColor t.leaderLine = .ok color := hcolor
  have hline : (Symbolizer.text t).leaderLine? = some t.leaderLine := leaderLine?_of_firstLeader? ht
  have hoff : labelOffset? (.text t) = some (x, y) := hoffset
  refine ⟨color, hread, ?_⟩
  rw [connection, if_pos hposition, ht, Option.bind_some, connectorOf?, hline, Option.bind_some,
    hoff, Option.bind_some, hread]
  rfl

theorem connection_eq_none
    (h : ∀ t x y, firstLeader? ss = some (.text t) → t.offset = some (x, y) → e.position = none) :
    c.connection e ss = none := by
  rw [connection]
  cases hposition : e.position with
  | none => rfl
  | some p =>
      rw [Option.isSome_some, if_pos rfl, Option.bind_eq_none_iff]
      intro s hs
      have hoffset : labelOffset? s = none := by
        rw [Option.eq_none_iff_forall_not_mem]
        rintro ⟨x, y⟩ hxy
        cases s with
        | text t =>
            have hnone := h t x y hs hxy
            rw [hposition] at hnone
            cases hnone
        | _ => cases hxy
      rw [connectorOf?, hoffset]
      cases s.leaderLine? <;> rfl

end Compiled

/-- A slot shows what the last symbolizer that writes it makes of the feature, and is kept if there
is none. Only an empty billboard gives way, to the connector of the leader line. -/
structure Portrayed (c : Compiled) (e e' : Entity) : Prop where
  written : ∀ k s, Compiled.lastWriter? k (c.applied e) = some s →
    ∃ v, k.value c.config (c.image? s) e.geometry e.properties s = some v ∧ e'.graphic k = some v
  kept : ∀ k, Compiled.lastWriter? k (c.applied e) = none →
    (k = .billboard → e.billboard.isSome = true) → e'.graphic k = e.graphic k
  connected : Compiled.lastWriter? .billboard (c.applied e) = none → e.billboard = none →
    ∀ t x y, Compiled.firstLeader? (c.applied e) = some (.text t) → t.offset = some (x, y) →
      e.position.isSome = true →
      ∃ color, leaderColor t.leaderLine = .ok color ∧
        e'.billboard =
          (Portrayal.connector c.config x y (leaderWidth t.leaderLine) color
            t.heightReference).toOption
  bare : Compiled.lastWriter? .billboard (c.applied e) = none → e.billboard = none →
    (∀ t x y, Compiled.firstLeader? (c.applied e) = some (.text t) → t.offset = some (x, y) →
      e.position = none) →
    e'.billboard = none

namespace Compiled

theorem exists_written {k : Slot} {s : Symbolizer} (hready : ∀ s ∈ ss, c.Ready s)
    (hs : lastWriter? k ss = some s) :
    ∃ v, k.value c.config (c.image? s) e.geometry e.properties s = some v ∧
      c.written e k ss = some v := by
  obtain ⟨hmem, hwrites⟩ := List.mem_filter.1 (List.mem_of_getLast? hs)
  have hsome := c.isSome_graphicOf e k s (hready s hmem)
  rw [hwrites] at hsome
  obtain ⟨v, hv⟩ := Option.isSome_iff_exists.1 hsome
  refine ⟨v, hv, ?_⟩
  rw [written, hs]
  exact hv

theorem written_eq_none {k : Slot} (hs : lastWriter? k ss = none) : c.written e k ss = none := by
  rw [written, hs]
  rfl

theorem graphic_run_of_written {k : Slot} {v : k.Graphic} (hready : ∀ s ∈ ss, c.Ready s)
    (hv : c.written e k ss = some v) : (c.run ss e).subject.entity.graphic k = some v := by
  by_cases hk : k = .billboard
  · subst hk
    refine (c.billboard_run e ss hready).trans ?_
    rw [hv, Option.some_or]
  · rw [c.graphic_run e k ss hready hk, hv, Option.some_or]

theorem graphic_run_of_unwritten {k : Slot} (hready : ∀ s ∈ ss, c.Ready s)
    (hv : c.written e k ss = none) (hshown : k = .billboard → e.billboard.isSome = true) :
    (c.run ss e).subject.entity.graphic k = e.graphic k := by
  by_cases hk : k = .billboard
  · subst hk
    obtain ⟨b, hb⟩ := Option.isSome_iff_exists.1 (hshown rfl)
    refine (c.billboard_run e ss hready).trans ?_
    rw [hv, Option.none_or, hb, Option.some_or]
    exact hb.symm
  · rw [c.graphic_run e k ss hready hk, hv, Option.none_or]

theorem billboard_run_of_unwritten (hready : ∀ s ∈ ss, c.Ready s)
    (hv : c.written e .billboard ss = none) (hb : e.billboard = none) :
    (c.run ss e).subject.entity.billboard = c.connection e ss := by
  rw [c.billboard_run e ss hready, hv, hb, Option.none_or, Option.none_or]

theorem portrayed_alone (hc : c.document.defect? = none) :
    Portrayed c e (c.alone e).subject.entity := by
  have hready : ∀ s ∈ c.applied e, c.Ready s := fun s hs => c.ready_of_mem_applied hc hs
  rw [c.alone_eq hc]
  refine ⟨?_, ?_, ?_, ?_⟩
  · intro k s hs
    obtain ⟨v, hv, hwritten⟩ := exists_written (e := e) hready hs
    exact ⟨v, hv, graphic_run_of_written hready hwritten⟩
  · intro k hs hshown
    exact graphic_run_of_unwritten hready (written_eq_none hs) hshown
  · intro hs hb t x y ht hoffset hposition
    obtain ⟨color, hcolor, hconnection⟩ := connection_of_text hready ht hoffset hposition
    refine ⟨color, hcolor, ?_⟩
    rw [billboard_run_of_unwritten hready (written_eq_none hs) hb, hconnection]
  · intro hs hb hno
    rw [billboard_run_of_unwritten hready (written_eq_none hs) hb, connection_eq_none hno]

end Compiled

theorem Host.portrayed_apply {h : Host} {cache : Icon.Cache} {d : Style.Document} {c : Compiled}
    (hc : (h.compile cache d).result = .ok c) (coll : Collection) (i : Nat) (e : Entity)
    (he : coll.entities[i]? = some e) :
    ∃ e', (c.apply coll).1.entities[i]? = some e' ∧ Portrayed c e e' := by
  refine ⟨(c.alone e).subject.entity, ?_, Compiled.portrayed_alone (defect?_of_compile hc)⟩
  rw [Compiled.getElem?_entities_apply, he, Option.map_some]

theorem Host.portrayed_apply_signpost :
    ∃ c, (Host.compile {} .empty signpost).result = .ok c ∧
      ∃ e', (c.apply (.ofList [peak])).1.entities[0]? = some e' ∧ Portrayed c peak e' := by
  obtain ⟨c, hc⟩ := Host.exists_compile {} .empty defect?_signpost
  exact ⟨c, hc, Host.portrayed_apply hc (.ofList [peak]) 0 peak rfl⟩

end Symbology.Styling
