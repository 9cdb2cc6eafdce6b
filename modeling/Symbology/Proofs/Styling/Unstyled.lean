import Mathlib.Logic.Relation
import Symbology.Proofs.Styling.Frame

namespace Symbology

open Style (Rule Symbolizer)

theorem Entity.isUnstyled_iff {e : Entity} :
    e.isUnstyled = true ↔ (∀ k : Slot, e.graphic k = none) ∧ e.leaderLines = [] := by
  simp only [isUnstyled, Bool.and_eq_true, Option.isNone_iff_eq_none, List.isEmpty_iff]
  constructor
  · rintro ⟨⟨⟨⟨⟨hpolygon, hpolyline⟩, hbillboard⟩, hlabel⟩, hmodel⟩, hlines⟩
    refine ⟨?_, hlines⟩
    intro k
    cases k with
    | polygon => exact hpolygon
    | polyline => exact hpolyline
    | billboard => exact hbillboard
    | label => exact hlabel
    | model => exact hmodel
  · rintro ⟨hgraphic, hlines⟩
    exact ⟨⟨⟨⟨⟨hgraphic .polygon, hgraphic .polyline⟩, hgraphic .billboard⟩, hgraphic .label⟩,
      hgraphic .model⟩, hlines⟩

namespace Styling

variable (config : Config) (icon : Option Icon)

/-- A symbolizer that fills no slot is no point symbol, so it raises nothing and attaches no leader
line either. -/
theorem advance_of_unwritten {s : Symbolizer} (h : s.defect? = none)
    (hicon : s.needsIcon = true → icon.isSome = true)
    (hunwritten : ∀ k : Slot, k.isWrittenBy s = false) (x : Subject) :
    s.isPointSymbol = false ∧ x.advance config icon s = x := by
  have hs : s.isPointSymbol = false := by
    rw [Bool.eq_false_iff]
    intro hpoint
    obtain ⟨k, hk⟩ := Slot.exists_isWrittenBy hpoint
    rw [hunwritten k] at hk
    cases hk
  have hvalue (k : Slot) :
      k.value config icon x.entity.geometry x.entity.properties s = none := by
    rw [← Option.isNone_iff_eq_none, ← Option.isSome_eq_false_iff,
      Slot.isSome_value config _ _ k h hicon]
    exact hunwritten k
  refine ⟨hs, ?_⟩
  rw [Subject.advance, led_of_not_isPointSymbol config hs]
  simp only [drawn_eq_self config icon hvalue]

theorem unwritten_of_isUnstyled {s : Symbolizer} {x : Subject} (h : s.defect? = none)
    (hicon : s.needsIcon = true → icon.isSome = true)
    (hun : (x.advance config icon s).entity.isUnstyled = true) (k : Slot) :
    k.isWrittenBy s = false := by
  have hgraphic : (drawn config icon s ((x.raised s).led config s).entity).graphic k = none :=
    (Entity.isUnstyled_iff.1 hun).1 k
  rw [graphic_drawn, Option.or_eq_none_iff] at hgraphic
  rw [← Slot.isSome_value config _ _ k h hicon, hgraphic.1]
  rfl

theorem apply_of_isUnstyled {s : Symbolizer} {x : Subject} (h : s.defect? = none)
    (hun : (x.apply config icon s).state.entity.isUnstyled = true) :
    (x.apply config icon s).state = x ∧
      ((x.apply config icon s).hasStyled && s.bringsToFront) = false := by
  cases hshows : x.entity.geometry.shows icon s with
  | false =>
      obtain ⟨hskipped, hstate⟩ := apply_of_not_shows config icon hshows
      refine ⟨hstate, ?_⟩
      rw [Applied.hasStyled, hskipped]
      rfl
  | true =>
      obtain ⟨hcarries, hicon⟩ := Geometry.shows_iff.1 hshows
      obtain ⟨_, hstate⟩ := apply_of_carries config icon h hcarries hicon
      rw [hstate] at hun ⊢
      have hunwritten := unwritten_of_isUnstyled config icon h hicon hun
      obtain ⟨hs, hsame⟩ := advance_of_unwritten config icon h hicon hunwritten x
      refine ⟨hsame, ?_⟩
      rw [bringsToFront_of_not_isPointSymbol hs, Bool.and_false]

/-- A model without an address would be raised and show nothing, but it does not pass the check. -/
example :
    let moved := (Subject.apply {} none (.model { height := some 10 }) { entity := peak }).state
    moved.entity.isUnstyled = true ∧ moved.entity.position = some ⟨7, 41, 10⟩ := by
  decide

namespace Compiled

variable (c : Compiled)

theorem step_of_isUnstyled {s : Symbolizer} (h : s.defect? = none) (r : Rule) (p : Progress)
    (hun : (c.step r p (s, icon)).1.subject.entity.isUnstyled = true) :
    (c.step r p (s, icon)).1 = p := by
  obtain ⟨hstate, hback⟩ := apply_of_isUnstyled c.config icon h hun
  rw [step]
  simp only [hstate, hback, Bool.or_false]

theorem run_of_unwritten {ss : List Symbolizer} (h : ∀ s ∈ ss, c.Ready s)
    (hunwritten : ∀ s ∈ ss, ∀ k : Slot, k.isWrittenBy s = false) (e : Entity) :
    c.run ss e = { subject := { entity := e } } := by
  induction ss using List.reverseRecOn with
  | nil => rfl
  | append_singleton rest s ih =>
      have hready := h s (by simp)
      have hrest := ih (fun t ht => h t (List.mem_append_left [s] ht))
        fun t ht => hunwritten t (List.mem_append_left [s] ht)
      obtain ⟨hs, hsame⟩ := advance_of_unwritten c.config (c.image? s) hready.checked hready.imaged
        (hunwritten s (by simp)) { entity := e }
      rw [run_append_singleton, hrest, advance, hsame, bringsToFront_of_not_isPointSymbol hs]
      rfl

theorem unwritten_of_isUnstyled_run {ss : List Symbolizer} {e : Entity}
    (h : ∀ s ∈ ss, c.Ready s) (hun : (c.run ss e).subject.entity.isUnstyled = true) :
    ∀ s ∈ ss, ∀ k : Slot, k.isWrittenBy s = false := by
  induction ss using List.reverseRecOn with
  | nil => simp
  | append_singleton rest s ih =>
      have hready := h s (by simp)
      rw [run_append_singleton] at hun
      have hlast := unwritten_of_isUnstyled c.config (c.image? s) hready.checked hready.imaged hun
      obtain ⟨_, hsame⟩ := advance_of_unwritten c.config (c.image? s) hready.checked hready.imaged
        hlast (c.run rest e).subject
      -- the last symbolizer has changed nothing, so the entity was unstyled before it as well
      rw [advance, hsame] at hun
      have hrest := ih (fun t ht => h t (List.mem_append_left [s] ht)) hun
      intro t ht
      rcases List.mem_append.1 ht with hearlier | hlater
      · exact hrest t hearlier
      · rw [List.mem_singleton.1 hlater]
        exact hlast

theorem alone_of_unwritten {e : Entity} (hc : c.document.defect? = none)
    (hunwritten : ∀ s ∈ c.applied e, ∀ k : Slot, k.isWrittenBy s = false) :
    c.alone e = { subject := { entity := e } } := by
  rw [c.alone_eq hc]
  exact c.run_of_unwritten (fun _ hs => c.ready_of_mem_applied hc hs) hunwritten e

theorem unwritten_of_isUnstyled_alone {e : Entity} (hc : c.document.defect? = none)
    (hun : (c.alone e).subject.entity.isUnstyled = true) :
    ∀ s ∈ c.applied e, ∀ k : Slot, k.isWrittenBy s = false := by
  rw [c.alone_eq hc] at hun
  exact c.unwritten_of_isUnstyled_run (fun _ hs => c.ready_of_mem_applied hc hs) hun

theorem isUnstyled_alone_iff (hc : c.document.defect? = none) (e : Entity) :
    (c.alone e).subject.entity.isUnstyled = true ↔
      e.isUnstyled = true ∧ ∀ s ∈ c.applied e, ∀ k : Slot, k.isWrittenBy s = false := by
  constructor
  · intro hun
    have hunwritten := c.unwritten_of_isUnstyled_alone hc hun
    rw [c.alone_of_unwritten hc hunwritten] at hun
    exact ⟨hun, hunwritten⟩
  · rintro ⟨hun, hunwritten⟩
    rw [c.alone_of_unwritten hc hunwritten]
    exact hun

def IsAccepted (c : Compiled) : Prop :=
  ∃ (h : Host) (cache : Icon.Cache) (d : Style.Document), (h.compile cache d).result = .ok c

variable {c}

theorem IsAccepted.checked (hc : c.IsAccepted) : c.document.defect? = none := by
  obtain ⟨_, _, _, hcompiled⟩ := hc
  exact Host.defect?_of_compile hcompiled

end Compiled

inductive Pass (e e' : Entity) : Prop where
  | intro {c : Compiled} (coll : Collection) (i : Nat) (accepted : c.IsAccepted)
      (given : coll.entities[i]? = some e) (styled : (c.apply coll).1.entities[i]? = some e')

theorem Pass.eq_of_isUnstyled {e e' : Entity} (h : Pass e e') (hun : e'.isUnstyled = true) :
    e' = e := by
  obtain ⟨coll, i, accepted, given, styled⟩ := h
  rw [Compiled.getElem?_entities_apply, given, Option.map_some] at styled
  cases styled
  have hunwritten := Compiled.unwritten_of_isUnstyled_alone _ accepted.checked hun
  rw [Compiled.alone_of_unwritten _ accepted.checked hunwritten]

/-- Between two passes the entity may come into another collection. -/
def Passes (e e' : Entity) : Prop :=
  Relation.ReflTransGen Pass e e'

theorem Passes.eq_of_isUnstyled {e e' : Entity} (h : Passes e e') (hun : e'.isUnstyled = true) :
    e' = e := by
  induction h with
  | refl => rfl
  | tail _ hlast ih =>
      have hsame := hlast.eq_of_isUnstyled hun
      rw [hsame] at hun ⊢
      exact ih hun

theorem Passes.isUnstyled_iff {e e' : Entity} (h : Passes e e') (he : e.isUnstyled = true) :
    e'.isUnstyled = true ↔ e' = e := by
  refine ⟨h.eq_of_isUnstyled, ?_⟩
  rintro rfl
  exact he

theorem exists_passes {cs : List Compiled} (hcs : ∀ c ∈ cs, c.IsAccepted) {coll : Collection}
    {i : Nat} {e : Entity} (he : coll.entities[i]? = some e) :
    ∃ e', (Compiled.passes cs coll).entities[i]? = some e' ∧ Passes e e' := by
  induction cs generalizing coll e with
  | nil => exact ⟨e, he, .refl⟩
  | cons c cs ih =>
      have hstyled : (c.apply coll).1.entities[i]? = some (c.alone e).subject.entity := by
        rw [Compiled.getElem?_entities_apply, he, Option.map_some]
      have hfirst : Pass e (c.alone e).subject.entity :=
        .intro coll i (hcs c List.mem_cons_self) he hstyled
      obtain ⟨e', he', hrest⟩ := ih (fun d hd => hcs d (List.mem_cons_of_mem c hd)) hstyled
      exact ⟨e', he', .head hfirst hrest⟩

theorem unstyled_as_made :
    (∀ (id : EntityId) (g : Geometry) (ps : Properties) (e : Entity),
      Passes (.ofFeature id g ps) e → (e.isUnstyled = true ↔ e = .ofFeature id g ps)) ∧
    (∀ cs : List Compiled, (∀ c ∈ cs, c.IsAccepted) →
      ∀ (coll : Collection) (i : Nat) (e : Entity), coll.entities[i]? = some e →
        ∃ e', (Compiled.passes cs coll).entities[i]? = some e' ∧ Passes e e') ∧
    (∀ c : Compiled, c.IsAccepted → ∀ r ∈ c.document.rules, ∀ s ∈ r.symbolizers,
      ∀ (icon : Option Icon) (p : Progress),
        (c.step r p (s, icon)).1.subject.entity.isUnstyled = true → (c.step r p (s, icon)).1 = p) ∧
    (∀ e e' : Entity, Pass e e' → e.isUnstyled = false → e'.isUnstyled = false) ∧
    (∀ c : Compiled, c.IsAccepted → ∀ (coll : Collection) (i : Nat) (e : Entity),
      coll.entities[i]? = some e → ∃ e', (c.apply coll).1.entities[i]? = some e' ∧
        (e'.isUnstyled = true ↔
          e.isUnstyled = true ∧ ∀ s ∈ c.applied e, ∀ k : Slot, k.isWrittenBy s = false)) := by
  refine ⟨?_, ?_, ?_, ?_, ?_⟩
  · intro id g ps e h
    exact h.isUnstyled_iff (Entity.isUnstyled_ofFeature id g ps)
  · intro cs hcs coll i e he
    exact exists_passes hcs he
  · intro c hc r hr s hs icon p hun
    have hchecked := Style.Document.defect?_eq_none_iff.1 hc.checked r hr s hs
    exact c.step_of_isUnstyled icon hchecked r p hun
  · intro e e' h hstyled
    rw [Bool.eq_false_iff] at hstyled ⊢
    intro hun
    rw [h.eq_of_isUnstyled hun] at hun
    exact hstyled hun
  · intro c hc coll i e he
    refine ⟨(c.alone e).subject.entity, ?_, c.isUnstyled_alone_iff hc.checked e⟩
    rw [Compiled.getElem?_entities_apply, he, Option.map_some]

theorem unstyled_as_made_lookout :
    ∃ c : Compiled, (Host.compile {} .empty Host.lookout).result = .ok c ∧
      ∃ shown, (Compiled.passes [c, c] (.ofList [peak, ridge])).entities = [shown, ridge] ∧
        shown ≠ peak ∧ (∀ e, Pass shown e → e.isUnstyled = false) ∧
        ∀ r ∈ c.document.rules, ∀ s ∈ r.symbolizers,
          (c.step r { subject := { entity := ridge } } (s, none)).1 =
            { subject := { entity := ridge } } := by
  obtain ⟨c, hc, hdocument, shown, kept, hentities, hshown, hkept⟩ :
      ∃ c, (Host.compile {} .empty Host.lookout).result = .ok c ∧ c.document = Host.lookout ∧
        ∃ shown kept, (Compiled.passes [c, c] (.ofList [peak, ridge])).entities = [shown, kept] ∧
          shown.isUnstyled = false ∧ kept.isUnstyled = true :=
    ⟨_, rfl, rfl, _, _, rfl, rfl, rfl⟩
  have haccepted : c.IsAccepted := ⟨{}, .empty, Host.lookout, hc⟩
  have hall : ∀ d ∈ [c, c], d.IsAccepted := by simpa using haccepted
  obtain ⟨hmade, hruns, hstep, hstays, _⟩ := unstyled_as_made
  obtain ⟨e, he, hpeak⟩ := hruns [c, c] hall (.ofList [peak, ridge]) 0 peak rfl
  obtain ⟨e', he', hridge⟩ := hruns [c, c] hall (.ofList [peak, ridge]) 1 ridge rfl
  rw [hentities] at he he'
  cases he
  cases he'
  have hsame : kept = ridge := (hmade _ _ _ _ hridge).1 hkept
  refine ⟨c, hc, shown, by rw [hentities, hsame], ?_, ?_, ?_⟩
  · intro hunchanged
    rw [(hmade _ _ _ _ hpeak).2 hunchanged] at hshown
    cases hshown
  · intro e h
    exact hstays shown e h hshown
  · intro r hr s hs
    apply hstep c haccepted r hr s hs
    rw [hdocument] at hr
    cases List.mem_singleton.1 hr
    rcases List.mem_pair.1 hs with rfl | rfl <;> rfl

end Styling
end Symbology
