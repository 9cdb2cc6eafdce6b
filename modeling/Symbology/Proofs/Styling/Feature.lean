import Symbology.Styling.Apply

namespace Symbology

open Style (Symbolizer)

structure SameFeature (e e' : Entity) : Prop where
  id : e'.id = e.id
  properties : e'.properties = e.properties
  geometry : e'.geometry = e.geometry

namespace SameFeature

theorem refl (e : Entity) : SameFeature e e := ⟨rfl, rfl, rfl⟩

theorem trans {a b c : Entity} (h : SameFeature a b) (h' : SameFeature b c) : SameFeature a c :=
  ⟨h'.id.trans h.id, h'.properties.trans h.properties, h'.geometry.trans h.geometry⟩

end SameFeature

namespace Styling

variable (config : Config)

theorem sameFeature_raise (s : Symbolizer) (e : Entity) : SameFeature e (raise s e) := by
  rw [raise]
  split <;> exact ⟨rfl, rfl, rfl⟩

theorem sameFeature_attachLeader (s : Symbolizer) (e : Entity) :
    SameFeature e (attachLeader config s e).state := by
  rw [attachLeader]
  repeat' split
  all_goals exact ⟨rfl, rfl, rfl⟩

theorem state_applyOutline (s : Style.Fill) (e : Entity) :
    ∃ polyline, (applyOutline config s e).state = { e with polyline } := by
  rw [applyOutline]
  repeat' split
  all_goals exact ⟨_, rfl⟩

theorem state_applyFill (s : Style.Fill) (e : Entity) :
    ∃ polygon polyline, (applyFill config s e).state = { e with polygon, polyline } := by
  rw [applyFill]
  split
  · exact ⟨_, _, rfl⟩
  · split
    · obtain ⟨polyline, hstate⟩ := state_applyOutline config s e
      exact ⟨_, polyline, hstate⟩
    · split
      · exact ⟨_, _, rfl⟩
      · next polygon _ =>
          obtain ⟨polyline, hstate⟩ := state_applyOutline config s { e with polygon := some polygon }
          exact ⟨some polygon, polyline, hstate⟩

theorem state_applyLine (s : Style.Line) (e : Entity) :
    ∃ polyline, (applyLine config s e).state = { e with polyline } := by
  rw [applyLine]
  dsimp only
  repeat' split
  all_goals exact ⟨_, rfl⟩

theorem state_applyMark (icon : Icon) (s : Style.Mark) (e : Entity) :
    ∃ billboard, (applyMark icon s e).state = { e with billboard } := by
  rw [applyMark]
  split <;> exact ⟨_, rfl⟩

theorem state_applyIcon (icon : Icon) (s : Style.Icon) (e : Entity) :
    ∃ billboard, (applyIcon icon s e).state = { e with billboard } := by
  rw [applyIcon]
  repeat' split
  all_goals exact ⟨_, rfl⟩

theorem state_applyModel (s : Style.Model) (e : Entity) :
    ∃ model, (applyModel s e).state = { e with model } := by
  rw [applyModel]
  repeat' split
  all_goals exact ⟨_, rfl⟩

theorem state_applyLabel (s : Style.Label) (e : Entity) :
    ∃ label, (applyLabel config s e).state = { e with label } := by
  rw [applyLabel]
  repeat' split
  all_goals exact ⟨_, rfl⟩

variable (icon : Option Icon)

theorem state_applyGraphics_of_isPointSymbol {s : Symbolizer} (hs : s.isPointSymbol = true)
    (e : Entity) :
    ∃ billboard label model,
      (applyGraphics config icon s e).state = { e with billboard, label, model } := by
  cases s with
  | fill s => cases hs
  | line s => cases hs
  | mark s =>
      cases icon with
      | none => exact ⟨_, _, _, rfl⟩
      | some icon =>
          obtain ⟨billboard, hstate⟩ := state_applyMark icon s e
          exact ⟨billboard, _, _, hstate⟩
  | icon s =>
      cases icon with
      | none => exact ⟨_, _, _, rfl⟩
      | some icon =>
          obtain ⟨billboard, hstate⟩ := state_applyIcon icon s e
          exact ⟨billboard, _, _, hstate⟩
  | model s =>
      obtain ⟨model, hstate⟩ := state_applyModel s e
      exact ⟨_, _, model, hstate⟩
  | text s =>
      obtain ⟨label, hstate⟩ := state_applyLabel config s e
      exact ⟨_, label, _, hstate⟩
  | unknown => cases hs

theorem state_applyGraphics_of_not_isPointSymbol {s : Symbolizer} (hs : s.isPointSymbol = false)
    (e : Entity) :
    ∃ polygon polyline, (applyGraphics config icon s e).state = { e with polygon, polyline } := by
  cases s with
  | fill s => exact state_applyFill config s e
  | line s =>
      obtain ⟨polyline, hstate⟩ := state_applyLine config s e
      exact ⟨_, polyline, hstate⟩
  | unknown => exact ⟨_, _, rfl⟩
  | mark s => cases hs
  | icon s => cases hs
  | model s => cases hs
  | text s => cases hs

theorem sameFeature_applyGraphics (s : Symbolizer) (e : Entity) :
    SameFeature e (applyGraphics config icon s e).state := by
  cases hs : s.isPointSymbol with
  | true =>
      obtain ⟨billboard, label, model, hstate⟩ :=
        state_applyGraphics_of_isPointSymbol config icon hs e
      rw [hstate]
      exact ⟨rfl, rfl, rfl⟩
  | false =>
      obtain ⟨polygon, polyline, hstate⟩ :=
        state_applyGraphics_of_not_isPointSymbol config icon hs e
      rw [hstate]
      exact ⟨rfl, rfl, rfl⟩

theorem sameFeature_lead (s : Symbolizer) (x : Subject) :
    SameFeature x.entity (x.lead config s).state.entity := by
  rw [Subject.lead]
  split
  · exact .refl x.entity
  · exact sameFeature_attachLeader config s x.entity

theorem sameFeature_apply (s : Symbolizer) (x : Subject) :
    SameFeature x.entity (x.apply config icon s).state.entity := by
  rw [Subject.apply]
  split
  · split
    · exact .refl x.entity
    · split
      · exact .refl x.entity
      · have hraised := sameFeature_raise s x.entity
        have hled := hraised.trans
          (sameFeature_lead config s { x with entity := raise s x.entity })
        rw [Applied.andThen]
        split
        · exact hled
        · exact hled.trans (sameFeature_applyGraphics config icon s _)
  · exact sameFeature_applyGraphics config icon s x.entity

end Styling
end Symbology
