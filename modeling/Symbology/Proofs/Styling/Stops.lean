import Symbology.Proofs.Dash.Encoding
import Symbology.Proofs.Portrayal.Connector
import Symbology.Proofs.Styling.Outcome

namespace Symbology

open Style (Rule Symbolizer)

def Geometry.stroke? (g : Geometry) : Symbolizer → Option Portrayal.Stroke
  | .fill s => if g.isPolygon then Portrayal.outlineStroke? s else none
  | .line s => if g.isLine || g.isPolygon then some (Portrayal.lineStroke s) else none
  | _ => none

theorem Geometry.stroke?_of_isPointSymbol (g : Geometry) {s : Symbolizer}
    (hs : s.isPointSymbol = true) : g.stroke? s = none := by
  cases s <;> first | rfl | cases hs

namespace Styling

open Notice (stopIn?)

def Subject.span? (s : Symbolizer) (x : Subject) : Option (Float × Float) :=
  if s.leaderLine?.isSome && !x.leaderAttached && x.entity.geometry.isPoint &&
      x.entity.position.isSome && x.entity.billboard.isNone then labelOffset? s
  else none

inductive Stops (config : Config) (s : Symbolizer) (x : Subject) : Stop → Prop
  | dashes {t : Portrayal.Stroke} {a : List Float} (hstroke : x.entity.geometry.stroke? s = some t)
      (hdashes : t.dashes = some a) (hlong : Dash.IsOverlong a) : Stops config s x .underflow
  | connector {dx dy : Float} (hspan : x.span? s = some (dx, dy))
      (hsize : Portrayal.Oversized config dx dy) : Stops config s x .capacityOverflow

variable (config : Config) (icon : Option Icon) {cause : Stop}

theorem stopIn?_stroke {t : Portrayal.Stroke} :
    stopIn? t.notices = some cause ↔
      (∃ a, t.dashes = some a ∧ Dash.IsOverlong a) ∧ cause = .underflow := by
  have hgiven (a : List Float) (h : Dash.IsOverlong a) : t.givenDashes = some a ↔ t.dashes = some a := by
    have husable := h.usable
    rw [Bool.or_eq_true, not_or] at husable
    simp [Portrayal.Stroke.givenDashes, Option.filter_eq_some_iff, husable.1]
  have hnotices : stopIn? t.notices = some cause ↔
      ∃ a, t.givenDashes = some a ∧ Dash.ofRuns? a = .error cause := by
    rw [Portrayal.Stroke.notices]
    cases t.givenDashes with
    | none => simp [stopIn?]
    | some a =>
        cases hruns : Dash.ofRuns? a with
        | error stop => simp [stopIn?, Notice.stop?, hruns]
        | ok o => cases o <;> simp [stopIn?, Notice.stop?, hruns]
  rw [hnotices]
  simp only [Dash.ofRuns?_eq_error_iff]
  constructor
  · rintro ⟨a, ha, hlong, rfl⟩
    exact ⟨⟨a, (hgiven a hlong).mp ha, hlong⟩, rfl⟩
  · rintro ⟨⟨a, ha, hlong⟩, rfl⟩
    exact ⟨a, (hgiven a hlong).mpr ha, hlong, rfl⟩

theorem stopIn?_applyOutline {s : Style.Fill} {e : Entity} {b : Bool}
    (hok : (applyOutline config s e).outcome = .ok b) :
    stopIn? (applyOutline config s e).notices =
      (Portrayal.outlineStroke? s).bind (stopIn? ·.notices) := by
  rw [applyOutline] at hok ⊢
  split at hok
  · next hnone =>
      rw [hnone]
      rfl
  · next t hstroke =>
      rw [hstroke]
      split at hok
      · cases hok
      · rfl

theorem stopIn?_applyFill {s : Style.Fill} {e : Entity} {b : Bool}
    (hok : (applyFill config s e).outcome = .ok b) :
    stopIn? (applyFill config s e).notices =
      (e.geometry.stroke? (.fill s)).bind (stopIn? ·.notices) := by
  rw [applyFill] at hok ⊢
  rw [Geometry.stroke?]
  cases hg : e.geometry.isPolygon with
  | false => rfl
  | true =>
      simp only [hg, Bool.not_true, Bool.false_eq_true, if_false, if_true] at hok ⊢
      split at hok
      · exact stopIn?_applyOutline config hok
      · split at hok
        · cases hok
        · exact stopIn?_applyOutline config hok

theorem stopIn?_applyLine {s : Style.Line} {e : Entity} {b : Bool}
    (hok : (applyLine config s e).outcome = .ok b) :
    stopIn? (applyLine config s e).notices =
      (e.geometry.stroke? (.line s)).bind (stopIn? ·.notices) := by
  rw [applyLine] at hok ⊢
  rw [Geometry.stroke?]
  cases hg : (e.geometry.isLine || e.geometry.isPolygon) with
  | false => rfl
  | true =>
      simp only [hg, Bool.not_true, Bool.false_eq_true, if_false, if_true] at hok ⊢
      split at hok
      · cases hok
      · rfl

theorem stopIn?_applyGraphics {s : Symbolizer} {e : Entity} {b : Bool}
    (hok : (applyGraphics config icon s e).outcome = .ok b) :
    stopIn? (applyGraphics config icon s e).notices =
      (e.geometry.stroke? s).bind (stopIn? ·.notices) := by
  cases s with
  | fill s => exact stopIn?_applyFill config hok
  | line s => exact stopIn?_applyLine config hok
  | mark s =>
      cases icon with
      | none => rfl
      | some icon =>
          rw [applyGraphics, applyMark]
          split <;> rfl
  | icon s =>
      cases icon with
      | none => rfl
      | some icon =>
          rw [applyGraphics, applyIcon]
          repeat' split
          all_goals rfl
  | model s =>
      rw [applyGraphics, applyModel]
      repeat' split
      all_goals rfl
  | text s =>
      rw [applyGraphics, applyLabel]
      repeat' split
      all_goals rfl
  | unknown => rfl

theorem stopIn?_connected (s : Symbolizer) (width : Float) (color : Color) (e : Entity) :
    stopIn? (connected config s width color e).2 = some cause ↔
      e.billboard = none ∧ (∃ dx dy, labelOffset? s = some (dx, dy) ∧
        Portrayal.Oversized config dx dy) ∧ cause = .capacityOverflow := by
  rw [connected]
  split
  · next hoffset => simp [hoffset, stopIn?]
  · next b hoffset hbillboard => simp [hbillboard, stopIn?, Notice.stop?]
  · next dx dy hoffset hbillboard =>
      have hstopped : (∃ fault, Portrayal.connector config dx dy width color
          (labelHeightReference s) = .error fault ∧ fault.stop? = some cause) ↔ _ :=
        Portrayal.stopped_iff
      rw [hoffset, hbillboard]
      split
      · next b hb =>
          rw [hb] at hstopped
          simpa [stopIn?] using hstopped
      · next fault hfault =>
          rw [hfault] at hstopped
          have hstop : stopIn? [fault.stop?.elim (.connectorRefused fault) .stopped] = fault.stop? := by
            cases fault.stop? <;> rfl
          rw [hstop]
          simpa using hstopped

theorem stopIn?_attachLeader {s : Symbolizer} {e : Entity} (h : s.defect? = none) :
    stopIn? (attachLeader config s e).notices = some cause ↔
      (s.leaderLine?.isSome = true ∧ e.geometry.isPoint = true ∧ e.position.isSome = true) ∧
        e.billboard = none ∧ (∃ dx dy, labelOffset? s = some (dx, dy) ∧
          Portrayal.Oversized config dx dy) ∧ cause = .capacityOverflow := by
  obtain ⟨color, hcolor⟩ := leaderColor_of_checked h
  rw [attachLeader]
  cases hl : s.leaderLine? with
  | none => simp [Applied.skipped, stopIn?]
  | some l =>
      have hread : leaderColor l = .ok color := by rw [leaderLine?_eq_some hl, hcolor]
      cases hg : e.geometry.isPoint with
      | false => simp [Applied.skipped, stopIn?]
      | true =>
          cases hp : e.position with
          | none => simp [Applied.skipped, stopIn?]
          | some p =>
              have hattached : stopIn? [.leaderAttached e.id] = none := rfl
              rw [← stopIn?_connected config s (leaderWidth l) color e]
              simp [hread, Applied.styled, hattached]

theorem span?_eq_some_iff {s : Symbolizer} {x : Subject} {span : Float × Float} :
    x.span? s = some span ↔
      (s.leaderLine?.isSome = true ∧ x.leaderAttached = false ∧
        x.entity.geometry.isPoint = true ∧ x.entity.position.isSome = true ∧
        x.entity.billboard = none) ∧ labelOffset? s = some span := by
  simp [Subject.span?, and_assoc]

theorem stopIn?_lead {s : Symbolizer} {x : Subject} (h : s.defect? = none) :
    stopIn? (x.lead config s).notices = some cause ↔
      (∃ dx dy, x.span? s = some (dx, dy) ∧ Portrayal.Oversized config dx dy) ∧
        cause = .capacityOverflow := by
  simp only [span?_eq_some_iff]
  rw [Subject.lead]
  cases hattached : x.leaderAttached with
  | true => simp [Applied.skipped, stopIn?]
  | false =>
      simp only [Bool.false_eq_true, if_false, Applied.mapState, stopIn?_attachLeader config h]
      constructor
      · rintro ⟨⟨hl, hg, hp⟩, hb, ⟨dx, dy, hoffset, hsize⟩, hcause⟩
        exact ⟨⟨dx, dy, ⟨⟨hl, trivial, hg, hp, hb⟩, hoffset⟩, hsize⟩, hcause⟩
      · rintro ⟨⟨dx, dy, ⟨⟨hl, -, hg, hp, hb⟩, hoffset⟩, hsize⟩, hcause⟩
        exact ⟨⟨hl, hg, hp⟩, hb, ⟨dx, dy, hoffset, hsize⟩, hcause⟩

theorem span?_raised (s : Symbolizer) (x : Subject) : (x.raised s).span? s = x.span? s := by
  have hbillboard : (raise s x.entity).billboard = x.entity.billboard :=
    graphic_raise .billboard s x.entity
  have hgeometry := (sameFeature_raised s x).geometry
  rw [Subject.span?, Subject.span?, hgeometry]
  simp only [Subject.raised, hbillboard, isSome_position_raise]

theorem stops_iff {s : Symbolizer} {x : Subject} :
    Stops config s x cause ↔
      ((∃ t, x.entity.geometry.stroke? s = some t ∧ stopIn? t.notices = some cause) ∨
        (∃ dx dy, x.span? s = some (dx, dy) ∧ Portrayal.Oversized config dx dy) ∧
          cause = .capacityOverflow) := by
  simp only [stopIn?_stroke]
  constructor
  · intro h
    cases h with
    | dashes hstroke hdashes hlong => exact .inl ⟨_, hstroke, ⟨_, hdashes, hlong⟩, rfl⟩
    | connector hspan hsize => exact .inr ⟨⟨_, _, hspan, hsize⟩, rfl⟩
  · rintro (⟨t, hstroke, ⟨a, hdashes, hlong⟩, rfl⟩ | ⟨⟨dx, dy, hspan, hsize⟩, rfl⟩)
    · exact .dashes hstroke hdashes hlong
    · exact .connector hspan hsize

theorem labelOffset?_of_needsIcon {s : Symbolizer} (hs : s.needsIcon = true) :
    labelOffset? s = none := by
  cases s <;> first | rfl | cases hs

theorem stopIn?_apply_of_isPointSymbol {s : Symbolizer} (h : s.defect? = none)
    (hs : s.isPointSymbol = true) (x : Subject) :
    stopIn? (x.apply config icon s).notices = some cause ↔
      (∃ dx dy, x.span? s = some (dx, dy) ∧ Portrayal.Oversized config dx dy) ∧
        cause = .capacityOverflow := by
  cases hg : x.entity.geometry.isPoint with
  | false =>
      simp only [span?_eq_some_iff]
      simp [Subject.apply, hs, hg, Applied.skipped, stopIn?]
  | true =>
      cases hready : s.needsIcon && icon.isNone with
      | true =>
          rw [Bool.and_eq_true] at hready
          simp only [span?_eq_some_iff]
          simp [Subject.apply, hs, hg, hready.1, hready.2, Applied.skipped, stopIn?,
            labelOffset?_of_needsIcon hready.1]
      | false =>
          have hicon : s.needsIcon = true → icon.isSome = true := fun hneeds => by
            rw [hneeds, Bool.true_and, Option.isNone_eq_false_iff] at hready
            exact hready
          have hok := outcome_apply config icon h x
          obtain ⟨b, hlead⟩ := lead_ok config h (x.raised s)
          rw [apply_of_isPointSymbol config icon hs hg hicon] at hok ⊢
          simp only [Applied.andThen, hlead] at hok ⊢
          -- point symbols have no stroke, so the leader line alone can come to a stop
          have hgraphics := stopIn?_applyGraphics config icon hok
          rw [Geometry.stroke?_of_isPointSymbol _ hs] at hgraphics
          rw [Notice.stopIn?_append, Subject.draw, Applied.mapState, hgraphics, Option.bind_none,
            Option.or_none, stopIn?_lead config h, span?_raised]

theorem stopIn?_apply {s : Symbolizer} (h : s.defect? = none) (x : Subject) :
    stopIn? (x.apply config icon s).notices = some cause ↔ Stops config s x cause := by
  rw [stops_iff]
  cases hs : s.isPointSymbol with
  | true =>
      rw [stopIn?_apply_of_isPointSymbol config icon h hs, Geometry.stroke?_of_isPointSymbol _ hs]
      simp
  | false =>
      have hok := outcome_apply config icon h x
      rw [apply_of_not_isPointSymbol config icon hs, Subject.draw] at hok ⊢
      rw [Applied.mapState, stopIn?_applyGraphics config icon hok]
      simp [span?_eq_some_iff, leaderLine?_of_not_isPointSymbol hs, Option.bind_eq_some_iff]

structure Shown (config : Config) (icon : Option Icon) (s : Symbolizer) (x : Subject) : Prop where
  stops_iff : ∀ cause, (x.apply config icon s).returned = .error cause ↔ Stops config s x cause
  shows : (∀ cause, ¬ Stops config s x cause) →
    (x.apply config icon s).returned = .ok (.ok (x.entity.geometry.shows icon s))

theorem shown {s : Symbolizer} (h : s.defect? = none) (x : Subject) : Shown config icon s x := by
  have hstop (cause : Stop) : stopIn? (x.apply config icon s).notices = some cause ↔ _ :=
    stopIn?_apply config icon h x
  constructor
  · intro cause
    rw [← hstop, Applied.returned]
    cases stopIn? (x.apply config icon s).notices <;> simp
  · intro hnone
    have hquiet : stopIn? (x.apply config icon s).notices = none :=
      Option.eq_none_iff_forall_ne_some.mpr fun cause h => hnone cause ((hstop cause).mp h)
    rw [Applied.returned, hquiet, outcome_apply config icon h]

end Styling
end Symbology
