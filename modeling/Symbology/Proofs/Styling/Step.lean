import Symbology.Proofs.Styling.Slot

namespace Symbology.Styling

open Portrayal (Billboard Polyline)
open Style (Symbolizer)

variable (config : Config) (icon : Option Icon)

def leaderOf? (config : Config) (s : Symbolizer) (position : Option Position) : Option Polyline :=
  s.leaderLine?.bind fun l => position.bind fun p =>
    (leaderColor l).toOption.map fun color => leaderPolyline config p (leaderWidth l) color

def connectorOf? (config : Config) (s : Symbolizer) : Option Billboard :=
  s.leaderLine?.bind fun l => (labelOffset? s).bind fun (x, y) =>
    (leaderColor l).toOption.bind fun color =>
      (Portrayal.connector config x y (leaderWidth l) color (labelHeightReference s)).toOption

theorem leaderLine?_eq_some {s : Symbolizer} {l : Style.LeaderLine} (h : s.leaderLine? = some l) :
    l = s.leaderOptions := by
  rw [Symbolizer.leaderLine?] at h
  split at h
  · cases h
    rfl
  · cases h

theorem leaderColor_of_checked {s : Symbolizer} (h : s.defect? = none) :
    ∃ color, leaderColor s.leaderOptions = .ok color := by
  have hread : ∀ hex, s.leaderOptions.color = some hex → Style.isColor hex = true := by
    intro hex hhex
    apply Symbolizer.isColor_of_mem_colors h
    cases s <;> simp_all [Symbolizer.leaderOptions, Symbolizer.colors]
  exact Color.ofHex_getD isColor_black hread _

theorem isSome_leaderOf? {s : Symbolizer} (h : s.defect? = none) (position : Option Position) :
    (leaderOf? config s position).isSome = (s.leaderLine?.isSome && position.isSome) := by
  obtain ⟨color, hcolor⟩ := leaderColor_of_checked h
  rw [leaderOf?]
  cases hl : s.leaderLine? with
  | none => rfl
  | some l =>
      rw [leaderLine?_eq_some hl]
      cases position with
      | none => rfl
      | some p => simp [hcolor, Except.toOption]

theorem fst_connected {s : Symbolizer} {l : Style.LeaderLine} {color : Color}
    (hl : s.leaderLine? = some l) (hcolor : leaderColor l = .ok color) (e : Entity) :
    (connected config s (leaderWidth l) color e).1 = e.billboard.or (connectorOf? config s) := by
  rw [connected, connectorOf?]
  rw [hl, Option.bind_some, hcolor]
  cases labelOffset? s with
  | none => cases e.billboard <;> rfl
  | some offset =>
      cases e.billboard with
      | some b => rfl
      | none =>
          obtain ⟨dx, dy⟩ := offset
          simp only [Option.bind_some, Except.toOption, Option.none_or]
          cases Portrayal.connector config dx dy (leaderWidth l) color (labelHeightReference s) <;>
            rfl

theorem attachLeader_of_isPoint {s : Symbolizer} {e : Entity} (hg : e.geometry.isPoint = true) :
    (attachLeader config s e).hasStyled = (leaderOf? config s e.position).isSome ∧
      (attachLeader config s e).state =
        { e with
          billboard := e.billboard.or
            ((leaderOf? config s e.position).bind fun _ => connectorOf? config s)
          leaderLines := e.leaderLines ++ (leaderOf? config s e.position).toList } := by
  rw [attachLeader]
  cases hl : s.leaderLine? with
  | none =>
      have hline : leaderOf? config s e.position = none := by simp [leaderOf?, hl]
      rw [hline]
      simp [Applied.skipped, Applied.hasStyled]
  | some l =>
      simp only [hg, Bool.not_true, Bool.false_eq_true, if_false]
      cases hp : e.position with
      | none =>
          have hline : leaderOf? config s none = none := by simp [leaderOf?, hl]
          rw [hline]
          simp [Applied.skipped, Applied.hasStyled, ← hp]
      | some p =>
          cases hread : leaderColor l with
          | error err =>
              have hline : leaderOf? config s (some p) = none := by
                simp [leaderOf?, hl, hread, Except.toOption]
              rw [hline]
              simp [Applied.failed, Applied.hasStyled, ← hp]
          | ok color =>
              have hline : leaderOf? config s (some p) =
                  some (leaderPolyline config p (leaderWidth l) color) := by
                simp [leaderOf?, hl, hread, Except.toOption]
              rw [hline]
              simp only [fst_connected config hl hread]
              simp [Applied.styled, Applied.hasStyled]

theorem attachLeader_ok {s : Symbolizer} (h : s.defect? = none) (e : Entity) :
    ∃ b, (attachLeader config s e).outcome = .ok b := by
  obtain ⟨color, hcolor⟩ := leaderColor_of_checked h
  rw [attachLeader]
  cases hl : s.leaderLine? with
  | none => exact ⟨false, rfl⟩
  | some l =>
      have hread : leaderColor l = .ok color := by rw [leaderLine?_eq_some hl, hcolor]
      dsimp only
      split
      · exact ⟨false, rfl⟩
      · cases e.position with
        | none => exact ⟨false, rfl⟩
        | some p => exact ⟨true, by simp only [hread, Applied.styled]⟩

def Subject.raised (s : Symbolizer) (x : Subject) : Subject :=
  { x with entity := raise s x.entity }

def Subject.offer? (config : Config) (s : Symbolizer) (x : Subject) : Option Polyline :=
  if x.leaderAttached then none else leaderOf? config s x.entity.position

def Subject.led (config : Config) (s : Symbolizer) (x : Subject) : Subject where
  entity :=
    { x.entity with
      billboard := x.entity.billboard.or ((x.offer? config s).bind fun _ => connectorOf? config s)
      leaderLines := x.entity.leaderLines ++ (x.offer? config s).toList }
  leaderAttached := x.leaderAttached || (x.offer? config s).isSome

def Subject.advance (config : Config) (icon : Option Icon) (s : Symbolizer) (x : Subject) :
    Subject :=
  let y := (x.raised s).led config s
  { y with entity := drawn config icon s y.entity }

theorem sameFeature_raised (s : Symbolizer) (x : Subject) :
    SameFeature x.entity (x.raised s).entity :=
  sameFeature_raise s x.entity

theorem sameFeature_led (s : Symbolizer) (x : Subject) :
    SameFeature x.entity (x.led config s).entity := ⟨rfl, rfl, rfl⟩

theorem led_of_offer?_eq_none {s : Symbolizer} {x : Subject} (h : x.offer? config s = none) :
    x.led config s = x := by
  rw [Subject.led, h]
  simp

theorem state_lead {s : Symbolizer} {x : Subject} (hg : x.entity.geometry.isPoint = true) :
    (x.lead config s).state = x.led config s := by
  rw [Subject.lead]
  cases hattached : x.leaderAttached with
  | true =>
      have hnone : x.offer? config s = none := by rw [Subject.offer?, hattached, if_pos rfl]
      rw [led_of_offer?_eq_none config hnone]
      rfl
  | false =>
      obtain ⟨hstyled, hstate⟩ := attachLeader_of_isPoint config (s := s) hg
      have hoffer : x.offer? config s = leaderOf? config s x.entity.position := by
        rw [Subject.offer?, hattached, if_neg Bool.false_ne_true]
      rw [if_neg Bool.false_ne_true, Subject.led, hoffer, hattached, Bool.false_or]
      simp only [Applied.state_mapState, hstyled, hstate]

theorem lead_ok {s : Symbolizer} (h : s.defect? = none) (x : Subject) :
    ∃ b, (x.lead config s).outcome = .ok b := by
  rw [Subject.lead]
  split
  · exact ⟨false, rfl⟩
  · exact attachLeader_ok config h x.entity

theorem displayHeight?_of_not_isPointSymbol {s : Symbolizer} (hs : s.isPointSymbol = false) :
    s.displayHeight? = none := by
  cases s <;> simp_all [Symbolizer.isPointSymbol, Symbolizer.displayHeight?]

theorem leaderLine?_of_not_isPointSymbol {s : Symbolizer} (hs : s.isPointSymbol = false) :
    s.leaderLine? = none := by
  have hoptions : s.leaderOptions = {} := by
    cases s <;> simp_all [Symbolizer.isPointSymbol, Symbolizer.leaderOptions]
  simp [Symbolizer.leaderLine?, hoptions, Style.LeaderLine.isRequested]

theorem bringsToFront_of_not_isPointSymbol {s : Symbolizer} (hs : s.isPointSymbol = false) :
    s.bringsToFront = false := by
  cases s <;> simp_all [Symbolizer.isPointSymbol, Symbolizer.bringsToFront]

theorem led_of_not_isPointSymbol {s : Symbolizer} {x : Subject} (hs : s.isPointSymbol = false) :
    (x.raised s).led config s = x := by
  have hraised : x.raised s = x := by
    rw [Subject.raised, raise, displayHeight?_of_not_isPointSymbol hs]
  have hnone : x.offer? config s = none := by
    rw [Subject.offer?, leaderOf?, leaderLine?_of_not_isPointSymbol hs, Option.bind_none, ite_self]
  rw [hraised, led_of_offer?_eq_none config hnone]

theorem carries_of_isPointSymbol {s : Symbolizer} (hs : s.isPointSymbol = true) (g : Geometry) :
    g.carries s = g.isPoint := by
  cases s <;> simp_all [Geometry.carries, Symbolizer.isPointSymbol]

theorem applyGraphics_of_checked {s : Symbolizer} {e : Entity} (h : s.defect? = none)
    (hg : e.geometry.carries s = true) (hicon : s.needsIcon = true → icon.isSome = true) :
    (applyGraphics config icon s e).outcome = .ok true ∧
      (applyGraphics config icon s e).state = drawn config icon s e := by
  cases s with
  | fill s => exact applyFill_of_checked config icon h hg
  | line s => exact applyLine_of_checked config icon h hg
  | mark s =>
      obtain ⟨i, rfl⟩ := Option.isSome_iff_exists.1 (hicon rfl)
      exact applyMark_of_isPoint config i hg
  | icon s =>
      obtain ⟨i, rfl⟩ := Option.isSome_iff_exists.1 (hicon rfl)
      exact applyIcon_of_checked config i h hg
  | model s => exact applyModel_of_checked config icon h hg
  | text s => exact applyLabel_of_checked config icon h hg
  | unknown => cases hg

theorem apply_of_not_isPointSymbol {s : Symbolizer} (hs : s.isPointSymbol = false) (x : Subject) :
    x.apply config icon s = x.draw config icon s := by
  rw [Subject.apply, hs]
  rfl

theorem apply_of_isPointSymbol {s : Symbolizer} {x : Subject} (hs : s.isPointSymbol = true)
    (hg : x.entity.geometry.isPoint = true) (hicon : s.needsIcon = true → icon.isSome = true) :
    x.apply config icon s =
      ((x.raised s).lead config s).andThen (Subject.draw config icon s) := by
  have hready : (s.needsIcon && icon.isNone) = false := by
    cases hneeds : s.needsIcon with
    | false => rfl
    | true => simp [hicon hneeds]
  rw [Subject.apply, if_pos hs, hg, hready]
  rfl

theorem isPoint_raised (s : Symbolizer) {x : Subject}
    (hg : x.entity.geometry.isPoint = true) :
    (x.raised s).entity.geometry.isPoint = true := by
  rw [(sameFeature_raised s x).geometry]
  exact hg

theorem apply_of_carries {s : Symbolizer} {x : Subject} (h : s.defect? = none)
    (hg : x.entity.geometry.carries s = true) (hicon : s.needsIcon = true → icon.isSome = true) :
    (x.apply config icon s).outcome = .ok true ∧
      (x.apply config icon s).state = x.advance config icon s := by
  rw [Subject.advance]
  cases hs : s.isPointSymbol with
  | false =>
      obtain ⟨hok, hstate⟩ := applyGraphics_of_checked config icon h hg hicon
      rw [apply_of_not_isPointSymbol config icon hs, led_of_not_isPointSymbol config hs]
      simp only [Subject.draw, Applied.outcome_mapState, Applied.state_mapState]
      exact ⟨hok, by rw [hstate]⟩
  | true =>
      have hpoint : x.entity.geometry.isPoint = true := by
        rw [← carries_of_isPointSymbol hs]
        exact hg
      have hcarries : ((x.raised s).led config s).entity.geometry.carries s = true := by
        rw [((sameFeature_raised s x).trans (sameFeature_led config s (x.raised s))).geometry]
        exact hg
      obtain ⟨b, hlead⟩ := lead_ok config h (x.raised s)
      have hstate := state_lead config (s := s) (isPoint_raised s hpoint)
      obtain ⟨hok, hdrawn⟩ := applyGraphics_of_checked config icon h hcarries hicon
      rw [apply_of_isPointSymbol config icon hs hpoint hicon]
      simp only [Applied.andThen, hlead, hstate, Subject.draw, Applied.outcome_mapState,
        Applied.state_mapState]
      exact ⟨hok, by rw [hdrawn]⟩

theorem applyGraphics_of_not_carries {s : Symbolizer} {e : Entity}
    (hg : e.geometry.carries s = false) :
    (applyGraphics config icon s e).outcome = .ok false ∧
      (applyGraphics config icon s e).state = e := by
  cases s with
  | fill s =>
      have hg' : e.geometry.isPolygon = false := hg
      simp [applyGraphics, applyFill, hg', Applied.skipped]
  | line s =>
      have hg' : (e.geometry.isLine || e.geometry.isPolygon) = false := hg
      simp [applyGraphics, applyLine, hg', Applied.skipped]
  | mark s =>
      have hg' : e.geometry.isPoint = false := hg
      cases icon <;> simp [applyGraphics, applyMark, hg', Applied.skipped]
  | icon s =>
      have hg' : e.geometry.isPoint = false := hg
      cases icon <;> simp [applyGraphics, applyIcon, hg', Applied.skipped]
  | model s =>
      have hg' : e.geometry.isPoint = false := hg
      simp [applyGraphics, applyModel, hg', Applied.skipped]
  | text s =>
      have hg' : e.geometry.isPoint = false := hg
      simp [applyGraphics, applyLabel, hg', Applied.skipped]
  | unknown => exact ⟨rfl, rfl⟩

theorem apply_of_not_carries {s : Symbolizer} {x : Subject}
    (hg : x.entity.geometry.carries s = false) :
    (x.apply config icon s).outcome = .ok false ∧ (x.apply config icon s).state = x := by
  cases hs : s.isPointSymbol with
  | false =>
      obtain ⟨hok, hstate⟩ := applyGraphics_of_not_carries config icon hg
      rw [apply_of_not_isPointSymbol config icon hs]
      simp only [Subject.draw, Applied.outcome_mapState, Applied.state_mapState]
      exact ⟨hok, by rw [hstate]⟩
  | true =>
      rw [carries_of_isPointSymbol hs] at hg
      simp [Subject.apply, hs, hg, Applied.skipped]

theorem position_raise (s : Symbolizer) (e : Entity) :
    (raise s e).position = e.position.map fun p => s.displayHeight?.elim p p.withHeight := by
  rw [raise]
  cases s.displayHeight? <;> simp

theorem isSome_position_raise (s : Symbolizer) (e : Entity) :
    (raise s e).position.isSome = e.position.isSome := by
  rw [position_raise, Option.isSome_map]

theorem graphic_raise (k : Slot) (s : Symbolizer) (e : Entity) :
    (raise s e).graphic k = e.graphic k := by
  rw [raise]
  cases s.displayHeight? <;> cases k <;> rfl

theorem leaderLines_raise (s : Symbolizer) (e : Entity) :
    (raise s e).leaderLines = e.leaderLines := by
  rw [raise]
  cases s.displayHeight? <;> rfl

variable (s : Symbolizer) (x : Subject)

theorem graphic_led {k : Slot} (hk : k ≠ .billboard) :
    (x.led config s).entity.graphic k = x.entity.graphic k := by
  cases k with
  | billboard => exact absurd rfl hk
  | _ => rfl

theorem sameFeature_advance : SameFeature x.entity (x.advance config icon s).entity := by
  have hled := (sameFeature_raised s x).trans (sameFeature_led config s (x.raised s))
  exact hled.trans ⟨rfl, rfl, rfl⟩

theorem graphic_advance {k : Slot} (hk : k ≠ .billboard) :
    (x.advance config icon s).entity.graphic k =
      (k.value config icon x.entity.geometry x.entity.properties s).or (x.entity.graphic k) := by
  have hled := (sameFeature_raised s x).trans (sameFeature_led config s (x.raised s))
  have hraise : (x.raised s).entity.graphic k = x.entity.graphic k := graphic_raise k s x.entity
  rw [Subject.advance, graphic_drawn, graphic_led config s _ hk, hraise, hled.geometry,
    hled.properties]

theorem billboard_advance :
    (x.advance config icon s).entity.billboard =
      (Portrayal.billboardBy icon s).or (x.entity.billboard.or
        (((x.raised s).offer? config s).bind fun _ => connectorOf? config s)) := by
  have hraise : (raise s x.entity).billboard = x.entity.billboard :=
    graphic_raise .billboard s x.entity
  rw [← hraise]
  rfl

theorem position_advance :
    (x.advance config icon s).entity.position = (raise s x.entity).position := rfl

theorem leaderLines_advance :
    (x.advance config icon s).entity.leaderLines =
      x.entity.leaderLines ++ ((x.raised s).offer? config s).toList := by
  rw [← leaderLines_raise s x.entity]
  rfl

theorem leaderAttached_advance :
    (x.advance config icon s).leaderAttached =
      (x.leaderAttached || ((x.raised s).offer? config s).isSome) := rfl

end Symbology.Styling
