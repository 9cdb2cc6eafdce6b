import Symbology.Proofs.Styling.Outcome

namespace Symbology

open Style (Symbolizer)

def Style.Symbolizer.hasContent : Symbolizer → Bool
  | .model s => s.model.isSome
  | .text s => s.label.isSome
  | _ => true

namespace Styling

namespace Applied

variable {σ : Type}

def Clean (a : Applied σ) (s : σ) : Prop :=
  a.outcome ≠ .ok true → a.state = s

theorem clean_skipped (s : σ) (notices : List Notice) : (skipped s notices).Clean s :=
  fun _ => rfl

theorem clean_failed (err : StyleError) (s : σ) : (failed err s).Clean s :=
  fun _ => rfl

theorem clean_styled (s s' : σ) (notices : List Notice) : (styled s' notices).Clean s :=
  fun h => absurd rfl h

theorem Clean.of_error {a : Applied σ} {s : σ} {err : StyleError} (h : a.Clean s)
    (herr : a.outcome = .error err) : a.state = s := by
  apply h
  rw [herr]
  intro hok
  cases hok

theorem Clean.of_skipped {a : Applied σ} {s : σ} (h : a.Clean s) (hskip : a.outcome = .ok false) :
    a.state = s := by
  apply h
  rw [hskip]
  intro hok
  cases hok

end Applied

open Applied (clean_skipped clean_failed clean_styled)

variable (config : Config) (icon : Option Icon)

theorem clean_applyOutline (s : Style.Fill) (e : Entity) : (applyOutline config s e).Clean e := by
  rw [applyOutline]
  split
  · exact clean_styled _ _ _
  · split
    · exact clean_failed _ _
    · exact clean_styled _ _ _

theorem clean_applyLine (s : Style.Line) (e : Entity) : (applyLine config s e).Clean e := by
  rw [applyLine]
  split
  · exact clean_skipped _ _
  · dsimp only
    split
    · exact clean_failed _ _
    · exact clean_styled _ _ _

theorem clean_applyMark (i : Icon) (s : Style.Mark) (e : Entity) : (applyMark i s e).Clean e := by
  rw [applyMark]
  split
  · exact clean_skipped _ _
  · exact clean_styled _ _ _

theorem clean_applyIcon (i : Icon) (s : Style.Icon) (e : Entity) : (applyIcon i s e).Clean e := by
  rw [applyIcon]
  split
  · exact clean_skipped _ _
  · split
    · exact clean_failed _ _
    · exact clean_styled _ _ _

theorem clean_applyModel (s : Style.Model) (e : Entity) : (applyModel s e).Clean e := by
  rw [applyModel]
  split
  · exact clean_skipped _ _
  · split
    · exact clean_skipped _ _
    · split
      · exact clean_failed _ _
      · exact clean_styled _ _ _

theorem clean_applyLabel (s : Style.Label) (e : Entity) : (applyLabel config s e).Clean e := by
  rw [applyLabel]
  split
  · exact clean_skipped _ _
  · split
    · exact clean_skipped _ _
    · split
      · exact clean_failed _ _
      · exact clean_styled _ _ _

theorem clean_applyGraphics {s : Symbolizer} (hs : s.kind ≠ .fill) (e : Entity) :
    (applyGraphics config icon s e).Clean e := by
  cases s with
  | fill s => exact absurd rfl hs
  | line s => exact clean_applyLine config s e
  | mark s =>
      cases icon with
      | none => exact clean_skipped _ _
      | some i => exact clean_applyMark i s e
  | icon s =>
      cases icon with
      | none => exact clean_skipped _ _
      | some i => exact clean_applyIcon i s e
  | model s => exact clean_applyModel s e
  | text s => exact clean_applyLabel config s e
  | unknown => exact clean_skipped _ _

def paved (config : Config) (s : Symbolizer) (e : Entity) : Entity :=
  { e with polygon := (Portrayal.polygonBy config e.geometry s).or e.polygon }

theorem paved_eq_self {s : Symbolizer} {e : Entity}
    (h : Portrayal.polygonBy config e.geometry s = none) : paved config s e = e := by
  rw [paved, h, Option.none_or]

theorem paved_of_ne_fill {s : Symbolizer} (hs : s.kind ≠ .fill) (e : Entity) :
    paved config s e = e := by
  apply paved_eq_self
  cases s with
  | fill s => exact absurd rfl hs
  | _ => rfl

theorem applyFill_of_isPolygon (s : Style.Fill) {e : Entity} (hg : e.geometry.isPolygon = true) :
    (∃ err, applyFill config s e = .failed err e ∧ paved config (.fill s) e = e) ∨
      applyFill config s e = applyOutline config s (paved config (.fill s) e) := by
  rw [applyFill]
  simp only [hg, Bool.not_true, Bool.false_eq_true, if_false]
  cases hcolor : s.color with
  | none =>
      right
      rw [paved_eq_self]
      simp [Portrayal.polygonBy, hcolor]
  | some color =>
      cases hread : Portrayal.fillPolygon config e.geometry s color with
      | error err =>
          left
          refine ⟨err, by simp only [hread], ?_⟩
          apply paved_eq_self
          simp [Portrayal.polygonBy, hcolor, hread, Except.toOption]
      | ok polygon =>
          right
          have hpolygon : Portrayal.polygonBy config e.geometry (.fill s) = some polygon := by
            simp [Portrayal.polygonBy, hcolor, hread, Except.toOption]
          simp only [hread, paved, hpolygon, Option.some_or]

theorem applyOutline_ne_skipped (s : Style.Fill) (e : Entity) :
    (applyOutline config s e).outcome ≠ .ok false := by
  rw [applyOutline]
  repeat' split
  all_goals simp [Applied.styled, Applied.failed]

theorem applyFill_of_error {s : Style.Fill} {e : Entity} {err : StyleError}
    (h : (applyFill config s e).outcome = .error err) :
    (applyFill config s e).state = paved config (.fill s) e := by
  cases hg : e.geometry.isPolygon with
  | false =>
      rw [applyFill, hg] at h
      cases h
  | true =>
      rcases applyFill_of_isPolygon config s hg with ⟨cause, hfailed, hkept⟩ | houtline
      · rw [hfailed, hkept]
        rfl
      · rw [houtline] at h ⊢
        exact (clean_applyOutline config s _).of_error h

theorem applyFill_of_skipped {s : Style.Fill} {e : Entity}
    (h : (applyFill config s e).outcome = .ok false) : (applyFill config s e).state = e := by
  cases hg : e.geometry.isPolygon with
  | false =>
      rw [applyFill, hg]
      rfl
  | true =>
      rcases applyFill_of_isPolygon config s hg with ⟨cause, hfailed, _⟩ | houtline
      · rw [hfailed]
        rfl
      · rw [houtline] at h
        exact absurd h (applyOutline_ne_skipped config s _)

theorem applyGraphics_of_error {s : Symbolizer} {e : Entity} {err : StyleError}
    (h : (applyGraphics config icon s e).outcome = .error err) :
    (applyGraphics config icon s e).state = paved config s e := by
  cases s with
  | fill s => exact applyFill_of_error config h
  | _ =>
      rw [paved_of_ne_fill config (by simp [Symbolizer.kind])]
      exact (clean_applyGraphics config icon (by simp [Symbolizer.kind]) e).of_error h

theorem applyGraphics_of_skipped {s : Symbolizer} {e : Entity}
    (h : (applyGraphics config icon s e).outcome = .ok false) :
    (applyGraphics config icon s e).state = e := by
  cases s with
  | fill s => exact applyFill_of_skipped config h
  | _ => exact (clean_applyGraphics config icon (by simp [Symbolizer.kind]) e).of_skipped h

theorem applyGraphics_ne_skipped {s : Symbolizer} {e : Entity} (hs : s.isPointSymbol = true)
    (hg : e.geometry.isPoint = true) (hicon : s.needsIcon = true → icon.isSome = true)
    (hcontent : s.hasContent = true) : (applyGraphics config icon s e).outcome ≠ .ok false := by
  cases s with
  | fill s => cases hs
  | line s => cases hs
  | mark s =>
      cases icon with
      | none => cases hicon rfl
      | some i => simp [applyGraphics, applyMark, hg, Applied.styled]
  | icon s =>
      cases icon with
      | none => cases hicon rfl
      | some i =>
          simp only [applyGraphics, applyIcon, hg]
          cases Portrayal.iconBillboard i s <;> simp [Applied.styled, Applied.failed]
  | model s =>
      obtain ⟨uri, huri⟩ := Option.isSome_iff_exists.1 hcontent
      simp only [applyGraphics, applyModel, hg, huri]
      cases Portrayal.modelOf uri s <;> simp [Applied.styled, Applied.failed]
  | text s =>
      obtain ⟨template, htemplate⟩ := Option.isSome_iff_exists.1 hcontent
      simp only [applyGraphics, applyLabel, hg, htemplate]
      cases Portrayal.labelOf config e.properties template s <;>
        simp [Applied.styled, Applied.failed]
  | unknown => cases hs

theorem Applied.andThen_cases {σ : Type} (a : Applied σ) (f : σ → Applied σ) :
    (∃ err, a.outcome = .error err ∧ a.andThen f = a) ∨
      (a.andThen f).outcome = (f a.state).outcome ∧ (a.andThen f).state = (f a.state).state := by
  rw [andThen]
  cases ha : a.outcome with
  | error err => exact .inl ⟨err, rfl, rfl⟩
  | ok b => exact .inr ⟨rfl, rfl⟩

/-- Raised, with its leader line, and with its area: what is there before the graphics that can
still fail. -/
def Subject.begun (config : Config) (s : Symbolizer) (x : Subject) : Subject :=
  let y := (x.raised s).led config s
  { y with entity := paved config s y.entity }

theorem draw_of_error {s : Symbolizer} {x : Subject} {err : StyleError}
    (h : (x.draw config icon s).outcome = .error err) :
    (x.draw config icon s).state = { x with entity := paved config s x.entity } := by
  rw [Subject.draw, Applied.state_mapState, applyGraphics_of_error config icon h]

theorem begun_of_isPointSymbol {s : Symbolizer} (hs : s.isPointSymbol = true) (x : Subject) :
    x.begun config s = (x.raised s).led config s := by
  have hfill : s.kind ≠ .fill := by
    intro hkind
    cases s <;> cases hkind
    cases hs
  rw [Subject.begun]
  simp only [paved_of_ne_fill config hfill]

theorem apply_of_error {s : Symbolizer} {x : Subject} {err : StyleError}
    (h : (x.apply config icon s).outcome = .error err) :
    (x.apply config icon s).state = x.begun config s := by
  cases hs : s.isPointSymbol with
  | false =>
      rw [apply_of_not_isPointSymbol config icon hs] at h ⊢
      rw [draw_of_error config icon h, Subject.begun, led_of_not_isPointSymbol config hs]
  | true =>
      cases hshows : x.entity.geometry.shows icon s with
      | false =>
          rw [(apply_of_not_shows config icon hshows).1] at h
          cases h
      | true =>
          obtain ⟨hcarries, hicon⟩ := Geometry.shows_iff.1 hshows
          rw [carries_of_isPointSymbol hs] at hcarries
          have hled := state_lead config (s := s) (isPoint_raised s hcarries)
          rw [apply_of_isPointSymbol config icon hs hcarries hicon] at h ⊢
          rcases Applied.andThen_cases ((x.raised s).lead config s) (Subject.draw config icon s)
            with ⟨_, _, hstopped⟩ | ⟨hdrawn, hstate⟩
          · rw [hstopped, hled, begun_of_isPointSymbol config hs]
          · rw [hdrawn, hled] at h
            rw [hstate, hled, draw_of_error config icon h, Subject.begun]

theorem apply_ne_skipped {s : Symbolizer} {x : Subject} (hs : s.isPointSymbol = true)
    (hcontent : s.hasContent = true) (hshows : x.entity.geometry.shows icon s = true) :
    (x.apply config icon s).outcome ≠ .ok false := by
  obtain ⟨hcarries, hicon⟩ := Geometry.shows_iff.1 hshows
  rw [carries_of_isPointSymbol hs] at hcarries
  have hpoint := isPoint_raised s hcarries
  rw [apply_of_isPointSymbol config icon hs hcarries hicon]
  rcases Applied.andThen_cases ((x.raised s).lead config s) (Subject.draw config icon s) with
    ⟨_, hfailed, hstopped⟩ | ⟨hdrawn, _⟩
  · rw [hstopped, hfailed]
    intro hskipped
    cases hskipped
  · rw [hdrawn, state_lead config hpoint]
    exact applyGraphics_ne_skipped config icon hs hpoint hicon hcontent

theorem apply_of_skipped {s : Symbolizer} {x : Subject} (hcontent : s.hasContent = true)
    (h : (x.apply config icon s).outcome = .ok false) : (x.apply config icon s).state = x := by
  cases hs : s.isPointSymbol with
  | false =>
      rw [apply_of_not_isPointSymbol config icon hs] at h ⊢
      rw [Subject.draw, Applied.state_mapState, applyGraphics_of_skipped config icon h]
  | true =>
      cases hshows : x.entity.geometry.shows icon s with
      | false => exact (apply_of_not_shows config icon hshows).2
      | true => exact absurd h (apply_ne_skipped config icon hs hcontent hshows)

theorem state_of_checked {s : Symbolizer} {x : Subject} (hchecked : s.defect? = none)
    (h : (x.apply config icon s).outcome ≠ .ok true) : (x.apply config icon s).state = x := by
  rw [outcome_apply config icon hchecked] at h
  cases hg : x.entity.geometry.shows icon s with
  | false => exact (apply_of_not_shows config icon hg).2
  | true =>
      rw [hg] at h
      exact absurd rfl h

def misprint : Symbolizer :=
  .text { label := some "peak", color := some "red", height := some 10,
          leaderLine := { width := some 2 } }

def ridge : Entity :=
  .ofFeature (.ofNat 2) (.lineString [⟨7, 41, 500⟩, ⟨8, 41, 600⟩]) []

end Styling
end Symbology
