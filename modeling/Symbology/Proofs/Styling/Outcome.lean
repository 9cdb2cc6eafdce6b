import Symbology.Proofs.Styling.Run

namespace Symbology

open Style (Rule Symbolizer)

def Geometry.shows (g : Geometry) (icon : Option Icon) : Symbolizer → Bool
  | .fill _ => g.isPolygon
  | .line _ => g.isLine || g.isPolygon
  | .mark _ | .icon _ => g.isPoint && icon.isSome
  | .model _ | .text _ => g.isPoint
  | .unknown => false

theorem Geometry.shows_eq (g : Geometry) (icon : Option Icon) (s : Symbolizer) :
    g.shows icon s = (g.carries s && (!s.needsIcon || icon.isSome)) := by
  cases s <;> simp [shows, carries, Symbolizer.needsIcon]

theorem Geometry.shows_iff {g : Geometry} {icon : Option Icon} {s : Symbolizer} :
    g.shows icon s = true ↔
      g.carries s = true ∧ (s.needsIcon = true → icon.isSome = true) := by
  rw [shows_eq]
  cases s.needsIcon <;> simp

namespace Styling

variable (config : Config) (icon : Option Icon)

theorem apply_of_imageless {s : Symbolizer} {x : Subject} (hneeds : s.needsIcon = true)
    (hicon : icon.isSome = false) :
    (x.apply config icon s).outcome = .ok false ∧ (x.apply config icon s).state = x := by
  have hnone : icon.isNone = true := by simpa using hicon
  have hpoint := Symbolizer.isPointSymbol_of_needsIcon hneeds
  rw [Subject.apply]
  simp only [hpoint, hneeds, hnone, Bool.and_self, if_true, ite_self]
  exact ⟨rfl, rfl⟩

theorem apply_of_not_shows {s : Symbolizer} {x : Subject}
    (hg : x.entity.geometry.shows icon s = false) :
    (x.apply config icon s).outcome = .ok false ∧ (x.apply config icon s).state = x := by
  rw [Geometry.shows_eq, Bool.and_eq_false_iff] at hg
  rcases hg with hcarries | himage
  · exact apply_of_not_carries config icon hcarries
  · rw [Bool.or_eq_false_iff, Bool.not_eq_false'] at himage
    exact apply_of_imageless config icon himage.1 himage.2

theorem outcome_apply {s : Symbolizer} (h : s.defect? = none) (x : Subject) :
    (x.apply config icon s).outcome = .ok (x.entity.geometry.shows icon s) := by
  cases hg : x.entity.geometry.shows icon s with
  | false => exact (apply_of_not_shows config icon hg).1
  | true =>
      obtain ⟨hcarries, hicon⟩ := Geometry.shows_iff.1 hg
      exact (apply_of_carries config icon h hcarries hicon).1

end Styling

def Notice.isFailure : Notice → Bool
  | .symbolizerFailed _ _ _ _ => true
  | _ => false

def Unfailing (notices : List Notice) : Prop :=
  ∀ n ∈ notices, n.isFailure = false

namespace Unfailing

theorem nil : Unfailing [] := by simp [Unfailing]

theorem singleton {n : Notice} (h : n.isFailure = false) : Unfailing [n] := by
  simpa [Unfailing] using h

theorem append {first rest : List Notice} (h : Unfailing first) (h' : Unfailing rest) :
    Unfailing (first ++ rest) := by
  intro n hn
  rcases List.mem_append.1 hn with hfirst | hrest
  · exact h n hfirst
  · exact h' n hrest

theorem flatMap {α : Type} {f : α → List Notice} {as : List α} (h : ∀ a ∈ as, Unfailing (f a)) :
    Unfailing (as.flatMap f) := by
  intro n hn
  obtain ⟨a, ha, hmem⟩ := List.mem_flatMap.1 hn
  exact h a ha n hmem

theorem runAll {σ α : Type} {step : σ → α → σ × List Notice} {as : List α}
    (h : ∀ a ∈ as, ∀ s, Unfailing (step s a).2) (s : σ) : Unfailing (Styling.runAll step as s).2 := by
  induction as generalizing s with
  | nil => exact nil
  | cons a rest ih =>
      have hrest := ih (fun b hb => h b (List.mem_cons_of_mem a hb)) (step s a).1
      exact (h a List.mem_cons_self s).append hrest

end Unfailing

namespace Styling

variable (config : Config) (icon : Option Icon)

theorem unfailing_stroke (t : Portrayal.Stroke) : Unfailing t.notices := by
  rw [Portrayal.Stroke.notices]
  repeat' split
  all_goals simp [Unfailing, Notice.isFailure]

theorem unfailing_applyOutline (s : Style.Fill) (e : Entity) :
    Unfailing (applyOutline config s e).notices := by
  rw [applyOutline]
  split
  · exact .nil
  · next stroke _ =>
      split
      · exact .nil
      · exact unfailing_stroke stroke

theorem unfailing_applyGraphics (s : Symbolizer) (e : Entity) :
    Unfailing (applyGraphics config icon s e).notices := by
  cases s with
  | fill s =>
      rw [applyGraphics, applyFill]
      split
      · exact .nil
      · split
        · exact unfailing_applyOutline config s e
        · split
          · exact .nil
          · exact unfailing_applyOutline config s _
  | line s =>
      rw [applyGraphics, applyLine]
      split
      · exact .nil
      · dsimp only
        split
        · exact .nil
        · exact unfailing_stroke _
  | mark s =>
      cases icon with
      | none => exact .nil
      | some icon =>
          rw [applyGraphics, applyMark]
          split <;> exact .nil
  | icon s =>
      cases icon with
      | none => exact .nil
      | some icon =>
          rw [applyGraphics, applyIcon]
          repeat' split
          all_goals exact .nil
  | model s =>
      rw [applyGraphics, applyModel]
      repeat' split
      all_goals exact .nil
  | text s =>
      rw [applyGraphics, applyLabel]
      repeat' split
      all_goals exact .nil
  | unknown => exact .singleton rfl

theorem unfailing_connected (s : Symbolizer) (width : Float) (color : Color) (e : Entity) :
    Unfailing (connected config s width color e).2 := by
  rw [connected]
  split
  · exact .nil
  · exact .singleton rfl
  · split
    · exact .nil
    · next fault _ => cases fault.stop? <;> exact .singleton rfl

theorem unfailing_attachLeader (s : Symbolizer) (e : Entity) :
    Unfailing (attachLeader config s e).notices := by
  rw [attachLeader]
  repeat' split
  · exact .nil
  · exact .nil
  · exact .nil
  · exact .nil
  · exact (unfailing_connected config s _ _ e).append (.singleton rfl)

theorem unfailing_lead (s : Symbolizer) (x : Subject) : Unfailing (x.lead config s).notices := by
  rw [Subject.lead]
  split
  · exact .nil
  · exact unfailing_attachLeader config s x.entity

theorem Applied.unfailing_andThen {σ : Type} {a : Applied σ} {f : σ → Applied σ}
    (h : Unfailing a.notices) (h' : ∀ s, Unfailing (f s).notices) :
    Unfailing (a.andThen f).notices := by
  rw [andThen]
  split
  · exact h
  · exact h.append (h' a.state)

theorem unfailing_apply (s : Symbolizer) (x : Subject) :
    Unfailing (x.apply config icon s).notices := by
  rw [Subject.apply]
  split
  · split
    · exact .nil
    · split
      · exact .nil
      · exact Applied.unfailing_andThen (unfailing_lead config s _)
          fun y => unfailing_applyGraphics config icon s y.entity
  · exact unfailing_applyGraphics config icon s x.entity

namespace Compiled

variable (c : Compiled)

theorem mem_of_mem_equipped {r : Rule} {si : Symbolizer × Option Icon} (h : si ∈ c.equipped r) :
    si.1 ∈ r.symbolizers := by
  rw [equipped_eq] at h
  obtain ⟨s, hs, rfl⟩ := List.mem_map.1 h
  exact (List.mem_filter.1 hs).1

theorem unfailing_step {s : Symbolizer} (hs : s.defect? = none) (r : Rule) (p : Progress)
    (icon : Option Icon) : Unfailing (c.step r p (s, icon)).2 := by
  have hok := outcome_apply c.config icon hs p.subject
  have hquiet := unfailing_apply c.config icon s p.subject
  rw [step]
  simp only [hok, List.append_nil]
  exact hquiet

theorem unfailing_verdictNotices (r : Rule) (e : Entity) : Unfailing (c.verdictNotices r e) := by
  rw [verdictNotices]
  split
  · exact .nil
  · exact .singleton rfl

theorem unfailing_iconNotices (r : Rule) : Unfailing (c.iconNotices r) := by
  intro n hn
  obtain ⟨s, _, hs⟩ := List.mem_filterMap.1 hn
  split at hs
  · cases hs
    rfl
  · cases hs

theorem unfailing_styleProgress {r : Rule} (hr : ∀ s ∈ r.symbolizers, s.defect? = none)
    (p : Progress) : Unfailing (c.styleProgress r (c.equipped r) p).2 := by
  rw [styleProgress]
  split
  · refine .runAll ?_ p
    intro si hsi q
    exact c.unfailing_step (hr si.1 (c.mem_of_mem_equipped hsi)) r q si.2
  · exact c.unfailing_verdictNotices r p.subject.entity

theorem unfailing_styleRule {r : Rule} (hr : ∀ s ∈ r.symbolizers, s.defect? = none)
    (ps : List Progress) : Unfailing (c.styleRule ps r).2 := by
  have hentities : Unfailing (mapAll (c.styleProgress r (c.equipped r)) ps).2 :=
    .flatMap fun p _ => c.unfailing_styleProgress hr p
  rw [styleRule]
  exact ((c.unfailing_iconNotices r).append hentities).append (.singleton rfl)

theorem unfailing_pass (hc : c.document.defect? = none) (coll : Collection) :
    Unfailing (c.apply coll).2 := by
  have hchecked := Style.Document.defect?_eq_none_iff.1 hc
  exact .runAll (fun r hr ps => c.unfailing_styleRule (hchecked r hr) ps) _

end Compiled

end Styling
end Symbology
