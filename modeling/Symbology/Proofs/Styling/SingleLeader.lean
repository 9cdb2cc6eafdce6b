import Symbology.Proofs.Styling.Interrupted

namespace Symbology.Styling

open Portrayal (Polyline)
open Style (Symbolizer)

structure SameLeader (x x' : Subject) : Prop where
  attached : x'.leaderAttached = x.leaderAttached
  leaderLines : x'.entity.leaderLines = x.entity.leaderLines
  position : x'.entity.position = x.entity.position

theorem SameLeader.refl (x : Subject) : SameLeader x x := ⟨rfl, rfl, rfl⟩

variable (config : Config) (icon : Option Icon)

theorem sameLeader_draw (s : Symbolizer) (x : Subject) :
    SameLeader x (x.draw config icon s).state := by
  rw [Subject.draw, Applied.state_mapState]
  cases hs : s.isPointSymbol with
  | true =>
      obtain ⟨billboard, label, model, hstate⟩ :=
        state_applyGraphics_of_isPointSymbol config icon hs x.entity
      rw [hstate]
      exact ⟨rfl, rfl, rfl⟩
  | false =>
      obtain ⟨polygon, polyline, hstate⟩ :=
        state_applyGraphics_of_not_isPointSymbol config icon hs x.entity
      rw [hstate]
      exact ⟨rfl, rfl, rfl⟩

/-- An unreadable leader color ends the call where the line would have come. -/
theorem state_apply_of_shows {s : Symbolizer} {x : Subject} (hs : s.isPointSymbol = true)
    (hshows : x.entity.geometry.shows icon s = true) :
    (x.apply config icon s).state = (x.raised s).led config s ∨
      (x.apply config icon s).state = (((x.raised s).led config s).draw config icon s).state := by
  obtain ⟨hcarries, hicon⟩ := Geometry.shows_iff.1 hshows
  rw [carries_of_isPointSymbol hs] at hcarries
  have hled := state_lead config (s := s) (isPoint_raised s hcarries)
  rw [apply_of_isPointSymbol config icon hs hcarries hicon, ← hled]
  rcases Applied.andThen_cases ((x.raised s).lead config s) (Subject.draw config icon s) with
    ⟨_, _, hstopped⟩ | ⟨_, hdrawn⟩
  · rw [hstopped]
    exact .inl rfl
  · exact .inr hdrawn

theorem sameLeader_apply_of_shows {s : Symbolizer} {x : Subject}
    (hshows : x.entity.geometry.shows icon s = true) :
    SameLeader ((x.raised s).led config s) (x.apply config icon s).state := by
  cases hs : s.isPointSymbol with
  | false =>
      rw [led_of_not_isPointSymbol config hs, apply_of_not_isPointSymbol config icon hs]
      exact sameLeader_draw config icon s x
  | true =>
      rcases state_apply_of_shows config icon hs hshows with hstopped | hdrawn
      · rw [hstopped]
        exact .refl _
      · rw [hdrawn]
        exact sameLeader_draw config icon s _

def Subject.attached? (config : Config) (icon : Option Icon) (s : Symbolizer) (x : Subject) :
    Option Polyline :=
  if x.entity.geometry.shows icon s then (x.raised s).offer? config s else none

variable (s : Symbolizer) (x : Subject)

theorem leaderLines_apply_eq :
    (x.apply config icon s).state.entity.leaderLines =
      x.entity.leaderLines ++ (x.attached? config icon s).toList := by
  rw [Subject.attached?]
  cases hshows : x.entity.geometry.shows icon s with
  | false =>
      rw [(apply_of_not_shows config icon hshows).2]
      exact (List.append_nil _).symm
  | true =>
      rw [(sameLeader_apply_of_shows config icon hshows).leaderLines,
        ← leaderLines_raise s x.entity]
      rfl

theorem leaderAttached_apply :
    (x.apply config icon s).state.leaderAttached =
      (x.leaderAttached || (x.attached? config icon s).isSome) := by
  rw [Subject.attached?]
  cases hshows : x.entity.geometry.shows icon s with
  | false =>
      rw [(apply_of_not_shows config icon hshows).2]
      exact (Bool.or_false _).symm
  | true =>
      rw [(sameLeader_apply_of_shows config icon hshows).attached]
      rfl

theorem position_apply :
    (x.apply config icon s).state.entity.position =
      if x.entity.geometry.shows icon s then (raise s x.entity).position
      else x.entity.position := by
  cases hshows : x.entity.geometry.shows icon s with
  | false =>
      rw [(apply_of_not_shows config icon hshows).2]
      rfl
  | true => exact (sameLeader_apply_of_shows config icon hshows).position

theorem isSome_position_apply :
    (x.apply config icon s).state.entity.position.isSome = x.entity.position.isSome := by
  rw [position_apply]
  split
  · exact isSome_position_raise s x.entity
  · rfl

theorem attached?_of_leaderAttached (h : x.leaderAttached = true) :
    x.attached? config icon s = none := by
  have hoffer : (x.raised s).offer? config s = none := by
    rw [Subject.offer?, Subject.raised, h, if_pos rfl]
  rw [Subject.attached?, hoffer, ite_self]

structure Call where
  config : Config
  icon : Option Icon
  symbolizer : Symbolizer

namespace Call

def perform (x : Subject) (c : Call) : Subject :=
  (x.apply c.config c.icon c.symbolizer).state

def performAll (calls : List Call) (e : Entity) : Subject :=
  calls.foldl perform { entity := e }

def leads (e : Entity) (c : Call) : Bool :=
  e.geometry.isPoint && e.position.isSome && (!c.symbolizer.needsIcon || c.icon.isSome) &&
    c.symbolizer.leaderLine?.any fun l => (leaderColor l).isOk

structure IsOf (e : Entity) (x : Subject) : Prop where
  feature : SameFeature e x.entity
  placed : x.entity.position.isSome = e.position.isSome

variable {e : Entity} {x : Subject} (c : Call) (calls : List Call)

theorem isOf_perform (h : IsOf e x) : IsOf e (c.perform x) := by
  refine ⟨h.feature.trans (sameFeature_apply c.config c.icon c.symbolizer x), ?_⟩
  rw [perform, isSome_position_apply, h.placed]

theorem isSome_leaderOf?_eq (s : Symbolizer) (config : Config) (position : Option Position) :
    (leaderOf? config s position).isSome =
      (position.isSome && s.leaderLine?.any fun l => (leaderColor l).isOk) := by
  rw [leaderOf?]
  cases s.leaderLine? with
  | none => simp
  | some l =>
      cases position with
      | none => rfl
      | some p =>
          cases hcolor : leaderColor l <;> simp [hcolor, Except.toOption, Except.isOk, Except.toBool]

theorem isPointSymbol_of_leaderLine? {s : Symbolizer} {l : Style.LeaderLine}
    (h : s.leaderLine? = some l) : s.isPointSymbol = true := by
  cases hs : s.isPointSymbol with
  | true => rfl
  | false =>
      rw [leaderLine?_of_not_isPointSymbol hs] at h
      cases h

theorem isSome_attached? (h : IsOf e x) (hfree : x.leaderAttached = false) :
    (x.attached? c.config c.icon c.symbolizer).isSome = c.leads e := by
  have hline := isSome_leaderOf?_eq c.symbolizer c.config (raise c.symbolizer x.entity).position
  rw [isSome_position_raise, h.placed] at hline
  rw [Subject.attached?, Subject.offer?, Subject.raised, hfree, if_neg Bool.false_ne_true, leads]
  cases hl : c.symbolizer.leaderLine? with
  | none =>
      rw [hl, Option.any_none, Bool.and_false] at hline
      rw [Option.any_none, Bool.and_false]
      split
      · exact hline
      · rfl
  | some l =>
      have hcarries := carries_of_isPointSymbol (isPointSymbol_of_leaderLine? hl) x.entity.geometry
      rw [hl] at hline
      rw [Geometry.shows_eq, hcarries, h.feature.geometry]
      cases e.geometry.isPoint with
      | false => rfl
      | true =>
          cases !c.symbolizer.needsIcon || c.icon.isSome with
          | false => simp
          | true => simpa using hline

theorem exists_of_attached? {line : Polyline}
    (h : x.attached? c.config c.icon c.symbolizer = some line) :
    ∃ l color p, c.symbolizer.leaderLine? = some l ∧ leaderColor l = .ok color ∧
      (c.perform x).entity.position = some p ∧
      line = leaderPolyline c.config p (leaderWidth l) color := by
  have hposition := position_apply c.config c.icon c.symbolizer x
  rw [Subject.attached?] at h
  split at h
  · next hshows =>
      rw [if_pos hshows] at hposition
      rw [Subject.offer?] at h
      split at h
      · cases h
      · obtain ⟨l, hl, hline⟩ := Option.bind_eq_some_iff.1 h
        obtain ⟨p, hp, hcolored⟩ := Option.bind_eq_some_iff.1 hline
        obtain ⟨color, hcolor, rfl⟩ := Option.map_eq_some_iff.1 hcolored
        refine ⟨l, color, p, hl, ?_, hposition.trans hp, rfl⟩
        cases hread : leaderColor l with
        | error err =>
            rw [hread] at hcolor
            cases hcolor
        | ok read =>
            rw [hread] at hcolor
            cases hcolor
            rfl
  · cases h

variable (e)

theorem performAll_append (calls more : List Call) :
    performAll (calls ++ more) e = more.foldl perform (performAll calls e) :=
  List.foldl_append

theorem isOf_performAll : IsOf e (performAll calls e) := by
  induction calls using List.reverseRecOn with
  | nil => exact ⟨.refl e, rfl⟩
  | append_singleton rest c ih =>
      rw [performAll_append]
      exact c.isOf_perform ih

structure Unled (e : Entity) (x : Subject) : Prop where
  attached : x.leaderAttached = false
  leaderLines : x.entity.leaderLines = e.leaderLines

theorem unled_performAll {calls : List Call} (h : ∀ c ∈ calls, c.leads e = false) :
    Unled e (performAll calls e) := by
  induction calls using List.reverseRecOn with
  | nil => exact ⟨rfl, rfl⟩
  | append_singleton rest c ih =>
      have hrest := ih fun b hb => h b (List.mem_append_left [c] hb)
      have hnone := c.isSome_attached? (isOf_performAll e rest) hrest.attached
      rw [h c (by simp), Option.isSome_eq_false_iff, Option.isNone_iff_eq_none] at hnone
      rw [performAll_append]
      refine ⟨?_, ?_⟩
      · rw [List.foldl_cons, List.foldl_nil, perform, leaderAttached_apply, hnone, hrest.attached]
        rfl
      · rw [List.foldl_cons, List.foldl_nil, perform, leaderLines_apply_eq, hnone,
          hrest.leaderLines]
        exact List.append_nil _

theorem kept_of_leaderAttached (h : x.leaderAttached = true) :
    (calls.foldl perform x).leaderAttached = true ∧
      (calls.foldl perform x).entity.leaderLines = x.entity.leaderLines := by
  induction calls generalizing x with
  | nil => exact ⟨h, rfl⟩
  | cons c rest ih =>
      have hnone := attached?_of_leaderAttached c.config c.icon c.symbolizer x h
      have hattached : (c.perform x).leaderAttached = true := by
        rw [perform, leaderAttached_apply, h, Bool.true_or]
      have hlines : (c.perform x).entity.leaderLines = x.entity.leaderLines := by
        rw [perform, leaderLines_apply_eq, hnone]
        exact List.append_nil _
      obtain ⟨hkept, hsame⟩ := ih hattached
      exact ⟨hkept, hsame.trans hlines⟩

structure Led (e : Entity) (before : List Call) (c : Call) (after : List Call)
    (l : Style.LeaderLine) (color : Color) (p : Position) : Prop where
  first : ∀ b ∈ before, b.leads e = false
  leads : c.leads e = true
  asked : c.symbolizer.leaderLine? = some l
  colored : leaderColor l = .ok color
  position : (performAll (before ++ [c]) e).entity.position = some p
  unled : ∀ earlier, earlier <+: before → Unled e (performAll earlier e)
  attached : ∀ later, later <+: after → (performAll (before ++ c :: later) e).leaderAttached = true
  leaderLines : ∀ later, later <+: after →
    (performAll (before ++ c :: later) e).entity.leaderLines =
      e.leaderLines ++ [leaderPolyline c.config p (leaderWidth l) color]

theorem led_performAll {before : List Call} {c : Call} (after : List Call)
    (hfirst : ∀ b ∈ before, b.leads e = false) (hleads : c.leads e = true) :
    ∃ l color p, Led e before c after l color p := by
  have hunled := unled_performAll e hfirst
  have hsome := c.isSome_attached? (isOf_performAll e before) hunled.attached
  rw [hleads] at hsome
  obtain ⟨line, hline⟩ := Option.isSome_iff_exists.1 hsome
  obtain ⟨l, color, p, hl, hcolor, hp, rfl⟩ := c.exists_of_attached? hline
  have hattached : (c.perform (performAll before e)).leaderAttached = true := by
    rw [perform, leaderAttached_apply, hline, Option.isSome_some, Bool.or_true]
  have hlines : (c.perform (performAll before e)).entity.leaderLines =
      e.leaderLines ++ [leaderPolyline c.config p (leaderWidth l) color] := by
    rw [perform, leaderLines_apply_eq, hline, hunled.leaderLines]
    rfl
  refine ⟨l, color, p, hfirst, hleads, hl, hcolor, ?_, ?_, ?_, ?_⟩
  · rw [performAll_append]
    exact hp
  · intro earlier hearlier
    exact unled_performAll e fun b hb => hfirst b (hearlier.subset hb)
  · intro later _
    rw [performAll_append]
    exact (kept_of_leaderAttached later hattached).1
  · intro later _
    rw [performAll_append]
    exact (kept_of_leaderAttached later hattached).2.trans hlines

/-- The first call cannot read its leader color, the second fails once its line is attached, and the
third comes too late. -/
example :
    (performAll
      [⟨{}, none, .model { model := some "peak.glb", leaderLine := { color := some "red" } }⟩,
        ⟨{}, none, .text { label := some "peak", color := some "red",
                           leaderLine := { width := some 2 } }⟩,
        ⟨{}, none, .model { model := some "peak.glb", leaderLine := { width := some 3 } }⟩]
      (.ofFeature (.ofNat 1) (.point ⟨7, 41, 500⟩) [])).entity.leaderLines.map (·.width) =
        [2] := by
  rfl

end Call
end Symbology.Styling
