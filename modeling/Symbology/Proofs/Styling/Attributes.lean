import Symbology.Proofs.Filter.Compared
import Symbology.Proofs.Styling.DrawOrder
import Symbology.Style.ImageId

namespace Symbology

open Symbology.Filter (AgreeOn Compares)
open Style (Document Rule Symbolizer)

def Template.Names (template name : String) : Prop :=
  name ∈ (Template.parse template.toList).parts.map Template.Part.attributeName

inductive Style.Symbolizer.Names : Symbolizer → String → Prop where
  | label {l : Style.Label} {template name : String} (hlabel : l.label = some template)
      (h : Template.Names template name) : Names (.text l) name

inductive Style.Document.Names (d : Document) (name : String) : Prop where
  | filter {r : Rule} {f : Json} (hr : r ∈ d.rules) (hf : r.filter = some f)
      (h : Compares f name)
  | label {r : Rule} {s : Symbolizer} (hr : r ∈ d.rules) (hs : s ∈ r.symbolizers)
      (h : s.Names name)

variable {ps ps' : Properties}

theorem Template.render_congr {template : String} (h : AgreeOn (Template.Names template) ps ps') :
    render template ps = render template ps' := by
  have hparts : ∀ p ∈ (parse template.toList).parts,
      p.literal ++ valueText (ps.value p.attributeName) =
        p.literal ++ valueText (ps'.value p.attributeName) := by
    intro p hp
    rw [h p.attributeName (List.mem_map_of_mem hp)]
  rw [render, render, fill, fill]
  rw [List.flatMap_congr hparts]

def Entity.withProperties (e : Entity) (ps : Properties) : Entity :=
  { e with properties := ps }

@[simp] theorem Entity.properties_withProperties (e : Entity) :
    (e.withProperties ps).properties = ps := rfl

@[simp] theorem Entity.geometry_withProperties (e : Entity) :
    (e.withProperties ps).geometry = e.geometry := rfl

@[simp] theorem Entity.position_withProperties (e : Entity) :
    (e.withProperties ps).position = e.position := rfl

namespace Styling

def Subject.withProperties (x : Subject) (ps : Properties) : Subject :=
  { x with entity := x.entity.withProperties ps }

def Progress.withProperties (p : Progress) (ps : Properties) : Progress :=
  { p with subject := p.subject.withProperties ps }

variable (config : Config) (icon : Option Icon)

theorem raise_withProperties (s : Symbolizer) (e : Entity) :
    raise s (e.withProperties ps) = (raise s e).withProperties ps := by
  rw [raise, raise]
  cases s.displayHeight? <;> rfl

theorem attachLeader_withProperties (s : Symbolizer) (e : Entity) :
    attachLeader config s (e.withProperties ps) =
      (attachLeader config s e).mapState (·.withProperties ps) := by
  rw [attachLeader, attachLeader, Entity.geometry_withProperties, Entity.position_withProperties]
  cases s.leaderLine? with
  | none => rfl
  | some l =>
      cases e.geometry.isPoint with
      | false => rfl
      | true =>
          cases e.position with
          | none => rfl
          | some p =>
              dsimp only
              cases leaderColor l <;> rfl

theorem lead_withProperties (s : Symbolizer) (x : Subject) :
    (x.withProperties ps).lead config s = (x.lead config s).mapState (·.withProperties ps) := by
  rw [Subject.lead, Subject.lead]
  simp only [Subject.withProperties, attachLeader_withProperties]
  split <;> rfl

theorem applyOutline_withProperties (s : Style.Fill) (e : Entity) :
    applyOutline config s (e.withProperties ps) =
      (applyOutline config s e).mapState (·.withProperties ps) := by
  rw [applyOutline, applyOutline, Entity.geometry_withProperties]
  cases Portrayal.outlineStroke? s with
  | none => rfl
  | some stroke =>
      dsimp only
      cases stroke.polyline config e.geometry.linePositions <;> rfl

theorem applyFill_withProperties (s : Style.Fill) (e : Entity) :
    applyFill config s (e.withProperties ps) =
      (applyFill config s e).mapState (·.withProperties ps) := by
  rw [applyFill, applyFill, Entity.geometry_withProperties]
  cases e.geometry.isPolygon with
  | false => rfl
  | true =>
      cases s.color with
      | none => exact applyOutline_withProperties config s e
      | some color =>
          dsimp only
          cases Portrayal.fillPolygon config e.geometry s color with
          | error err => rfl
          | ok polygon =>
              exact applyOutline_withProperties config s { e with polygon := some polygon }

theorem applyLine_withProperties (s : Style.Line) (e : Entity) :
    applyLine config s (e.withProperties ps) =
      (applyLine config s e).mapState (·.withProperties ps) := by
  rw [applyLine, applyLine, Entity.geometry_withProperties]
  cases e.geometry.isLine || e.geometry.isPolygon with
  | false => rfl
  | true =>
      dsimp only
      cases (Portrayal.lineStroke s).polyline config e.geometry.linePositions <;> rfl

theorem applyMark_withProperties (i : Icon) (s : Style.Mark) (e : Entity) :
    applyMark i s (e.withProperties ps) = (applyMark i s e).mapState (·.withProperties ps) := by
  rw [applyMark, applyMark, Entity.geometry_withProperties]
  cases e.geometry.isPoint <;> rfl

theorem applyIcon_withProperties (i : Icon) (s : Style.Icon) (e : Entity) :
    applyIcon i s (e.withProperties ps) = (applyIcon i s e).mapState (·.withProperties ps) := by
  rw [applyIcon, applyIcon, Entity.geometry_withProperties]
  cases e.geometry.isPoint with
  | false => rfl
  | true => cases Portrayal.iconBillboard i s <;> rfl

theorem applyModel_withProperties (s : Style.Model) (e : Entity) :
    applyModel s (e.withProperties ps) = (applyModel s e).mapState (·.withProperties ps) := by
  rw [applyModel, applyModel, Entity.geometry_withProperties]
  cases e.geometry.isPoint with
  | false => rfl
  | true =>
      cases s.model with
      | none => rfl
      | some uri =>
          dsimp only
          cases Portrayal.modelOf uri s <;> rfl

theorem labelOf_congr {template : String} (h : AgreeOn (Template.Names template) ps ps')
    (s : Style.Label) :
    Portrayal.labelOf config ps' template s = Portrayal.labelOf config ps template s := by
  rw [Portrayal.labelOf, Portrayal.labelOf, Template.render_congr h]

theorem applyLabel_withProperties {s : Style.Label} {e : Entity}
    (h : AgreeOn (Symbolizer.text s).Names e.properties ps) :
    applyLabel config s (e.withProperties ps) =
      (applyLabel config s e).mapState (·.withProperties ps) := by
  rw [applyLabel, applyLabel, Entity.geometry_withProperties, Entity.properties_withProperties]
  cases e.geometry.isPoint with
  | false => rfl
  | true =>
      cases hlabel : s.label with
      | none => rfl
      | some template =>
          have hsame := labelOf_congr config (fun name hname => h name (.label hlabel hname)) s
          simp only [hsame]
          cases Portrayal.labelOf config e.properties template s <;> rfl

theorem applyGraphics_withProperties {s : Symbolizer} {e : Entity}
    (h : AgreeOn s.Names e.properties ps) :
    applyGraphics config icon s (e.withProperties ps) =
      (applyGraphics config icon s e).mapState (·.withProperties ps) := by
  cases s with
  | fill s => exact applyFill_withProperties config s e
  | line s => exact applyLine_withProperties config s e
  | mark s =>
      cases icon with
      | none => rfl
      | some i => exact applyMark_withProperties i s e
  | icon s =>
      cases icon with
      | none => rfl
      | some i => exact applyIcon_withProperties i s e
  | model s => exact applyModel_withProperties s e
  | text s => exact applyLabel_withProperties config h
  | unknown => rfl

theorem draw_withProperties {s : Symbolizer} {x : Subject}
    (h : AgreeOn s.Names x.entity.properties ps) :
    (x.withProperties ps).draw config icon s =
      (x.draw config icon s).mapState (·.withProperties ps) := by
  rw [Subject.draw, Subject.draw]
  simp only [Subject.withProperties, applyGraphics_withProperties config icon h]
  rfl

theorem Applied.andThen_mapState {σ : Type} {f : σ → σ} {g : σ → Applied σ} {a : Applied σ}
    (h : g (f a.state) = (g a.state).mapState f) :
    (a.mapState f).andThen g = (a.andThen g).mapState f := by
  rw [andThen, andThen]
  simp only [outcome_mapState, state_mapState, h]
  cases a.outcome <;> rfl

theorem apply_withProperties {s : Symbolizer} {x : Subject}
    (h : AgreeOn s.Names x.entity.properties ps) :
    (x.withProperties ps).apply config icon s =
      (x.apply config icon s).mapState (·.withProperties ps) := by
  have hgeometry : (x.withProperties ps).entity.geometry = x.entity.geometry := rfl
  rw [Subject.apply, Subject.apply, hgeometry]
  split
  · split
    · rfl
    · split
      · rfl
      · have hraised : { x.withProperties ps with
              entity := raise s (x.withProperties ps).entity } =
            ({ x with entity := raise s x.entity } : Subject).withProperties ps := by
          simp only [Subject.withProperties, raise_withProperties]
        have hsame := (sameFeature_raise s x.entity).trans
          (sameFeature_lead config s { x with entity := raise s x.entity })
        rw [hraised, lead_withProperties]
        refine Applied.andThen_mapState (draw_withProperties config icon ?_)
        rw [hsame.properties]
        exact h
  · exact draw_withProperties config icon h

namespace Compiled

variable (c : Compiled)

theorem take_withProperties {s : Symbolizer} {p : Progress}
    (h : AgreeOn s.Names p.subject.entity.properties ps) :
    c.take (p.withProperties ps) s = (c.take p s).withProperties ps := by
  have happly := apply_withProperties c.config (c.image? s) h
  simp only [take, Progress.withProperties, happly, Applied.state_mapState]
  rfl

theorem foldl_take_withProperties {ss : List Symbolizer} {p : Progress}
    (h : ∀ s ∈ ss, AgreeOn s.Names p.subject.entity.properties ps) :
    ss.foldl c.take (p.withProperties ps) = (ss.foldl c.take p).withProperties ps := by
  induction ss generalizing p with
  | nil => rfl
  | cons s rest ih =>
      rw [List.foldl_cons, List.foldl_cons, c.take_withProperties (h s List.mem_cons_self)]
      apply ih
      intro t ht
      rw [(c.sameFeature_take p s).properties]
      exact h t (List.mem_cons_of_mem s ht)

theorem verdict_congr (hc : c.evaluator = Filter.expressions) {e e' : Entity} {r : Rule}
    (hr : r ∈ c.document.rules)
    (h : AgreeOn c.document.Names e.properties e'.properties) :
    c.verdict r e' = c.verdict r e := by
  rw [verdict, verdict, hc]
  cases hf : r.filter with
  | none => rfl
  | some f =>
      have heval := Filter.evaluate_congr f fun name hname => h name (.filter hr hf hname)
      simp only [Filter.expressions, heval]

theorem usable_congr (hc : c.evaluator = Filter.expressions) {e e' : Entity}
    (h : AgreeOn c.document.Names e.properties e'.properties) : c.usable e' = c.usable e := by
  have hmatching : c.matching e' = c.matching e := by
    refine List.filter_congr ?_
    intro r hr
    rw [isMatch, isMatch, c.verdict_congr hc hr h]
  rw [usable, usable, hmatching]

theorem names_of_mem_usable {s : Symbolizer} {e : Entity} {name : String} (hs : s ∈ c.usable e)
    (h : s.Names name) : c.document.Names name := by
  obtain ⟨r, hr, hmem⟩ := List.mem_flatMap.1 (List.mem_filter.1 hs).1
  exact .label (List.mem_filter.1 hr).1 hmem h

theorem alone_withProperties (hc : c.evaluator = Filter.expressions) {e : Entity}
    (h : AgreeOn c.document.Names e.properties ps) :
    c.alone (e.withProperties ps) = (c.alone e).withProperties ps := by
  have husable : c.usable (e.withProperties ps) = c.usable e := c.usable_congr hc h
  rw [alone, alone, husable]
  refine c.foldl_take_withProperties (p := { subject := { entity := e } }) ?_
  intro s hs name hname
  exact h name (c.names_of_mem_usable hs hname)

theorem styled_by_named_attributes (hc : c.evaluator = Filter.expressions) (e : Entity)
    (ps : Properties) (h : AgreeOn c.document.Names e.properties ps) :
    (∀ r ∈ c.document.rules, c.verdict r (e.withProperties ps) = c.verdict r e) ∧
    ∀ (coll coll' : Collection) (i j : Nat), coll.entities[i]? = some e →
      coll'.entities[j]? = some (e.withProperties ps) →
      (∃ d, (c.apply coll).1.entities[i]? = some d ∧
        (c.apply coll').1.entities[j]? = some (d.withProperties ps)) ∧
      (c.Flagged coll.entities i ↔ c.Flagged coll'.entities j) := by
  have halone := c.alone_withProperties hc h
  refine ⟨fun r hr => c.verdict_congr hc hr h, ?_⟩
  intro coll coll' i j he he'
  refine ⟨⟨(c.alone e).subject.entity, ?_, ?_⟩, ?_⟩
  · rw [getElem?_entities_apply, he, Option.map_some]
  · rw [getElem?_entities_apply, he', Option.map_some, halone]
    rfl
  · rw [c.flagged_iff he, c.flagged_iff he', halone]
    rfl

def summits : Compiled where
  document :=
    { rules :=
        [{ filter := some (.arr [.str ">", .str "ele", .num (.int 4000)])
           symbolizers := [.text { label := some "{{ name }}", bringToFront := some true }] }] }
  resolution := {}
  imageId := Symbolizer.imageId?
  evaluator := Filter.expressions
  config := {}

def summit : Entity :=
  .ofFeature (.ofNat 3) (.point ⟨7, 46, 0⟩)
    [("name", .str "Dom"), ("ele", .num (.int 4545)), ("surveyed", .num (.int 1858))]

def resurveyed : Properties :=
  [("surveyed", .num (.int 2006)), ("ele", .num (.int 4545)), ("name", .str "Dom")]

theorem agreeOn_resurveyed : AgreeOn summits.document.Names summit.properties resurveyed := by
  have htokens : (Template.parse "{{ name }}".toList).parts.map Template.Part.attributeName =
      ["name"] := by cbv
  intro name hname
  cases hname with
  | filter hr hf h =>
      cases List.mem_singleton.1 hr
      cases hf
      cases h with
      | comparison => rfl
      | operand hop ho =>
          cases hop
          cases ho
  | label hr hs h =>
      cases List.mem_singleton.1 hr
      cases List.mem_singleton.1 hs
      cases h with
      | label hlabel h =>
          cases hlabel
          rw [Template.Names, htokens] at h
          cases List.mem_singleton.1 h
          rfl

theorem styled_by_named_attributes_summit :
    ∃ d, (summits.apply (.ofList [summit])).1.entities[0]? = some d ∧
      (summits.apply (.ofList [summit, summit.withProperties resurveyed])).1.entities[1]? =
        some (d.withProperties resurveyed) :=
  ((summits.styled_by_named_attributes rfl summit resurveyed agreeOn_resurveyed).2
    (.ofList [summit]) (.ofList [summit, summit.withProperties resurveyed]) 0 1 rfl rfl).1

end Compiled
end Styling
end Symbology
