import Symbology.Proofs.Styling.Feature
import Symbology.Styling.Pass

namespace Symbology.Styling.Compiled

open Style (Rule Symbolizer)

variable (c : Compiled)

def image? (s : Symbolizer) : Option Icon :=
  if s.needsIcon then (c.imageId s).bind fun id => c.resolution.icons.lookup id else none

def isUsable (s : Symbolizer) : Bool :=
  !s.needsIcon || (c.image? s).isSome

def matching (e : Entity) : List Rule :=
  c.document.rules.filter (c.isMatch · e)

def usable (e : Entity) : List Symbolizer :=
  ((c.matching e).flatMap Rule.symbolizers).filter c.isUsable

/-- What an error leaves behind is where the next symbolizer goes on. -/
def take (p : Progress) (s : Symbolizer) : Progress :=
  let a := p.subject.apply c.config (c.image? s) s
  { subject := a.state, inFront := p.inFront || (a.hasStyled && s.bringsToFront) }

def alone (e : Entity) : Progress :=
  (c.usable e).foldl c.take { subject := { entity := e } }

theorem isMatch_iff {r : Rule} {e : Entity} :
    c.isMatch r e = true ↔ ∀ f, r.filter = some f → c.evaluator f e.properties = .ok true := by
  rw [isMatch, verdict]
  cases hf : r.filter with
  | none => simp
  | some f => cases hv : c.evaluator f e.properties <;> simp [hv]

theorem mem_matching_iff {r : Rule} {e : Entity} :
    r ∈ c.matching e ↔
      r ∈ c.document.rules ∧
        ∀ f, r.filter = some f → c.evaluator f e.properties = .ok true := by
  rw [matching, List.mem_filter, isMatch_iff]

def takeRule (p : Progress) (r : Rule) : Progress :=
  if c.isMatch r p.subject.entity then (r.symbolizers.filter c.isUsable).foldl c.take p else p

theorem icon?_of_needsIcon {s : Symbolizer} (h : s.needsIcon = true) :
    c.icon? s = (c.imageId s).map c.resolution.lookup := by
  rw [icon?, if_pos h]

theorem equipped_eq (r : Rule) :
    c.equipped r = (r.symbolizers.filter c.isUsable).map fun s => (s, c.image? s) := by
  rw [← List.filterMap_eq_map', List.filterMap_filter]
  rw [equipped]
  congr 1
  funext s
  cases h : s.needsIcon with
  | false => simp [isUsable, image?, h]
  | true =>
      simp only [if_true, c.icon?_of_needsIcon h, isUsable, image?, h, Bool.not_true,
        Bool.false_or]
      cases hid : c.imageId s with
      | none => rfl
      | some id =>
          simp only [Option.map_some, Option.bind_some, Icon.Resolution.lookup]
          cases c.resolution.icons.lookup id <;> rfl

theorem fst_styleProgress (r : Rule) (p : Progress) :
    (c.styleProgress r (c.equipped r) p).1 = c.takeRule p r := by
  rw [styleProgress, takeRule]
  split
  · rw [runAll_fst, equipped_eq, List.foldl_map]
    rfl
  · rfl

theorem fst_styleRule (ps : List Progress) (r : Rule) :
    (c.styleRule ps r).1 = ps.map (c.takeRule · r) := by
  have hone : (fun p => (c.styleProgress r (c.equipped r) p).1) = (c.takeRule · r) :=
    funext (c.fst_styleProgress r)
  rw [styleRule, mapAll]
  rw [← hone]

theorem foldl_map_interchange {σ α : Type} (step : σ → α → σ) (as : List α) (xs : List σ) :
    as.foldl (fun xs a => xs.map (step · a)) xs = xs.map fun x => as.foldl step x := by
  induction as generalizing xs with
  | nil => simp
  | cons a as ih =>
      rw [List.foldl_cons, ih, List.map_map]
      rfl

theorem sameFeature_take (p : Progress) (s : Symbolizer) :
    SameFeature p.subject.entity (c.take p s).subject.entity :=
  sameFeature_apply c.config (c.image? s) s p.subject

theorem sameFeature_foldl_take (ss : List Symbolizer) (p : Progress) :
    SameFeature p.subject.entity (ss.foldl c.take p).subject.entity := by
  induction ss generalizing p with
  | nil => exact .refl _
  | cons s rest ih => exact (c.sameFeature_take p s).trans (ih _)

theorem isMatch_of_sameFeature {e e' : Entity} (h : SameFeature e e') (r : Rule) :
    c.isMatch r e' = c.isMatch r e := by
  rw [isMatch, isMatch, verdict, verdict, h.properties]

theorem foldl_takeRule (rules : List Rule) (p : Progress) :
    rules.foldl c.takeRule p =
      (((rules.filter (c.isMatch · p.subject.entity)).flatMap Rule.symbolizers).filter
        c.isUsable).foldl c.take p := by
  induction rules generalizing p with
  | nil => rfl
  | cons r rest ih =>
      rw [List.foldl_cons, ih, List.filter_cons]
      rw [takeRule]
      split
      · -- the rules that follow see the properties that the entity had at the start
        have hsame := c.sameFeature_foldl_take (r.symbolizers.filter c.isUsable) p
        have hmatch : (c.isMatch · ((r.symbolizers.filter c.isUsable).foldl c.take
            p).subject.entity) = (c.isMatch · p.subject.entity) :=
          funext (c.isMatch_of_sameFeature hsame)
        rw [hmatch, List.flatMap_cons, List.filter_append, List.foldl_append]
      · rfl

theorem runAll_styleRule (es : List Entity) :
    (runAll c.styleRule c.document.rules (start es)).1 = es.map c.alone := by
  have hstep : (fun ps r => (c.styleRule ps r).1) = fun ps r => ps.map (c.takeRule · r) :=
    funext fun ps => funext (c.fst_styleRule ps)
  rw [runAll_fst, hstep, foldl_map_interchange, start, List.map_map]
  refine List.map_congr_left ?_
  intro e _
  exact c.foldl_takeRule c.document.rules { subject := { entity := e } }

theorem apply_eq (coll : Collection) :
    (c.apply coll).1 =
      { entities := coll.entities.map fun e => (c.alone e).subject.entity
        drawOrder := Collection.orderOf (coll.entities.map fun e => (c.alone e).inFront) } := by
  simp only [apply, c.runAll_styleRule coll.entities, List.map_map]
  rfl

theorem entities_apply (coll : Collection) :
    (c.apply coll).1.entities = coll.entities.map fun e => (c.alone e).subject.entity := by
  rw [apply_eq]

theorem drawOrder_apply (coll : Collection) :
    (c.apply coll).1.drawOrder =
      Collection.orderOf (coll.entities.map fun e => (c.alone e).inFront) := by
  rw [apply_eq]

theorem getElem?_entities_apply (coll : Collection) (i : Nat) :
    (c.apply coll).1.entities[i]? =
      coll.entities[i]?.map fun e => (c.alone e).subject.entity := by
  rw [entities_apply, List.getElem?_map]

theorem alone_of_matching {d : Style.Document} {e : Entity}
    (h : d.rules.filter (c.isMatch · e) = c.matching e) :
    { c with document := d }.alone e = c.alone e := by
  have hmatching : { c with document := d }.matching e = c.matching e := h
  rw [alone, usable]
  rw [hmatching]
  rfl

end Symbology.Styling.Compiled
