import Mathlib.Data.List.Induction
import Mathlib.Data.List.Perm.Basic
import Symbology.Proofs.Styling.Run

namespace Symbology

namespace Collection

variable {coll : Collection}

structure DrawsEach (coll : Collection) : Prop where
  indices : coll.drawOrder.Perm (List.range coll.entities.length)
  found : coll.drawOrder.map coll.get? = coll.drawn.map some
  drawn : coll.drawn.Perm coll.entities

theorem map_get?_range (coll : Collection) :
    (List.range coll.entities.length).map coll.get? = coll.entities.map some := by
  apply List.ext_getElem?
  intro i
  rw [List.getElem?_map, List.getElem?_map]
  by_cases hi : i < coll.entities.length
  · simp [get?, hi]
  · simp [Nat.le_of_not_lt hi]

theorem drawsEach_of_perm (h : coll.drawOrder.Perm (List.range coll.entities.length)) :
    coll.DrawsEach := by
  have hfound : ∀ o ∈ coll.drawOrder.map coll.get?, ∃ e, o = some e := by
    intro o ho
    rw [(h.map coll.get?).mem_iff, map_get?_range] at ho
    obtain ⟨e, _, rfl⟩ := List.mem_map.1 ho
    exact ⟨e, rfl⟩
  have hall : coll.drawn.Perm coll.entities := by
    have hentities : (List.range coll.entities.length).filterMap coll.get? = coll.entities := by
      have hmap := congrArg (List.filterMap id) coll.map_get?_range
      rwa [List.filterMap_map, List.filterMap_map, Function.id_comp, Function.id_comp,
        List.filterMap_some] at hmap
    rw [← hentities]
    exact h.filterMap coll.get?
  refine ⟨h, ?_, hall⟩
  rw [drawn]
  generalize coll.drawOrder = order at hfound ⊢
  induction order with
  | nil => rfl
  | cons i rest ih =>
      obtain ⟨e, he⟩ := hfound (coll.get? i) (by simp)
      rw [List.map_cons, List.filterMap_cons, he, ih fun o ho => hfound o (by simp [ho])]
      rfl

theorem drawsEach_ofList (es : List Entity) : (ofList es).DrawsEach :=
  drawsEach_of_perm (.refl _)

theorem drawsEach_push (h : coll.DrawsEach) (e : Entity) : (coll.push e).DrawsEach := by
  apply drawsEach_of_perm
  have hlength : (coll.push e).entities.length = coll.entities.length + 1 := by simp [push]
  rw [hlength, List.range_succ]
  exact h.indices.append_right _

theorem flag_of_lt {flags : List Bool} {i : Nat} (hi : i < flags.length) :
    decide (flags[i]? = some true) = !decide (flags[i]? = some false) := by
  rw [List.getElem?_eq_getElem hi]
  cases flags[i] <;> rfl

theorem perm_orderOf (flags : List Bool) :
    (orderOf flags).Perm (List.range flags.length) := by
  have hfront : (List.range flags.length).filter (flags[·]? = some true) =
      (List.range flags.length).filter fun i => !decide (flags[i]? = some false) := by
    refine List.filter_congr ?_
    intro i hi
    exact flag_of_lt (List.mem_range.1 hi)
  rw [orderOf]
  rw [hfront]
  exact List.filter_append_perm (fun i => decide (flags[i]? = some false)) _

def FrontLast (n : Nat) (flagged : Nat → Prop) (order : List Nat) : Prop :=
  ∃ rest front, order = rest ++ front ∧
    rest.Pairwise (· < ·) ∧ (∀ i, i ∈ rest ↔ i < n ∧ ¬flagged i) ∧
    front.Pairwise (· < ·) ∧ ∀ i, i ∈ front ↔ i < n ∧ flagged i

theorem frontLast_orderOf {flags : List Bool} {flagged : Nat → Prop}
    (h : ∀ i, flags[i]? = some true ↔ i < flags.length ∧ flagged i) :
    FrontLast flags.length flagged (orderOf flags) := by
  have hsorted (p : Nat → Bool) : ((List.range flags.length).filter p).Pairwise (· < ·) :=
    List.pairwise_lt_range.filter p
  refine ⟨_, _, rfl, hsorted _, ?_, hsorted _, ?_⟩
  · intro i
    rw [List.mem_filter, List.mem_range]
    refine and_congr_right ?_
    intro hi
    have hflag := flag_of_lt hi
    have hflagged := h i
    cases hfalse : decide (flags[i]? = some false) <;> simp_all
  · intro i
    rw [List.mem_filter, List.mem_range, decide_eq_true_iff, h, and_congr_right_iff]
    intro hi
    exact and_iff_right hi

end Collection

namespace Styling

open Style (Rule Symbolizer)

/-- A flag that no step takes back is set if it was, or if some step raised it in the state that
the steps before it had left. -/
theorem foldl_raises {σ α : Type} {step : σ → α → σ} (flag : σ → Prop) {raises : σ → α → Prop}
    (h : ∀ s a, flag (step s a) ↔ flag s ∨ raises s a) (as : List α) (s : σ) :
    flag (as.foldl step s) ↔
      flag s ∨ ∃ before a after, as = before ++ a :: after ∧ raises (before.foldl step s) a := by
  induction as generalizing s with
  | nil => simp
  | cons a as ih =>
      rw [List.foldl_cons, ih, h, or_assoc]
      refine or_congr_right ?_
      constructor
      · rintro (ha | ⟨before, b, after, rfl, hb⟩)
        · exact ⟨[], a, as, rfl, ha⟩
        · exact ⟨a :: before, b, after, rfl, hb⟩
      · rintro ⟨before, b, after, hsplit, hb⟩
        cases before with
        | nil =>
            cases hsplit
            exact .inl hb
        | cons first before =>
            cases hsplit
            exact .inr ⟨before, b, after, rfl, hb⟩

theorem Applied.hasStyled_iff {σ : Type} {a : Applied σ} :
    a.hasStyled = true ↔ a.outcome = .ok true := by
  rw [hasStyled]
  cases a.outcome <;> simp

namespace Compiled

variable (c : Compiled)

inductive Calls (c : Compiled) (es : List Entity) :
    Nat → Rule → Symbolizer × Option Icon → Subject → Prop where
  | intro {i : Nat} {earlier later : List Rule} {r : Rule}
      {before after : List (Symbolizer × Option Icon)} {si : Symbolizer × Option Icon}
      {p : Progress} (rules : c.document.rules = earlier ++ r :: later)
      (reached : (runAll c.styleRule earlier (start es)).1[i]? = some p)
      (matched : c.isMatch r p.subject.entity = true)
      (equipped : c.equipped r = before ++ si :: after) :
      Calls c es i r si (runAll (c.step r) before p).1.subject

def Flagged (c : Compiled) (es : List Entity) (i : Nat) : Prop :=
  ∃ r s icon x, c.Calls es i r (s, icon) x ∧ s.bringsToFront = true ∧
    (x.apply c.config icon s).outcome = .ok true

def Raises (p : Progress) (si : Symbolizer × Option Icon) : Prop :=
  si.1.bringsToFront = true ∧ (p.subject.apply c.config si.2 si.1).outcome = .ok true

theorem inFront_step (r : Rule) (p : Progress) (si : Symbolizer × Option Icon) :
    (c.step r p si).1.inFront = true ↔ p.inFront = true ∨ c.Raises p si := by
  rw [Raises, ← Applied.hasStyled_iff]
  simp [step, and_comm]

theorem inFront_styleProgress (r : Rule) (p : Progress) :
    (c.styleProgress r (c.equipped r) p).1.inFront = true ↔
      p.inFront = true ∨ c.isMatch r p.subject.entity = true ∧
        ∃ before si after, c.equipped r = before ++ si :: after ∧
          c.Raises (runAll (c.step r) before p).1 si := by
  rw [styleProgress]
  split
  · next hmatch =>
      have hloop := foldl_raises (fun p => p.inFront = true) (c.inFront_step r) (c.equipped r) p
      simpa only [runAll_fst, hmatch, true_and] using hloop
  · next hmatch => simp [hmatch]

def InFront (i : Nat) (ps : List Progress) : Prop :=
  ∃ p, ps[i]? = some p ∧ p.inFront = true

theorem inFront_styleRule (i : Nat) (ps : List Progress) (r : Rule) :
    InFront i (c.styleRule ps r).1 ↔
      InFront i ps ∨ ∃ p before si after, ps[i]? = some p ∧
        c.isMatch r p.subject.entity = true ∧ c.equipped r = before ++ si :: after ∧
          c.Raises (runAll (c.step r) before p).1 si := by
  have hrule : (c.styleRule ps r).1 = ps.map fun p => (c.styleProgress r (c.equipped r) p).1 := rfl
  rw [InFront, InFront, hrule, List.getElem?_map]
  cases ps[i]? with
  | none => simp
  | some p => simp [inFront_styleProgress]

theorem inFront_pass (es : List Entity) (i : Nat) :
    InFront i (runAll c.styleRule c.document.rules (start es)).1 ↔ c.Flagged es i := by
  have hloop := foldl_raises (InFront i) (c.inFront_styleRule i) c.document.rules (start es)
  have hstart : ¬InFront i (start es) := by
    rintro ⟨p, hp, hfront⟩
    rw [start, List.getElem?_map] at hp
    obtain ⟨e, -, rfl⟩ := Option.map_eq_some_iff.1 hp
    cases hfront
  rw [runAll_fst, hloop, or_iff_right hstart]
  constructor
  · rintro ⟨earlier, r, later, hrules, p, before, si, after, hp, hmatch, hequipped, hraises⟩
    rw [← runAll_fst] at hp
    exact ⟨r, si.1, si.2, _, .intro hrules hp hmatch hequipped, hraises⟩
  · rintro ⟨r, s, icon, _, ⟨hrules, hp, hmatch, hequipped⟩, hraises⟩
    rw [runAll_fst] at hp
    exact ⟨_, r, _, hrules, _, _, _, _, hp, hmatch, hequipped, hraises⟩

theorem flagged_iff {es : List Entity} {i : Nat} {e : Entity} (he : es[i]? = some e) :
    c.Flagged es i ↔ (c.alone e).inFront = true := by
  rw [← inFront_pass, InFront, runAll_styleRule, List.getElem?_map, he]
  simp

theorem frontLast_apply (coll : Collection) :
    Collection.FrontLast coll.entities.length (c.Flagged coll.entities)
      (c.apply coll).1.drawOrder := by
  rw [drawOrder_apply, ← List.length_map fun e => (c.alone e).inFront]
  apply Collection.frontLast_orderOf
  intro i
  rw [List.length_map, List.getElem?_map]
  cases hi : coll.entities[i]? with
  | none => simpa using fun hlt => absurd hi (by simp [hlt])
  | some e => simp [c.flagged_iff hi, (List.getElem?_eq_some_iff.1 hi).1]

theorem drawsEach_apply (coll : Collection) : (c.apply coll).1.DrawsEach := by
  apply Collection.drawsEach_of_perm
  have hlength : (c.apply coll).1.entities.length =
      (coll.entities.map fun e => (c.alone e).inFront).length := by
    rw [entities_apply, List.length_map, List.length_map]
  rw [hlength, drawOrder_apply]
  exact Collection.perm_orderOf _

end Compiled

inductive Change where
  | gather (es : List Entity)
  | push (e : Entity)
  | style (c : Compiled)

namespace Change

def perform (coll : Collection) : Change → Collection
  | .gather es => .ofList es
  | .push e => coll.push e
  | .style c => (c.apply coll).1

def run (changes : List Change) : Collection :=
  changes.foldl perform {}

theorem drawsEach_perform {coll : Collection} (h : coll.DrawsEach) (change : Change) :
    (change.perform coll).DrawsEach := by
  cases change with
  | gather es => exact Collection.drawsEach_ofList es
  | push e => exact Collection.drawsEach_push h e
  | style c => exact c.drawsEach_apply coll

theorem drawsEach_run (changes : List Change) : (run changes).DrawsEach := by
  induction changes using List.reverseRecOn with
  | nil => exact Collection.drawsEach_ofList []
  | append_singleton changes change ih =>
      rw [run, List.foldl_append]
      exact drawsEach_perform ih change

theorem drawn_once_front_last :
    (∀ changes : List Change, (run changes).DrawsEach) ∧
    ∀ (c : Compiled) (coll : Collection),
      Collection.FrontLast coll.entities.length (c.Flagged coll.entities)
        (c.apply coll).1.drawOrder :=
  ⟨drawsEach_run, Compiled.frontLast_apply⟩

example : (run [.gather [litPeak, peak], .style beacon, .push peak]).drawOrder = [1, 0, 2] := by
  decide +kernel

end Change
end Styling
end Symbology
