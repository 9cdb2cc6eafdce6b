import Symbology.Proofs.Styling.Run

namespace Symbology.Styling.Compiled

open Style (Symbolizer)

variable (c : Compiled) (e : Entity)

def lastWriter? (k : Slot) (ss : List Symbolizer) : Option Symbolizer :=
  (ss.filter k.isWrittenBy).getLast?

def lastHeight? (ss : List Symbolizer) : Option Float :=
  (ss.filterMap Symbolizer.displayHeight?).getLast?

def firstLeader? (ss : List Symbolizer) : Option Symbolizer :=
  ss.find? (·.leaderLine?.isSome)

def graphicOf (s : Symbolizer) (k : Slot) : Option k.Graphic :=
  k.value c.config (c.image? s) e.geometry e.properties s

def written (k : Slot) (ss : List Symbolizer) : Option k.Graphic :=
  (lastWriter? k ss).bind fun s => c.graphicOf e s k

def connection (ss : List Symbolizer) : Option Portrayal.Billboard :=
  if e.position.isSome then (firstLeader? ss).bind (connectorOf? c.config) else none

def attaches (ss : List Symbolizer) : Bool :=
  e.position.isSome && (firstLeader? ss).isSome

variable (k : Slot) (ss : List Symbolizer) (s : Symbolizer)

theorem isSome_graphicOf (h : c.Ready s) : (c.graphicOf e s k).isSome = k.isWrittenBy s :=
  Slot.isSome_value c.config e.geometry e.properties k h.checked h.imaged

theorem lastWriter?_append_singleton :
    lastWriter? k (ss ++ [s]) = if k.isWrittenBy s then some s else lastWriter? k ss := by
  rw [lastWriter?, List.filter_append]
  cases hk : k.isWrittenBy s with
  | false => simp [lastWriter?, hk]
  | true => simp [hk]

theorem written_append_singleton (h : c.Ready s) :
    c.written e k (ss ++ [s]) = (c.graphicOf e s k).or (c.written e k ss) := by
  have hwrites := c.isSome_graphicOf e k s h
  rw [written, lastWriter?_append_singleton, ← hwrites]
  cases hgraphic : c.graphicOf e s k with
  | none => rfl
  | some v => exact hgraphic

theorem lastHeight?_append_singleton :
    lastHeight? (ss ++ [s]) = s.displayHeight?.or (lastHeight? ss) := by
  rw [lastHeight?, List.filterMap_append]
  cases hs : s.displayHeight? <;> simp [lastHeight?, hs]

theorem firstLeader?_append_singleton :
    firstLeader? (ss ++ [s]) =
      (firstLeader? ss).or (if s.leaderLine?.isSome then some s else none) := by
  rw [firstLeader?, List.find?_append, List.find?_singleton]
  rfl

theorem attaches_append_singleton :
    attaches e (ss ++ [s]) = (attaches e ss || (s.leaderLine?.isSome && e.position.isSome)) := by
  rw [attaches, attaches, firstLeader?_append_singleton]
  cases e.position.isSome <;> cases s.leaderLine?.isSome <;> simp

theorem bind_connectorOf? :
    (if s.leaderLine?.isSome then some s else none).bind (connectorOf? c.config) =
      connectorOf? c.config s := by
  cases hs : s.leaderLine? with
  | none => simp [connectorOf?, hs]
  | some l => rfl

theorem connection_append_singleton :
    c.connection e (ss ++ [s]) = (c.connection e ss).or (if attaches e ss then none
      else if e.position.isSome then connectorOf? c.config s else none) := by
  rw [connection, connection, attaches, firstLeader?_append_singleton]
  cases e.position.isSome with
  | false => rfl
  | true =>
      cases hfirst : firstLeader? ss with
      | none => simp [← c.bind_connectorOf? s]
      | some first => simp

theorem graphic_run (h : ∀ s ∈ ss, c.Ready s) (hk : k ≠ .billboard) :
    (c.run ss e).subject.entity.graphic k = (c.written e k ss).or (e.graphic k) := by
  induction ss using List.reverseRecOn with
  | nil => rfl
  | append_singleton rest s ih =>
      have hsame := c.sameFeature_run rest e
      have hrest := ih fun t ht => h t (List.mem_append_left [s] ht)
      have hlast := c.written_append_singleton e k rest s (h s (by simp))
      rw [run_append_singleton, hlast, Option.or_assoc, ← hrest, graphicOf, ← hsame.geometry,
        ← hsame.properties]
      exact graphic_advance c.config (c.image? s) s _ hk

theorem position_run :
    (c.run ss e).subject.entity.position =
      e.position.map fun p => (lastHeight? ss).elim p p.withHeight := by
  induction ss using List.reverseRecOn with
  | nil => simp [run, lastHeight?]
  | append_singleton rest s ih =>
      have hstep := position_advance c.config (c.image? s) s (c.run rest e).subject
      rw [run_append_singleton, lastHeight?_append_singleton, advance, hstep, position_raise, ih,
        Option.map_map]
      -- an earlier height is overwritten, since only the height of a position changes
      cases s.displayHeight? <;> cases lastHeight? rest <;> rfl

theorem isSome_position_run :
    (c.run ss e).subject.entity.position.isSome = e.position.isSome := by
  rw [position_run, Option.isSome_map]

theorem isSome_leaderOf?_run (h : c.Ready s) :
    (leaderOf? c.config s ((c.run ss e).subject.raised s).entity.position).isSome =
      (s.leaderLine?.isSome && e.position.isSome) := by
  rw [isSome_leaderOf? c.config h.checked, Subject.raised, isSome_position_raise,
    isSome_position_run]

def offer? : Option Portrayal.Polyline :=
  ((c.run ss e).subject.raised s).offer? c.config s

theorem leaderAttached_run (h : ∀ s ∈ ss, c.Ready s) :
    (c.run ss e).subject.leaderAttached = attaches e ss := by
  induction ss using List.reverseRecOn with
  | nil => simp [run, attaches, firstLeader?]
  | append_singleton rest s ih =>
      have hrest := ih fun t ht => h t (List.mem_append_left [s] ht)
      have hline := c.isSome_leaderOf?_run e rest s (h s (by simp))
      have hstep := leaderAttached_advance c.config (c.image? s) s (c.run rest e).subject
      rw [run_append_singleton, attaches_append_singleton, ← hrest, ← hline]
      refine hstep.trans ?_
      rw [Subject.offer?, Subject.raised]
      cases (c.run rest e).subject.leaderAttached <;> rfl

theorem offer?_eq (h : ∀ s ∈ ss, c.Ready s) :
    c.offer? e ss s = if attaches e ss then none
      else leaderOf? c.config s ((c.run ss e).subject.raised s).entity.position := by
  rw [← c.leaderAttached_run e ss h]
  rfl

theorem bind_offer? (h : ∀ s ∈ ss, c.Ready s) (hs : c.Ready s) :
    ((c.offer? e ss s).bind fun _ => connectorOf? c.config s) =
      if attaches e ss then none
      else if e.position.isSome then connectorOf? c.config s else none := by
  have hline := c.isSome_leaderOf?_run e ss s hs
  rw [c.offer?_eq e ss s h]
  cases attaches e ss with
  | true => rfl
  | false =>
      cases hl : s.leaderLine? with
      | none => simp [connectorOf?, hl]
      | some l =>
          rw [hl, Option.isSome_some, Bool.true_and] at hline
          rw [← hline, if_neg Bool.false_ne_true, if_neg Bool.false_ne_true]
          cases leaderOf? c.config s ((c.run ss e).subject.raised s).entity.position <;> rfl

theorem leaderLines_run (h : ∀ s ∈ ss, c.Ready s) :
    ∃ lines, (c.run ss e).subject.entity.leaderLines = e.leaderLines ++ lines ∧
      lines.length = (attaches e ss).toNat := by
  induction ss using List.reverseRecOn with
  | nil =>
      refine ⟨[], by simp [run], ?_⟩
      simp [attaches, firstLeader?]
  | append_singleton rest s ih =>
      have hready : ∀ t ∈ rest, c.Ready t := fun t ht => h t (List.mem_append_left [s] ht)
      obtain ⟨lines, hlines, hlength⟩ := ih hready
      have hline := c.isSome_leaderOf?_run e rest s (h s (by simp))
      have hstep := leaderLines_advance c.config (c.image? s) s (c.run rest e).subject
      rw [hlines, List.append_assoc] at hstep
      rw [run_append_singleton]
      refine ⟨lines ++ (c.offer? e rest s).toList, hstep, ?_⟩
      rw [List.length_append, hlength, attaches_append_singleton, ← hline,
        c.offer?_eq e rest s hready]
      cases attaches e rest with
      | true => rfl
      | false =>
          cases leaderOf? c.config s ((c.run rest e).subject.raised s).entity.position <;> rfl

/-- A connector comes only to an entity that has no billboard at the start of the pass, and any
mark or icon of the pass takes its place. -/
theorem billboard_run (h : ∀ s ∈ ss, c.Ready s) :
    (c.run ss e).subject.entity.billboard =
      (c.written e .billboard ss).or (e.billboard.or (c.connection e ss)) := by
  induction ss using List.reverseRecOn with
  | nil =>
      have hnone : c.connection e [] = none := by simp [connection, firstLeader?]
      rw [hnone, Option.or_none]
      rfl
  | append_singleton rest s ih =>
      have hready : ∀ t ∈ rest, c.Ready t := fun t ht => h t (List.mem_append_left [s] ht)
      have hlast := h s (by simp)
      have hstep := billboard_advance c.config (c.image? s) s (c.run rest e).subject
      rw [← offer?, c.bind_offer? e rest s hready hlast, ih hready] at hstep
      rw [run_append_singleton, c.written_append_singleton e .billboard rest s hlast,
        connection_append_singleton]
      refine hstep.trans ?_
      rw [Option.or_assoc, Option.or_assoc, Option.or_assoc]
      rfl

theorem inFront_run : (c.run ss e).inFront = ss.any Symbolizer.bringsToFront := by
  induction ss using List.reverseRecOn with
  | nil => rfl
  | append_singleton rest s ih =>
      rw [run_append_singleton, List.any_append, ← ih]
      simp [advance]

end Symbology.Styling.Compiled
