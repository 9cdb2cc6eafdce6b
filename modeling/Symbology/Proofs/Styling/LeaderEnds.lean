import Symbology.Proofs.Styling.LastWriter

namespace Symbology.Styling

open Portrayal (Polyline)
open Style (Symbolizer)

theorem positions_of_leaderOf? {config : Config} {s : Symbolizer} {position : Option Position}
    {line : Polyline} (h : leaderOf? config s position = some line) :
    ∃ q, position = some q ∧ line.positions = [q.withHeight 0, q] := by
  obtain ⟨l, _, hline⟩ := Option.bind_eq_some_iff.1 h
  obtain ⟨q, hq, hcolored⟩ := Option.bind_eq_some_iff.1 hline
  obtain ⟨color, _, rfl⟩ := Option.map_eq_some_iff.1 hcolored
  exact ⟨q, hq, rfl⟩

theorem elim_withHeight_eq_self {q : Position} {height? : Option Float} :
    height?.elim q q.withHeight = q ↔ ∀ height, height? = some height → height = q.height := by
  cases height? with
  | none => simp
  | some height =>
      obtain ⟨longitude, latitude, own⟩ := q
      simp [Position.withHeight]

namespace Compiled

variable (c : Compiled) (e : Entity) {before after ss : List Symbolizer} {s : Symbolizer}

def shownAt (ss : List Symbolizer) : Option Position :=
  e.position.map fun p => (lastHeight? ss).elim p p.withHeight

theorem lastHeight?_append (ss ss' : List Symbolizer) :
    lastHeight? (ss ++ ss') = (lastHeight? ss').or (lastHeight? ss) := by
  rw [lastHeight?, List.filterMap_append, List.getLast?_append]
  rfl

theorem shownAt_append (ss ss' : List Symbolizer) :
    shownAt e (ss ++ ss') = (shownAt e ss).map fun q => (lastHeight? ss').elim q q.withHeight := by
  rw [shownAt, shownAt, lastHeight?_append, Option.map_map]
  cases lastHeight? ss' <;> cases lastHeight? ss <;> rfl

theorem firstLeader?_eq_none : firstLeader? ss = none ↔ ∀ t ∈ ss, t.leaderLine? = none := by
  simp [firstLeader?]

theorem firstLeader?_of_split (hbefore : firstLeader? before = none)
    (hs : s.leaderLine?.isSome = true) : firstLeader? (before ++ s :: after) = some s := by
  rw [firstLeader?, List.find?_append, ← firstLeader?, hbefore, Option.none_or]
  exact List.find?_cons_of_pos hs

theorem offer?_eq_none (h : ∀ t ∈ ss, c.Ready t) (hfirst : (firstLeader? ss).isSome = true)
    (t : Symbolizer) : c.offer? e ss t = none := by
  rw [c.offer?_eq e ss t h, attaches, hfirst, Bool.and_true]
  cases hposition : e.position with
  | some p => rfl
  | none =>
      have hnone : (raise t (c.run ss e).subject.entity).position = none := by
        rw [position_raise, position_run, hposition]
        rfl
      rw [Option.isSome_none, if_neg Bool.false_ne_true, Subject.raised, hnone, leaderOf?]
      cases t.leaderLine? <;> rfl

theorem leaderLines_run_of_unasked (h : ∀ t ∈ before, c.Ready t)
    (hbefore : firstLeader? before = none) :
    (c.run before e).subject.entity.leaderLines = e.leaderLines := by
  obtain ⟨lines, hlines, hlength⟩ := c.leaderLines_run e before h
  rw [attaches, hbefore, Option.isSome_none, Bool.and_false] at hlength
  rw [hlines, List.eq_nil_of_length_eq_zero hlength, List.append_nil]

theorem leaderLines_run_split (h : ∀ t ∈ before ++ s :: after, c.Ready t)
    (hbefore : firstLeader? before = none) (hs : s.leaderLine?.isSome = true) :
    (c.run (before ++ s :: after) e).subject.entity.leaderLines =
      e.leaderLines ++ (leaderOf? c.config s (shownAt e (before ++ [s]))).toList := by
  induction after using List.reverseRecOn with
  | nil =>
      have hready : ∀ t ∈ before, c.Ready t := fun t ht => h t (List.mem_append_left [s] ht)
      have hstep := leaderLines_advance c.config (c.image? s) s (c.run before e).subject
      have hoffer := c.offer?_eq e before s hready
      have hshown := c.position_run e (before ++ [s])
      rw [attaches, hbefore, Option.isSome_none, Bool.and_false, if_neg Bool.false_ne_true]
        at hoffer
      rw [run_append_singleton] at hshown ⊢
      refine hstep.trans ?_
      rw [c.leaderLines_run_of_unasked e hready hbefore, ← offer?, hoffer, shownAt, ← hshown]
      rfl
  | append_singleton rest t ih =>
      have hready : ∀ u ∈ before ++ s :: rest, c.Ready u := by
        intro u hu
        apply h
        rw [← List.cons_append, ← List.append_assoc]
        exact List.mem_append_left [t] hu
      have hstep := leaderLines_advance c.config (c.image? t) t
        (c.run (before ++ s :: rest) e).subject
      have hattached : (firstLeader? (before ++ s :: rest)).isSome = true := by
        rw [firstLeader?_of_split hbefore hs, Option.isSome_some]
      rw [← List.cons_append, ← List.append_assoc, run_append_singleton]
      refine hstep.trans ?_
      rw [← offer?, c.offer?_eq_none e hready hattached t, ih hready, Option.toList_none,
        List.append_nil]

end Compiled

/-- A line from the ground below an entity that ends where the entity is shown after the first
symbolizer that asks for a leader line. The entity stays at that end unless its height is set to
another one later. -/
structure LeaderEnds (c : Compiled) (e e' : Entity) (line : Polyline) (before : List Symbolizer)
    (s : Symbolizer) (after : List Symbolizer) (top shown : Position) : Prop where
  applied : c.applied e = before ++ s :: after
  first : ∀ t ∈ before, t.leaderLine? = none
  asked : s.leaderLine?.isSome = true
  positions : line.positions = [shown.withHeight 0, top]
  attached : Compiled.shownAt e (before ++ [s]) = some top
  final : e'.position = some shown
  reached : top = shown ↔
    ∀ height, Compiled.lastHeight? after = some height → height = top.height

namespace Compiled

variable {c : Compiled} {e : Entity}

theorem leaderEnds_run {line : Polyline} {before after : List Symbolizer} {s : Symbolizer}
    (hsplit : c.applied e = before ++ s :: after) (hbefore : firstLeader? before = none)
    (hs : s.leaderLine?.isSome = true)
    (hline : leaderOf? c.config s (shownAt e (before ++ [s])) = some line) :
    ∃ top shown,
      LeaderEnds c e (c.run (c.applied e) e).subject.entity line before s after top shown := by
  obtain ⟨top, htop, hpositions⟩ := positions_of_leaderOf? hline
  have hshown : (c.run (c.applied e) e).subject.entity.position =
      some ((lastHeight? after).elim top top.withHeight) := by
    rw [hsplit, List.append_cons]
    refine (c.position_run e _).trans ?_
    rw [← shownAt, shownAt_append, htop, Option.map_some]
  refine ⟨top, _, hsplit, firstLeader?_eq_none.1 hbefore, hs, ?_, htop, hshown, ?_⟩
  · rw [hpositions]
    cases lastHeight? after <;> rfl
  · rw [eq_comm, elim_withHeight_eq_self]

theorem leaderLines_alone (hc : c.document.defect? = none) :
    ∃ lines, (c.alone e).subject.entity.leaderLines = e.leaderLines ++ lines ∧
      lines.length ≤ 1 ∧
      ∀ line ∈ lines, ∃ before s after top shown,
        LeaderEnds c e (c.alone e).subject.entity line before s after top shown := by
  have hready : ∀ s ∈ c.applied e, c.Ready s := fun s hs => c.ready_of_mem_applied hc hs
  rw [c.alone_eq hc]
  cases hfirst : firstLeader? (c.applied e) with
  | none =>
      refine ⟨[], ?_, Nat.zero_le 1, by simp⟩
      rw [c.leaderLines_run_of_unasked e hready hfirst, List.append_nil]
  | some s =>
      obtain ⟨hs, before, after, hsplit, hbefore⟩ := List.find?_eq_some_iff_append.1 hfirst
      have hfree : firstLeader? before = none := by
        rw [firstLeader?_eq_none]
        intro t ht
        simpa using hbefore t ht
      rw [hsplit] at hready
      refine ⟨(leaderOf? c.config s (shownAt e (before ++ [s]))).toList, ?_, ?_, ?_⟩
      · rw [hsplit]
        exact c.leaderLines_run_split e hready hfree hs
      · cases leaderOf? c.config s (shownAt e (before ++ [s])) <;> simp
      · intro line hline
        rw [Option.mem_toList] at hline
        exact ⟨before, s, after, leaderEnds_run hsplit hfree hs hline⟩

end Compiled

namespace Host

theorem leaderLines_apply {h : Host} {cache : Icon.Cache} {d : Style.Document} {c : Compiled}
    (hc : (h.compile cache d).result = .ok c) (coll : Collection) (i : Nat) (e : Entity)
    (he : coll.entities[i]? = some e) :
    ∃ e' lines, (c.apply coll).1.entities[i]? = some e' ∧
      e'.leaderLines = e.leaderLines ++ lines ∧ lines.length ≤ 1 ∧
      ∀ line ∈ lines, ∃ before s after top shown,
        LeaderEnds c e e' line before s after top shown := by
  obtain ⟨lines, hlines, hone, hends⟩ := Compiled.leaderLines_alone (e := e) (defect?_of_compile hc)
  refine ⟨(c.alone e).subject.entity, lines, ?_, hlines, hone, hends⟩
  rw [Compiled.getElem?_entities_apply, he, Option.map_some]

theorem leaderLines_apply_signpost :
    ∃ c, (compile {} .empty signpost).result = .ok c ∧
      ∃ e' lines, (c.apply (.ofList [peak])).1.entities[0]? = some e' ∧
        e'.leaderLines = lines ∧ lines.length ≤ 1 ∧
        ∀ line ∈ lines, ∃ before s after top shown,
          LeaderEnds c peak e' line before s after top shown := by
  obtain ⟨c, hc⟩ := exists_compile {} .empty defect?_signpost
  exact ⟨c, hc, leaderLines_apply hc (.ofList [peak]) 0 peak rfl⟩

/-- The label asks for a leader line before the model sets the height. -/
def lookout : Style.Document where
  rules :=
    [{ symbolizers :=
        [.text { label := some "peak", leaderLine := { width := some 2 } },
          .model { model := some "peak.glb", height := some 10 }] }]

theorem leader_misses_lookout :
    ¬ ∀ (h : Host) (cache : Icon.Cache) (d : Style.Document) (c : Compiled),
      (h.compile cache d).result = .ok c → ∀ (coll : Collection) (i : Nat) (e e' : Entity)
        (lines : List Polyline), coll.entities[i]? = some e →
        (c.apply coll).1.entities[i]? = some e' → e'.leaderLines = e.leaderLines ++ lines →
        ∀ line ∈ lines, ∃ shown, e'.position = some shown ∧
          line.positions = [shown.withHeight 0, shown] := by
  intro h
  obtain ⟨c, hc⟩ : ∃ c, (compile {} .empty lookout).result = .ok c := ⟨_, rfl⟩
  have hends := h {} .empty lookout c hc (.ofList [peak]) 0 peak
  cases hc
  obtain ⟨shown, hshown, hpositions⟩ := hends _ _ rfl rfl rfl _ (List.mem_singleton_self _)
  -- the line still ends where the label has been
  have hheight : 10 = shown.height := congrArg Position.height (Option.some.inj hshown)
  have htop : 500 = shown.height :=
    congrArg Position.height (List.cons.inj (List.cons.inj hpositions).2).1
  exact absurd (htop.trans hheight.symm) (by decide)

end Host
end Symbology.Styling
