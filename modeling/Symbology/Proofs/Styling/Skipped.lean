import Symbology.Proofs.Styling.Outcome

namespace Symbology

open Style (Document Rule Symbolizer)

def Style.Rule.without (skips : Symbolizer → Bool) (r : Rule) : Rule :=
  { r with symbolizers := r.symbolizers.filter (!skips ·) }

def Style.Document.without (skips : Symbolizer → Bool) (d : Document) : Document :=
  { d with rules := d.rules.map (·.without skips) }

namespace Styling.Compiled

variable (c : Compiled)

def skips (s : Symbolizer) : Bool :=
  decide (s.kind = .unknown) || (s.needsIcon && (c.image? s).isNone)

def stripped : Compiled :=
  { c with document := c.document.without c.skips }

theorem take_of_skips {s : Symbolizer} (h : c.skips s = true) (p : Progress) : c.take p s = p := by
  have hshows : p.subject.entity.geometry.shows (c.image? s) s = false := by
    rw [skips, Bool.or_eq_true, decide_eq_true_eq, Bool.and_eq_true] at h
    rcases h with hunknown | ⟨hneeds, hnone⟩
    · cases s <;> cases hunknown
      rfl
    · rw [Geometry.shows_eq, hneeds, Option.isNone_iff_eq_none.1 hnone]
      exact Bool.and_false _
  obtain ⟨hok, hstate⟩ := apply_of_not_shows c.config (c.image? s) hshows
  simp only [take, Applied.hasStyled, hok, hstate, Bool.false_and, Bool.or_false]

theorem foldl_take_filter {keeps : Symbolizer → Bool}
    (h : ∀ s, keeps s = false → c.skips s = true) (ss : List Symbolizer) (p : Progress) :
    (ss.filter keeps).foldl c.take p = ss.foldl c.take p := by
  rw [List.foldl_filter]
  congr 1
  funext q s
  cases hs : keeps s with
  | true => rfl
  | false => exact (c.take_of_skips (h s hs) q).symm

theorem skips_of_not_isUsable {s : Symbolizer} (h : c.isUsable s = false) : c.skips s = true := by
  rw [isUsable, Bool.or_eq_false_iff, Bool.not_eq_false'] at h
  have hnone : (c.image? s).isNone = true := by simpa using h.2
  rw [skips, h.1, hnone]
  exact Bool.or_true _

theorem alone_eq_foldl (e : Entity) :
    c.alone e =
      ((c.matching e).flatMap Rule.symbolizers).foldl c.take { subject := { entity := e } } :=
  c.foldl_take_filter (fun _ => c.skips_of_not_isUsable) _ _

theorem symbolizers_matching_stripped (e : Entity) :
    (c.stripped.matching e).flatMap Rule.symbolizers =
      ((c.matching e).flatMap Rule.symbolizers).filter (!c.skips ·) := by
  have hmatching : c.stripped.matching e = (c.matching e).map (·.without c.skips) := by
    rw [matching, matching, stripped, Document.without, List.filter_map]
    rfl
  rw [hmatching, List.flatMap_map, List.filter_flatMap]
  rfl

theorem alone_stripped (e : Entity) : c.stripped.alone e = c.alone e := by
  rw [alone_eq_foldl, symbolizers_matching_stripped, alone_eq_foldl]
  refine c.foldl_take_filter ?_ _ _
  intro s hs
  simpa using hs

theorem apply_stripped (c : Compiled) (coll : Collection) :
    (c.stripped.apply coll).1 = (c.apply coll).1 ∧
    (∀ e, c.stripped.alone e = c.alone e) ∧
    ∀ s, c.skips s = true → ∀ p, c.take p s = p := by
  refine ⟨?_, c.alone_stripped, ?_⟩
  · rw [apply_eq, apply_eq, funext c.alone_stripped]
  · intro s hs p
    exact c.take_of_skips hs p

end Styling.Compiled
end Symbology
