import Mathlib.Data.List.Induction
import Symbology.Proofs.Styling.EntityByEntity
import Symbology.Proofs.Styling.Step
import Symbology.Styling.Compile

namespace Symbology.Styling

open Style (Symbolizer)

theorem Host.defect?_of_compile {h : Host} {cache : Icon.Cache} {d : Style.Document}
    {c : Compiled} (hc : (h.compile cache d).result = .ok c) : c.document.defect? = none := by
  rw [Host.compile] at hc
  split at hc
  · cases hc
  · next hd =>
      cases hc
      exact hd

theorem Host.exists_compile (h : Host) (cache : Icon.Cache) {d : Style.Document}
    (hd : d.defect? = none) : ∃ c, (h.compile cache d).result = .ok c := by
  rw [Host.compile]
  rw [hd]
  exact ⟨_, rfl⟩

def signpost : Style.Document where
  rules :=
    [{ symbolizers :=
        [.text { label := some "peak", offset := some (16, -4), leaderLine := { width := some 2 } },
          .model { model := some "peak.glb" }] }]

theorem defect?_signpost : signpost.defect? = none := rfl

def peak : Entity :=
  .ofFeature (.ofNat 1) (.point ⟨7, 41, 500⟩) []

def beacon : Compiled where
  document :=
    { rules :=
        [{ filter := some (.arr [.str "==", .str "lit", .bool true])
           symbolizers :=
            [.model { model := some "beacon.glb", height := some 10, bringToFront := some true }] }] }
  resolution := {}
  imageId := Style.Symbolizer.imageId?
  evaluator := Filter.expressions
  config := {}

def litPeak : Entity :=
  .ofFeature (.ofNat 2) (.point ⟨7, 41, 500⟩) [("lit", .bool true)]

namespace Compiled

variable (c : Compiled)

def applied (e : Entity) : List Symbolizer :=
  (c.usable e).filter e.geometry.carries

def advance (p : Progress) (s : Symbolizer) : Progress where
  subject := p.subject.advance c.config (c.image? s) s
  inFront := p.inFront || s.bringsToFront

structure Ready (s : Symbolizer) : Prop where
  checked : s.defect? = none
  imaged : s.needsIcon = true → (c.image? s).isSome = true

theorem ready_of_mem_usable {s : Symbolizer} {e : Entity} (hc : c.document.defect? = none)
    (h : s ∈ c.usable e) : c.Ready s := by
  obtain ⟨hmem, husable⟩ := List.mem_filter.1 h
  obtain ⟨r, hr, hs⟩ := List.mem_flatMap.1 hmem
  have hrule : r ∈ c.document.rules := (List.mem_filter.1 hr).1
  refine ⟨Style.Document.defect?_eq_none_iff.1 hc r hrule s hs, ?_⟩
  intro hneeds
  simpa [isUsable, hneeds] using husable

theorem ready_of_mem_applied {s : Symbolizer} {e : Entity} (hc : c.document.defect? = none)
    (h : s ∈ c.applied e) : c.Ready s :=
  c.ready_of_mem_usable hc (List.mem_filter.1 h).1

theorem take_of_carries {s : Symbolizer} {p : Progress} (h : c.Ready s)
    (hg : p.subject.entity.geometry.carries s = true) : c.take p s = c.advance p s := by
  obtain ⟨hok, hstate⟩ := apply_of_carries c.config (c.image? s) h.checked hg h.imaged
  simp only [take, advance, Applied.hasStyled, hok, hstate, Bool.true_and]

theorem take_of_not_carries {s : Symbolizer} {p : Progress}
    (hg : p.subject.entity.geometry.carries s = false) : c.take p s = p := by
  obtain ⟨hok, hstate⟩ := apply_of_not_carries c.config (c.image? s) hg
  simp only [take, Applied.hasStyled, hok, hstate, Bool.false_and, Bool.or_false]

theorem sameFeature_progress (p : Progress) (s : Symbolizer) :
    SameFeature p.subject.entity (c.advance p s).subject.entity :=
  sameFeature_advance c.config (c.image? s) s p.subject

theorem foldl_take_eq {ss : List Symbolizer} (p : Progress) (h : ∀ s ∈ ss, c.Ready s) :
    ss.foldl c.take p = (ss.filter p.subject.entity.geometry.carries).foldl c.advance p := by
  induction ss generalizing p with
  | nil => rfl
  | cons s rest ih =>
      have hrest := fun q => ih q fun t ht => h t (List.mem_cons_of_mem s ht)
      rw [List.foldl_cons]
      cases hg : p.subject.entity.geometry.carries s with
      | false =>
          rw [c.take_of_not_carries hg, List.filter_cons_of_neg (by simp [hg])]
          exact hrest p
      | true =>
          rw [c.take_of_carries (h s List.mem_cons_self) hg, List.filter_cons_of_pos hg,
            List.foldl_cons, hrest, (c.sameFeature_progress p s).geometry]

def run (ss : List Symbolizer) (e : Entity) : Progress :=
  ss.foldl c.advance { subject := { entity := e } }

theorem alone_eq (hc : c.document.defect? = none) (e : Entity) :
    c.alone e = c.run (c.applied e) e :=
  c.foldl_take_eq _ fun _ hs => c.ready_of_mem_usable hc hs

theorem run_append_singleton (ss : List Symbolizer) (s : Symbolizer) (e : Entity) :
    c.run (ss ++ [s]) e = c.advance (c.run ss e) s := by
  rw [run, List.foldl_append]
  rfl

theorem sameFeature_run (ss : List Symbolizer) (e : Entity) :
    SameFeature e (c.run ss e).subject.entity := by
  induction ss using List.reverseRecOn with
  | nil => exact .refl e
  | append_singleton rest s ih =>
      rw [run_append_singleton]
      exact ih.trans (c.sameFeature_progress _ s)

end Compiled
end Symbology.Styling
