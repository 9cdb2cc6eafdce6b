import Symbology.Style.Text
import Symbology.Proofs.Json.Canonical
import Symbology.Proofs.Style.Members

namespace Symbology.Style

open Json (Reader Yields Canonical bind_eq_ok)

def Symbolizer.Readable (s : Symbolizer) : Prop :=
  ∀ m ∈ s.members, Canonical (Json.nestingLimit - 5) m.2

structure Rule.Readable (r : Rule) : Prop where
  filter : ∀ f ∈ r.filter, f ≠ .null ∧ Canonical (Json.nestingLimit - 3) f
  symbolizers : ∀ s ∈ r.symbolizers, s.Readable

def Document.Readable (d : Document) : Prop :=
  ∀ r ∈ d.rules, r.Readable

variable {α σ : Type} {P : α → Prop} {I : σ → Prop}

section

variable {slots : List (Slot σ)} (h : ∀ slot ∈ slots, ∀ s, I s → Yields (slot.read s) I)
include h

theorem yields_slot_member {s : σ} (hs : I s) (key : String) :
    Yields (Slot.member slots s key) I := by
  intro cs t rest hread
  unfold Slot.member at hread
  split at hread
  · simp only [bind_eq_ok] at hread
    obtain ⟨_, -, _, -, hread⟩ := hread
    cases hread
    exact hs
  · next slot hslot =>
      split at hread
      · cases hread
      · simp only [bind_eq_ok] at hread
        obtain ⟨_, -, hread⟩ := hread
        exact (h slot (List.mem_of_find?_eq_some hslot) s hs).holds hread

theorem yields_inOrder (isFirst : Bool) {s : σ} (hs : I s) :
    Yields (Slot.inOrder isFirst slots s) I := by
  induction slots generalizing isFirst s with
  | nil =>
      intro cs t rest hread
      simp only [Slot.inOrder, arrayEnd] at hread
      split at hread
      · cases hread
      · split at hread
        · cases hread
          exact hs
        · cases hread
  | cons slot slots ih =>
      intro cs t rest hread
      have hslot := h slot (List.mem_cons_self ..) s hs
      have hslots {t : σ} (ht : I t) :=
        ih (fun other hother => h other (List.mem_cons_of_mem _ hother)) false ht
      simp only [Slot.inOrder] at hread
      split at hread
      · cases hread
      · split at hread
        · cases hread
          exact hs
        split at hread
        · simp only [bind_eq_ok] at hread
          obtain ⟨⟨s', cs'⟩, hs', hread⟩ := hread
          exact (hslots (hslot.holds hs')).holds hread
        split at hread
        · simp only [bind_eq_ok] at hread
          obtain ⟨⟨s', cs'⟩, hs', hread⟩ := hread
          exact (hslots (hslot.holds hs')).holds hread
        · cases hread

theorem yields_record {s : σ} (hs : I s) : Yields (Slot.record slots s) I := by
  intro cs t rest hread
  unfold Slot.record at hread
  split at hread
  · cases hread
  · split at hread
    · exact (yields_inOrder h true hs).holds hread
    split at hread
    · exact (Json.yields_objectBody (fun hs => yields_slot_member h hs _) hs).holds hread
    · exact absurd hread Json.wrongType_ne_ok

end

theorem Symbolizer.readable_ofValues {depth : Nat} {kind : Kind} {vs : List Json}
    (hvs : ∀ v ∈ vs, Canonical depth v) {s : Symbolizer}
    (hs : Symbolizer.ofValues kind vs = .ok s) : s.Readable := by
  have hzip : ∀ m ∈ (kind.fields.map Prod.fst).zip vs, Canonical depth m.2 :=
    fun m hm => hvs m.2 (List.of_mem_zip hm).2
  unfold Symbolizer.ofValues at hs
  split at hs
  · split at hs
    · exact Symbolizer.canonical_members hzip hs
    · cases hs
  · split at hs
    · exact Symbolizer.canonical_members hzip hs
    · cases hs
  · split at hs
    · cases hs
      nofun
    · cases hs
  · cases hs

section

variable {value : Reader Json} {depth : Nat} (h : Yields value (Canonical depth))
include h

theorem yields_draft_member {d : Draft} (hd : ∀ m ∈ d.others, Canonical depth m.2) (key : String) :
    Yields (Draft.member value d key) fun d => ∀ m ∈ d.others, Canonical depth m.2 := by
  intro cs e rest hread
  unfold Draft.member at hread
  split at hread
  · split at hread
    · cases hread
    · simp only [bind_eq_ok] at hread
      obtain ⟨_, -, _, -, hread⟩ := hread
      cases hread
      exact hd
  · simp only [bind_eq_ok] at hread
    obtain ⟨_, -, ⟨v, _⟩, hv, hread⟩ := hread
    cases hread
    simp only [List.forall_mem_append, List.forall_mem_singleton]
    exact ⟨hd, h.holds hv⟩

theorem yields_furtherItems :
    Yields (furtherItems value) fun vs => ∀ v ∈ vs, Canonical depth v := by
  intro cs vs rest hread
  unfold furtherItems at hread
  split at hread
  · cases hread
  · split at hread
    · cases hread
      simp
    split at hread
    · exact (Json.yields_items h _).holds hread
    · cases hread

theorem yields_readValues : Yields (readValues value) Symbolizer.Readable := by
  intro cs s rest hread
  unfold readValues at hread
  split at hread
  · cases hread
  · simp only [bind_eq_ok] at hread
    obtain ⟨_, -, ⟨vs, _⟩, hvs, s, hs, hread⟩ := hread
    cases hread
    exact Symbolizer.readable_ofValues ((yields_furtherItems h).holds hvs) hs

theorem yields_readSymbolizer : Yields (readSymbolizer value) Symbolizer.Readable := by
  intro cs s rest hread
  unfold readSymbolizer at hread
  split at hread
  · cases hread
  · split at hread
    · simp only [bind_eq_ok] at hread
      obtain ⟨⟨d, _⟩, hd, s, hs, hread⟩ := hread
      cases hread
      have hothers :=
        (Json.yields_objectBody (fun hd => yields_draft_member h hd _) (by simp)).holds hd
      unfold Draft.symbolizer at hs
      split at hs
      · exact Symbolizer.canonical_members hothers hs
      · cases hs
    split at hread
    · exact (yields_readValues h).holds hread
    · exact absurd hread Json.wrongType_ne_ok

end

theorem yields_readFilter :
    Yields readFilter fun f => ∀ v ∈ f, v ≠ .null ∧ Canonical (Json.nestingLimit - 3) v := by
  intro cs f rest hread
  simp only [readFilter, bind_eq_ok] at hread
  obtain ⟨⟨v, _⟩, hv, hread⟩ := hread
  split at hread
  · cases hread
    nofun
  · next hnull =>
      cases hread
      rintro v ⟨⟩
      exact ⟨hnull, (Json.canonical_value _).holds hv⟩

structure RuleDraft.Readable (d : RuleDraft) : Prop where
  filter : ∀ f ∈ d.filter, ∀ v ∈ f, v ≠ .null ∧ Canonical (Json.nestingLimit - 3) v
  symbolizers : ∀ ss ∈ d.symbolizers, ∀ s ∈ ss, s.Readable

theorem yields_ruleSlots :
    ∀ slot ∈ ruleSlots, ∀ d, RuleDraft.Readable d → Yields (slot.read d) RuleDraft.Readable := by
  simp only [ruleSlots, List.forall_mem_cons]
  refine ⟨?name, ?filter, ?symbolizers, nofun⟩
  case name =>
    intro d hd cs e rest hread
    simp only [bind_eq_ok] at hread
    obtain ⟨_, -, hread⟩ := hread
    cases hread
    exact ⟨hd.filter, hd.symbolizers⟩
  case filter =>
    intro d hd cs e rest hread
    simp only [bind_eq_ok] at hread
    obtain ⟨⟨f, _⟩, hf, hread⟩ := hread
    cases hread
    refine ⟨?_, hd.symbolizers⟩
    rintro _ ⟨⟩
    exact yields_readFilter.holds hf
  case symbolizers =>
    intro d hd cs e rest hread
    simp only [bind_eq_ok] at hread
    obtain ⟨⟨ss, _⟩, hss, hread⟩ := hread
    cases hread
    refine ⟨hd.filter, ?_⟩
    rintro _ ⟨⟩
    exact (Json.yields_array (yields_readSymbolizer (Json.canonical_value _))).holds hss

theorem yields_readRule : Yields readRule Rule.Readable := by
  intro cs r rest hread
  simp only [readRule, bind_eq_ok] at hread
  obtain ⟨⟨d, _⟩, hd, hread⟩ := hread
  cases hread
  have hdraft := (yields_record yields_ruleSlots ⟨by simp, by simp⟩).holds hd
  refine ⟨fun f hf => ?_, fun s hs => ?_⟩
  · cases hfilter : d.filter with
    | none => simp [RuleDraft.rule, hfilter] at hf
    | some g => exact hdraft.filter g hfilter f (by simpa [RuleDraft.rule, hfilter] using hf)
  · cases hsymbolizers : d.symbolizers with
    | none => simp [RuleDraft.rule, hsymbolizers] at hs
    | some ss =>
        exact hdraft.symbolizers ss hsymbolizers s (by simpa [RuleDraft.rule, hsymbolizers] using hs)

theorem yields_readDocument : Yields readDocument Document.Readable := by
  intro cs d rest hread
  simp only [readDocument, bind_eq_ok] at hread
  obtain ⟨⟨draft, _⟩, hdraft, hread⟩ := hread
  cases hread
  have hslots : ∀ slot ∈ documentSlots, ∀ d : DocumentDraft,
      (∀ rs ∈ d.rules, ∀ r ∈ rs, r.Readable) →
        Yields (slot.read d) fun d => ∀ rs ∈ d.rules, ∀ r ∈ rs, r.Readable := by
    simp only [documentSlots, List.forall_mem_cons]
    refine ⟨?name, ?rules, nofun⟩
    case name =>
      intro d hd cs e rest hread
      simp only [bind_eq_ok] at hread
      obtain ⟨_, -, hread⟩ := hread
      cases hread
      exact hd
    case rules =>
      intro d hd cs e rest hread
      simp only [bind_eq_ok] at hread
      obtain ⟨⟨rs, _⟩, hrs, hread⟩ := hread
      cases hread
      rintro _ ⟨⟩
      exact (Json.yields_array yields_readRule).holds hrs
  have hrules := (yields_record hslots (by nofun)).holds hdraft
  intro r hr
  cases hrs : draft.rules with
  | none => simp [DocumentDraft.document, hrs] at hr
  | some rs => exact hrules rs hrs r (by simpa [DocumentDraft.document, hrs] using hr)

theorem Document.readable_ofText {text : String} {d : Document}
    (h : Document.ofText text = .ok d) : d.Readable := by
  simp only [Document.ofText, Json.whole, bind_eq_ok] at h
  obtain ⟨⟨e, _⟩, he, h⟩ := h
  split at h
  · cases h
    exact yields_readDocument.holds he
  · cases h

end Symbology.Style
