import Symbology.Proofs.Style.Checked
import Symbology.Proofs.Styling.Run
import Symbology.Proofs.Styling.SharedCache

namespace Symbology

namespace Style

structure FirstDefect (d : Document) (r : Rule) (s : Symbolizer) (defect : Defect) : Prop where
  rule : ∃ before after, d.rules = before ++ r :: after ∧
    ∀ r' ∈ before, ∀ t ∈ r'.symbolizers, t.defect? = none
  symbolizer : ∃ before after, r.symbolizers = before ++ s :: after ∧
    ∀ t ∈ before, t.defect? = none
  defect : s.defect? = some defect

theorem Rule.exists_of_defect? {r : Rule} {defect : Defect} (h : r.defect? = some defect) :
    ∃ before s after, r.symbolizers = before ++ s :: after ∧ (∀ t ∈ before, t.defect? = none) ∧
      s.defect? = some defect := by
  obtain ⟨before, s, after, hsplit, hdefect, hbefore⟩ := List.findSome?_eq_some_iff.1 h
  exact ⟨before, s, after, hsplit, hbefore, hdefect⟩

theorem Document.exists_firstDefect {d : Document} {e : StyleError} (h : d.defect? = some e) :
    ∃ r s defect, FirstDefect d r s defect ∧ e = .malformedStyle r.name defect := by
  obtain ⟨before, r, after, hrules, hrule, hbefore⟩ := List.findSome?_eq_some_iff.1 h
  obtain ⟨defect, hdefect, rfl⟩ := Option.map_eq_some_iff.1 hrule
  obtain ⟨earlier, s, later, hsymbolizers, hearlier, hs⟩ := Rule.exists_of_defect? hdefect
  refine ⟨r, s, defect, ⟨⟨before, after, hrules, ?_⟩, ⟨earlier, later, hsymbolizers, hearlier⟩, hs⟩,
    rfl⟩
  intro r' hr'
  exact Rule.defect?_eq_none_iff.1 (Option.map_eq_none_iff.1 (hbefore r' hr'))

theorem Document.exists_defect?_iff {d : Document} :
    (∃ e, d.defect? = some e) ↔ ∃ r ∈ d.rules, ∃ s ∈ r.symbolizers, s.defect? ≠ none := by
  rw [← Option.ne_none_iff_exists', ne_eq, defect?_eq_none_iff]
  simp only [not_forall, exists_prop, ne_eq]

end Style

namespace Icon

variable {drawer : Drawer} {imageId : ImageIds} {cache : Cache} {ss : List Style.Symbolizer}

theorem mem_failedIds {r : Resolution} {id : String} :
    id ∈ r.failedIds ↔ id ∈ r.failures.map Prod.fst :=
  (List.mergeSort_perm _ _).mem_iff

theorem not_mem_failures_of_mem_icons {id : String}
    (h : id ∈ (resolve drawer imageId cache ss).resolution.icons.map Prod.fst) :
    id ∉ (resolve drawer imageId cache ss).resolution.failures.map Prod.fst := by
  have hneeds : ((needs imageId [] ss).map Request.id).Nodup := nodup_ids_needs [] ss
  rw [← ids_resolution_perm.nodup_iff, List.nodup_append] at hneeds
  intro hfailures
  exact hneeds.2.2 id h id hfailures rfl

theorem lookup_of_needed {id : String} (hid : id ∈ neededIds imageId ss) :
    (∃ icon, (resolve drawer imageId cache ss).resolution.lookup id = .ok icon) ∧
        id ∉ (resolve drawer imageId cache ss).resolution.failedIds ∨
      (∃ fault, (resolve drawer imageId cache ss).resolution.lookup id =
          .error (.iconResolution id fault)) ∧
        id ∈ (resolve drawer imageId cache ss).resolution.failedIds := by
  rw [mem_failedIds, Resolution.lookup]
  cases hlookup : (resolve drawer imageId cache ss).resolution.icons.lookup id with
  | some icon =>
      have hicons := List.mem_map_of_mem (f := Prod.fst) (mem_of_lookup hlookup)
      exact .inl ⟨⟨icon, rfl⟩, not_mem_failures_of_mem_icons hicons⟩
  | none =>
      have hicons := not_mem_of_lookup hlookup
      exact .inr ⟨⟨_, rfl⟩, (mem_ids_resolution.2 hid).resolve_left hicons⟩

end Icon

namespace Styling.Host

def compilation (h : Host) (d : Style.Document) (r : Icon.Resolved) : Compilation where
  result :=
    .ok
      { document := d
        resolution := r.resolution
        imageId := h.imageId
        evaluator := h.evaluator
        config := h.config }
  cache := r.cache
  batch := r.batch
  notices := r.notices ++
    .compiled d.name d.rules.length r.resolution.icons.length :: unavailable r.resolution

def compileVia {m : Type → Type} [Monad m] (h : Host) (draw : List Icon.Request → m Icon.Drawing)
    (cache : Icon.Cache) (d : Style.Document) : m Compilation :=
  match d.defect? with
  | some e => pure { result := .error e, cache }
  | none => do
      let r ← Icon.resolveVia draw h.imageId cache d.symbolizers
      pure (h.compilation d r)

variable {h : Host} {cache : Icon.Cache} {d : Style.Document} {c : Compiled}

theorem compile_eq_compilation (hd : d.defect? = none) :
    h.compile cache d =
      h.compilation d (Icon.resolve h.drawer h.imageId cache d.symbolizers) := by
  rw [compile, hd]
  rfl

def batches (h : Host) (cache : Icon.Cache) (d : Style.Document) : List (List Icon.Request) :=
  if (h.compile cache d).batch = [] then [] else [(h.compile cache d).batch]

theorem compileVia_recorded (asked : List (List Icon.Request)) :
    (h.compileVia h.drawer.recorded cache d).run asked =
      (h.compile cache d, asked ++ h.batches cache d) := by
  rw [compileVia, batches]
  cases hd : d.defect? with
  | some e =>
      rw [compile_of_defect hd, if_pos rfl, List.append_nil]
      rfl
  | none =>
      have hrun : (do
            let r ← Icon.resolveVia h.drawer.recorded h.imageId cache d.symbolizers
            pure (h.compilation d r) : StateM _ Compilation).run asked =
          (h.compilation d
              ((Icon.resolveVia h.drawer.recorded h.imageId cache d.symbolizers).run asked).1,
            ((Icon.resolveVia h.drawer.recorded h.imageId cache d.symbolizers).run asked).2) := rfl
      have hbatch : (h.compile cache d).batch =
          (Icon.resolve h.drawer h.imageId cache d.symbolizers).batch :=
        (compile_of_checked hd).2
      refine hrun.trans ?_
      rw [Icon.resolveVia_recorded, hbatch, compile_eq_compilation hd]
      split
      · rw [List.append_nil]
      · rfl

theorem result_eq_error_iff {e : StyleError} :
    (h.compile cache d).result = .error e ↔ d.defect? = some e := by
  cases hd : d.defect? with
  | some e' =>
      rw [compile_of_defect hd]
      simp
  | none =>
      rw [compile_eq_compilation hd]
      simp [compilation]

theorem document_of_compile (hc : (h.compile cache d).result = .ok c) :
    c.document = d ∧ c.imageId = h.imageId := by
  cases hd : d.defect? with
  | some e =>
      rw [compile_of_defect hd] at hc
      cases hc
  | none =>
      rw [compile_eq_compilation hd] at hc
      cases hc
      exact ⟨rfl, rfl⟩

theorem unasked_of_defect {e : StyleError} (hd : d.defect? = some e) :
    (h.compile cache d).cache = cache ∧ h.batches cache d = [] := by
  rw [batches, compile_of_defect hd]
  exact ⟨rfl, rfl⟩

theorem length_batches_le (h : Host) (cache : Icon.Cache) (d : Style.Document) :
    (h.batches cache d).length ≤ 1 := by
  rw [batches]
  split <;> simp

theorem icon?_of_compile (hc : (h.compile cache d).result = .ok c) {s : Style.Symbolizer}
    {id : String} (hs : s ∈ c.document.symbolizers) (hneeds : s.needsIcon = true)
    (hid : c.imageId s = some id) :
    (∃ icon, c.icon? s = some (.ok icon)) ∧ id ∉ c.resolution.failedIds ∨
      (∃ fault, c.icon? s = some (.error (.iconResolution id fault))) ∧
        id ∈ c.resolution.failedIds := by
  obtain ⟨hdocument, himageId⟩ := document_of_compile hc
  have hneeded : id ∈ Icon.neededIds h.imageId d.symbolizers := by
    refine List.mem_filterMap.2 ⟨s, hdocument ▸ hs, ?_⟩
    rw [Icon.neededId?, if_pos hneeds, ← himageId, hid]
  have hicon : c.icon? s = some (c.resolution.lookup id) := by
    rw [c.icon?_of_needsIcon hneeds, hid, Option.map_some]
  rw [hicon, (resolved_of_compile hc).1]
  simpa only [Option.some.injEq] using Icon.lookup_of_needed hneeded

structure Outcome (h : Host) (cache : Icon.Cache) (d : Style.Document) : Prop where
  fails : (∃ e, (h.compile cache d).result = .error e) ↔
    ∃ r ∈ d.rules, ∃ s ∈ r.symbolizers, s.defect? ≠ none
  cause : ∀ e, (h.compile cache d).result = .error e →
    ∃ r s defect, Style.FirstDefect d r s defect ∧ e = .malformedStyle r.name defect
  untouched : ∀ e, (h.compile cache d).result = .error e →
    (h.compile cache d).cache = cache ∧ h.batches cache d = []
  succeeds : (∀ r ∈ d.rules, ∀ s ∈ r.symbolizers, s.defect? = none) →
    ∃ c, (h.compile cache d).result = .ok c ∧ c.document = d ∧ c.imageId = h.imageId
  asked : ∀ record, (h.compileVia h.drawer.recorded cache d).run record =
    (h.compile cache d, record ++ h.batches cache d)
  once : (h.batches cache d).length ≤ 1
  settled : ∀ c, (h.compile cache d).result = .ok c → ∀ s ∈ c.document.symbolizers,
    s.needsIcon = true → ∀ id, c.imageId s = some id →
      (∃ icon, c.icon? s = some (.ok icon)) ∧ id ∉ c.resolution.failedIds ∨
        (∃ fault, c.icon? s = some (.error (.iconResolution id fault))) ∧
          id ∈ c.resolution.failedIds

theorem compile_outcome (h : Host) (cache : Icon.Cache) (d : Style.Document) :
    Outcome h cache d where
  fails := by
    simp only [result_eq_error_iff]
    exact Style.Document.exists_defect?_iff
  cause _ he := Style.Document.exists_firstDefect (result_eq_error_iff.1 he)
  untouched _ he := unasked_of_defect (result_eq_error_iff.1 he)
  succeeds hchecked := by
    obtain ⟨c, hc⟩ := h.exists_compile cache (Style.Document.defect?_eq_none_iff.2 hchecked)
    exact ⟨c, hc, document_of_compile hc⟩
  asked := compileVia_recorded
  once := length_batches_le h cache d
  settled _ hc _ hs hneeds _ hid := icon?_of_compile hc hs hneeds hid

end Styling.Host
end Symbology
