import Symbology.Proofs.Json.RoundTrip
import Symbology.Proofs.Style.Readable

namespace Symbology.Style

open Json (Reader Reads ReadsBack Runs Canonical ok_bind skipSpace_cons mem_itemDoubles
  mem_memberDoubles reads_value)

variable {value : Reader Json}

theorem runs_draft {d : Draft} {ms : Members}
    (h : ∀ m ∈ ms, m.1 ≠ "kind" ∧ Reads value m.2 m.2) :
    Runs (Draft.member value) d ms { d with others := d.others ++ ms } := by
  induction ms generalizing d with
  | nil =>
      rw [List.append_nil]
      exact .nil
  | cons m ms ih =>
      obtain ⟨k, v⟩ := m
      obtain ⟨hk, hv⟩ := h (k, v) (List.mem_cons_self ..)
      have hnext := ih (d := { d with others := d.others ++ [(k, v)] })
        fun n hn => h n (List.mem_cons_of_mem _ hn)
      refine .cons (t := { d with others := d.others ++ [(k, v)] }) (fun rest hrest => ?_)
        (by simpa using hnext)
      have hread := hv.reads rest hrest
      simp only at hk hread
      simp [Draft.member, hk, Json.colon, skipSpace_cons (c := ':') rfl, hread]

theorem reads_readKind (k : Kind) : Reads readKind (.str k.name) k := by
  have h := (Json.reads_string k.name).map Kind.ofName
  rwa [Kind.ofName_name] at h

theorem runs_symbolizer {s : Symbolizer} (h : ∀ m ∈ s.members, Reads value m.2 m.2) :
    Runs (Draft.member value) {} (("kind", .str s.kind.name) :: s.members)
      { kind := some s.kind, others := s.members } := by
  refine .cons (t := { kind := some s.kind }) (fun rest hrest => ?_) ?_
  · have hread := (reads_readKind s.kind).reads rest hrest
    simp [Draft.member, Json.colon, skipSpace_cons (c := ':') rfl, hread]
  · exact runs_draft fun m hm => ⟨s.name_ne_kind hm, h m hm⟩

theorem reads_symbolizer {s : Symbolizer} (h : ∀ m ∈ s.members, Reads value m.2 m.2) :
    Reads (readSymbolizer value) s.json s := by
  refine ⟨⟨_, _, rfl, by decide⟩, fun rest _ => ?_⟩
  have hread := Json.objectBody_memberChars (runs_symbolizer h) rest
  simp [readSymbolizer, Symbolizer.json, Json.chars, skipSpace_cons (c := '{') rfl, hread,
    Draft.symbolizer, Symbolizer.ofMembers_members]

section

variable {σ : Type} {slots : List (Slot σ)} {s t : σ}

theorem slot_step {slot : Slot σ} {key : String} {v : Json}
    (hslot : slots.find? (·.name = key) = some slot) (hempty : slot.isFilled s = false)
    (h : Reads (slot.read s) v t) :
    ∀ rest, Json.Stops rest →
      Slot.member slots s key (':' :: v.chars ++ rest) = .ok (t, rest) := by
  intro rest hrest
  simp [Slot.member, hslot, hempty, Json.colon, skipSpace_cons (c := ':') rfl, h.reads rest hrest]

theorem reads_record {ms : Members} (h : Runs (Slot.member slots) s ms t) :
    Reads (Slot.record slots s) (.obj ms) t := by
  refine ⟨⟨_, _, rfl, by decide⟩, fun rest _ => ?_⟩
  have hread := Json.objectBody_memberChars h rest
  simp [Slot.record, Json.chars, skipSpace_cons (c := '{') rfl, hread]

end

theorem reads_readFilter {v : Json} (hnull : v ≠ .null)
    (h : Reads (Json.value (Json.nestingLimit - 3)) v v) : Reads readFilter v (some v) := by
  refine ⟨h.head, fun rest hrest => ?_⟩
  simp only [readFilter, h.reads rest hrest, ok_bind]

structure Rule.Legible (r : Rule) : Prop where
  filter : ∀ f ∈ r.filter, f ≠ .null ∧ Reads (Json.value (Json.nestingLimit - 3)) f f
  symbolizers : ∀ s ∈ r.symbolizers, ∀ m ∈ s.members,
    Reads (Json.value (Json.nestingLimit - 5)) m.2 m.2

variable {r : Rule}

theorem runs_filter (h : r.Legible) (d : RuleDraft) (hempty : d.filter = none) :
    Runs (Slot.member ruleSlots) d (ifGiven "filter" id r.filter)
      { d with filter := r.filter.map some } := by
  obtain ⟨name, filter, symbolizers⟩ := d
  cases hempty
  cases hf : r.filter with
  | none => exact .nil
  | some f =>
      obtain ⟨hnull, hread⟩ := h.filter f hf
      refine .cons (slot_step rfl rfl ?_) .nil
      exact (reads_readFilter hnull hread).map fun g =>
        ({ name, filter := some g, symbolizers } : RuleDraft)

theorem rule_fields (r : Rule) :
    RuleDraft.rule
      { name := some r.name, filter := r.filter.map some, symbolizers := some r.symbolizers } =
        r := by
  obtain ⟨name, filter, symbolizers⟩ := r
  cases filter <;> rfl

theorem reads_rule (h : r.Legible) : Reads readRule r.json r := by
  have hname : Runs (Slot.member ruleSlots) {} [("name", .str r.name)] { name := some r.name } :=
    .cons (slot_step rfl rfl
      ((Json.reads_string r.name).map fun s => ({ name := some s } : RuleDraft))) .nil
  have hfilter := runs_filter h { name := some r.name } rfl
  have hsymbolizers : Runs (Slot.member ruleSlots)
      { name := some r.name, filter := r.filter.map some }
      [("symbolizers", .arr (r.symbolizers.map Symbolizer.json))]
      { name := some r.name, filter := r.filter.map some, symbolizers := some r.symbolizers } := by
    refine .cons (slot_step rfl rfl ?_) .nil
    exact (Json.reads_array fun s hs => reads_symbolizer (h.symbolizers s hs)).map fun ss =>
      ({ name := some r.name, filter := r.filter.map some, symbolizers := some ss } : RuleDraft)
  have hread := (reads_record (hname.append (hfilter.append hsymbolizers))).map RuleDraft.rule
  rwa [rule_fields] at hread

theorem reads_document {d : Document} (h : ∀ r ∈ d.rules, r.Legible) :
    Reads readDocument d.json d := by
  have hname : Runs (Slot.member documentSlots) {} [("name", .str d.name)]
      { name := some d.name } :=
    .cons (slot_step rfl rfl
      ((Json.reads_string d.name).map fun s => ({ name := some s } : DocumentDraft))) .nil
  have hrules : Runs (Slot.member documentSlots) { name := some d.name }
      [("rules", .arr (d.rules.map Rule.json))] { name := some d.name, rules := some d.rules } := by
    refine .cons (slot_step rfl rfl ?_) .nil
    exact (Json.reads_array fun r hr => reads_rule (h r hr)).map fun rs =>
      ({ name := some d.name, rules := some rs } : DocumentDraft)
  exact (reads_record (hname.append hrules)).map DocumentDraft.document

theorem Symbolizer.mem_doubles {s : Symbolizer} {m : String × Json} (hm : m ∈ s.members)
    {x : Float} (hx : x ∈ m.2.doubles) : x ∈ s.json.doubles :=
  mem_memberDoubles.mpr ⟨m, List.mem_cons_of_mem _ hm, hx⟩

theorem Rule.mem_doubles_filter {r : Rule} {f : Json} (hf : r.filter = some f) {x : Float}
    (hx : x ∈ f.doubles) : x ∈ r.json.doubles := by
  refine mem_memberDoubles.mpr ⟨("filter", f), ?_, hx⟩
  simp [hf, ifGiven]

theorem Rule.mem_doubles_symbolizer {r : Rule} {s : Symbolizer} (hs : s ∈ r.symbolizers)
    {x : Float} (hx : x ∈ s.json.doubles) : x ∈ r.json.doubles := by
  refine mem_memberDoubles.mpr
    ⟨("symbolizers", .arr (r.symbolizers.map Symbolizer.json)), by simp, ?_⟩
  exact mem_itemDoubles.mpr ⟨s.json, List.mem_map_of_mem hs, hx⟩

theorem Document.mem_doubles {d : Document} {r : Rule} (hr : r ∈ d.rules) {x : Float}
    (hx : x ∈ r.json.doubles) : x ∈ d.json.doubles := by
  refine mem_memberDoubles.mpr ⟨("rules", .arr (d.rules.map Rule.json)), by simp, ?_⟩
  exact mem_itemDoubles.mpr ⟨r.json, List.mem_map_of_mem hr, hx⟩

theorem Rule.Readable.legible {r : Rule} (h : r.Readable)
    (hx : ∀ x ∈ r.json.doubles, x.isFinite = true → ReadsBack x) : r.Legible := by
  refine ⟨fun f hf => ?_, fun s hs m hm => ?_⟩
  · obtain ⟨hnull, hcanonical⟩ := h.filter f hf
    refine ⟨hnull, reads_value hcanonical fun x hmem => ?_⟩
    exact hx x (r.mem_doubles_filter hf hmem) (hcanonical.finite_doubles x hmem)
  · have hcanonical := h.symbolizers s hs m hm
    refine reads_value hcanonical fun x hmem => ?_
    exact hx x (r.mem_doubles_symbolizer hs (s.mem_doubles hm hmem))
      (hcanonical.finite_doubles x hmem)

theorem Document.ofText_text {d : Document} (h : ∀ r ∈ d.rules, r.Legible) :
    Document.ofText d.text = .ok d := by
  have hread := (reads_document h).reads [] nofun
  rw [List.append_nil] at hread
  rw [Document.ofText, Json.whole, Document.text, Json.text, String.toList_ofList, hread]
  rfl

/-- A document that was read is read back from its own text, and its text stays the same. What is
asked of the numbers is that each double among them is read back from what is printed for it; the
reader rounds the digits and the power of ten one after the other, and so misses some doubles. -/
theorem Document.round_trip {text : String} {d : Document} (h : Document.ofText text = .ok d)
    (hx : ∀ x ∈ d.json.doubles, x.isFinite = true → ReadsBack x) :
    Document.ofText d.text = .ok d ∧ ∀ e, Document.ofText d.text = .ok e → e.text = d.text := by
  have hlegible : ∀ r ∈ d.rules, r.Legible := fun r hr =>
    (Document.readable_ofText h r hr).legible fun x hmem => hx x (d.mem_doubles hr hmem)
  have hread := Document.ofText_text hlegible
  refine ⟨hread, fun e he => ?_⟩
  rw [hread] at he
  cases he
  rfl

def fieldPlan : String :=
  "[\"plan\", [\x7b\"filter\": [\"<\", \"depth\", 2.5], \"since\": 7, \"symbolizers\": [" ++
    "[\"Line\", \"#36c\", null, 10, null, null, true], " ++
    "\x7b\"image\": \"a\\tb\", \"kind\": \"Icon\"\x7d, [\"Hatch\"]]\x7d]]"

theorem Document.round_trip_fieldPlan : ∃ d, Document.ofText fieldPlan = .ok d ∧
    d.json.doubles = [2.5, 10.0] ∧ Document.ofText d.text = .ok d ∧
    ∀ e, Document.ofText d.text = .ok e → e.text = d.text := by
  have hdoubles : ∀ x ∈ [(2.5 : Float), 10.0], ReadsBack x := by
    -- as decimals of the common unit 10^-400 they are 25 · 10^399 and 1 · 10^401
    have hlow : (Json.Number.double 2.5).chars = ['2', '.', '5'] := by
      rw [Json.chars_double 400 25 399] <;> decide +kernel
    have hhigh : (Json.Number.double 10.0).chars = ['1', '0', '.', '0'] := by
      rw [Json.chars_double 401 1 401] <;> decide +kernel
    have hback : ReadsBack 2.5 ∧ ReadsBack 10.0 := by
      refine ⟨Json.readsBack_of_number ?_, Json.readsBack_of_number ?_⟩
      · rw [hlow]
        decide +kernel
      · rw [hhigh]
        decide +kernel
    simpa using hback
  have hread : (Document.ofText fieldPlan).toOption.map (fun d => d.json.doubles) =
      some [2.5, 10.0] := by
    decide +kernel
  cases hd : Document.ofText fieldPlan with
  | error e => simp [hd, Except.toOption] at hread
  | ok d =>
      simp only [hd, Except.toOption, Option.map_some, Option.some.injEq] at hread
      refine ⟨d, rfl, hread, Document.round_trip hd fun x hx _ => ?_⟩
      rw [hread] at hx
      exact hdoubles x hx

end Symbology.Style
