import Symbology.Style.Members
import Symbology.Proofs.Json.Canonical

namespace Symbology.Style

open Json (Canonical ReadError bind_eq_ok ok_bind)

variable {α : Type} {decode : Json → Option α} {f : α → Json} {o : Option α} {ms : Members}
  {name n : String}

/-- A value is read as it was written, and null is never one. -/
structure Encodes (decode : Json → Option α) (f : α → Json) : Prop where
  null : decode .null = none
  given : ∀ x, decode (f x) = some x

@[simp] theorem encodes_text : Encodes Json.asText? .str :=
  ⟨rfl, fun _ => rfl⟩

@[simp] theorem encodes_number : Encodes Json.asDouble? ofDouble :=
  ⟨rfl, fun _ => rfl⟩

@[simp] theorem encodes_flag : Encodes flag? .bool :=
  ⟨rfl, fun _ => rfl⟩

@[simp] theorem encodes_pair : Encodes pair? ofPair :=
  ⟨rfl, fun _ => rfl⟩

theorem mapM_map_of_encodes (h : Encodes decode f) (xs : List α) :
    (xs.map f).mapM decode = some xs := by
  induction xs with
  | nil => rfl
  | cons x xs ih => simp [List.mapM_cons, h.given, ih]

@[simp] theorem encodes_numbers : Encodes numbers? ofDoubles :=
  ⟨rfl, mapM_map_of_encodes encodes_number⟩

@[simp] theorem encodes_texts : Encodes texts? fun ss => .arr (ss.map .str) :=
  ⟨rfl, mapM_map_of_encodes encodes_text⟩

theorem field_absent (h : ms.filter (·.1 = name) = []) :
    Members.field decode name ms = .ok none := by
  simp [Members.field, h]

theorem field_given (hf : Encodes decode f) {x : α} (h : ms.filter (·.1 = name) = [(name, f x)]) :
    Members.field decode name ms = .ok (some x) := by
  have hx := hf.given x
  unfold Members.field
  rw [h]
  cases hv : f x with
  | null =>
      rw [hv, hf.null] at hx
      cases hx
  | _ => simp [← hv, hx]

theorem field_orNull (hf : Encodes decode f)
    (h : ms.filter (·.1 = name) = [(name, orNull f o)]) : Members.field decode name ms = .ok o := by
  cases o with
  | none => simp [Members.field, h, orNull]
  | some x => exact field_given hf h

theorem field_ifGiven (hf : Encodes decode f) (h : ms.filter (·.1 = name) = ifGiven name f o) :
    Members.field decode name ms = .ok o := by
  cases o with
  | none => exact field_absent h
  | some x => exact field_given hf h

@[simp] theorem filter_ifGiven {β : Type} {g : β → Json} {p : Option β} (n : String) :
    (ifGiven n g p).filter (·.1 = name) = if n = name then ifGiven n g p else [] := by
  cases p with
  | none => simp [ifGiven]
  | some x => by_cases h : n = name <;> simp [ifGiven, h]

@[simp] theorem field_cons_ne {v : Json} (h : n ≠ name) :
    Members.field decode name ((n, v) :: ms) = Members.field decode name ms := by
  simp [Members.field, h]

@[simp] theorem field_append_ne {β : Type} {g : β → Json} {p : Option β} (h : n ≠ name) :
    Members.field decode name (ifGiven n g p ++ ms) = Members.field decode name ms := by
  simp [Members.field, filter_ifGiven, h]

@[simp] theorem field_cons_orNull (hf : Encodes decode f) (h : ms.filter (·.1 = name) = []) :
    Members.field decode name ((name, orNull f o) :: ms) = .ok o :=
  field_orNull hf (by simp [h])

@[simp] theorem field_append_ifGiven (hf : Encodes decode f) (h : ms.filter (·.1 = name) = []) :
    Members.field decode name (ifGiven name f o ++ ms) = .ok o :=
  field_ifGiven hf (by simp [filter_ifGiven, h])

@[simp] theorem field_only_orNull (hf : Encodes decode f) :
    Members.field decode name [(name, orNull f o)] = .ok o :=
  field_orNull hf (by simp)

@[simp] theorem field_only_ifGiven (hf : Encodes decode f) :
    Members.field decode name (ifGiven name f o) = .ok o :=
  field_ifGiven hf (by simp [filter_ifGiven])

theorem Fill.ofMembers_members (s : Fill) : Fill.ofMembers s.members = .ok s := by
  simp [Fill.ofMembers, Fill.members, Members.text, Members.number, Members.flag, Members.numbers]

theorem Line.ofMembers_members (s : Line) : Line.ofMembers s.members = .ok s := by
  simp [Line.ofMembers, Line.members, Members.text, Members.number, Members.flag, Members.numbers]

theorem Mark.ofMembers_members (s : Mark) : Mark.ofMembers s.members = .ok s := by
  simp [Mark.ofMembers, Mark.members, LeaderLine.ofMembers, LeaderLine.members, Members.text,
    Members.number, Members.flag, Members.pair]

theorem Icon.ofMembers_members (s : Icon) : Icon.ofMembers s.members = .ok s := by
  simp [Icon.ofMembers, Icon.members, LeaderLine.ofMembers, LeaderLine.members, Members.text,
    Members.number, Members.flag, Members.pair]

theorem Model.ofMembers_members (s : Model) : Model.ofMembers s.members = .ok s := by
  simp [Model.ofMembers, Model.members, LeaderLine.ofMembers, LeaderLine.members, Members.text,
    Members.number, Members.flag]

theorem Label.ofMembers_members (s : Label) : Label.ofMembers s.members = .ok s := by
  simp [Label.ofMembers, Label.members, LeaderLine.ofMembers, LeaderLine.members, Members.text,
    Members.number, Members.flag, Members.pair, Members.texts]

theorem Symbolizer.ofMembers_members (s : Symbolizer) :
    Symbolizer.ofMembers s.kind s.members = .ok s := by
  cases s with
  | fill s => simp [kind, members, ofMembers, Fill.ofMembers_members, Except.map]
  | line s => simp [kind, members, ofMembers, Line.ofMembers_members, Except.map]
  | mark s => simp [kind, members, ofMembers, Mark.ofMembers_members, Except.map]
  | icon s => simp [kind, members, ofMembers, Icon.ofMembers_members, Except.map]
  | model s => simp [kind, members, ofMembers, Model.ofMembers_members, Except.map]
  | text s => simp [kind, members, ofMembers, Label.ofMembers_members, Except.map]
  | unknown => rfl

theorem names_ifGiven (n : String) (f : α → Json) (o : Option α) :
    ((ifGiven n f o).map Prod.fst).Sublist [n] := by
  cases o with
  | none => exact List.nil_sublist _
  | some x => exact .refl _

theorem LeaderLine.names_members (l : LeaderLine) :
    (l.members.map Prod.fst).Sublist (leaderFields.map Prod.fst) := by
  rw [LeaderLine.members, List.map_append, List.map_append]
  exact ((names_ifGiven _ _ _).append (names_ifGiven _ _ _)).append (names_ifGiven _ _ _)

theorem names_append_leader {fields : List (String × FieldType)}
    (h : ms.map Prod.fst = fields.map Prod.fst) (l : LeaderLine) :
    ((ms ++ l.members).map Prod.fst).Sublist ((fields ++ leaderFields).map Prod.fst) := by
  rw [List.map_append, List.map_append, h]
  exact (List.Sublist.refl _).append l.names_members

theorem Symbolizer.names_members (s : Symbolizer) :
    (s.members.map Prod.fst).Sublist (s.kind.fields.map Prod.fst) := by
  cases s with
  | fill s => exact .refl _
  | line s => exact .refl _
  | mark s => exact names_append_leader rfl s.leaderLine
  | icon s => exact names_append_leader rfl s.leaderLine
  | model s => exact names_append_leader rfl s.leaderLine
  | text s => exact names_append_leader rfl s.leaderLine
  | unknown => exact .refl _

theorem Kind.kind_notMem_fields (k : Kind) : "kind" ∉ k.fields.map Prod.fst := by
  cases k <;> decide

theorem Symbolizer.name_ne_kind {s : Symbolizer} {m : String × Json} (h : m ∈ s.members) :
    m.1 ≠ "kind" := by
  intro hkind
  have hname := s.names_members.subset (List.mem_map_of_mem h)
  rw [hkind] at hname
  exact s.kind.kind_notMem_fields hname

variable {depth d : Nat}

theorem map_eq_ok {β : Type} {x : Except ReadError α} {g : α → β} {b : β} :
    x.map g = .ok b ↔ ∃ a, x = .ok a ∧ g a = b := by
  cases x <;> simp [Except.map]

theorem field_mem {x : α} (h : Members.field decode name ms = .ok (some x)) :
    ∃ m ∈ ms, decode m.2 = some x := by
  unfold Members.field at h
  split at h
  · cases h
  · cases h
  · next k v _ hfilter =>
      split at h
      · next y hy =>
          cases h
          have hmem : (k, v) ∈ ms.filter (·.1 = name) := by simp [hfilter]
          exact ⟨(k, v), (List.mem_filter.mp hmem).1, hy⟩
      · cases h
  · cases h

theorem finite_asDouble? {v : Json} (hv : Canonical depth v) {x : Float}
    (h : v.asDouble? = some x) : x.isFinite = true := by
  cases hv with
  | num hn =>
      cases h
      exact hn.finite_toDouble
  | _ => cases h

theorem finite_mapM {vs : List Json} {xs : List Float} (hvs : ∀ v ∈ vs, Canonical depth v)
    (h : vs.mapM Json.asDouble? = some xs) : ∀ x ∈ xs, x.isFinite = true := by
  induction vs generalizing xs with
  | nil =>
      cases h
      simp
  | cons v vs ih =>
      simp only [List.mapM_cons, Option.bind_eq_bind, Option.bind_eq_some_iff] at h
      obtain ⟨x, hx, ys, hys, h⟩ := h
      cases h
      have hhead := finite_asDouble? (hvs v (List.mem_cons_self ..)) hx
      have htail := ih (fun w hw => hvs w (List.mem_cons_of_mem _ hw)) hys
      simpa using And.intro hhead htail

theorem canonical_orNull (h : ∀ x ∈ o, Canonical depth (f x)) : Canonical depth (orNull f o) := by
  cases o with
  | none => exact .null
  | some x => exact h x rfl

theorem canonical_ifGiven (h : Canonical depth (orNull f o)) :
    ∀ m ∈ ifGiven name f o, Canonical depth m.2 := by
  cases o with
  | none => nofun
  | some x => simpa [ifGiven, orNull] using h

theorem canonical_ofDouble {x : Float} (h : x.isFinite = true) : Canonical depth (ofDouble x) :=
  .num (.double h)

@[simp] theorem canonical_text (o : Option String) : Canonical depth (orNull .str o) :=
  canonical_orNull fun s _ => .str s

@[simp] theorem canonical_flag (o : Option Bool) : Canonical depth (orNull .bool o) :=
  canonical_orNull fun b _ => .bool b

@[simp] theorem canonical_texts (o : Option (List String)) :
    Canonical (depth + 1) (orNull (fun ss => .arr (ss.map .str)) o) := by
  refine canonical_orNull fun ss _ => .arr fun v hv => ?_
  obtain ⟨s, -, rfl⟩ := List.mem_map.mp hv
  exact .str s

section

variable (hms : ∀ m ∈ ms, Canonical d m.2)
include hms

theorem canonical_number {o : Option Float} (h : ms.number name = .ok o) :
    Canonical depth (orNull ofDouble o) := by
  refine canonical_orNull ?_
  rintro x rfl
  obtain ⟨m, hm, hx⟩ := field_mem h
  exact canonical_ofDouble (finite_asDouble? (hms m hm) hx)

theorem canonical_numbers {o : Option (List Float)} (h : ms.numbers name = .ok o) :
    Canonical (depth + 1) (orNull ofDoubles o) := by
  refine canonical_orNull ?_
  rintro xs rfl
  obtain ⟨⟨k, v⟩, hm, hxs⟩ := field_mem h
  have hv : Canonical d v := hms _ hm
  cases hv with
  | arr hvs =>
      refine .arr fun w hw => ?_
      obtain ⟨x, hx, rfl⟩ := List.mem_map.mp hw
      exact canonical_ofDouble (finite_mapM hvs hxs x hx)
  | _ => cases hxs

theorem canonical_pair {o : Option (Float × Float)} (h : ms.pair name = .ok o) :
    Canonical (depth + 1) (orNull ofPair o) := by
  refine canonical_orNull ?_
  rintro p rfl
  obtain ⟨⟨k, v⟩, hm, hp⟩ := field_mem h
  have hv : Canonical d v := hms _ hm
  cases hv with
  | arr hvs =>
      simp only [pair?] at hp
      split at hp
      · next x y heq =>
          cases heq
          simp only [Option.bind_eq_bind, Option.bind_eq_some_iff] at hp
          obtain ⟨a, ha, b, hb, hp⟩ := hp
          cases hp
          have hx := finite_asDouble? (hvs x (by simp)) ha
          have hy := finite_asDouble? (hvs y (by simp)) hb
          exact .arr (by simp [ofDouble, Canonical.num, Json.Number.Canonical.double, hx, hy])
      · cases hp
  | _ => cases hp

theorem LeaderLine.canonical_members {l : LeaderLine} (h : LeaderLine.ofMembers ms = .ok l) :
    ∀ m ∈ l.members, Canonical depth m.2 := by
  simp only [LeaderLine.ofMembers, bind_eq_ok] at h
  obtain ⟨color, -, opacity, hopacity, width, hwidth, h⟩ := h
  cases h
  simp only [LeaderLine.members, List.forall_mem_append]
  exact ⟨⟨canonical_ifGiven (canonical_text color),
    canonical_ifGiven (canonical_number hms hopacity)⟩,
    canonical_ifGiven (canonical_number hms hwidth)⟩

theorem Fill.canonical_members {s : Fill} (h : Fill.ofMembers ms = .ok s) :
    ∀ m ∈ s.members, Canonical (depth + 1) m.2 := by
  simp only [Fill.ofMembers, bind_eq_ok] at h
  obtain ⟨_, -, _, hfillOpacity, _, -, _, houtlineOpacity, _, houtlineWidth, _, houtlineDashes,
    _, -, _, -, h⟩ := h
  cases h
  simp [Fill.members, canonical_number hms hfillOpacity, canonical_number hms houtlineOpacity,
    canonical_number hms houtlineWidth, canonical_numbers hms houtlineDashes]

theorem Line.canonical_members {s : Line} (h : Line.ofMembers ms = .ok s) :
    ∀ m ∈ s.members, Canonical (depth + 1) m.2 := by
  simp only [Line.ofMembers, bind_eq_ok] at h
  obtain ⟨_, -, _, hopacity, _, hwidth, _, hdashes, _, -, _, -, h⟩ := h
  cases h
  simp [Line.members, canonical_number hms hopacity, canonical_number hms hwidth,
    canonical_numbers hms hdashes]

theorem Mark.canonical_members {s : Mark} (h : Mark.ofMembers ms = .ok s) :
    ∀ m ∈ s.members, Canonical (depth + 1) m.2 := by
  simp only [Mark.ofMembers, bind_eq_ok] at h
  obtain ⟨_, -, _, -, _, hfillOpacity, _, -, _, hstrokeOpacity, _, hstrokeWidth, _, hradius,
    _, hrotate, _, hoffset, _, -, _, -, _, hheight, _, hleader, h⟩ := h
  cases h
  rw [Mark.members, List.forall_mem_append]
  refine ⟨?_, LeaderLine.canonical_members hms hleader⟩
  simp [canonical_number hms hfillOpacity, canonical_number hms hstrokeOpacity,
    canonical_number hms hstrokeWidth, canonical_number hms hradius, canonical_number hms hrotate,
    canonical_pair hms hoffset, canonical_number hms hheight]

theorem Icon.canonical_members {s : Icon} (h : Icon.ofMembers ms = .ok s) :
    ∀ m ∈ s.members, Canonical (depth + 1) m.2 := by
  simp only [Icon.ofMembers, bind_eq_ok] at h
  obtain ⟨_, -, _, -, _, hopacity, _, hsize, _, hrotate, _, hoffset, _, -, _, -, _, hheight,
    _, hleader, h⟩ := h
  cases h
  rw [Icon.members, List.forall_mem_append]
  refine ⟨?_, LeaderLine.canonical_members hms hleader⟩
  simp [canonical_number hms hopacity, canonical_number hms hsize, canonical_number hms hrotate,
    canonical_pair hms hoffset, canonical_number hms hheight]

theorem Model.canonical_members {s : Model} (h : Model.ofMembers ms = .ok s) :
    ∀ m ∈ s.members, Canonical (depth + 1) m.2 := by
  simp only [Model.ofMembers, bind_eq_ok] at h
  obtain ⟨_, -, _, hscale, _, hheading, _, hpitch, _, hroll, _, -, _, hopacity, _, hheight, _, -,
    _, -, _, hleader, h⟩ := h
  cases h
  rw [Model.members, List.forall_mem_append]
  refine ⟨?_, LeaderLine.canonical_members hms hleader⟩
  simp [canonical_number hms hscale, canonical_number hms hheading, canonical_number hms hpitch,
    canonical_number hms hroll, canonical_number hms hopacity, canonical_number hms hheight]

theorem Label.canonical_members {s : Label} (h : Label.ofMembers ms = .ok s) :
    ∀ m ∈ s.members, Canonical (depth + 1) m.2 := by
  simp only [Label.ofMembers, bind_eq_ok] at h
  obtain ⟨_, -, _, hoffset, _, -, _, hopacity, _, -, _, hhaloOpacity, _, hhaloWidth, _, -, _, -,
    _, -, _, hsize, _, hrotate, _, -, _, -, _, hheight, _, hleader, h⟩ := h
  cases h
  rw [Label.members, List.forall_mem_append]
  refine ⟨?_, LeaderLine.canonical_members hms hleader⟩
  simp [canonical_pair hms hoffset, canonical_number hms hopacity,
    canonical_number hms hhaloOpacity, canonical_number hms hhaloWidth,
    canonical_number hms hsize, canonical_number hms hrotate, canonical_number hms hheight]

theorem Symbolizer.canonical_members {kind : Kind} {s : Symbolizer}
    (h : Symbolizer.ofMembers kind ms = .ok s) : ∀ m ∈ s.members, Canonical (depth + 1) m.2 := by
  cases kind with
  | fill =>
      obtain ⟨s, hs, rfl⟩ := map_eq_ok.mp h
      exact Fill.canonical_members hms hs
  | line =>
      obtain ⟨s, hs, rfl⟩ := map_eq_ok.mp h
      exact Line.canonical_members hms hs
  | mark =>
      obtain ⟨s, hs, rfl⟩ := map_eq_ok.mp h
      exact Mark.canonical_members hms hs
  | icon =>
      obtain ⟨s, hs, rfl⟩ := map_eq_ok.mp h
      exact Icon.canonical_members hms hs
  | model =>
      obtain ⟨s, hs, rfl⟩ := map_eq_ok.mp h
      exact Model.canonical_members hms hs
  | text =>
      obtain ⟨s, hs, rfl⟩ := map_eq_ok.mp h
      exact Label.canonical_members hms hs
  | unknown =>
      cases h
      nofun

end

end Symbology.Style
