import Symbology.Style.Text
import Symbology.Proofs.Json.Listing
import Symbology.Proofs.Style.Members

namespace Symbology.Style

open Json (ReadError bind_eq_ok ok_bind)

variable {α : Type} {decode : Json → Option α} {ms ms' : Members} {name : String} {kind : Kind}

inductive FieldType.Has : FieldType → Json → Prop where
  | text (s : String) : Has .text (.str s)
  | flag (b : Bool) : Has .flag (.bool b)
  | number (n : Json.Number) : Has .number (.num n)
  | numbers {vs : List Json} (h : ∀ v ∈ vs, Has .number v) : Has .numbers (.arr vs)
  | texts {vs : List Json} (h : ∀ v ∈ vs, Has .text v) : Has .texts (.arr vs)
  | pair {x y : Json} (hx : Has .number x) (hy : Has .number y) : Has .pair (.arr [x, y])

theorem isSome_mapM_iff {vs : List Json} :
    (vs.mapM decode).isSome = true ↔ ∀ v ∈ vs, (decode v).isSome = true := by
  induction vs with
  | nil => simp
  | cons v vs ih =>
      rw [List.forall_mem_cons, ← ih, List.mapM_cons]
      cases decode v <;> cases vs.mapM decode <;> simp

theorem isSome_asDouble?_iff {v : Json} :
    v.asDouble?.isSome = true ↔ FieldType.number.Has v := by
  constructor
  · intro h
    cases v with
    | num n => exact .number n
    | _ => cases h
  · rintro ⟨⟩
    rfl

theorem isSome_asText?_iff {v : Json} : v.asText?.isSome = true ↔ FieldType.text.Has v := by
  constructor
  · intro h
    cases v with
    | str s => exact .text s
    | _ => cases h
  · rintro ⟨⟩
    rfl

theorem FieldType.accepts_iff {t : FieldType} {v : Json} : t.accepts v = true ↔ t.Has v := by
  cases t with
  | text => exact isSome_asText?_iff
  | number => exact isSome_asDouble?_iff
  | flag =>
      constructor
      · intro h
        cases v with
        | bool b => exact .flag b
        | _ => cases h
      · rintro ⟨⟩
        rfl
  | numbers =>
      constructor
      · intro h
        cases v with
        | arr vs => exact .numbers fun v hv => isSome_asDouble?_iff.1 (isSome_mapM_iff.1 h v hv)
        | _ => cases h
      · rintro (_ | _ | _ | h)
        exact isSome_mapM_iff.2 fun v hv => isSome_asDouble?_iff.2 (h v hv)
  | texts =>
      constructor
      · intro h
        cases v with
        | arr vs => exact .texts fun v hv => isSome_asText?_iff.1 (isSome_mapM_iff.1 h v hv)
        | _ => cases h
      · rintro (_ | _ | _ | _ | h)
        exact isSome_mapM_iff.2 fun v hv => isSome_asText?_iff.2 (h v hv)
  | pair =>
      constructor
      · intro h
        simp only [accepts, pair?] at h
        split at h
        · next x y =>
            obtain ⟨hx, hy⟩ : x.asDouble?.isSome = true ∧ y.asDouble?.isSome = true := by
              cases hx : x.asDouble? <;> cases hy : y.asDouble? <;> simp [hx, hy] at h ⊢
            exact .pair (isSome_asDouble?_iff.1 hx) (isSome_asDouble?_iff.1 hy)
        · cases h
      · rintro (_ | _ | _ | _ | _ | ⟨⟨m⟩, ⟨n⟩⟩)
        rfl

/-- The value of a member. One that is absent counts as null. -/
def Members.given (ms : Members) (name : String) : Json :=
  (ms.lookup name).getD .null

def Members.Distinct (ms : Members) : Prop :=
  (ms.map Prod.fst).Nodup

instance (ms : Members) : Decidable ms.Distinct :=
  inferInstanceAs (Decidable (ms.map Prod.fst).Nodup)

theorem filter_eq_of_distinct (h : ms.Distinct) (name : String) :
    ms.filter (·.1 = name) = (ms.lookup name).toList.map (name, ·) := by
  induction ms with
  | nil => rfl
  | cons m ms ih =>
      obtain ⟨k, v⟩ := m
      obtain ⟨hk, hms⟩ := List.nodup_cons.1 h
      by_cases hname : k = name
      · subst hname
        have hnone : ms.filter (·.1 = k) = [] := by
          rw [List.filter_eq_nil_iff]
          rintro ⟨l, w⟩ hmem heq
          have hl : l = k := by simpa using heq
          subst hl
          exact hk (List.mem_map.2 ⟨_, hmem, rfl⟩)
        simp [hnone]
      · have hne : (name == k) = false := by simpa using Ne.symm hname
        rw [List.filter_cons_of_neg (by simpa using hname), List.lookup_cons, hne]
        exact ih hms

theorem field_eq (h : ms.Distinct) (name : String) :
    Members.field decode name ms = Members.field decode name [(name, ms.given name)] := by
  rw [Members.field, Members.field, Members.given, filter_eq_of_distinct h name]
  cases ms.lookup name <;> simp

theorem exists_field_iff (h : ms.Distinct) (name : String) :
    (∃ o, Members.field decode name ms = .ok o) ↔
      ms.given name = .null ∨ (decode (ms.given name)).isSome = true := by
  rw [field_eq h]
  cases hv : ms.given name <;> cases hd : decode (ms.given name) <;> simp_all [Members.field]

@[simp] theorem exists_bind_eq_ok {β : Type} {x : Except ReadError α} {f : α → Except ReadError β} :
    (∃ b, x >>= f = .ok b) ↔ ∃ a, x = .ok a ∧ ∃ b, f a = .ok b := by
  simp only [bind_eq_ok]
  constructor
  · rintro ⟨b, a, ha, hb⟩
    exact ⟨a, ha, b, hb⟩
  · rintro ⟨a, ha, b, hb⟩
    exact ⟨b, a, ha, hb⟩

@[simp] theorem exists_map_eq_ok {β : Type} {x : Except ReadError α} {f : α → β} :
    (∃ b, x.map f = .ok b) ↔ ∃ a, x = .ok a := by
  cases x <;> simp [Except.map]

def Members.Suit (ms : Members) (fields : List (String × FieldType)) : Prop :=
  ∀ f ∈ fields, ms.given f.1 = .null ∨ f.2.Has (ms.given f.1)

@[simp] theorem suit_nil : ms.Suit [] :=
  List.forall_mem_nil _

@[simp] theorem suit_cons {n : String} {t : FieldType} {fields : List (String × FieldType)} :
    ms.Suit ((n, t) :: fields) ↔
      (ms.given n = .null ∨ t.accepts (ms.given n) = true) ∧ ms.Suit fields := by
  rw [FieldType.accepts_iff]
  exact List.forall_mem_cons

theorem LeaderLine.exists_ofMembers_iff (h : ms.Distinct) :
    (∃ l, LeaderLine.ofMembers ms = .ok l) ↔ ms.Suit leaderFields := by
  simp [LeaderLine.ofMembers, leaderFields, exists_field_iff h, Members.text, Members.number,
    FieldType.accepts]

theorem Symbolizer.exists_ofMembers_iff (h : ms.Distinct) :
    (∃ s, Symbolizer.ofMembers kind ms = .ok s) ↔ ms.Suit kind.fields := by
  have hfield {α : Type} (decode : Json → Option α) (name : String) :
      (∃ o, Members.field decode name ms = .ok o) ↔
        ms.given name = .null ∨ (decode (ms.given name)).isSome = true := exists_field_iff h name
  have hleader := LeaderLine.exists_ofMembers_iff h
  cases kind with
  | fill =>
      simp [ofMembers, Fill.ofMembers, Kind.fields, hfield, Members.text, Members.number,
        Members.numbers, Members.flag, FieldType.accepts]
  | line =>
      simp [ofMembers, Line.ofMembers, Kind.fields, hfield, Members.text, Members.number,
        Members.numbers, Members.flag, FieldType.accepts]
  | mark =>
      simp [ofMembers, Mark.ofMembers, Kind.fields, hfield, hleader, Members.text, Members.number,
        Members.pair, Members.flag, FieldType.accepts]
  | icon =>
      simp [ofMembers, Icon.ofMembers, Kind.fields, hfield, hleader, Members.text, Members.number,
        Members.pair, Members.flag, FieldType.accepts]
  | model =>
      simp [ofMembers, Model.ofMembers, Kind.fields, hfield, hleader, Members.text, Members.number,
        Members.flag, FieldType.accepts]
  | text =>
      simp [ofMembers, Label.ofMembers, Kind.fields, hfield, hleader, Members.text, Members.number,
        Members.pair, Members.texts, Members.flag, FieldType.accepts]
  | unknown => simp [ofMembers, Kind.fields]

theorem Symbolizer.ofMembers_congr (h : ms.Distinct) (h' : ms'.Distinct)
    (hgiven : ∀ f ∈ kind.fields, ms.given f.1 = ms'.given f.1) :
    ofMembers kind ms = ofMembers kind ms' := by
  have hfield {α : Type} (decode : Json → Option α) (name : String)
      (hname : name ∈ kind.fields.map Prod.fst) :
      Members.field decode name ms = Members.field decode name ms' := by
    obtain ⟨f, hf, rfl⟩ := List.mem_map.1 hname
    rw [field_eq h, field_eq h', hgiven f hf]
  cases kind <;>
    simp (disch := decide) only [ofMembers, Fill.ofMembers, Line.ofMembers, Mark.ofMembers,
      Icon.ofMembers, Model.ofMembers, Label.ofMembers, LeaderLine.ofMembers, Members.text,
      Members.number, Members.flag, Members.numbers, Members.texts, Members.pair, hfield]

theorem Symbolizer.kind_of_ofMembers {s : Symbolizer} (h : ofMembers kind ms = .ok s) :
    s.kind = kind := by
  cases kind with
  | unknown =>
      cases h
      rfl
  | _ =>
      obtain ⟨t, -, rfl⟩ := map_eq_ok.1 h
      rfl

def Members.others (ms : Members) : Members :=
  ms.filter (·.1 ≠ "kind")

theorem lookup_others (h : name ≠ "kind") : ms.others.lookup name = ms.lookup name := by
  induction ms with
  | nil => rfl
  | cons m ms ih =>
      obtain ⟨k, v⟩ := m
      rw [Members.others, List.filter_cons]
      split
      · rw [List.lookup_cons, List.lookup_cons, ← ih, Members.others]
      · next hk =>
          have hkind : k = "kind" := by simpa using hk
          have hne : (name == k) = false := by simpa [hkind] using h
          rw [List.lookup_cons, hne, ← ih, Members.others]

theorem given_others (h : name ≠ "kind") : ms.others.given name = ms.given name := by
  rw [Members.given, lookup_others h, Members.given]

theorem distinct_others (h : ms.Distinct) : ms.others.Distinct :=
  h.sublist (List.filter_sublist.map Prod.fst)

theorem given_others_of_mem {f : String × FieldType} (hf : f ∈ kind.fields) :
    ms.others.given f.1 = ms.given f.1 := by
  apply given_others
  intro hkind
  exact kind.kind_notMem_fields (hkind ▸ List.mem_map_of_mem hf)

structure Members.Orderly (ms : Members) : Prop where
  distinct : ms.Distinct
  kind : ∀ v, ("kind", v) ∈ ms → FieldType.text.Has v

def Members.draft (ms : Members) : Draft where
  kind := match ms.lookup "kind" with
    | some (.str name) => some (Kind.ofName name)
    | _ => none
  others := ms.others

theorem follows_draft (d : Nat) :
    Json.Follows Members.draft Members.Orderly (Json.listMember (Json.value d))
      (Draft.member (Json.value d)) := by
  intro ms k cs ns rest hread hns
  obtain ⟨cs₁, hcolon, v, hv, rfl⟩ := Json.listMember_eq_ok.1 hread
  have hms : ms.Orderly :=
    ⟨hns.distinct.sublist (by simp), fun w hw => hns.kind w (List.mem_append_left _ hw)⟩
  have hk : k ∉ ms.map Prod.fst := by
    have hdistinct := hns.distinct
    rw [Members.Distinct, List.map_append, List.nodup_append] at hdistinct
    intro hmem
    exact hdistinct.2.2 k hmem k (by simp) rfl
  refine ⟨hms, ?_⟩
  by_cases hkind : k = "kind"
  · subst hkind
    have hnone : ms.lookup "kind" = none := by
      rw [List.lookup_eq_none_iff]
      intro m hm
      simpa using fun heq : "kind" = m.1 => hk (heq ▸ List.mem_map_of_mem hm)
    obtain ⟨s⟩ : FieldType.text.Has v := hns.kind v (by simp)
    have hstring := Json.string_of_value hv
    simp [Draft.member, Members.draft, hnone, hcolon, readKind, hstring, Members.others,
      List.lookup_append]
  · have hne : ("kind" == k) = false := by simpa using Ne.symm hkind
    simp [Draft.member, Members.draft, hcolon, hv, hkind, hne, Members.others,
      List.lookup_append, List.lookup_cons]

structure Members.Written (ms : Members) (d : Nat) (name : String) (cs rest : List Char) : Prop where
  listed : Json.listing (Json.value d) cs = .ok (ms, rest)
  distinct : ms.Distinct
  kind : ms.lookup "kind" = some (.str name)

section

variable {d : Nat} {cs rest : List Char}

theorem Members.Written.orderly (h : ms.Written d name cs rest) : ms.Orderly := by
  refine ⟨h.distinct, ?_⟩
  intro v hv
  have hmem : ("kind", v) ∈ ms.filter (·.1 = "kind") := List.mem_filter.2 ⟨hv, by simp⟩
  rw [filter_eq_of_distinct h.distinct, h.kind] at hmem
  simp only [Option.toList_some, List.map_cons, List.map_nil, List.mem_singleton] at hmem
  cases hmem
  exact .text name

theorem symbolizer_draft (h : ms.lookup "kind" = some (.str name)) :
    ms.draft.symbolizer = Symbolizer.ofMembers (Kind.ofName name) ms.others := by
  rw [Draft.symbolizer, Members.draft, h]

theorem readSymbolizer_of_written (h : ms.Written d name cs rest) :
    readSymbolizer (Json.value d) cs =
      (Symbolizer.ofMembers (Kind.ofName name) ms.others).map (·, rest) := by
  obtain ⟨cs', hspace, hbody⟩ := Json.listing_eq_ok h.listed
  have hdraft := Json.objectBody_of_follows (follows_draft d) hbody h.orderly
  have hstart : Members.draft [] = {} := rfl
  rw [hstart] at hdraft
  unfold readSymbolizer
  rw [hspace]
  simp only [if_true, hdraft, ok_bind, symbolizer_draft h.kind]
  cases Symbolizer.ofMembers (Kind.ofName name) ms.others <;> rfl

theorem suit_others {k : Kind} : ms.others.Suit k.fields ↔ ms.Suit k.fields := by
  constructor
  · intro h f hf
    rw [← given_others_of_mem hf]
    exact h f hf
  · intro h f hf
    rw [given_others_of_mem hf]
    exact h f hf

end

theorem Kind.ofName_of_ne (h : ∀ k : Kind, k ≠ .unknown → k.name ≠ name) :
    Kind.ofName name = .unknown := by
  unfold ofName
  split
  · exact absurd rfl (h .fill (by decide))
  · exact absurd rfl (h .line (by decide))
  · exact absurd rfl (h .mark (by decide))
  · exact absurd rfl (h .icon (by decide))
  · exact absurd rfl (h .model (by decide))
  · exact absurd rfl (h .text (by decide))
  · rfl

theorem knows_leaderFields {f : String × FieldType} (hf : f ∈ leaderFields) :
    f ∈ kind.fields ↔ kind = .mark ∨ kind = .icon ∨ kind = .model ∨ kind = .text := by
  simp only [leaderFields, List.mem_cons, List.not_mem_nil, or_false] at hf
  rcases hf with rfl | rfl | rfl <;> cases kind <;> decide

theorem Symbolizer.read_from_known_fields :
    (∀ (d d' : Nat) (name : String) (cs cs' rest rest' : List Char) (ms ms' : Members),
      ms.Written d name cs rest → ms'.Written d' name cs' rest' →
      (∀ f ∈ (Kind.ofName name).fields, ms.given f.1 = ms'.given f.1) →
      (∃ s, readSymbolizer (Json.value d) cs = .ok (s, rest) ∧
          readSymbolizer (Json.value d') cs' = .ok (s, rest')) ∨
        ∃ e, readSymbolizer (Json.value d) cs = .error e ∧
          readSymbolizer (Json.value d') cs' = .error e) ∧
    (∀ (d : Nat) (k : Kind) (cs rest : List Char) (ms : Members), k ≠ .unknown →
      ms.Written d k.name cs rest →
      ((∃ r, readSymbolizer (Json.value d) cs = .ok r) ↔ ms.Suit k.fields) ∧
      ∀ r, readSymbolizer (Json.value d) cs = .ok r → r.1.kind = k ∧ r.2 = rest) ∧
    (∀ (d : Nat) (name : String) (cs rest : List Char) (ms : Members),
      (∀ k : Kind, k ≠ .unknown → k.name ≠ name) → ms.Written d name cs rest →
      readSymbolizer (Json.value d) cs = .ok (.unknown, rest)) ∧
    ∀ (k : Kind), ∀ f ∈ leaderFields,
      f ∈ k.fields ↔ k = .mark ∨ k = .icon ∨ k = .model ∨ k = .text := by
  refine ⟨?_, ?_, ?_, ?_⟩
  · intro d d' name cs cs' rest rest' ms ms' h h' hgiven
    have hsame : ofMembers (Kind.ofName name) ms.others =
        ofMembers (Kind.ofName name) ms'.others := by
      refine ofMembers_congr (distinct_others h.distinct) (distinct_others h'.distinct) ?_
      intro f hf
      rw [given_others_of_mem hf, given_others_of_mem hf, hgiven f hf]
    rw [readSymbolizer_of_written h, readSymbolizer_of_written h', hsame]
    cases ofMembers (Kind.ofName name) ms'.others with
    | ok s => exact .inl ⟨s, rfl, rfl⟩
    | error e => exact .inr ⟨e, rfl, rfl⟩
  · intro d k cs rest ms _ h
    have hread := readSymbolizer_of_written h
    rw [Kind.ofName_name] at hread
    rw [hread]
    constructor
    · rw [exists_map_eq_ok, exists_ofMembers_iff (distinct_others h.distinct), suit_others]
    · intro r hr
      obtain ⟨s, hs, rfl⟩ := map_eq_ok.1 hr
      exact ⟨kind_of_ofMembers hs, rfl⟩
  · intro d name cs rest ms hname h
    rw [readSymbolizer_of_written h, Kind.ofName_of_ne hname]
    rfl
  · intro k f hf
    exact knows_leaderFields hf

def redMark : List Char :=
  "\x7b\"kind\": \"Mark\", \"color\": \"#f00\", \"radius\": 7\x7d".toList

def redMarkMembers : Members :=
  [("kind", .str "Mark"), ("color", .str "#f00"), ("radius", .num (.int 7))]

def redMarkMixed : List Char :=
  ("\x7b\"size\": [\x7b\x7d], \"radius\": 7, \"rotate\": null, \"color\": \"#f00\", " ++
    "\"kind\": \"Mark\"\x7d]").toList

def redMarkMixedMembers : Members :=
  [("size", .arr [.obj []]), ("radius", .num (.int 7)), ("rotate", .null), ("color", .str "#f00"),
    ("kind", .str "Mark")]

theorem Symbolizer.read_from_known_fields_mark :
    ∃ s, s.kind = .mark ∧ readSymbolizer (Json.value 2) redMark = .ok (s, []) ∧
      readSymbolizer (Json.value 2) redMarkMixed = .ok (s, [']']) := by
  have hplain : redMarkMembers.Written 2 Kind.mark.name redMark [] :=
    ⟨by cbv, by decide, by cbv⟩
  have hmixed : redMarkMixedMembers.Written 2 Kind.mark.name redMarkMixed [']'] :=
    ⟨by cbv, by decide, by cbv⟩
  have hgiven : ∀ f ∈ (Kind.ofName Kind.mark.name).fields,
      redMarkMembers.given f.1 = redMarkMixedMembers.given f.1 := by
    simp [Kind.ofName_name, Kind.fields, leaderFields, Members.given, redMarkMembers,
      redMarkMixedMembers, List.lookup_cons]
  have hfields : redMarkMembers.Suit Kind.mark.fields := by
    simp [Kind.fields, leaderFields, Members.given, redMarkMembers, List.lookup_cons,
      FieldType.accepts, Json.asText?, Json.asDouble?]
  obtain ⟨hsame, hread, -⟩ := read_from_known_fields
  obtain ⟨hsuit, hkind⟩ := hread 2 .mark _ _ _ (by decide) hplain
  obtain ⟨r, hr⟩ := hsuit.2 hfields
  rcases hsame _ _ _ _ _ _ _ _ _ hplain hmixed hgiven with ⟨s, hs, hs'⟩ | ⟨e, he, -⟩
  · exact ⟨s, (hkind _ hs).1, hs, hs'⟩
  · rw [he] at hr
    cases hr

end Symbology.Style
