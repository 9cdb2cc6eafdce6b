import Symbology.Json.Read
import Symbology.Proofs.Double.Finite

namespace Symbology.Json

inductive Number.Canonical : Number → Prop where
  | int {n : Int} (low : -2 ^ 63 ≤ n) (high : n < 2 ^ 64) : Canonical (.int n)
  | double {x : Float} (h : x.isFinite = true) : Canonical (.double x)

def Sorted (ms : List (String × Json)) : Prop :=
  ms.Pairwise (·.1 < ·.1)

inductive Canonical : Nat → Json → Prop where
  | null {depth : Nat} : Canonical depth .null
  | bool {depth : Nat} (b : Bool) : Canonical depth (.bool b)
  | num {depth : Nat} {n : Number} (h : n.Canonical) : Canonical depth (.num n)
  | str {depth : Nat} (s : String) : Canonical depth (.str s)
  | arr {depth : Nat} {vs : List Json} (h : ∀ v ∈ vs, Canonical depth v) :
      Canonical (depth + 1) (.arr vs)
  | obj {depth : Nat} {ms : List (String × Json)} (sorted : Sorted ms)
      (h : ∀ m ∈ ms, Canonical depth m.2) : Canonical (depth + 1) (.obj ms)

theorem Number.Canonical.finite_toDouble {n : Number} (h : n.Canonical) :
    n.toDouble.isFinite = true := by
  cases h with
  | double h => exact h
  | @int n low high =>
      cases n with
      | ofNat n =>
          have hnat : n < 2 ^ 64 := Int.ofNat_lt.mp high
          exact Double.finite_of_within (Double.within_float_ofNat hnat)
      | negSucc n =>
          have hnat : n.succ < 2 ^ 64 := by omega
          exact Double.finite_neg (Double.finite_of_within (Double.within_float_ofNat hnat))

namespace Literal

theorem canonical_wholeNumber {n : Nat} (h : n < 2 ^ 64) (negative : Bool) :
    (wholeNumber negative n).Canonical := by
  have hfinite := Double.finite_of_within (Double.within_float_ofNat h)
  unfold wholeNumber
  split
  · exact .int (by omega) (by omega)
  · split
    · exact .double (Double.finite_neg hfinite)
    · next hn =>
        have hsize : UInt64.size / 2 = 2 ^ 63 := rfl
        exact .int (by omega) (by omega)

theorem finite_signed {x : Float} (h : x.isFinite = true) (negative : Bool) :
    (signed negative x).isFinite = true := by
  cases negative with
  | false => exact h
  | true => exact Double.finite_neg h

theorem canonical_number? {l : Literal} {n : Number} (h : l.number? = some n) : n.Canonical := by
  have hwhole : (absorb 0 l.whole).1 < 2 ^ 64 := absorb_lt (by decide) _
  unfold number? at h
  simp only at h
  split at h
  · cases h
    exact canonical_wholeNumber hwhole l.negative
  · simp only [Option.map_eq_some_iff] at h
    obtain ⟨x, hx, rfl⟩ := h
    exact .double (finite_signed (finite_scaled? (absorb_lt hwhole _) hx) l.negative)

end Literal

variable {α σ : Type} {P : α → Prop} {I : σ → Prop}

def Yields (read : Reader α) (P : α → Prop) : Prop :=
  ∀ cs a rest, read cs = .ok (a, rest) → P a

theorem Yields.holds {read : Reader α} (h : Yields read P) {cs rest : List Char} {a : α}
    (hread : read cs = .ok (a, rest)) : P a :=
  h cs a rest hread

theorem yields_number : Yields number Number.Canonical := by
  intro cs n rest h
  simp only [number, bind_eq_ok] at h
  obtain ⟨⟨l, cs'⟩, -, h⟩ := h
  split at h
  · cases h
  · next m hm =>
      cases h
      exact Literal.canonical_number? hm

theorem yields_items {item : Reader α} (h : Yields item P) (n : Nat) :
    Yields (items item n) fun xs => ∀ x ∈ xs, P x := by
  induction n with
  | zero => intro cs xs rest hread; cases hread
  | succ n ih =>
      intro cs xs rest hread
      simp only [items, bind_eq_ok] at hread
      obtain ⟨⟨x, cs'⟩, hx, hread⟩ := hread
      split at hread
      · cases hread
      · split at hread
        · cases hread
          simpa using h.holds hx
        · split at hread
          · simp only [bind_eq_ok] at hread
            obtain ⟨⟨ys, cs''⟩, hys, hread⟩ := hread
            cases hread
            simpa using And.intro (h.holds hx) (ih.holds hys)
          · cases hread

theorem yields_arrayBody {item : Reader α} (h : Yields item P) :
    Yields (arrayBody item) fun xs => ∀ x ∈ xs, P x := by
  intro cs xs rest hread
  unfold arrayBody at hread
  split at hread
  · cases hread
    simp
  · exact (yields_items h _).holds hread

theorem wrongType_ne_ok {cs rest : List Char} {a : α} : wrongType cs ≠ .ok (a, rest) := by
  intro h
  unfold wrongType at h
  split at h
  · cases h
  · split at h
    · cases h
    · simp only [bind_eq_ok] at h
      obtain ⟨_, -, h⟩ := h
      cases h

theorem yields_array {item : Reader α} (h : Yields item P) :
    Yields (array item) fun xs => ∀ x ∈ xs, P x := by
  intro cs xs rest hread
  unfold array at hread
  split at hread
  · exact (yields_arrayBody h).holds hread
  · exact absurd hread wrongType_ne_ok

theorem yields_members {key : Reader String} {member : σ → String → Reader σ}
    (h : ∀ {s k}, I s → Yields (member s k) I) (n : Nat) {s : σ} (hs : I s) :
    Yields (members key member n s) I := by
  induction n generalizing s with
  | zero => intro cs t rest hread; cases hread
  | succ n ih =>
      intro cs t rest hread
      unfold members at hread
      split at hread
      · cases hread
      · split at hread
        · simp only [bind_eq_ok] at hread
          obtain ⟨⟨k, cs'⟩, -, ⟨s', cs''⟩, hmember, hread⟩ := hread
          have hs' := (h hs).holds hmember
          split at hread
          · cases hread
          · split at hread
            · cases hread
              exact hs'
            · split at hread
              · exact (ih hs').holds hread
              · cases hread
        · cases hread

theorem yields_objectBody {key : Reader String} {member : σ → String → Reader σ}
    (h : ∀ {s k}, I s → Yields (member s k) I) {s : σ} (hs : I s) :
    Yields (objectBody key member s) I := by
  intro cs t rest hread
  unfold objectBody at hread
  split at hread
  · cases hread
    exact hs
  · exact (yields_members h _ hs).holds hread

theorem mem_insertMember {key : String} {v : Json} {ms : List (String × Json)} {m : String × Json}
    (h : m ∈ insertMember key v ms) : m = (key, v) ∨ m ∈ ms := by
  induction ms with
  | nil => simpa [insertMember] using h
  | cons n ms ih =>
      unfold insertMember at h
      split at h
      · rcases List.mem_cons.mp h with rfl | h
        · exact .inl rfl
        · exact .inr (List.mem_cons_of_mem _ h)
      · split at h
        · simpa using h
        · rcases List.mem_cons.mp h with rfl | h
          · simp
          · rcases ih h with hm | hm <;> simp [hm]

theorem lt_of_not_lt {a b : String} (hne : a ≠ b) (h : ¬ a < b) : b < a :=
  Decidable.byContradiction fun hba =>
    hne (String.le_antisymm (String.not_lt.mp hba) (String.not_lt.mp h))

theorem sorted_insertMember {ms : List (String × Json)} (h : Sorted ms) (key : String) (v : Json) :
    Sorted (insertMember key v ms) := by
  induction ms with
  | nil => exact List.pairwise_singleton _ _
  | cons m ms ih =>
      obtain ⟨k, w⟩ := m
      obtain ⟨hk, hms⟩ := List.pairwise_cons.mp h
      unfold insertMember
      split
      · next hkey =>
          subst hkey
          exact List.pairwise_cons.mpr ⟨hk, hms⟩
      · next hne =>
          split
          · next hlt =>
              refine List.pairwise_cons.mpr ⟨fun n hn => ?_, h⟩
              rcases List.mem_cons.mp hn with rfl | hn
              · exact hlt
              · exact String.lt_trans hlt (hk n hn)
          · next hnlt =>
              refine List.pairwise_cons.mpr ⟨fun n hn => ?_, ih hms⟩
              rcases mem_insertMember hn with rfl | hn
              · exact lt_of_not_lt hne hnlt
              · exact hk n hn

theorem yields_insertInto {value : Reader Json} {P : Json → Prop} (h : Yields value P)
    {ms : List (String × Json)} (hms : Sorted ms ∧ ∀ m ∈ ms, P m.2) {key : String} :
    Yields (insertInto value ms key) fun ms => Sorted ms ∧ ∀ m ∈ ms, P m.2 := by
  intro cs ns rest hread
  simp only [insertInto, bind_eq_ok] at hread
  obtain ⟨_, -, ⟨v, _⟩, hv, hread⟩ := hread
  cases hread
  refine ⟨sorted_insertMember hms.1 key v, fun m hm => ?_⟩
  rcases mem_insertMember hm with rfl | hm
  · exact h.holds hv
  · exact hms.2 m hm

theorem valueWith_ok {inner : Option (Reader Json)} {cs rest : List Char} {v : Json}
    (h : valueWith inner cs = .ok (v, rest)) :
    match v with
    | .num n => number (skipSpace cs) = .ok (n, rest)
    | .str s => string cs = .ok (s, rest)
    | .arr vs => ∃ value ∈ inner, ∃ cs', arrayBody value cs' = .ok (vs, rest)
    | .obj ms => ∃ value ∈ inner, ∃ cs',
        objectBody stringBody (insertInto value) [] cs' = .ok (ms, rest)
    | _ => True := by
  unfold valueWith at h
  split at h
  · cases h
  · next c cs' hcs =>
      rw [hcs]
      repeat' split at h
      all_goals try simp only [bind_eq_ok] at h
      all_goals try obtain ⟨⟨_, _⟩, hpart, h⟩ := h
      all_goals cases h
      all_goals first
        | trivial
        | exact hpart
        | exact ⟨_, rfl, _, hpart⟩
        | simpa only [string, hcs, ‹c = '"'›] using hpart

theorem value_eq_valueWith (depth : Nat) : ∃ inner, value depth = valueWith inner := by
  cases depth <;> exact ⟨_, rfl⟩

theorem string_of_value {d : Nat} {cs rest : List Char} {s : String}
    (h : value d cs = .ok (.str s, rest)) : string cs = .ok (s, rest) := by
  obtain ⟨inner, hinner⟩ := value_eq_valueWith d
  rw [hinner] at h
  exact valueWith_ok h

theorem canonical_valueWith {inner : Option (Reader Json)} {depth : Nat}
    (h : ∀ value ∈ inner, ∃ d, depth = d + 1 ∧ Yields value (Canonical d)) :
    Yields (valueWith inner) (Canonical depth) := by
  intro cs v rest hread
  have hpart := valueWith_ok hread
  cases v with
  | null => exact .null
  | bool b => exact .bool b
  | str s => exact .str s
  | num n => exact .num (yields_number.holds hpart)
  | arr vs =>
      obtain ⟨value, hvalue, cs', hvs⟩ := hpart
      obtain ⟨d, rfl, hyields⟩ := h value hvalue
      exact .arr ((yields_arrayBody hyields).holds hvs)
  | obj ms =>
      obtain ⟨value, hvalue, cs', hms⟩ := hpart
      obtain ⟨d, rfl, hyields⟩ := h value hvalue
      obtain ⟨hsorted, hvalues⟩ :=
        (yields_objectBody (fun hs => yields_insertInto hyields hs) ⟨.nil, by simp⟩).holds hms
      exact .obj hsorted hvalues

theorem canonical_value (depth : Nat) : Yields (value depth) (Canonical depth) := by
  induction depth with
  | zero => exact canonical_valueWith (by simp)
  | succ depth ih =>
      refine canonical_valueWith fun value hvalue => ⟨depth, rfl, ?_⟩
      cases hvalue
      exact ih

end Symbology.Json
