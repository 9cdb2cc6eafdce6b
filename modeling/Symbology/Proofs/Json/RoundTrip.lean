import Symbology.Proofs.Json.Canonical
import Symbology.Proofs.Json.Tokens

namespace Symbology.Json

mutual

def doubles : Json → List Float
  | .num (.double x) => [x]
  | .arr items => itemDoubles items
  | .obj members => memberDoubles members
  | _ => []

def itemDoubles : List Json → List Float
  | [] => []
  | v :: rest => doubles v ++ itemDoubles rest

def memberDoubles : List (String × Json) → List Float
  | [] => []
  | (_, v) :: rest => doubles v ++ memberDoubles rest

end

theorem mem_itemDoubles {x : Float} {vs : List Json} :
    x ∈ itemDoubles vs ↔ ∃ v ∈ vs, x ∈ v.doubles := by
  induction vs with
  | nil => simp [itemDoubles]
  | cons v vs ih => simp [itemDoubles, ih]

theorem mem_memberDoubles {x : Float} {ms : List (String × Json)} :
    x ∈ memberDoubles ms ↔ ∃ m ∈ ms, x ∈ m.2.doubles := by
  induction ms with
  | nil => simp [memberDoubles]
  | cons m ms ih =>
      obtain ⟨k, v⟩ := m
      simp only [memberDoubles, List.mem_append, ih, List.mem_cons, or_and_right, exists_or,
        exists_eq_left]

theorem Canonical.finite_doubles {depth : Nat} {v : Json} (h : Canonical depth v) :
    ∀ x ∈ v.doubles, x.isFinite = true := by
  induction h with
  | null | bool | str => nofun
  | num h =>
      intro x hx
      cases h with
      | int => cases hx
      | double h => rwa [List.mem_singleton.mp hx]
  | arr h ih =>
      intro x hx
      obtain ⟨v, hv, hx⟩ := mem_itemDoubles.mp hx
      exact ih v hv x hx
  | obj hsorted h ih =>
      intro x hx
      obtain ⟨m, hm, hx⟩ := mem_memberDoubles.mp hx
      exact ih m hm x hx

def ReadsBack (x : Float) : Prop :=
  read (Json.num (.double x)).text = .ok (.num (.double x))

theorem number_double {x : Float} (hx : x.isFinite = true) (h : ReadsBack x) :
    number (Number.double x).chars = .ok (.double x, []) := by
  have hspace := unspaced_double hx
  simp only [ReadsBack, read, whole, text, String.toList_ofList, bind_eq_ok] at h
  obtain ⟨⟨v, left⟩, hv, h⟩ := h
  split at h
  · next hleft =>
      cases h
      have hnumber : number (skipSpace (Number.double x).chars) = .ok (.double x, left) :=
        valueWith_ok hv
      rw [hspace.skipSpace] at hnumber
      have hunspaced : Unspaced left := fun c hc => hspace c ((number_suffix hnumber).subset hc)
      rw [hunspaced.skipSpace, List.isEmpty_iff] at hleft
      rw [hnumber, hleft]
  · cases h

theorem number_chars {n : Number} (h : n.Canonical) (hx : ∀ x ∈ (Json.num n).doubles, ReadsBack x) :
    number n.chars = .ok (n, []) := by
  cases h with
  | int low high => exact number_int low high
  | double h => exact number_double h (hx _ (List.mem_singleton_self _))

variable {α σ : Type}

/-- The text of a value is read as `a`, whatever follows it. Its first character is neither space
nor the end of an array. -/
structure Reads (read : Reader α) (v : Json) (a : α) : Prop where
  head : ∃ c cs, v.chars = c :: cs ∧ isSpace c = false ∧ c ≠ ']'
  reads : ∀ rest, Stops rest → read (v.chars ++ rest) = .ok (a, rest)

theorem Reads.map {β : Type} {read : Reader α} {v : Json} {a : α} (h : Reads read v a)
    (f : α → β) : Reads (fun cs => do let (a, cs) ← read cs; .ok (f a, cs)) v (f a) := by
  refine ⟨h.head, fun rest hrest => ?_⟩
  simp only [h.reads rest hrest, ok_bind]

theorem skipSpace_cons {c : Char} (h : isSpace c = false) (cs : List Char) :
    skipSpace (c :: cs) = c :: cs := by
  simp [skipSpace, h]

theorem stops_cons {c : Char} (h : c ∈ [',', ']', '}']) (cs : List Char) : Stops (c :: cs) := by
  have hends : ∀ c ∈ [',', ']', '}'], isDigit c = false ∧ c ≠ '.' ∧ c ≠ 'e' ∧ c ≠ 'E' := by
    simp [isDigit]
  intro d hd
  cases hd
  exact hends c h

variable {item : Reader α} {json : α → Json} {as : List α}

theorem items_itemChars (h : ∀ a ∈ as, Reads item (json a) a) (hne : as ≠ []) {n : Nat}
    (hn : as.length ≤ n) (rest : List Char) :
    items item n (itemChars (as.map json) ++ ']' :: rest) = .ok (as, rest) := by
  induction as generalizing n with
  | nil => exact absurd rfl hne
  | cons a as ih =>
      obtain ⟨n, rfl⟩ := Nat.exists_eq_succ_of_ne_zero (Nat.ne_of_gt (Nat.zero_lt_of_lt hn))
      have ha := (h a (List.mem_cons_self ..)).reads
      cases as with
      | nil =>
          have hread := ha (']' :: rest) (stops_cons (by decide) _)
          simp [items, itemChars, hread, skipSpace_cons (c := ']') rfl]
      | cons b as =>
          have htail := ih (fun c hc => h c (List.mem_cons_of_mem _ hc)) (by simp)
            (Nat.le_of_succ_le_succ hn)
          have hread := ha (',' :: (itemChars ((b :: as).map json) ++ ']' :: rest))
            (stops_cons (by decide) _)
          simp only [List.map_cons] at htail hread
          simp [items, itemChars, hread, skipSpace_cons (c := ',') rfl, htail]

theorem length_le_itemChars (h : ∀ a ∈ as, Reads item (json a) a) :
    as.length ≤ (itemChars (as.map json)).length := by
  induction as with
  | nil => exact Nat.le_refl _
  | cons a as ih =>
      obtain ⟨c, cs, hchars, -⟩ := (h a (List.mem_cons_self ..)).head
      have htail := ih fun b hb => h b (List.mem_cons_of_mem _ hb)
      cases as with
      | nil => simp [itemChars, hchars]
      | cons b as =>
          simp only [List.map_cons, itemChars, hchars, List.length_append, List.length_cons]
            at htail ⊢
          omega

theorem arrayBody_itemChars (h : ∀ a ∈ as, Reads item (json a) a) (rest : List Char) :
    arrayBody item (itemChars (as.map json) ++ ']' :: rest) = .ok (as, rest) := by
  cases as with
  | nil => rfl
  | cons a as =>
      obtain ⟨c, cs, hchars, hspace, hbracket⟩ := (h a (List.mem_cons_self ..)).head
      have hlength := length_le_itemChars h
      have hitems := items_itemChars h (by simp)
        (n := (itemChars ((a :: as).map json) ++ ']' :: rest).length)
        (by rw [List.length_append]; omega) rest
      have ⟨cs', hcs'⟩ : ∃ cs', itemChars ((a :: as).map json) ++ ']' :: rest = c :: cs' := by
        cases as <;> simp [itemChars, hchars]
      rw [hcs'] at hitems ⊢
      unfold arrayBody
      rw [skipSpace_cons hspace]
      split
      · next heq =>
          cases heq
          exact absurd rfl hbracket
      · exact hitems

theorem reads_array (h : ∀ a ∈ as, Reads item (json a) a) :
    Reads (array item) (.arr (as.map json)) as := by
  refine ⟨⟨_, _, rfl, by decide⟩, fun rest _ => ?_⟩
  have hread := arrayBody_itemChars h rest
  simp [array, chars, skipSpace_cons (c := '[') rfl, hread]

inductive Runs (member : σ → String → Reader σ) : σ → List (String × Json) → σ → Prop where
  | nil {s : σ} : Runs member s [] s
  | cons {s t u : σ} {k : String} {v : Json} {ms : List (String × Json)}
      (step : ∀ rest, Stops rest → member s k (':' :: v.chars ++ rest) = .ok (t, rest))
      (next : Runs member t ms u) : Runs member s ((k, v) :: ms) u

variable {member : σ → String → Reader σ} {s t u : σ} {ms ns : List (String × Json)}

theorem Runs.append (h : Runs member s ms t) (h' : Runs member t ns u) :
    Runs member s (ms ++ ns) u := by
  induction h with
  | nil => exact h'
  | cons step _ ih => exact .cons step (ih h')

theorem members_memberChars (h : Runs member s ms t) (hne : ms ≠ []) {n : Nat}
    (hn : ms.length ≤ n) (rest : List Char) :
    members stringBody member n s (memberChars ms ++ '}' :: rest) = .ok (t, rest) := by
  induction h generalizing n with
  | nil => exact absurd rfl hne
  | @cons s t u k v ms step next ih =>
      obtain ⟨n, rfl⟩ := Nat.exists_eq_succ_of_ne_zero (Nat.ne_of_gt (Nat.zero_lt_of_lt hn))
      cases ms with
      | nil =>
          cases next
          have hkey := stringBody_textChars k (':' :: v.chars ++ '}' :: rest)
          have hstep := step ('}' :: rest) (stops_cons (by decide) _)
          simp only [List.cons_append] at hkey hstep
          simp [members, memberChars, textChars, skipSpace_cons (c := '"') rfl, hkey, hstep,
            skipSpace_cons (c := '}') rfl]
      | cons m ms =>
          have htail := ih (by simp) (Nat.le_of_succ_le_succ hn)
          have hkey := stringBody_textChars k
            (':' :: v.chars ++ ',' :: (memberChars (m :: ms) ++ '}' :: rest))
          have hstep := step (',' :: (memberChars (m :: ms) ++ '}' :: rest))
            (stops_cons (by decide) _)
          simp only [List.cons_append] at hkey hstep
          simp [members, memberChars, textChars, skipSpace_cons (c := '"') rfl, hkey, hstep,
            skipSpace_cons (c := ',') rfl, htail]

theorem length_le_memberChars (ms : List (String × Json)) :
    ms.length ≤ (memberChars ms).length := by
  induction ms with
  | nil => exact Nat.le_refl _
  | cons m ms ih =>
      obtain ⟨k, v⟩ := m
      cases ms with
      | nil => simp [memberChars, textChars]
      | cons n ms =>
          simp only [memberChars, textChars, List.length_append, List.length_cons] at ih ⊢
          omega

theorem objectBody_memberChars (h : Runs member s ms t) (rest : List Char) :
    objectBody stringBody member s (memberChars ms ++ '}' :: rest) = .ok (t, rest) := by
  cases ms with
  | nil =>
      cases h
      rfl
  | cons m ms =>
      have hlength := length_le_memberChars (m :: ms)
      have hmembers := members_memberChars h (by simp)
        (n := (memberChars (m :: ms) ++ '}' :: rest).length)
        (by rw [List.length_append]; omega) rest
      have ⟨cs', hcs'⟩ : ∃ cs', memberChars (m :: ms) ++ '}' :: rest = '"' :: cs' := by
        obtain ⟨k, v⟩ := m
        cases ms <;> simp [memberChars, textChars]
      rw [hcs'] at hmembers ⊢
      exact hmembers

theorem insertMember_last {k : String} {v : Json} (h : ∀ m ∈ ms, m.1 < k) :
    insertMember k v ms = ms ++ [(k, v)] := by
  induction ms with
  | nil => rfl
  | cons m ms ih =>
      have hm := h m (List.mem_cons_self ..)
      have hne : k ≠ m.1 := (String.ne_of_lt hm).symm
      rw [insertMember, if_neg hne, if_neg (String.lt_asymm hm),
        ih fun n hn => h n (List.mem_cons_of_mem _ hn)]
      rfl

theorem runs_insertInto {value : Reader Json} (h : ∀ m ∈ ns, Reads value m.2 m.2)
    (hsorted : Sorted (ms ++ ns)) : Runs (insertInto value) ms ns (ms ++ ns) := by
  induction ns generalizing ms with
  | nil =>
      rw [List.append_nil]
      exact .nil
  | cons m ns ih =>
      obtain ⟨k, v⟩ := m
      have hlast : insertMember k v ms = ms ++ [(k, v)] := by
        refine insertMember_last fun n hn => ?_
        exact (List.pairwise_append.mp hsorted).2.2 n hn (k, v) (List.mem_cons_self ..)
      have hsorted' : Sorted ((ms ++ [(k, v)]) ++ ns) := by simpa using hsorted
      have hnext := ih (fun n hn => h n (List.mem_cons_of_mem _ hn)) hsorted'
      refine .cons (t := ms ++ [(k, v)]) (fun rest hrest => ?_) (by simpa using hnext)
      have hv := (h (k, v) (List.mem_cons_self ..)).reads rest hrest
      simp only at hv
      simp [insertInto, colon, skipSpace_cons (c := ':') rfl, hv, hlast]

theorem isSpace_of_numeric {c : Char} (h : c = '-' ∨ isDigit c = true) : isSpace c = false := by
  rcases h with rfl | h
  · rfl
  · exact isSpace_of_isDigit h

theorem ne_of_numeric {c d : Char} (h : c = '-' ∨ isDigit c = true)
    (hd : d ∈ ['n', 't', 'f', '"', ']']) : c ≠ d := by
  have hnone : ∀ d ∈ ['n', 't', 'f', '"', ']'], ¬ (d = '-' ∨ isDigit d = true) := by
    simp [isDigit]
  rintro rfl
  exact hnone c hd h

theorem valueWith_number {inner : Option (Reader Json)} {cs rest : List Char} {n : Number}
    (h : number cs = .ok (n, rest)) : valueWith inner cs = .ok (.num n, rest) := by
  obtain ⟨c, ds, rfl, hc⟩ := number_head h
  have hn := ne_of_numeric (d := 'n') hc (by decide)
  have ht := ne_of_numeric (d := 't') hc (by decide)
  have hf := ne_of_numeric (d := 'f') hc (by decide)
  have hquote := ne_of_numeric (d := '"') hc (by decide)
  simp [valueWith, skipSpace_cons (isSpace_of_numeric hc), hn, ht, hf, hquote, hc, h]

theorem valueWith_textChars (inner : Option (Reader Json)) (s : String) (rest : List Char) :
    valueWith inner (textChars s ++ rest) = .ok (.str s, rest) := by
  have hbody := stringBody_textChars s rest
  simp [valueWith, textChars, skipSpace_cons (c := '"') rfl, hbody]

theorem reads_string (s : String) : Reads string (.str s) s := by
  refine ⟨⟨_, _, rfl, by decide⟩, fun rest _ => ?_⟩
  have hread := stringBody_textChars s rest
  simp [string, chars, textChars, skipSpace_cons (c := '"') rfl, hread]

theorem readsBack_of_number {x : Float}
    (h : (number (Number.double x).chars).toOption = some (.double x, [])) : ReadsBack x := by
  cases hn : number (Number.double x).chars with
  | error e => simp [hn, Except.toOption] at h
  | ok r =>
      simp only [hn, Except.toOption, Option.some.injEq] at h
      subst h
      obtain ⟨inner, hinner⟩ := value_eq_valueWith nestingLimit
      have hread : value nestingLimit (Number.double x).chars = .ok (.num (.double x), []) := by
        rw [hinner]
        exact valueWith_number hn
      rw [ReadsBack, Json.read, whole, text, chars, String.toList_ofList, hread]
      rfl

theorem reads_value {depth : Nat} {v : Json} (h : Canonical depth v)
    (hx : ∀ x ∈ v.doubles, ReadsBack x) : Reads (value depth) v v := by
  -- by induction on how the value can be read: its parts are read one level further in
  induction h with
  | @null depth =>
      refine ⟨⟨_, _, rfl, by decide⟩, fun rest _ => ?_⟩
      cases depth <;> rfl
  | @bool depth b =>
      refine ⟨?_, fun rest _ => ?_⟩
      · cases b <;> exact ⟨_, _, rfl, by decide⟩
      · cases b <;> cases depth <;> rfl
  | @num depth n h =>
      have hn := number_chars h hx
      obtain ⟨inner, hinner⟩ := value_eq_valueWith depth
      obtain ⟨c, cs, hchars, hc⟩ := number_head hn
      refine ⟨⟨c, cs, hchars, isSpace_of_numeric hc, ne_of_numeric hc (by decide)⟩,
        fun rest hrest => ?_⟩
      rw [hinner]
      exact valueWith_number (number_append hn hrest)
  | @str depth s =>
      obtain ⟨inner, hinner⟩ := value_eq_valueWith depth
      refine ⟨⟨_, _, rfl, by decide⟩, fun rest _ => ?_⟩
      rw [hinner]
      exact valueWith_textChars inner s rest
  | @arr depth vs h ih =>
      have hitems : ∀ v ∈ vs, Reads (value depth) (id v) v := fun v hv =>
        ih v hv fun x hmem => hx x (mem_itemDoubles.mpr ⟨v, hv, hmem⟩)
      refine ⟨⟨_, _, rfl, by decide⟩, fun rest _ => ?_⟩
      have hread := arrayBody_itemChars hitems rest
      rw [List.map_id] at hread
      simp [value, valueWith, chars, skipSpace_cons (c := '[') rfl, hread, isDigit]
  | @obj depth ms hsorted h ih =>
      have hmembers : ∀ m ∈ ms, Reads (value depth) m.2 m.2 := fun m hm =>
        ih m hm fun x hmem => hx x (mem_memberDoubles.mpr ⟨m, hm, hmem⟩)
      have hruns : Runs (insertInto (value depth)) [] ms ms := runs_insertInto hmembers hsorted
      refine ⟨⟨_, _, rfl, by decide⟩, fun rest _ => ?_⟩
      have hread := objectBody_memberChars hruns rest
      simp [value, valueWith, chars, skipSpace_cons (c := '{') rfl, hread, isDigit]

end Symbology.Json
