import Symbology.Proofs.Double.Meaning
import Symbology.Proofs.Json.RoundTrip

namespace Symbology.Json

open Double (digitsValue exponentValue)

variable {α : Type} {cs ds rest rest' : List Char}

def IsFinite (v : Json) : Prop :=
  ∀ x ∈ v.doubles, x.isFinite = true

theorem finite_double {x : Float} (h : (Json.num (.double x)).IsFinite) : x.isFinite = true :=
  h x (List.mem_singleton_self x)

theorem exponentValue_int (n : Int) : exponentValue (Number.int n).chars = n := by
  have hdigits := Double.digitsValue_repr n.natAbs
  rw [Number.chars]
  split
  · simp only [exponentValue, hdigits]
    omega
  · rw [Double.exponentValue_digits (Double.isDigits_repr _), hdigits]
    omega

def isMark (c : Char) : Bool :=
  c = '.' || c = 'e'

theorem mark_mem_positional (d : Double.Decimal) :
    ∃ c ∈ doubleNotation.positional d, isMark c = true := by
  refine ⟨'.', ?_, rfl⟩
  rw [Double.Notation.positional]
  split
  · simp
  · simp only
    split
    · exact List.mem_append_right _ (by simp [doubleNotation])
    · simp

theorem mark_mem_scientific (d : Double.Decimal) :
    ∃ c ∈ doubleNotation.scientific d, isMark c = true := by
  have hexponent (e : Int) : 'e' ∈ doubleNotation.exponent e := List.mem_cons_self
  refine ⟨'e', ?_, rfl⟩
  rw [Double.Notation.scientific]
  split
  · exact hexponent _
  · exact List.mem_cons_of_mem _ (hexponent _)
  · exact List.mem_append_right _ (hexponent _)

theorem mark_mem_double {x : Float} (hx : x.isFinite = true) :
    ∃ c ∈ (Number.double x).chars, isMark c = true := by
  have hmagnitude : ∃ c ∈ doubleNotation.magnitude x, isMark c = true := by
    rw [Double.Notation.magnitude, Double.isInf_of_finite hx, if_neg Bool.false_ne_true]
    split
    · exact mark_mem_positional _
    · rw [Double.Notation.layout]
      split
      · exact mark_mem_positional _
      · exact mark_mem_scientific _
  obtain ⟨c, hc, hmark⟩ := hmagnitude
  refine ⟨c, ?_, hmark⟩
  rw [chars_double_of_finite hx, Double.Notation.chars, Double.isNaN_of_finite hx,
    if_neg Bool.false_ne_true]
  split
  · exact List.mem_cons_of_mem _ hc
  · exact hc

theorem unmarked_int (n : Int) : ∀ c ∈ (Number.int n).chars, isMark c = false := by
  have hdigits : ∀ c ∈ n.natAbs.repr.toList, isMark c = false := fun c hc => by
    simp [isMark, (Double.isDigits_repr _).ne (d := '.') rfl c hc,
      (Double.isDigits_repr _).ne (d := 'e') rfl c hc]
  rw [Number.chars]
  split
  · exact List.forall_mem_cons.mpr ⟨rfl, hdigits⟩
  · exact hdigits

theorem int_chars_ne {x : Float} (hx : x.isFinite = true) (n : Int) :
    (Number.int n).chars ≠ (Number.double x).chars := by
  intro h
  obtain ⟨c, hc, hmark⟩ := mark_mem_double hx
  rw [← h] at hc
  exact Bool.false_ne_true ((unmarked_int n c hc).symm.trans hmark)

theorem number_chars_injective {m n : Number} (hm : (Json.num m).IsFinite)
    (hn : (Json.num n).IsFinite) (h : m.chars = n.chars) : m = n := by
  cases m with
  | int m =>
      cases n with
      | int n =>
          have hvalue := congrArg exponentValue h
          rw [exponentValue_int, exponentValue_int] at hvalue
          rw [hvalue]
      | double y => exact absurd h (int_chars_ne (finite_double hn) m)
  | double x =>
      cases n with
      | int n => exact absurd h.symm (int_chars_ne (finite_double hm) n)
      | double y =>
          have hx := finite_double hm
          have hy := finite_double hn
          rw [chars_double_of_finite hx, chars_double_of_finite hy] at h
          rw [Double.chars_injective hx hy h]

theorem numeric_number {n : Number} (h : (Json.num n).IsFinite) : Numeric n.chars := by
  cases n with
  | int n => exact numeric_int n
  | double x => exact numeric_double (finite_double h)

theorem number_leads {n : Number} (h : (Json.num n).IsFinite) :
    ∃ c cs, n.chars = c :: cs ∧ (c = '-' ∨ isDigit c = true) := by
  cases n with
  | int n =>
      rw [Number.chars, Nat.toList_repr]
      split
      · exact ⟨'-', _, rfl, .inl rfl⟩
      · obtain ⟨c, cs, hcs⟩ := List.exists_cons_of_ne_nil (Nat.toDigits_ne_nil (b := 10))
        exact ⟨c, cs, hcs, .inr (isDigit_of_mem_toDigits (hcs ▸ List.mem_cons_self))⟩
  | double x =>
      have hx := finite_double h
      obtain ⟨c, cs, hcs, hc⟩ := Double.leads_magnitude (n := doubleNotation) hx
      rw [chars_double_of_finite hx, Double.Notation.chars, Double.isNaN_of_finite hx,
        if_neg Bool.false_ne_true]
      split
      · exact ⟨'-', _, rfl, .inl rfl⟩
      · exact ⟨c, cs, hcs, .inr (isDigit_iff.mpr hc)⟩

def Closes (rest : List Char) : Prop :=
  ∀ c ∈ rest.head?, c ∈ [',', ']', '}']

theorem closes_cons {c : Char} (h : c ∈ [',', ']', '}']) (cs : List Char) : Closes (c :: cs) := by
  rintro d ⟨⟩
  exact h

theorem Closes.takeWhile (h : Closes rest) : rest.takeWhile isNumeric = [] := by
  have hnone : ∀ c ∈ [',', ']', '}'], isNumeric c = false := by simp [isNumeric, isDigit]
  cases rest with
  | nil => rfl
  | cons c cs => rw [List.takeWhile_cons, hnone c (h c rfl), if_neg Bool.false_ne_true]

theorem numeric_split (hcs : Numeric cs) (hds : Numeric ds) (hrest : Closes rest)
    (hrest' : Closes rest') (h : cs ++ rest = ds ++ rest') : cs = ds ∧ rest = rest' := by
  have htake := congrArg (List.takeWhile isNumeric) h
  rw [List.takeWhile_append_of_pos hcs, List.takeWhile_append_of_pos hds, hrest.takeWhile,
    hrest'.takeWhile, List.append_nil, List.append_nil] at htake
  rw [htake] at h
  exact ⟨htake, List.append_cancel_left h⟩

theorem text_split {s t : String} (h : textChars s ++ rest = textChars t ++ rest') :
    s = t ∧ rest = rest' := by
  have hs := stringBody_textChars s rest
  have ht := stringBody_textChars t rest'
  simp only [textChars, List.cons_append, List.cons.injEq, true_and, List.append_assoc,
    List.nil_append] at h
  rw [h, ht] at hs
  cases hs
  exact ⟨rfl, rfl⟩

/-- No text of another legal value starts with the text of this one, unless it goes on with it. -/
def Told (chars : α → List Char) (Legal : α → Prop) (a : α) : Prop :=
  ∀ b rest rest', Legal b → Closes rest → Closes rest' →
    chars a ++ rest = chars b ++ rest' → a = b ∧ rest = rest'

def opening : Json → Char
  | .null => 'n'
  | .bool _ => 'b'
  | .num _ => '0'
  | .str _ => '"'
  | .arr _ => '['
  | .obj _ => '{'

def openedBy (c : Char) : Char :=
  if c = '-' ∨ isDigit c = true then '0' else if c = 't' ∨ c = 'f' then 'b' else c

theorem exists_opening {v : Json} (h : v.IsFinite) :
    ∃ c cs, v.chars = c :: cs ∧ openedBy c = v.opening := by
  cases v with
  | null => exact ⟨_, _, rfl, rfl⟩
  | bool b => cases b <;> exact ⟨_, _, rfl, rfl⟩
  | num n =>
      obtain ⟨c, cs, hcs, hc⟩ := number_leads h
      exact ⟨c, cs, hcs, if_pos hc⟩
  | str s => exact ⟨_, _, rfl, rfl⟩
  | arr vs => exact ⟨_, _, rfl, rfl⟩
  | obj ms => exact ⟨_, _, rfl, rfl⟩

theorem opening_eq {v w : Json} (hv : v.IsFinite) (hw : w.IsFinite)
    (h : v.chars ++ rest = w.chars ++ rest') : v.opening = w.opening := by
  obtain ⟨c, cs, hcs, hc⟩ := exists_opening hv
  obtain ⟨d, ds, hds, hd⟩ := exists_opening hw
  rw [hcs, hds] at h
  rw [← hc, ← hd, (List.cons.inj h).1]

theorem chars_ne_close {v : Json} (hv : v.IsFinite) : v.chars ++ rest ≠ ']' :: rest' := by
  intro h
  obtain ⟨c, cs, hcs, hc⟩ := exists_opening hv
  rw [hcs] at h
  obtain rfl : c = ']' := (List.cons.inj h).1
  cases v <;> simp [openedBy, opening, isDigit] at hc

def separated (chars : α → List Char) : List α → List Char
  | [] => []
  | a :: as => chars a ++ as.flatMap (',' :: chars ·)

theorem itemChars_eq (vs : List Json) : itemChars vs = separated Json.chars vs := by
  induction vs with
  | nil => rfl
  | cons v vs ih =>
      cases vs with
      | nil => simp [itemChars, separated]
      | cons w vs => rw [itemChars, ih, separated, separated, List.flatMap_cons, List.cons_append]

def memberText (m : String × Json) : List Char :=
  textChars m.1 ++ ':' :: m.2.chars

theorem memberChars_eq (ms : List (String × Json)) : memberChars ms = separated memberText ms := by
  induction ms with
  | nil => rfl
  | cons m ms ih =>
      cases ms with
      | nil => simp [memberChars, separated, memberText]
      | cons n ms =>
          rw [memberChars, ih]
          simp only [separated, List.flatMap_cons, memberText, List.append_assoc, List.cons_append]

section

variable {chars : α → List Char} {Legal : α → Prop} {close : Char} {as bs : List α}

theorem closes_flatMap (hclose : close ∈ [',', ']', '}']) (as : List α) (rest : List Char) :
    Closes (as.flatMap (',' :: chars ·) ++ close :: rest) := by
  cases as with
  | nil => exact closes_cons hclose rest
  | cons a as => exact closes_cons (by decide) _

theorem flatMap_split (hclose : close ∈ [']', '}']) (has : ∀ a ∈ as, Told chars Legal a)
    (hbs : ∀ b ∈ bs, Legal b)
    (h : as.flatMap (',' :: chars ·) ++ close :: rest =
      bs.flatMap (',' :: chars ·) ++ close :: rest') : as = bs ∧ rest = rest' := by
  have hcomma : ',' ≠ close := by
    rintro rfl
    exact absurd hclose (by decide)
  have hcloses := List.mem_cons_of_mem ',' hclose
  induction as generalizing bs with
  | nil =>
      cases bs with
      | nil => exact ⟨rfl, (List.cons.inj h).2⟩
      | cons b bs => exact absurd (List.cons.inj h).1.symm hcomma
  | cons a as ih =>
      cases bs with
      | nil => exact absurd (List.cons.inj h).1 hcomma
      | cons b bs =>
          rw [List.flatMap_cons, List.flatMap_cons, List.cons_append, List.cons_append,
            List.cons_append, List.cons_append, List.append_assoc, List.append_assoc] at h
          obtain ⟨rfl, htail⟩ := has a List.mem_cons_self b _ _ (hbs b List.mem_cons_self)
            (closes_flatMap hcloses as rest) (closes_flatMap hcloses bs rest') (List.cons.inj h).2
          obtain ⟨rfl, hrest⟩ := ih (fun c hc => has c (List.mem_cons_of_mem a hc))
            (fun c hc => hbs c (List.mem_cons_of_mem a hc)) htail
          exact ⟨rfl, hrest⟩

theorem separated_split (hclose : close ∈ [']', '}'])
    (hne : ∀ a, Legal a → ∀ rest rest', chars a ++ rest ≠ close :: rest')
    (hlegal : ∀ a ∈ as, Legal a) (has : ∀ a ∈ as, Told chars Legal a) (hbs : ∀ b ∈ bs, Legal b)
    (h : separated chars as ++ close :: rest = separated chars bs ++ close :: rest') :
    as = bs ∧ rest = rest' := by
  have hcloses := List.mem_cons_of_mem ',' hclose
  cases as with
  | nil =>
      cases bs with
      | nil => exact ⟨rfl, (List.cons.inj h).2⟩
      | cons b bs =>
          rw [separated, separated, List.append_assoc] at h
          exact absurd h.symm (hne b (hbs b List.mem_cons_self) _ _)
  | cons a as =>
      cases bs with
      | nil =>
          rw [separated, separated, List.append_assoc] at h
          exact absurd h (hne a (hlegal a List.mem_cons_self) _ _)
      | cons b bs =>
          rw [separated, separated, List.append_assoc, List.append_assoc] at h
          obtain ⟨rfl, htail⟩ := has a List.mem_cons_self b _ _ (hbs b List.mem_cons_self)
            (closes_flatMap hcloses as rest) (closes_flatMap hcloses bs rest') h
          obtain ⟨rfl, hrest⟩ := flatMap_split hclose
            (fun c hc => has c (List.mem_cons_of_mem a hc))
            (fun c hc => hbs c (List.mem_cons_of_mem a hc)) htail
          exact ⟨rfl, hrest⟩

end

theorem IsFinite.item {vs : List Json} (h : (Json.arr vs).IsFinite) : ∀ v ∈ vs, v.IsFinite :=
  fun v hv x hx => h x (mem_itemDoubles.mpr ⟨v, hv, hx⟩)

theorem IsFinite.member {ms : List (String × Json)} (h : (Json.obj ms).IsFinite) :
    ∀ m ∈ ms, m.2.IsFinite :=
  fun m hm x hx => h x (mem_memberDoubles.mpr ⟨m, hm, hx⟩)

theorem told_member {m : String × Json} (h : Told Json.chars IsFinite m.2) :
    Told memberText (fun m => m.2.IsFinite) m := by
  intro n rest rest' hn hrest hrest' heq
  rw [memberText, memberText, List.append_assoc, List.append_assoc] at heq
  obtain ⟨hkey, hvalue⟩ := text_split heq
  obtain ⟨hsame, htail⟩ := h n.2 rest rest' hn hrest hrest' (List.cons.inj hvalue).2
  exact ⟨Prod.ext hkey hsame, htail⟩

theorem chars_arr_append (vs : List Json) (rest : List Char) :
    (Json.arr vs).chars ++ rest = '[' :: (separated Json.chars vs ++ ']' :: rest) := by
  rw [Json.chars, itemChars_eq, List.append_assoc]
  rfl

theorem chars_obj_append (ms : List (String × Json)) (rest : List Char) :
    (Json.obj ms).chars ++ rest = '\x7b' :: (separated memberText ms ++ '}' :: rest) := by
  rw [Json.chars, memberChars_eq, List.append_assoc]
  rfl

theorem told_arr {vs : List Json} (hfinite : (Json.arr vs).IsFinite)
    (h : ∀ v ∈ vs, Told Json.chars IsFinite v) : Told Json.chars IsFinite (.arr vs) := by
  intro w rest rest' hw hrest hrest' heq
  have hopen := opening_eq hfinite hw heq
  cases w with
  | arr ws =>
      rw [chars_arr_append, chars_arr_append] at heq
      obtain ⟨rfl, htail⟩ := separated_split (by decide)
        (fun v hv _ _ => chars_ne_close hv) hfinite.item h hw.item (List.cons.inj heq).2
      exact ⟨rfl, htail⟩
  | _ => simp [opening] at hopen

theorem told_obj {ms : List (String × Json)} (hfinite : (Json.obj ms).IsFinite)
    (h : ∀ m ∈ ms, Told Json.chars IsFinite m.2) : Told Json.chars IsFinite (.obj ms) := by
  intro w rest rest' hw hrest hrest' heq
  have hopen := opening_eq hfinite hw heq
  have hquote (m : String × Json) (rest rest' : List Char) :
      memberText m ++ rest ≠ '}' :: rest' := by
    simp [memberText, textChars]
  cases w with
  | obj ns =>
      rw [chars_obj_append, chars_obj_append] at heq
      obtain ⟨rfl, htail⟩ := separated_split (by decide) (fun m _ => hquote m) hfinite.member
        (fun m hm => told_member (h m hm)) hw.member (List.cons.inj heq).2
      exact ⟨rfl, htail⟩
  | _ => simp [opening] at hopen

theorem told_num {n : Number} (hfinite : (Json.num n).IsFinite) :
    Told Json.chars IsFinite (.num n) := by
  intro w rest rest' hw hrest hrest' heq
  have hopen := opening_eq hfinite hw heq
  cases w with
  | num k =>
      obtain ⟨hsame, htail⟩ := numeric_split (numeric_number hfinite) (numeric_number hw) hrest
        hrest' heq
      rw [number_chars_injective hfinite hw hsame]
      exact ⟨rfl, htail⟩
  | _ => simp [opening] at hopen

theorem told_str (s : String) : Told Json.chars IsFinite (.str s) := by
  intro w rest rest' hw hrest hrest' heq
  have hopen := opening_eq (v := .str s) nofun hw heq
  cases w with
  | str t =>
      obtain ⟨rfl, htail⟩ := text_split heq
      exact ⟨rfl, htail⟩
  | _ => simp [opening] at hopen

theorem told_bool (b : Bool) : Told Json.chars IsFinite (.bool b) := by
  intro w rest rest' hw hrest hrest' heq
  have hopen := opening_eq (v := .bool b) nofun hw heq
  cases w with
  | bool b' => cases b <;> cases b' <;> simp_all [Json.chars]
  | _ => simp [opening] at hopen

theorem told_null : Told Json.chars IsFinite .null := by
  intro w rest rest' hw hrest hrest' heq
  have hopen := opening_eq (v := .null) nofun hw heq
  cases w with
  | null => exact ⟨rfl, List.append_cancel_left heq⟩
  | _ => simp [opening] at hopen

theorem told (v : Json) (h : v.IsFinite) : Told Json.chars IsFinite v := by
  match v with
  | .null => exact told_null
  | .bool b => exact told_bool b
  | .num n => exact told_num h
  | .str s => exact told_str s
  | .arr vs => exact told_arr h fun u hu => told u (h.item u hu)
  | .obj ms =>
      refine told_obj h fun m hm => told m.2 (h.member m hm)
termination_by v
decreasing_by
  · have := List.sizeOf_lt_of_mem hu
    simp only [Json.arr.sizeOf_spec]
    omega
  · have := List.sizeOf_lt_of_mem hm
    obtain ⟨k, u⟩ := m
    simp only [Json.obj.sizeOf_spec, Prod.mk.sizeOf_spec] at this ⊢
    omega

theorem text_injective {v w : Json} (hv : v.IsFinite) (hw : w.IsFinite) (h : v.text = w.text) :
    v = w := by
  have hchars : v.chars ++ [] = w.chars ++ [] := by
    rw [List.append_nil, List.append_nil]
    exact String.ofList_injective h
  exact (told v hv w [] [] hw nofun nofun hchars).1

end Symbology.Json
