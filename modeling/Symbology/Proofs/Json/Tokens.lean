import Symbology.Json.Print
import Symbology.Json.Read
import Symbology.Proofs.Double.Finite

namespace Symbology.Json

def Stops (rest : List Char) : Prop :=
  ∀ c ∈ rest.head?, isDigit c = false ∧ c ≠ '.' ∧ c ≠ 'e' ∧ c ≠ 'E'

theorem hexValue?_digitChar : ∀ d < 16, Text.hexValue? (Nat.digitChar d) = some d := by
  decide

theorem escape_control {c : Char} (h : c.toNat < 0x20) (cs : List Char) :
    escape ('u' :: '0' :: '0' :: Nat.digitChar (c.toNat / 16) :: Nat.digitChar (c.toNat % 16) :: cs)
      = .ok (c, cs) := by
  have hhigh := hexValue?_digitChar (c.toNat / 16) (by omega)
  have hlow := hexValue?_digitChar (c.toNat % 16) (by omega)
  have hzero : Text.hexValue? '0' = some 0 := rfl
  have hunit : hexUnit ('0' :: '0' :: Nat.digitChar (c.toNat / 16) ::
      Nat.digitChar (c.toNat % 16) :: cs) = .ok (c.toNat, cs) := by
    simp only [hexUnit, hzero, hhigh, hlow]
    congr 2
    omega
  have htrail : isTrailSurrogate c.toNat = false := by
    simp only [isTrailSurrogate, Bool.and_eq_false_iff, decide_eq_false_iff_not]
    omega
  have hlead : isLeadSurrogate c.toNat = false := by
    simp only [isLeadSurrogate, Bool.and_eq_false_iff, decide_eq_false_iff_not]
    omega
  simp [escape, unitEscape, hunit, htrail, hlead, Char.ofNat_toNat]

theorem escape_simple {c d : Char} (h : simpleEscape? d = some c) (cs : List Char) :
    escape (d :: cs) = .ok (c, cs) := by
  have hd : d ≠ 'u' := by
    rintro rfl
    cases h
  simp [escape, hd, h]

theorem characters_backslash (n : Nat) {c : Char} {cs rest : List Char}
    (h : escape cs = .ok (c, rest)) :
    characters escape (n + 1) ('\\' :: cs) =
      (do let (s, rest) ← characters escape n rest; .ok (c :: s, rest)) := by
  simp [characters, h]

theorem characters_escapeChar (n : Nat) (c : Char) (cs : List Char) :
    characters escape (n + 1) (escapeChar c ++ cs) =
      (do let (s, rest) ← characters escape n cs; .ok (c :: s, rest)) := by
  unfold escapeChar
  split_ifs with hquote hslash _ _ _ _ _ hcontrol
  -- seven characters have an escape of their own
  iterate 7
    · subst_vars
      exact characters_backslash n (escape_simple rfl cs)
  · exact characters_backslash n (escape_control hcontrol cs)
  · simp [characters, hquote, hslash, hcontrol]

theorem characters_flatMap {s : List Char} {n : Nat} (h : s.length < n) (rest : List Char) :
    characters escape n (s.flatMap escapeChar ++ '"' :: rest) = .ok (s, rest) := by
  induction s generalizing n with
  | nil =>
      obtain ⟨n, rfl⟩ := Nat.exists_eq_succ_of_ne_zero (Nat.ne_of_gt h)
      simp [characters]
  | cons c s ih =>
      obtain ⟨n, rfl⟩ := Nat.exists_eq_succ_of_ne_zero (Nat.ne_of_gt (Nat.zero_lt_of_lt h))
      rw [List.flatMap_cons, List.append_assoc, characters_escapeChar, ih (by simpa using h)]
      rfl

theorem length_escapeChar_pos (c : Char) : 0 < (escapeChar c).length := by
  unfold escapeChar
  repeat' split
  all_goals exact Nat.zero_lt_succ _

theorem length_le_flatMap_escapeChar (s : List Char) :
    s.length ≤ (s.flatMap escapeChar).length := by
  induction s with
  | nil => exact Nat.le_refl _
  | cons c s ih =>
      have hc := length_escapeChar_pos c
      rw [List.flatMap_cons, List.length_append, List.length_cons]
      omega

theorem stringBody_textChars (s : String) (rest : List Char) :
    stringBody (s.toList.flatMap escapeChar ++ '"' :: rest) = .ok (s, rest) := by
  have hfuel := length_le_flatMap_escapeChar s.toList
  have hlength : s.toList.length < (s.toList.flatMap escapeChar ++ '"' :: rest).length := by
    rw [List.length_append, List.length_cons]
    omega
  simp only [stringBody, characters_flatMap hlength, ok_bind, String.ofList_toList]

theorem Stops.takeWhile {rest : List Char} (h : Stops rest) : rest.takeWhile isDigit = [] := by
  cases rest with
  | nil => rfl
  | cons c cs => simp [(h c rfl).1]

theorem Stops.dropWhile {rest : List Char} (h : Stops rest) : rest.dropWhile isDigit = rest := by
  cases rest with
  | nil => rfl
  | cons c cs => simp [(h c rfl).1]

variable {cut : ReadError} {cs left rest : List Char}

theorem someDigits_append {ds : List Char} (h : someDigits cut cs = .ok (ds, left))
    (hrest : Stops rest) : someDigits cut (cs ++ rest) = .ok (ds, left ++ rest) := by
  have htake : (cs ++ rest).takeWhile isDigit = cs.takeWhile isDigit := by
    rw [List.takeWhile_append, hrest.takeWhile, List.append_nil]
    split
    · next hall => exact (List.takeWhile_prefix _).eq_of_length hall |>.symm
    · rfl
  have hdrop : (cs ++ rest).dropWhile isDigit = cs.dropWhile isDigit ++ rest := by
    rw [List.dropWhile_append, hrest.dropWhile]
    split
    · next hempty => rw [List.isEmpty_iff.mp hempty, List.nil_append]
    · rfl
  unfold someDigits at h ⊢
  rw [htake, hdrop]
  split at h
  · cases h
  · cases h
    rfl

theorem wholeDigits_append {ds : List Char} (h : wholeDigits cut cs = .ok (ds, left))
    (hrest : Stops rest) : wholeDigits cut (cs ++ rest) = .ok (ds, left ++ rest) := by
  simp only [wholeDigits, bind_eq_ok] at h ⊢
  obtain ⟨⟨es, mid⟩, hes, h⟩ := h
  refine ⟨(es, mid ++ rest), someDigits_append hes hrest, ?_⟩
  split at h
  · cases h
  · cases h
    rfl

theorem fractionDigits_append {ds : Option (List Char)} (h : fractionDigits cut cs = .ok (ds, left))
    (hrest : Stops rest) : fractionDigits cut (cs ++ rest) = .ok (ds, left ++ rest) := by
  unfold fractionDigits at h
  split at h
  · simp only [bind_eq_ok] at h
    obtain ⟨⟨es, mid⟩, hes, h⟩ := h
    cases h
    simp [fractionDigits, someDigits_append hes hrest]
  · next hpoint =>
      cases h
      cases cs with
      | nil =>
          unfold fractionDigits
          split
          · next hhead => exact absurd rfl (hrest '.' (by simp_all)).2.1
          · rfl
      | cons c cs =>
          unfold fractionDigits
          split
          · next hhead => simp_all
          · rfl

theorem exponentSign_append (h : cs ≠ []) (rest : List Char) :
    exponentSign (cs ++ rest) = ((exponentSign cs).1, (exponentSign cs).2 ++ rest) := by
  obtain ⟨c, cs, rfl⟩ := List.exists_cons_of_ne_nil h
  unfold exponentSign
  split <;> simp_all

theorem exponentDigits_append {ds : Option (Bool × List Char)}
    (h : exponentDigits cut cs = .ok (ds, left)) (hrest : Stops rest) :
    exponentDigits cut (cs ++ rest) = .ok (ds, left ++ rest) := by
  unfold exponentDigits at h
  split at h
  · cases h
    cases rest with
    | nil => rfl
    | cons c rest =>
        obtain ⟨-, -, hsmall, hlarge⟩ := hrest c rfl
        simp [exponentDigits, hsmall, hlarge]
  · next c cs =>
      split at h
      · next hc =>
          simp only [bind_eq_ok] at h
          obtain ⟨⟨es, mid⟩, hes, h⟩ := h
          cases h
          have hcs : cs ≠ [] := by
            rintro rfl
            cases hes
          simp [exponentDigits, hc, exponentSign_append hcs, someDigits_append hes hrest]
      · next hc =>
          cases h
          simp [exponentDigits, hc]

theorem minus_append (h : cs ≠ []) (rest : List Char) :
    minus (cs ++ rest) = ((minus cs).1, (minus cs).2 ++ rest) := by
  obtain ⟨c, cs, rfl⟩ := List.exists_cons_of_ne_nil h
  unfold minus
  split <;> simp_all

theorem literal_append {l : Literal} (h : literal cut cs = .ok (l, left)) (hrest : Stops rest) :
    literal cut (cs ++ rest) = .ok (l, left ++ rest) := by
  have hcs : cs ≠ [] := by
    rintro rfl
    cases h
  simp only [literal, bind_eq_ok] at h
  obtain ⟨⟨whole, cs₁⟩, hwhole, ⟨fraction, cs₂⟩, hfraction, ⟨exponent, cs₃⟩, hexponent, h⟩ := h
  cases h
  simp [literal, minus_append hcs, wholeDigits_append hwhole hrest,
    fractionDigits_append hfraction hrest, exponentDigits_append hexponent hrest]

theorem number_append {n : Number} (h : number cs = .ok (n, left)) (hrest : Stops rest) :
    number (cs ++ rest) = .ok (n, left ++ rest) := by
  simp only [number, bind_eq_ok] at h
  obtain ⟨⟨l, mid⟩, hl, h⟩ := h
  simp only [number, literal_append hl hrest, ok_bind]
  split at h
  · cases h
  · next hn =>
      cases h
      rw [hn]

theorem someDigits_suffix {ds : List Char} (h : someDigits cut cs = .ok (ds, left)) :
    left <:+ cs := by
  unfold someDigits at h
  split at h
  · cases h
  · cases h
    exact List.dropWhile_suffix _

theorem wholeDigits_suffix {ds : List Char} (h : wholeDigits cut cs = .ok (ds, left)) :
    left <:+ cs := by
  simp only [wholeDigits, bind_eq_ok] at h
  obtain ⟨⟨es, mid⟩, hes, h⟩ := h
  split at h
  · cases h
  · cases h
    exact someDigits_suffix hes

theorem fractionDigits_suffix {ds : Option (List Char)}
    (h : fractionDigits cut cs = .ok (ds, left)) : left <:+ cs := by
  unfold fractionDigits at h
  split at h
  · simp only [bind_eq_ok] at h
    obtain ⟨⟨es, mid⟩, hes, h⟩ := h
    cases h
    exact (someDigits_suffix hes).trans (List.suffix_cons _ _)
  · cases h
    exact List.suffix_refl _

theorem exponentSign_suffix (cs : List Char) : (exponentSign cs).2 <:+ cs := by
  unfold exponentSign
  split
  · exact List.suffix_cons _ _
  · exact List.suffix_cons _ _
  · exact List.suffix_refl _

theorem exponentDigits_suffix {ds : Option (Bool × List Char)}
    (h : exponentDigits cut cs = .ok (ds, left)) : left <:+ cs := by
  unfold exponentDigits at h
  split at h
  · cases h
    exact List.suffix_refl _
  · split at h
    · simp only [bind_eq_ok] at h
      obtain ⟨⟨es, mid⟩, hes, h⟩ := h
      cases h
      exact ((someDigits_suffix hes).trans (exponentSign_suffix _)).trans (List.suffix_cons _ _)
    · cases h
      exact List.suffix_refl _

theorem minus_suffix (cs : List Char) : (minus cs).2 <:+ cs := by
  unfold minus
  split
  · exact List.suffix_cons _ _
  · exact List.suffix_refl _

theorem number_suffix {n : Number} (h : number cs = .ok (n, left)) : left <:+ cs := by
  simp only [number, literal, bind_eq_ok] at h
  obtain ⟨⟨l, mid⟩, ⟨⟨_, _⟩, hwhole, ⟨_, _⟩, hfraction, ⟨_, _⟩, hexponent, hl⟩, h⟩ := h
  cases hl
  split at h
  · cases h
  · cases h
    exact (((exponentDigits_suffix hexponent).trans (fractionDigits_suffix hfraction)).trans
      (wholeDigits_suffix hwhole)).trans (minus_suffix cs)

theorem number_head {n : Number} (h : number cs = .ok (n, left)) :
    ∃ c ds, cs = c :: ds ∧ (c = '-' ∨ isDigit c = true) := by
  cases cs with
  | nil => cases h
  | cons c ds =>
      refine ⟨c, ds, rfl, ?_⟩
      by_cases hminus : c = '-'
      · exact .inl hminus
      · right
        simp only [number, literal, bind_eq_ok] at h
        obtain ⟨_, ⟨⟨_, _⟩, hwhole, -⟩, -⟩ := h
        have hsign : minus (c :: ds) = (false, c :: ds) := by simp [minus, hminus]
        simp only [hsign, wholeDigits, bind_eq_ok] at hwhole
        obtain ⟨⟨es, mid⟩, hes, -⟩ := hwhole
        by_cases hc : isDigit c = true
        · exact hc
        · simp [someDigits, hc] at hes

theorem isDigit_iff {c : Char} : isDigit c = true ↔ c.isDigit = true := by
  simp only [isDigit, Char.isDigit, Bool.and_eq_true, decide_eq_true_eq]
  exact Iff.rfl

theorem isDigit_of_mem_toDigits {n : Nat} {c : Char} (h : c ∈ Nat.toDigits 10 n) :
    isDigit c = true :=
  isDigit_iff.mpr (Nat.isDigit_of_mem_toDigits (by decide) (by decide) h)

theorem head_toDigits_ne_zero {n : Nat} (h : 0 < n) : (Nat.toDigits 10 n).head? ≠ some '0' := by
  induction n using Nat.strongRecOn with
  | ind n ih =>
      by_cases hn : n < 10
      · rw [Nat.toDigits_of_lt_base hn]
        simp only [List.head?_cons, ne_eq, Option.some.injEq, Nat.digitChar_eq_zero]
        omega
      · have hprefix := ih (n / 10) (by omega) (by omega)
        rw [Nat.toDigits_of_base_le (by decide) (by omega)]
        cases hds : Nat.toDigits 10 (n / 10) with
        | nil => exact absurd hds Nat.toDigits_ne_nil
        | cons d ds =>
            rw [hds] at hprefix
            exact hprefix

theorem le_ofDigitChars (ds : List Char) (n : Nat) : n ≤ Nat.ofDigitChars 10 ds n := by
  induction ds generalizing n with
  | nil => simp
  | cons d ds ih =>
      rw [Nat.ofDigitChars_cons]
      have := ih (10 * n + (d.toNat - '0'.toNat))
      omega

theorem Literal.absorb_eq {ds : List Char} {n : Nat}
    (h : Nat.ofDigitChars 10 ds n < UInt64.size) :
    Literal.absorb n ds = (Nat.ofDigitChars 10 ds n, []) := by
  induction ds generalizing n with
  | nil => simp [Literal.absorb]
  | cons d ds ih =>
      have hnext : n * 10 + Literal.digitValue d = 10 * n + (d.toNat - '0'.toNat) := by
        rw [Literal.digitValue, Nat.mul_comm]
      have hle := le_ofDigitChars ds (10 * n + (d.toNat - '0'.toNat))
      rw [Nat.ofDigitChars_cons] at h ⊢
      simp only [Literal.absorb, hnext]
      rw [if_pos (Nat.lt_of_le_of_lt hle h), ih h]

theorem wholeDigits_toDigits (n : Nat) :
    wholeDigits cut (Nat.toDigits 10 n) = .ok (Nat.toDigits 10 n, []) := by
  have hall : ∀ c ∈ Nat.toDigits 10 n, isDigit c = true := fun c => isDigit_of_mem_toDigits
  have htake : (Nat.toDigits 10 n ++ []).takeWhile isDigit = Nat.toDigits 10 n ++ [] :=
    List.takeWhile_append_of_pos hall
  have hdrop : (Nat.toDigits 10 n ++ []).dropWhile isDigit = [] :=
    List.dropWhile_append_of_pos hall
  rw [List.append_nil] at htake hdrop
  have hsome : someDigits cut (Nat.toDigits 10 n) = .ok (Nat.toDigits 10 n, []) := by
    unfold someDigits
    rw [htake, hdrop]
    split
    · next hnil => exact absurd hnil Nat.toDigits_ne_nil
    · rfl
  simp only [wholeDigits, hsome, ok_bind]
  split
  · next c cs hzero =>
      rcases Nat.eq_zero_or_pos n with rfl | hn
      · rw [Nat.toDigits_zero] at hzero
        cases hzero
      · exact absurd (by rw [hzero]; rfl) (head_toDigits_ne_zero hn)
  · rfl

theorem literal_toDigits (n : Nat) (negative : Bool) :
    literal cut (if negative then '-' :: Nat.toDigits 10 n else Nat.toDigits 10 n) =
      .ok ({ negative, whole := Nat.toDigits 10 n, fraction := none, exponent := none }, []) := by
  have hminus : minus (if negative then '-' :: Nat.toDigits 10 n else Nat.toDigits 10 n) =
      (negative, Nat.toDigits 10 n) := by
    cases negative with
    | true => rfl
    | false =>
        cases hds : Nat.toDigits 10 n with
        | nil => exact absurd hds Nat.toDigits_ne_nil
        | cons d ds =>
            have hd : isDigit d = true := isDigit_of_mem_toDigits (n := n) (by simp [hds])
            have hne : d ≠ '-' := by
              rintro rfl
              exact absurd hd (by decide)
            simp [minus, hne]
  simp [literal, hminus, wholeDigits_toDigits, fractionDigits, exponentDigits]

theorem number_int {n : Int} (low : -2 ^ 63 ≤ n) (high : n < 2 ^ 64) :
    number (Number.int n).chars = .ok (.int n, []) := by
  have hchars : (Number.int n).chars =
      if decide (n < 0) then '-' :: Nat.toDigits 10 n.natAbs else Nat.toDigits 10 n.natAbs := by
    simp only [Number.chars, Nat.toList_repr, decide_eq_true_eq]
  have hsmall : Nat.ofDigitChars 10 (Nat.toDigits 10 n.natAbs) 0 < UInt64.size := by
    rw [Nat.ofDigitChars_ten_toDigits]
    have hsize : UInt64.size = 2 ^ 64 := rfl
    omega
  have hvalue : Literal.wholeNumber (decide (n < 0)) n.natAbs = .int n := by
    have hsize : UInt64.size / 2 = 2 ^ 63 := rfl
    unfold Literal.wholeNumber
    by_cases hn : n < 0
    · rw [if_neg (by simpa using hn), if_neg (by omega)]
      congr 1
      omega
    · rw [if_pos (by simpa using hn)]
      congr 1
      omega
  simp only [number, hchars, literal_toDigits, ok_bind, Literal.number?, Literal.absorb_eq hsmall,
    Nat.ofDigitChars_ten_toDigits, hvalue]

def isNumeric (c : Char) : Bool :=
  isDigit c || c ∈ ['.', 'e', '+', '-']

def Numeric (cs : List Char) : Prop :=
  ∀ c ∈ cs, isNumeric c = true

@[simp] theorem numeric_nil : Numeric [] :=
  nofun

@[simp] theorem numeric_cons {c : Char} :
    Numeric (c :: cs) ↔ isNumeric c = true ∧ Numeric cs := by
  simp [Numeric]

@[simp] theorem numeric_append : Numeric (cs ++ rest) ↔ Numeric cs ∧ Numeric rest := by
  simp [Numeric, or_imp, forall_and]

theorem numeric_toDigits (n : Nat) : Numeric (Nat.toDigits 10 n) := by
  intro c hc
  rw [isNumeric, isDigit_of_mem_toDigits hc, Bool.true_or]

theorem numeric_int (n : Int) : Numeric (Number.int n).chars := by
  rw [Number.chars, Nat.toList_repr]
  split
  · exact numeric_cons.mpr ⟨rfl, numeric_toDigits _⟩
  · exact numeric_toDigits _

theorem numeric_shortest (tie : Double.Tie) (x : Float) :
    Numeric (Double.shortest tie x).digits := by
  intro c hc
  have hmem := (List.dropWhile_sublist _).subset (List.mem_reverse.mp hc)
  rw [List.mem_reverse, Nat.toList_repr] at hmem
  exact numeric_toDigits _ c hmem

theorem numeric_zeros (n : Nat) : Numeric (Double.zeros n) := by
  intro c hc
  rw [List.eq_of_mem_replicate hc]
  rfl

theorem numeric_positional {d : Double.Decimal} (h : Numeric d.digits) :
    Numeric (doubleNotation.positional d) := by
  have htake (n : Nat) : Numeric (d.digits.take n) := fun c hc => h c (List.mem_of_mem_take hc)
  have hdrop (n : Nat) : Numeric (d.digits.drop n) := fun c hc => h c (List.mem_of_mem_drop hc)
  unfold Double.Notation.positional
  split
  · simp [h, numeric_zeros, isNumeric, isDigit]
  · change Numeric (if _ then _ else _)
    split
    · simp [h, numeric_zeros, doubleNotation, isNumeric, isDigit]
    · simp [htake, hdrop, isNumeric]

theorem numeric_exponent (e : Int) : Numeric (doubleNotation.exponent e) := by
  unfold Double.Notation.exponent
  rw [Nat.toList_repr]
  repeat' split
  all_goals simp [numeric_toDigits, isNumeric]

theorem numeric_scientific {d : Double.Decimal} (h : Numeric d.digits) :
    Numeric (doubleNotation.scientific d) := by
  unfold Double.Notation.scientific
  split
  · exact numeric_exponent _
  · next c hds =>
      rw [hds, numeric_cons] at h
      simp [h.1, numeric_exponent]
  · next c cs _ hds =>
      rw [hds, numeric_cons] at h
      have hpoint : isNumeric '.' = true := rfl
      simp [h.1, h.2, numeric_exponent, hpoint]

theorem chars_double_of_finite {x : Float} (h : x.isFinite = true) :
    (Number.double x).chars = doubleNotation.chars x :=
  if_pos h

theorem numeric_double {x : Float} (h : x.isFinite = true) : Numeric (Number.double x).chars := by
  have hmagnitude : Numeric (doubleNotation.magnitude x) := by
    unfold Double.Notation.magnitude Double.Notation.layout
    rw [Double.isInf_of_finite h, if_neg Bool.false_ne_true]
    split
    · exact numeric_positional (numeric_zeros 1)
    · split
      · exact numeric_positional (numeric_shortest _ _)
      · exact numeric_scientific (numeric_shortest _ _)
  simp only [chars_double_of_finite h, Double.Notation.chars, Double.isNaN_of_finite h,
    Bool.false_eq_true, if_false]
  split
  · exact numeric_cons.mpr ⟨rfl, hmagnitude⟩
  · exact hmagnitude

def Unspaced (cs : List Char) : Prop :=
  ∀ c ∈ cs, isSpace c = false

theorem Unspaced.skipSpace (h : Unspaced cs) : skipSpace cs = cs := by
  cases cs with
  | nil => rfl
  | cons c cs => simp [Json.skipSpace, h c List.mem_cons_self]

theorem isSpace_of_isDigit {c : Char} (h : isDigit c = true) : isSpace c = false := by
  have hne : ∀ d ∈ [' ', '\n', '\t', '\r'], c ≠ d := by
    rintro d hd rfl
    have hnone : ∀ d ∈ [' ', '\n', '\t', '\r'], isDigit d = false := by simp [isDigit]
    exact Bool.false_ne_true ((hnone c hd).symm.trans h)
  simpa [isSpace, and_assoc] using hne

theorem isSpace_of_isNumeric {c : Char} (h : isNumeric c = true) : isSpace c = false := by
  rcases Bool.or_eq_true_iff.mp h with hdigit | hmark
  · exact isSpace_of_isDigit hdigit
  · have hnone : ∀ d ∈ ['.', 'e', '+', '-'], isSpace d = false := by simp [isSpace]
    exact hnone c (by simpa using hmark)

theorem unspaced_double {x : Float} (h : x.isFinite = true) :
    Unspaced (Number.double x).chars :=
  fun c hc => isSpace_of_isNumeric (numeric_double h c hc)

open Double (Decimal basin digitCount powerOfTen search shortest signBit size units)

theorem digitCount_eq_iff {n k : Nat} (h : 0 < k) :
    digitCount n = k + 1 ↔ powerOfTen k ≤ n ∧ n < powerOfTen (k + 1) := by
  have hlow := Nat.length_repr_le_iff (n := n) h
  have hhigh := Nat.length_repr_le_iff (n := n) (k := k + 1) (by omega)
  simp only [digitCount, powerOfTen, Nat.pow_eq]
  omega

theorem shortest_eq {tie : Double.Tie} {x : Float} {k d places : Nat} (h : 0 < k)
    (hsize : powerOfTen k ≤ size x >>> 1076 ∧ size x >>> 1076 < powerOfTen (k + 1))
    (hsearch : search tie (basin x) (size x) 17 k = (d, places)) :
    shortest tie x = Decimal.ofMultiple d places := by
  -- the search starts at the place of the leading digit
  rw [← digitCount_eq_iff h] at hsize
  simp only [shortest, hsize, Nat.add_sub_cancel, hsearch]

theorem chars_double {x : Float} (k d places : Nat) (hx : x.isFinite = true)
    (hsign : signBit x = false) (hk : 0 < k)
    (hsize : powerOfTen k ≤ size x >>> 1076 ∧ size x >>> 1076 < powerOfTen (k + 1))
    (hsearch : search .even (basin x) (size x) 17 k = (d, places)) :
    (Number.double x).chars = doubleNotation.layout (Decimal.ofMultiple d places) := by
  have hunits : units x ≠ 0 := by
    intro hzero
    have hpos : 0 < powerOfTen k := Nat.pow_pos (by decide)
    simp only [size, hzero, Nat.mul_zero, Nat.zero_mul, Nat.zero_shiftRight] at hsize
    omega
  have hshortest : shortest .even x = Decimal.ofMultiple d places := shortest_eq hk hsize hsearch
  rw [chars_double_of_finite hx, Double.Notation.chars, Double.isNaN_of_finite hx, hsign,
    Double.Notation.magnitude, Double.isInf_of_finite hx, if_neg hunits, ← hshortest]
  rfl

end Symbology.Json
