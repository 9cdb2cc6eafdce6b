import Symbology.Proofs.Double.Basins
import Symbology.Proofs.Double.Finite
import Symbology.Double.Notation

namespace Symbology.Double

variable {ds fs cs : List Char} {x y : Float} {k : Nat} {e : Int}

def IsDigits (ds : List Char) : Prop :=
  ∀ c ∈ ds, c.isDigit = true

def digitsValue (ds : List Char) : Nat :=
  Nat.ofDigitChars 10 ds 0

theorem digitsValue_append (ds fs : List Char) :
    digitsValue (ds ++ fs) = 10 ^ fs.length * digitsValue ds + digitsValue fs := by
  rw [digitsValue, Nat.ofDigitChars_append, Nat.ofDigitChars_eq_ofDigitChars_zero]
  rfl

theorem digitsValue_zeros (k : Nat) : digitsValue (zeros k) = 0 := by
  rw [digitsValue, zeros, Nat.ofDigitChars_replicate_zero, Nat.mul_zero]

theorem digitsValue_repr (k : Nat) : digitsValue k.repr.toList = k := by
  rw [digitsValue, Nat.toList_repr, Nat.ofDigitChars_ten_toDigits]

theorem isDigits_repr (k : Nat) : IsDigits k.repr.toList := by
  intro c hc
  rw [Nat.toList_repr] at hc
  exact Nat.isDigit_of_mem_toDigits (by decide) (by decide) hc

theorem isDigits_zeros (k : Nat) : IsDigits (zeros k) := by
  intro c hc
  rw [List.eq_of_mem_replicate hc]
  rfl

theorem IsDigits.append (h : IsDigits ds) (h' : IsDigits fs) : IsDigits (ds ++ fs) := by
  intro c hc
  exact (List.mem_append.mp hc).elim (h c) (h' c)

theorem IsDigits.ne {d : Char} (h : IsDigits ds) (hd : d.isDigit = false) : ∀ c ∈ ds, c ≠ d := by
  rintro c hc rfl
  rw [h c hc] at hd
  cases hd

def Decimal.worth (d : Decimal) : ℚ :=
  digitsValue d.digits * 10 ^ (d.lead + 1 - d.digits.length)

theorem Decimal.worth_eq_div {d : Decimal} (h : d.lead + 1 - d.digits.length = -(k : Int)) :
    d.worth = digitsValue d.digits / 10 ^ k := by
  rw [worth, h, zpow_neg, zpow_natCast, div_eq_mul_inv]

theorem Decimal.worth_eq_mul {d : Decimal} (h : d.lead + 1 - d.digits.length = (k : Int)) :
    d.worth = digitsValue d.digits * 10 ^ k := by
  rw [worth, h, zpow_natCast]

theorem stripZeros_append (ds : List Char) : ∃ k, stripZeros ds ++ zeros k = ds := by
  refine ⟨(ds.reverse.takeWhile (· = '0')).length, ?_⟩
  have hzeros : ds.reverse.takeWhile (· = '0') =
      zeros (ds.reverse.takeWhile (· = '0')).length := by
    refine List.eq_replicate_of_mem fun c hc => ?_
    simpa using List.mem_takeWhile_imp hc
  have hsplit := List.takeWhile_append_dropWhile (p := (· = '0')) (l := ds.reverse)
  rw [← List.reverse_inj, List.reverse_append, stripZeros, List.reverse_reverse, zeros,
    List.reverse_replicate, ← zeros, ← hzeros]
  exact hsplit

structure Decimal.IsShown (d : Decimal) : Prop where
  digits : IsDigits d.digits
  ne_nil : d.digits ≠ []

theorem isShown_ofMultiple {d : Nat} (hd : 0 < d) (p : Nat) : (Decimal.ofMultiple d p).IsShown := by
  obtain ⟨k, hk⟩ := stripZeros_append d.repr.toList
  have hdigits := isDigits_repr d
  have hvalue := digitsValue_repr d
  rw [← hk] at hdigits hvalue
  refine ⟨fun c hc => hdigits c (List.mem_append_left _ hc), fun hnil => ?_⟩
  have hstrip : stripZeros d.repr.toList = [] := hnil
  rw [hstrip, List.nil_append, digitsValue_zeros] at hvalue
  omega

theorem worth_ofMultiple (d p : Nat) :
    (Decimal.ofMultiple d p).worth = d * 10 ^ ((p : Int) - shift) := by
  obtain ⟨k, hk⟩ := stripZeros_append d.repr.toList
  have hvalue := digitsValue_repr d
  have hlength := congrArg List.length hk
  rw [← hk, digitsValue_append, digitsValue_zeros, zeros, List.length_replicate] at hvalue
  rw [List.length_append, zeros, List.length_replicate] at hlength
  have hplace : ((d.repr.toList.length : Int) - 1 + p - shift) + 1 -
      (stripZeros d.repr.toList).length = k + ((p : Int) - shift) := by omega
  change (digitsValue (stripZeros d.repr.toList) : ℚ) * 10 ^ (((d.repr.toList.length : Int) - 1 + p -
    shift) + 1 - (stripZeros d.repr.toList).length) = _
  rw [hplace, zpow_add₀ (by norm_num), zpow_natCast, ← mul_assoc]
  congr 1
  rw [mul_comm]
  exact_mod_cast hvalue

def numeral (cs : List Char) : ℚ :=
  let whole := cs.takeWhile (· ≠ '.')
  let fraction := (cs.dropWhile (· ≠ '.')).tail
  digitsValue (whole ++ fraction) / 10 ^ fraction.length

def exponentValue : List Char → Int
  | '-' :: ds => -digitsValue ds
  | '+' :: ds => digitsValue ds
  | ds => digitsValue ds

def meaning (cs : List Char) : ℚ :=
  numeral (cs.takeWhile (· ≠ 'e')) * 10 ^ exponentValue (cs.dropWhile (· ≠ 'e')).tail

theorem span_append_cons {d : Char} (h : ∀ c ∈ ds, c ≠ d) (fs : List Char) :
    (ds ++ d :: fs).takeWhile (· ≠ d) = ds ∧ (ds ++ d :: fs).dropWhile (· ≠ d) = d :: fs := by
  have hall : ∀ c ∈ ds, decide (c ≠ d) = true := fun c hc => decide_eq_true (h c hc)
  rw [List.takeWhile_append_of_pos hall, List.dropWhile_append_of_pos hall]
  simp

theorem span_eq_self {d : Char} (h : ∀ c ∈ ds, c ≠ d) :
    ds.takeWhile (· ≠ d) = ds ∧ ds.dropWhile (· ≠ d) = [] := by
  have hall : ∀ c ∈ ds, decide (c ≠ d) = true := fun c hc => decide_eq_true (h c hc)
  exact ⟨List.takeWhile_eq_self_iff.mpr hall, List.dropWhile_eq_nil_iff.mpr hall⟩

theorem numeral_whole (h : IsDigits ds) : numeral ds = digitsValue ds := by
  obtain ⟨htake, hdrop⟩ := span_eq_self (h.ne (d := '.') rfl)
  simp only [numeral, htake, hdrop, List.tail_nil, List.append_nil, List.length_nil, pow_zero,
    div_one]

theorem numeral_point (h : IsDigits ds) (fs : List Char) :
    numeral (ds ++ '.' :: fs) = digitsValue (ds ++ fs) / 10 ^ fs.length := by
  obtain ⟨htake, hdrop⟩ := span_append_cons (h.ne (d := '.') rfl) fs
  simp only [numeral, htake, hdrop, List.tail_cons]

theorem meaning_plain (h : ∀ c ∈ cs, c ≠ 'e') : meaning cs = numeral cs := by
  obtain ⟨htake, hdrop⟩ := span_eq_self h
  have hnone : exponentValue [] = 0 := rfl
  simp only [meaning, htake, hdrop, List.tail_nil, hnone, zpow_zero, mul_one]

theorem exponentValue_digits (h : IsDigits ds) : exponentValue ds = digitsValue ds := by
  cases ds with
  | nil => rfl
  | cons c ds =>
      have hminus : c ≠ '-' := h.ne rfl c List.mem_cons_self
      have hplus : c ≠ '+' := h.ne rfl c List.mem_cons_self
      simp [exponentValue, hminus, hplus]

theorem exponentValue_exponent (n : Notation) (e : Int) :
    exponentValue (n.exponent e).tail = e := by
  have hdigits := digitsValue_repr e.natAbs
  simp only [Notation.exponent, List.cons_append, List.tail_cons]
  split_ifs
  · simp only [List.cons_append, List.nil_append, exponentValue, hdigits]
    omega
  · simp only [List.cons_append, List.nil_append, exponentValue, hdigits]
    omega
  · rw [List.nil_append, exponentValue_digits (isDigits_repr _), hdigits]
    omega

theorem meaning_exponent (n : Notation) (h : ∀ c ∈ cs, c ≠ 'e') (e : Int) :
    meaning (cs ++ n.exponent e) = numeral cs * 10 ^ e := by
  obtain ⟨fs, hfs⟩ : ∃ fs, n.exponent e = 'e' :: fs := ⟨_, rfl⟩
  have hexponent := exponentValue_exponent n e
  rw [hfs] at hexponent ⊢
  obtain ⟨htake, hdrop⟩ := span_append_cons h fs
  simp only [meaning, htake, hdrop, hexponent]

theorem meaning_whole (h : IsDigits ds) : meaning ds = digitsValue ds := by
  rw [meaning_plain (h.ne rfl), numeral_whole h]

theorem meaning_point (h : IsDigits ds) (h' : IsDigits fs) :
    meaning (ds ++ '.' :: fs) = digitsValue (ds ++ fs) / 10 ^ fs.length := by
  have hplain : ∀ c ∈ ds ++ '.' :: fs, c ≠ 'e' := by
    simp only [List.mem_append, List.mem_cons]
    rintro c (hc | rfl | hc)
    · exact h.ne rfl c hc
    · decide
    · exact h'.ne rfl c hc
  rw [meaning_plain hplain, numeral_point h]

theorem digitsValue_zeros_append (k : Nat) (ds : List Char) :
    digitsValue (zeros k ++ ds) = digitsValue ds := by
  rw [digitsValue_append, digitsValue_zeros, Nat.mul_zero, Nat.zero_add]

theorem digitsValue_append_zeros (ds : List Char) (k : Nat) :
    digitsValue (ds ++ zeros k) = digitsValue ds * 10 ^ k := by
  rw [digitsValue_append, digitsValue_zeros, zeros, List.length_replicate, Nat.add_zero,
    Nat.mul_comm]

theorem meaning_kept (n : Notation) (h : IsDigits ds) :
    meaning (ds ++ if n.keepsPoint then ['.', '0'] else []) = digitsValue ds := by
  split
  · have hpoint := meaning_point h (isDigits_zeros 1)
    rw [digitsValue_append_zeros] at hpoint
    refine hpoint.trans ?_
    push_cast
    exact mul_div_cancel_right₀ _ (by norm_num)
  · rw [List.append_nil, meaning_whole h]

theorem meaning_positional (n : Notation) {d : Decimal} (h : IsDigits d.digits) :
    meaning (n.positional d) = d.worth := by
  rw [Notation.positional]
  split
  · next hlead =>
      have hfraction := (isDigits_zeros ((-d.lead).toNat - 1)).append h
      have hvalue : digitsValue (zeros 1 ++ (zeros ((-d.lead).toNat - 1) ++ d.digits)) =
          digitsValue d.digits := by
        rw [digitsValue_zeros_append, digitsValue_zeros_append]
      have hplaces : d.lead + 1 - d.digits.length =
          -((zeros ((-d.lead).toNat - 1) ++ d.digits).length : Int) := by
        rw [List.length_append, zeros, List.length_replicate]
        omega
      rw [d.worth_eq_div hplaces, ← hvalue]
      exact meaning_point (isDigits_zeros 1) hfraction
  · next hlead =>
      simp only
      split
      · next hlong =>
          have hplaces : d.lead + 1 - d.digits.length =
              ((d.lead.toNat + 1 - d.digits.length : Nat) : Int) := by omega
          rw [meaning_kept n (h.append (isDigits_zeros _)), digitsValue_append_zeros,
            d.worth_eq_mul hplaces]
          push_cast
          rfl
      · next hlong =>
          have htake : IsDigits (d.digits.take (d.lead.toNat + 1)) :=
            fun c hc => h c (List.mem_of_mem_take hc)
          have hdrop : IsDigits (d.digits.drop (d.lead.toNat + 1)) :=
            fun c hc => h c (List.mem_of_mem_drop hc)
          have hplaces : d.lead + 1 - d.digits.length =
              -((d.digits.drop (d.lead.toNat + 1)).length : Int) := by
            rw [List.length_drop]
            omega
          rw [meaning_point htake hdrop, List.take_append_drop, d.worth_eq_div hplaces]

theorem meaning_scientific (n : Notation) {d : Decimal} (h : d.IsShown) :
    meaning (n.scientific d) = d.worth := by
  obtain ⟨hdigits, hne⟩ := h
  rw [Notation.scientific]
  split
  · next hnil => exact absurd hnil hne
  · next c hd =>
      rw [hd] at hdigits
      rw [← List.singleton_append, meaning_exponent n (hdigits.ne rfl), numeral_whole hdigits,
        Decimal.worth, hd]
      congr 2
      simp
  · next c rest hrest hd =>
      rw [hd] at hdigits
      have hone : IsDigits [c] := fun a ha => hdigits a (by simp_all)
      have hrest : IsDigits rest := fun a ha => hdigits a (List.mem_cons_of_mem c ha)
      have hplain : ∀ a ∈ [c] ++ '.' :: rest, a ≠ 'e' := by
        simp only [List.mem_append, List.mem_cons]
        rintro a (ha | rfl | ha)
        · exact hone.ne rfl a (by simpa using ha)
        · decide
        · exact hrest.ne rfl a ha
      have hmeaning := meaning_exponent n hplain d.lead
      rw [numeral_point hone] at hmeaning
      have hplaces : d.lead + 1 - d.digits.length = d.lead - rest.length := by
        rw [hd, List.length_cons]
        push_cast
        ring
      rw [Decimal.worth, hplaces, zpow_sub₀ (by norm_num), zpow_natCast, hd, mul_div_assoc',
        mul_div_right_comm]
      exact hmeaning

theorem meaning_layout (n : Notation) {d : Decimal} (h : d.IsShown) :
    meaning (n.layout d) = d.worth := by
  rw [Notation.layout]
  split
  · exact meaning_positional n h.digits
  · exact meaning_scientific n h

theorem pos_of_contains {m : Nat} (hx : 0 < units x) (h : (basin x).contains m = true) : 0 < m := by
  have hreach := (reach_bounds x).2
  have hgap : gap x ≤ units x := Nat.le_mul_of_pos_left _ (Nat.pos_of_mul_pos_right hx)
  have hlower : 0 < (basin x).lower :=
    Nat.mul_pos (show 0 < 4 * units x - reach x by omega) (powerOfTen_pos shift)
  exact hlower.trans_le (Basin.contains_bounds h).1

structure Shortest (tie : Tie) (x : Float) (d p : Nat) : Prop where
  eq : shortest tie x = Decimal.ofMultiple d p
  contains : (basin x).contains (d * grid p) = true
  pos : 0 < d

theorem exists_shortest (tie : Tie) (hx : 0 < units x) : ∃ d p, Shortest tie x d p := by
  obtain ⟨d, p, heq, hcontains⟩ := contains_shortest tie hx
  exact ⟨d, p, heq, hcontains, Nat.pos_of_mul_pos_right (pos_of_contains hx hcontains)⟩

theorem worth_mul_shift (d p : Nat) :
    (Decimal.ofMultiple d p).worth * powerOfTen shift = (d * powerOfTen p : Nat) := by
  have hshift : (powerOfTen shift : ℚ) = 10 ^ (shift : Int) := by
    rw [powerOfTen, Nat.pow_eq, Nat.cast_pow, zpow_natCast]
    rfl
  have hplaces : (powerOfTen p : ℚ) = 10 ^ (p : Int) := by
    rw [powerOfTen, Nat.pow_eq, Nat.cast_pow, zpow_natCast]
    rfl
  rw [worth_ofMultiple, hshift, mul_assoc, ← zpow_add₀ (by norm_num), sub_add_cancel,
    Nat.cast_mul, hplaces]

variable {n : Notation}

theorem meaning_magnitude (hx : x.isFinite = true) :
    meaning (n.magnitude x) = if units x = 0 then 0 else (shortest n.tie x).worth := by
  rw [Notation.magnitude, isInf_of_finite hx, if_neg Bool.false_ne_true]
  split
  · have hzero : digitsValue ['0'] = 0 := digitsValue_zeros 1
    rw [meaning_positional n (isDigits_zeros 1), Decimal.worth]
    simp only [hzero, Nat.cast_zero, zero_mul]
  · next hunits =>
      obtain ⟨d, p, hshortest⟩ := exists_shortest n.tie (Nat.pos_of_ne_zero hunits)
      rw [hshortest.eq]
      exact meaning_layout n (isShown_ofMultiple hshortest.pos p)

theorem units_eq_of_worth_eq {tie : Tie} (hx : 0 < units x) (hy : 0 < units y)
    (h : (shortest tie x).worth = (shortest tie y).worth) : units x = units y := by
  obtain ⟨d, p, hdx⟩ := exists_shortest tie hx
  obtain ⟨d', p', hdy⟩ := exists_shortest tie hy
  have hsame : d * powerOfTen p = d' * powerOfTen p' := by
    have hcast := worth_mul_shift d p
    rw [← hdx.eq, h, hdy.eq, worth_mul_shift] at hcast
    exact_mod_cast hcast.symm
  have hcontains := hdx.contains
  rw [grid, ← Nat.mul_assoc, hsame, Nat.mul_assoc, ← grid] at hcontains
  exact units_eq_of_contains hcontains hdy.contains

theorem worth_shortest_pos {tie : Tie} (hx : 0 < units x) : 0 < (shortest tie x).worth := by
  obtain ⟨d, p, hdx⟩ := exists_shortest tie hx
  rw [hdx.eq, worth_ofMultiple]
  exact mul_pos (by exact_mod_cast hdx.pos) (zpow_pos (by norm_num) _)

theorem units_eq_of_magnitude_eq (hx : x.isFinite = true) (hy : y.isFinite = true)
    (h : n.magnitude x = n.magnitude y) : units x = units y := by
  have hmeaning := congrArg meaning h
  rw [meaning_magnitude hx, meaning_magnitude hy] at hmeaning
  split_ifs at hmeaning with hzx hzy hzy
  · rw [hzx, hzy]
  · exact absurd hmeaning (worth_shortest_pos (Nat.pos_of_ne_zero hzy)).ne
  · exact absurd hmeaning (worth_shortest_pos (Nat.pos_of_ne_zero hzx)).ne'
  · exact units_eq_of_worth_eq (Nat.pos_of_ne_zero hzx) (Nat.pos_of_ne_zero hzy) hmeaning

def Leads (cs : List Char) : Prop :=
  ∃ c rest, cs = c :: rest ∧ c.isDigit = true

theorem leads_positional (n : Notation) {d : Decimal} (h : d.IsShown) : Leads (n.positional d) := by
  obtain ⟨c, rest, hd⟩ := List.exists_cons_of_ne_nil h.ne_nil
  have hc : c.isDigit = true := h.digits c (by rw [hd]; exact List.mem_cons_self)
  rw [Notation.positional, hd]
  split
  · exact ⟨'0', _, rfl, rfl⟩
  · simp only
    split
    · exact ⟨c, _, rfl, hc⟩
    · exact ⟨c, _, rfl, hc⟩

theorem leads_scientific (n : Notation) {d : Decimal} (h : d.IsShown) : Leads (n.scientific d) := by
  obtain ⟨c, rest, hd⟩ := List.exists_cons_of_ne_nil h.ne_nil
  have hc : c.isDigit = true := h.digits c (by rw [hd]; exact List.mem_cons_self)
  rw [Notation.scientific, hd]
  split
  · next hnil => cases hnil
  · next hone =>
      cases hone
      exact ⟨c, _, rfl, hc⟩
  · next hmore =>
      cases hmore
      exact ⟨c, _, rfl, hc⟩

theorem leads_magnitude (hx : x.isFinite = true) : Leads (n.magnitude x) := by
  rw [Notation.magnitude, isInf_of_finite hx, if_neg Bool.false_ne_true]
  split
  · exact leads_positional n ⟨isDigits_zeros 1, List.cons_ne_nil _ _⟩
  · next hunits =>
      obtain ⟨d, p, hshortest⟩ := exists_shortest n.tie (Nat.pos_of_ne_zero hunits)
      have hshown := isShown_ofMultiple hshortest.pos p
      rw [hshortest.eq, Notation.layout]
      split
      · exact leads_positional n hshown
      · exact leads_scientific n hshown

theorem chars_injective (hx : x.isFinite = true) (hy : y.isFinite = true)
    (h : n.chars x = n.chars y) : x = y := by
  obtain ⟨c, cs, hcs, hc⟩ := leads_magnitude (n := n) hx
  obtain ⟨d, ds, hds, hd⟩ := leads_magnitude (n := n) hy
  rw [Notation.chars, Notation.chars, isNaN_of_finite hx, isNaN_of_finite hy] at h
  simp only [Bool.false_eq_true, if_false] at h
  cases hsx : signBit x with
  | false =>
      cases hsy : signBit y with
      | false =>
          rw [hsx, hsy] at h
          exact eq_of_units_eq (hsx.trans hsy.symm) (units_eq_of_magnitude_eq hx hy h)
      | true =>
          rw [hsx, hsy, hcs] at h
          cases h
          cases hc
  | true =>
      cases hsy : signBit y with
      | false =>
          rw [hsx, hsy, hds] at h
          cases h
          cases hd
      | true =>
          rw [hsx, hsy] at h
          exact eq_of_units_eq (hsx.trans hsy.symm)
            (units_eq_of_magnitude_eq hx hy (List.cons.inj h).2)

end Symbology.Double
