import Mathlib
import Symbology.Dash

namespace Symbology.Dash

variable {es ws : List Nat} {w start n : Nat}

def differences (start : Nat) : List Nat → List Nat
  | [] => []
  | e :: rest => (e - start) :: differences e rest

theorem length_differences (start : Nat) (es : List Nat) :
    (differences start es).length = es.length := by
  induction es generalizing start with
  | nil => rfl
  | cons e rest ih => rw [differences, List.length_cons, ih, List.length_cons]

theorem widths_eq (h : (start :: es).IsChain (· ≤ ·)) :
    widths start es = .ok (differences start es) := by
  induction es generalizing start with
  | nil => rfl
  | cons e rest ih =>
      rw [List.isChain_cons_cons] at h
      rw [widths, if_neg (Nat.not_lt.mpr h.1), ih h.2, differences]
      rfl

theorem sum_take_differences (h : (start :: es).IsChain (· ≤ ·)) {k : Nat} (hk : k < es.length) :
    start + ((differences start es).take (k + 1)).sum = es[k] := by
  induction es generalizing start k with
  | nil => exact absurd hk (Nat.not_lt_zero k)
  | cons e rest ih =>
      rw [List.isChain_cons_cons] at h
      rw [differences, List.take_succ_cons, List.sum_cons]
      cases k with
      | zero =>
          rw [List.take_zero, List.sum_nil, List.getElem_cons_zero]
          omega
      | succ k =>
          have hrest := ih h.2 (Nat.lt_of_succ_lt_succ hk)
          rw [List.getElem_cons_succ]
          omega

theorem sum_differences {e : Nat} (h : (start :: es).IsChain (· ≤ ·)) (hlast : es.getLast? = some e) :
    start + (differences start es).sum = e := by
  rw [List.getLast?_eq_getElem?, List.getElem?_eq_some_iff] at hlast
  obtain ⟨hlt, hlast⟩ := hlast
  have hall : (differences start es).take (es.length - 1 + 1) = differences start es :=
    List.take_of_length_le (by rw [length_differences]; omega)
  have hsum := sum_take_differences h hlt
  rw [hall, hlast] at hsum
  exact hsum

structure Shortened (ws after : List Nat) : Prop where
  length : after.length = ws.length
  sum : after.sum + 1 = ws.sum
  count : after.count 0 = ws.count 0

theorem exists_shorten (hw : 2 ≤ w) (h : w ∈ ws) :
    ∃ after, shorten w ws = .ok after ∧ Shortened ws after := by
  induction ws with
  | nil => cases h
  | cons v rest ih =>
      rw [shorten]
      by_cases heq : v = w
      · rw [if_pos heq, if_neg (by omega)]
        refine ⟨(v - 1) :: rest, rfl, rfl, ?_, ?_⟩
        · rw [List.sum_cons, List.sum_cons]
          omega
        · rw [List.count_cons, List.count_cons, beq_false_of_ne (by omega),
            beq_false_of_ne (by omega)]
      · obtain ⟨after, hafter, hlength, hsum, hcount⟩ :=
          ih ((List.mem_cons.mp h).resolve_left (Ne.symm heq))
        rw [if_neg heq, hafter]
        refine ⟨v :: after, rfl, ?_, ?_, ?_⟩
        · rw [List.length_cons, hlength, List.length_cons]
        · rw [List.sum_cons, List.sum_cons]
          omega
        · rw [List.count_cons, List.count_cons, hcount]

theorem length_fillFirst (ws : List Nat) : (fillFirst ws).length = ws.length := by
  induction ws with
  | nil => rfl
  | cons v rest ih =>
      rw [fillFirst]
      split
      · rfl
      · rw [List.length_cons, ih, List.length_cons]

theorem sum_fillFirst (h : 0 ∈ ws) : (fillFirst ws).sum = ws.sum + 1 := by
  induction ws with
  | nil => cases h
  | cons v rest ih =>
      rw [fillFirst]
      split
      · next heq =>
          rw [List.sum_cons, List.sum_cons]
          omega
      · next hne =>
          have hrest := ih ((List.mem_cons.mp h).resolve_left fun heq => hne heq.symm)
          rw [List.sum_cons, List.sum_cons]
          omega

theorem count_fillFirst (h : 0 ∈ ws) : (fillFirst ws).count 0 + 1 = ws.count 0 := by
  induction ws with
  | nil => cases h
  | cons v rest ih =>
      rw [fillFirst]
      split
      · next heq => simp [heq]
      · next hne =>
          have hrest := ih ((List.mem_cons.mp h).resolve_left fun heq => hne heq.symm)
          rw [List.count_cons, List.count_cons, beq_false_of_ne hne]
          simpa using hrest

theorem sum_lt_length (hle : ∀ w ∈ ws, w ≤ 1) (h : 0 ∈ ws) : ws.sum < ws.length := by
  induction ws with
  | nil => cases h
  | cons v rest ih =>
      have hv := hle v List.mem_cons_self
      have hrest : ∀ w ∈ rest, w ≤ 1 := fun w hw => hle w (List.mem_cons_of_mem v hw)
      rw [List.sum_cons, List.length_cons]
      rcases List.mem_cons.mp h with hzero | hmem
      · have hsum : rest.sum ≤ rest.length := by simpa using List.sum_le_card_nsmul rest 1 hrest
        omega
      · have hsum := ih hrest hmem
        omega

theorem two_le_longest (hsum : ws.length ≤ ws.sum) (h : 0 ∈ ws) :
    longest ws ∈ ws ∧ 2 ≤ longest ws := by
  obtain ⟨m, hm⟩ : ∃ m, ws.max? = some m := by
    rw [← Option.isSome_iff_exists, List.isSome_max?_iff]
    exact List.ne_nil_of_mem h
  obtain ⟨hmem, hle⟩ := List.max?_eq_some_iff.mp hm
  rw [longest, hm, Option.getD_some]
  refine ⟨hmem, ?_⟩
  by_contra hsmall
  have hless : ws.sum < ws.length := sum_lt_length (fun w hw => by have := hle w hw; omega) h
  omega

structure Lent (ws after : List Nat) : Prop where
  length : after.length = ws.length
  sum : after.sum = ws.sum
  count : after.count 0 + 1 = ws.count 0

theorem exists_lend (hsum : ws.length ≤ ws.sum) (h : 0 ∈ ws) :
    ∃ after, lend ws = .ok after ∧ Lent ws after := by
  obtain ⟨hmem, htwo⟩ := two_le_longest hsum h
  obtain ⟨short, hshort, hlength, hless, hcount⟩ := exists_shorten htwo hmem
  have hzero : 0 ∈ short := by
    rw [← List.count_pos_iff, hcount, List.count_pos_iff]
    exact h
  refine ⟨fillFirst short, ?_, ?_⟩
  · rw [lend, hshort]
    rfl
  · exact ⟨by rw [length_fillFirst, hlength], by rw [sum_fillFirst hzero, hless],
      by rw [count_fillFirst hzero, hcount]⟩

theorem settle_of_not_mem (h : 0 ∉ ws) (n : Nat) : settle n ws = .ok ws := by
  cases n <;> rw [settle, if_neg h]

/-- Nothing is lost, and no run is left without a bit. -/
structure Settled (ws after : List Nat) : Prop where
  length : after.length = ws.length
  sum : after.sum = ws.sum
  pos : ∀ w ∈ after, 0 < w
  settles : ∀ n, settle n ws = if ws.count 0 ≤ n then .ok after else .error .endless

theorem exists_settled (hsum : ws.length ≤ ws.sum) : ∃ after, Settled ws after := by
  induction hcount : ws.count 0 generalizing ws with
  | zero =>
      rw [List.count_eq_zero] at hcount
      have hpos : ∀ w ∈ ws, 0 < w :=
        fun w hw => Nat.pos_of_ne_zero fun hzero => hcount (hzero ▸ hw)
      refine ⟨ws, rfl, rfl, hpos, fun n => ?_⟩
      rw [settle_of_not_mem hcount, List.count_eq_zero.mpr hcount, if_pos (Nat.zero_le n)]
  | succ loans ih =>
      -- a loan leaves one run less without a bit, and as many bits as before
      have h : 0 ∈ ws := List.count_pos_iff.mp (by omega)
      obtain ⟨lent, hlend, hlength, hsame, hless⟩ := exists_lend hsum h
      have hroom : lent.length ≤ lent.sum := by omega
      obtain ⟨after, hafter⟩ := ih hroom (by omega)
      refine ⟨after, hafter.length.trans hlength, hafter.sum.trans hsame, hafter.pos, fun n => ?_⟩
      cases n with
      | zero => rw [settle, if_pos h, if_neg (by omega)]
      | succ n =>
          have hrest : settle (n + 1) ws = settle n lent := by
            rw [settle, if_pos h, hlend]
            rfl
          rw [hrest, hafter.settles, ← hless]
          simp only [Nat.add_le_add_iff_right]

theorem widths_replicate_zero (n : Nat) :
    widths 0 (List.replicate n 0) = .ok (List.replicate n 0) := by
  induction n with
  | zero => rfl
  | succ n ih =>
      rw [List.replicate_succ, widths, if_neg (Nat.lt_irrefl 0), ih]
      rfl

/-- Among runs that have no bits the first one is to lend, and it has none to lend. -/
theorem settle_replicate_zero (loans n : Nat) :
    settle (loans + 1) (List.replicate (n + 1) 0) = .error .underflow := by
  have hlongest : longest (List.replicate (n + 1) 0) = 0 := by
    rw [longest, List.max?_replicate_of_pos (Nat.succ_pos n), Option.getD_some]
  rw [settle, if_pos (List.mem_replicate.mpr ⟨Nat.succ_ne_zero n, rfl⟩), lend, hlongest]
  rfl

def digits (n m : Nat) : List Bool :=
  (List.range n).map fun i => m.testBit (n - 1 - i)

theorem digits_succ (n m : Nat) : digits (n + 1) m = m.testBit n :: digits n m := by
  rw [digits, List.range_succ_eq_map, List.map_cons, List.map_map, digits]
  congr 1
  refine List.map_congr_left fun i _ => ?_
  simp only [Function.comp_apply]
  congr 1
  omega

theorem mask_lt (n : Nat) (bs : List Bool) : mask n bs < 2 ^ n := by
  induction n generalizing bs with
  | zero => simp [mask]
  | succ n ih =>
      cases bs with
      | nil => exact Nat.two_pow_pos _
      | cons b rest =>
          have hrest := ih rest
          rw [mask, Nat.one_shiftLeft, Nat.pow_succ]
          split <;> omega

theorem digits_congr {m k : Nat} (h : ∀ i < n, m.testBit i = k.testBit i) : digits n m = digits n k := by
  refine List.map_congr_left fun i hi => h _ ?_
  rw [List.mem_range] at hi
  omega

theorem digits_mask {bs : List Bool} (h : bs.length = n) : digits n (mask n bs) = bs := by
  induction n generalizing bs with
  | zero =>
      rw [List.length_eq_zero_iff] at h
      rw [h]
      rfl
  | succ n ih =>
      obtain ⟨b, rest, rfl⟩ := List.exists_cons_of_length_eq_add_one h
      have hrest : digits n (mask n rest) = rest := ih (by simpa using h)
      have hlt := mask_lt n rest
      rw [digits_succ, mask, Nat.one_shiftLeft]
      cases b with
      | false =>
          rw [if_neg (by decide), Nat.zero_add, Nat.testBit_lt_two_pow hlt, hrest]
      | true =>
          have hlow : digits n (2 ^ n + mask n rest) = digits n (mask n rest) :=
            digits_congr fun i hi => Nat.testBit_two_pow_add_gt hi _
          rw [if_pos rfl, Nat.testBit_two_pow_add_eq, Nat.testBit_lt_two_pow hlt, hlow, hrest]
          rfl

def drawn (pattern : UInt16) : List Bool :=
  digits bitCount pattern.toNat

theorem drawn_mask {bs : List Bool} (h : bs.length = bitCount) :
    drawn (UInt16.ofNat (mask bitCount bs)) = bs := by
  have hlt : mask bitCount bs < 2 ^ 16 := mask_lt bitCount bs
  rw [drawn, UInt16.toNat_ofNat', Nat.mod_eq_of_lt hlt, digits_mask h]

def strokes (pattern : UInt16) : List (List Bool) :=
  (drawn pattern).splitBy (· == ·)

def runsOf (b : Bool) : List Nat → List (List Bool)
  | [] => []
  | w :: rest => List.replicate w b :: runsOf (!b) rest

theorem flatten_runsOf (b : Bool) (ws : List Nat) : (runsOf b ws).flatten = bits b ws := by
  induction ws generalizing b with
  | nil => rfl
  | cons w rest ih => rw [runsOf, List.flatten_cons, ih, bits]

theorem map_length_runsOf (b : Bool) (ws : List Nat) : (runsOf b ws).map List.length = ws := by
  induction ws generalizing b with
  | nil => rfl
  | cons w rest ih => rw [runsOf, List.map_cons, List.length_replicate, ih]

theorem length_bits (b : Bool) (ws : List Nat) : (bits b ws).length = ws.sum := by
  rw [← flatten_runsOf, List.length_flatten, map_length_runsOf]

theorem head?_bits (hpos : ∀ w ∈ ws, 0 < w) (b : Bool) (h : ws ≠ []) :
    (bits b ws).head? = some b := by
  cases ws with
  | nil => exact absurd rfl h
  | cons w rest =>
      have hw : w ≠ 0 := (hpos w List.mem_cons_self).ne'
      rw [bits, List.head?_append, List.head?_replicate, if_neg hw, Option.some_or]

theorem splitBy_bits (hpos : ∀ w ∈ ws, 0 < w) (b : Bool) :
    (bits b ws).splitBy (· == ·) = runsOf b ws := by
  induction ws generalizing b with
  | nil => rfl
  | cons w rest ih =>
      have hw : List.replicate w b ≠ [] := by
        rw [ne_eq, List.replicate_eq_nil_iff]
        exact (hpos w List.mem_cons_self).ne'
      have hrest : ∀ w ∈ rest, 0 < w := fun w hw => hpos w (List.mem_cons_of_mem _ hw)
      have hwhole : (List.replicate w b).splitBy (· == ·) = [List.replicate w b] :=
        List.splitBy_of_isChain hw (List.isChain_replicate_of_rel w (beq_self_eq_true b))
      have hedge : ∀ x ∈ (List.replicate w b).getLast?, ∀ y ∈ (bits (!b) rest).head?,
          (x == y) = false := by
        intro x hx y hy
        have hx : x = b := List.eq_of_mem_replicate (List.mem_of_mem_getLast? hx)
        rcases eq_or_ne rest [] with rfl | hne
        · cases hy
        · rw [head?_bits hrest (!b) hne] at hy
          cases hy
          rw [hx]
          cases b <;> rfl
      rw [bits, List.splitBy_append hedge, hwhole, ih hrest, runsOf, List.singleton_append]

theorem getLast?_bits (hpos : ∀ w ∈ ws, 0 < w) (b : Bool) (h : ws ≠ []) :
    (bits b ws).getLast? = some (if ws.length % 2 = 0 then !b else b) := by
  induction ws generalizing b with
  | nil => exact absurd rfl h
  | cons w rest ih =>
      have hw : w ≠ 0 := (hpos w List.mem_cons_self).ne'
      rw [bits, List.getLast?_append]
      rcases eq_or_ne rest [] with rfl | hne
      · rw [bits, List.getLast?_nil, Option.none_or, List.getLast?_replicate, if_neg hw]
        rfl
      · rw [ih (fun w hw => hpos w (List.mem_cons_of_mem _ hw)) (!b) hne, Option.some_or,
          List.length_cons, Bool.not_not]
        congr 1
        split_ifs <;> first | rfl | omega

theorem getElem?_digits {n m i : Nat} (h : i < n) : (digits n m)[i]? = some (m.testBit (n - 1 - i)) := by
  rw [digits, List.getElem?_map, List.getElem?_range h, Option.map_some]

theorem testBit_top {pattern : UInt16} {b : Bool} (h : (drawn pattern).head? = some b) :
    pattern.toNat.testBit 15 = b := by
  rw [drawn, List.head?_eq_getElem?, getElem?_digits (by decide), Option.some_inj] at h
  exact h

theorem testBit_bottom {pattern : UInt16} {b : Bool} (h : (drawn pattern).getLast? = some b) :
    pattern.toNat.testBit 0 = b := by
  have hlength : (drawn pattern).length = bitCount := by simp [drawn, digits]
  rw [List.getLast?_eq_getElem?, hlength, drawn, getElem?_digits (by decide), Option.some_inj] at h
  exact h

end Symbology.Dash
