import Symbology.Filter.Comparison
import Symbology.Properties
import Symbology.Proofs.Json.Same

namespace Symbology.Filter

open Double (level)
open Json (Canonical unsigned)

variable {a b c : Json} {m n : Json.Number} {depth depth' depth'' : Nat}

def rank : Json → Int ⊕ Json
  | .num n => .inl (level n.toDouble)
  | v => .inr v.unsigned

theorem canonical_number (h : Canonical depth (.num n)) : n.Canonical := by
  cases h
  assumption

theorem looselyEqual_iff (ha : Canonical depth a) (hb : Canonical depth' b) :
    looselyEqual a b = true ↔ rank a = rank b := by
  have hsame := Json.same_iff a b ha.finite_doubles hb.finite_doubles
  cases a with
  | num m =>
      cases b with
      | num n =>
          have hbeq := Double.beq_iff_level (canonical_number ha).finite_toDouble
            (canonical_number hb).finite_toDouble
          simp only [looselyEqual, Json.asDouble?, hbeq, rank, Sum.inl.injEq]
      | _ => simp [looselyEqual, Json.asDouble?, Json.same, rank]
  | _ =>
      cases b with
      | num n => simp [looselyEqual, Json.asDouble?, Json.same, rank]
      | _ => simp only [looselyEqual, Json.asDouble?, hsame, rank, Sum.inr.injEq]

inductive Comparable : Json → Json → Prop where
  | numbers (m n : Json.Number) : Comparable (.num m) (.num n)
  | texts (s t : String) : Comparable (.str s) (.str t)

theorem order?_numbers (hm : m.Canonical) (hn : n.Canonical) :
    order? (.num m) (.num n) = some (compare (level m.toDouble) (level n.toDouble)) := by
  have hlt := Double.lt_iff_level hm.finite_toDouble hn.finite_toDouble
  have hgt := Double.lt_iff_level hn.finite_toDouble hm.finite_toDouble
  have hbeq := Double.beq_iff_level hm.finite_toDouble hn.finite_toDouble
  simp only [order?, hlt, hgt, hbeq]
  rcases Int.lt_trichotomy (level m.toDouble) (level n.toDouble) with h | h | h
  · rw [if_pos h, Int.compare_eq_lt.mpr h]
  · rw [if_neg (by omega), if_pos h, Int.compare_eq_eq.mpr h]
  · rw [if_neg (by omega), if_neg (by omega), if_pos h, Int.compare_eq_gt.mpr h]

theorem order?_texts (s t : String) : order? (.str s) (.str t) = some (compare s t) :=
  rfl

theorem order?_eq_none (h : ¬ Comparable a b) : order? a b = none := by
  cases a with
  | num m =>
      cases b with
      | num n => exact absurd (.numbers m n) h
      | _ => rfl
  | str s =>
      cases b with
      | str t => exact absurd (.texts s t) h
      | _ => rfl
  | _ => rfl

theorem exists_order (h : Comparable a b) (ha : Canonical depth a) (hb : Canonical depth' b) :
    ∃ o, order? a b = some o ∧ (looselyEqual a b = true ↔ o = .eq) := by
  rw [looselyEqual_iff ha hb]
  cases h with
  | numbers m n =>
      refine ⟨_, order?_numbers (canonical_number ha) (canonical_number hb), ?_⟩
      rw [Int.compare_eq_eq, rank, rank, Sum.inl.injEq]
  | texts s t =>
      refine ⟨_, order?_texts s t, ?_⟩
      simp [rank, unsigned]

theorem order?_trans (ha : Canonical depth a) (hb : Canonical depth' b) (hc : Canonical depth'' c)
    (hab : order? a b = some .lt) (hbc : order? b c = some .lt) : order? a c = some .lt := by
  have hcomparable {a b : Json} (h : order? a b = some .lt) : Comparable a b := by
    by_contra hnot
    rw [order?_eq_none hnot] at h
    cases h
  cases hcomparable hab with
  | numbers m n =>
      cases hcomparable hbc with
      | numbers _ k =>
          have hm := canonical_number ha
          have hn := canonical_number hb
          have hk := canonical_number hc
          rw [order?_numbers hm hn, Option.some.injEq, Int.compare_eq_lt] at hab
          rw [order?_numbers hn hk, Option.some.injEq, Int.compare_eq_lt] at hbc
          rw [order?_numbers hm hk, Option.some.injEq, Int.compare_eq_lt]
          exact hab.trans hbc
  | texts s t =>
      cases hcomparable hbc with
      | texts _ u =>
          rw [order?_texts, Option.some.injEq, compare_lt_iff_lt] at hab hbc ⊢
          exact hab.trans hbc

abbrev Value := { v : Json // ∃ depth, Canonical depth v }

def Comparison.ofOrdering : Ordering → Comparison
  | .lt => .less
  | .eq => .equal
  | .gt => .greater

def Comparison.orderings : List Comparison :=
  [.less, .atMost, .greater, .atLeast]

theorem equivalence_equal :
    Equivalence fun a b : Value => Comparison.equal.holds a.1 b.1 = true := by
  have hrank (a b : Value) : Comparison.equal.holds a.1 b.1 = true ↔ rank a.1 = rank b.1 := by
    obtain ⟨_, ha⟩ := a.2
    obtain ⟨_, hb⟩ := b.2
    exact looselyEqual_iff ha hb
  exact
    { refl := fun a => (hrank a a).mpr rfl
      symm := fun {a b} h => (hrank b a).mpr ((hrank a b).mp h).symm
      trans := fun {a b c} h h' => (hrank a c).mpr (((hrank a b).mp h).trans ((hrank b c).mp h')) }

theorem holds_ofOrdering {o : Ordering} (h : order? a b = some o)
    (heq : looselyEqual a b = true ↔ o = .eq) (o' : Ordering) :
    (Comparison.ofOrdering o').holds a b = true ↔ o' = o := by
  cases o' with
  | lt => simp [Comparison.ofOrdering, Comparison.holds, h, eq_comm]
  | eq => rw [Comparison.ofOrdering, Comparison.holds, heq, eq_comm]
  | gt => simp [Comparison.ofOrdering, Comparison.holds, h, eq_comm]

theorem holds_of_comparable {a b : Value} (h : Comparable a.1 b.1) :
    (∃! o, (Comparison.ofOrdering o).holds a.1 b.1 = true) ∧
      Comparison.atMost.holds a.1 b.1 =
        (Comparison.less.holds a.1 b.1 || Comparison.equal.holds a.1 b.1) ∧
      Comparison.atLeast.holds a.1 b.1 =
        (Comparison.greater.holds a.1 b.1 || Comparison.equal.holds a.1 b.1) := by
  obtain ⟨_, ha⟩ := a.2
  obtain ⟨_, hb⟩ := b.2
  obtain ⟨o, ho, heq⟩ := exists_order h ha hb
  have hequal : Comparison.equal.holds a.1 b.1 = decide (order? a.1 b.1 = some .eq) := by
    rw [Comparison.holds, Bool.eq_iff_iff, heq, ho, decide_eq_true_eq, Option.some.injEq]
  refine ⟨⟨o, (holds_ofOrdering ho heq o).mpr rfl, fun o' h' => (holds_ofOrdering ho heq o').mp h'⟩,
    ?_, ?_⟩
  · rw [hequal]
    rfl
  · rw [hequal]
    rfl

theorem holds_of_not_comparable (h : ¬ Comparable a b) (c : Comparison)
    (hc : c ∈ Comparison.orderings) : c.holds a b = false := by
  have hnone := order?_eq_none h
  simp only [Comparison.orderings, List.mem_cons, List.not_mem_nil, or_false] at hc
  rcases hc with rfl | rfl | rfl | rfl
  all_goals simp [Comparison.holds, hnone]

theorem comparisons_consistent :
    (Equivalence fun a b : Value => Comparison.equal.holds a.1 b.1 = true) ∧
    (∀ a b : Json, Comparison.different.holds a b = !Comparison.equal.holds a b) ∧
    (∀ a b : Value, Comparable a.1 b.1 →
      (∃! o, (Comparison.ofOrdering o).holds a.1 b.1 = true) ∧
      Comparison.atMost.holds a.1 b.1 =
        (Comparison.less.holds a.1 b.1 || Comparison.equal.holds a.1 b.1) ∧
      Comparison.atLeast.holds a.1 b.1 =
        (Comparison.greater.holds a.1 b.1 || Comparison.equal.holds a.1 b.1)) ∧
    (∀ a b c : Value, Comparison.less.holds a.1 b.1 = true →
      Comparison.less.holds b.1 c.1 = true → Comparison.less.holds a.1 c.1 = true) ∧
    (∀ a b : Json, ¬ Comparable a b → ∀ c ∈ Comparison.orderings, c.holds a b = false) ∧
    ∀ (ps : Properties) (name : String) (b : Json), ps.lookup name = none →
      ∀ c ∈ Comparison.orderings, c.holds (ps.value name) b = false := by
  refine ⟨equivalence_equal, fun a b => rfl, fun a b => holds_of_comparable, fun a b c hab hbc => ?_,
    fun a b => holds_of_not_comparable, fun ps name b hmissing => ?_⟩
  · obtain ⟨_, ha⟩ := a.2
    obtain ⟨_, hb⟩ := b.2
    obtain ⟨_, hc⟩ := c.2
    simp only [Comparison.holds, decide_eq_true_eq] at hab hbc ⊢
    exact order?_trans ha hb hc hab hbc
  · refine holds_of_not_comparable ?_
    rw [Properties.value, hmissing]
    rintro ⟨⟩

def overdraft : Value :=
  ⟨.num (.int (-1)), 0, .num (.int (by decide) (by decide))⟩

def half : Value :=
  ⟨.num (.double 0.5), 0, .num (.double (by decide +kernel))⟩

/-- The largest whole number. Its double is 2^64. -/
def largest : Value :=
  ⟨.num (.int (2 ^ 64 - 1)), 0, .num (.int (by decide) (by decide))⟩

theorem comparisons_consistent_largest :
    (∃! o, (Comparison.ofOrdering o).holds half.1 largest.1 = true) ∧
      Comparison.less.holds overdraft.1 largest.1 = true ∧
      ∀ c ∈ Comparison.orderings, c.holds (Properties.value [] "balance") half.1 = false := by
  obtain ⟨-, -, hways, htrans, -, hmissing⟩ := comparisons_consistent
  exact ⟨(hways half largest (.numbers _ _)).1,
    htrans overdraft half largest (by decide +kernel) (by decide +kernel),
    hmissing [] "balance" half.1 rfl⟩

end Symbology.Filter
