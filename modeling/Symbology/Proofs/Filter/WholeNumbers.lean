import Symbology.Proofs.Double.Whole
import Symbology.Proofs.Filter.Laws

namespace Symbology.Filter

open Double (nearest beq_ofInt_iff ofInt_lt_iff nearest_eq_iff nearest_lt_iff nearest_mono
  natAbs_sub_le_of_nearest_eq)

abbrev Whole := { n : Int // -2 ^ 63 ≤ n ∧ n < 2 ^ 64 }

def Whole.json (n : Whole) : Json :=
  .num (.int n.1)

variable {ps : Properties} {name : String} {m n : Whole}

theorem Whole.natAbs_lt (n : Whole) : n.1.natAbs < 2 ^ 64 := by
  obtain ⟨n, hlow, hhigh⟩ := n
  change n.natAbs < 2 ^ 64
  omega

theorem looselyEqual_whole (m n : Whole) :
    looselyEqual m.json n.json = decide (nearest m.1 = nearest n.1) := by
  rw [Bool.eq_iff_iff, decide_eq_true_eq]
  exact beq_ofInt_iff m.natAbs_lt n.natAbs_lt

theorem order?_eq_lt_iff (a b : Json.Number) :
    order? (.num a) (.num b) = some .lt ↔ a.toDouble < b.toDouble := by
  rw [order?]
  by_cases hlt : a.toDouble < b.toDouble
  · exact iff_of_true (if_pos hlt) hlt
  · simp only [if_neg hlt]
    split_ifs <;> simp [hlt]

section

variable (h : ps.lookup name = some m.json)
include h

theorem expressions_equal (n : Whole) :
    expressions (comparison .equal name n.json) ps = .ok (decide (nearest m.1 = nearest n.1)) := by
  rw [expressions, evaluate_comparison, Properties.value, h, Option.getD_some, Comparison.holds,
    looselyEqual_whole]
  rfl

theorem expressions_less (n : Whole) :
    expressions (comparison .less name n.json) ps = .ok (decide (nearest m.1 < nearest n.1)) := by
  have hless : (order? m.json n.json = some .lt) ↔ nearest m.1 < nearest n.1 :=
    (order?_eq_lt_iff _ _).trans (ofInt_lt_iff m.natAbs_lt n.natAbs_lt)
  rw [expressions, evaluate_comparison, Properties.value, h, Option.getD_some, Comparison.holds,
    decide_eq_decide.mpr hless]
  rfl

end

structure ComparedAsDoubles (ps : Properties) (name : String) (m n : Whole) : Prop where
  equal : expressions (comparison .equal name n.json) ps =
    .ok (decide (nearest m.1 = nearest n.1))
  less : expressions (comparison .less name n.json) ps =
    .ok (decide (nearest m.1 < nearest n.1))
  /-- One number below 2^53 is enough. -/
  precise : m.1.natAbs < 2 ^ 53 ∨ n.1.natAbs < 2 ^ 53 →
    (expressions (comparison .equal name n.json) ps = .ok true ↔ m = n) ∧
    (expressions (comparison .less name n.json) ps = .ok true ↔ m < n)
  ordered : expressions (comparison .less name n.json) ps = .ok true → m < n
  close : expressions (comparison .equal name n.json) ps = .ok true →
    2 ^ 53 * (m.1 - n.1).natAbs ≤ m.1.natAbs + n.1.natAbs

theorem whole_numbers_as_doubles (ps : Properties) (name : String) (m n : Whole)
    (h : ps.lookup name = some m.json) : ComparedAsDoubles ps name m n := by
  have hequal : expressions (comparison .equal name n.json) ps = .ok true ↔
      nearest m.1 = nearest n.1 := by
    rw [expressions_equal h, Except.ok.injEq, decide_eq_true_eq]
  have hless : expressions (comparison .less name n.json) ps = .ok true ↔
      nearest m.1 < nearest n.1 := by
    rw [expressions_less h, Except.ok.injEq, decide_eq_true_eq]
  exact
    { equal := expressions_equal h n
      less := expressions_less h n
      precise := fun hsmall => by
        rw [hequal, hless, nearest_eq_iff hsmall, nearest_lt_iff hsmall, Subtype.ext_iff]
        exact ⟨Iff.rfl, Iff.rfl⟩
      ordered := fun hlt => lt_of_not_ge fun hle => (nearest_mono hle).not_gt (hless.mp hlt)
      close := fun heq => natAbs_sub_le_of_nearest_eq (hequal.mp heq) }

/-- The first whole number that is not a double, and the double nearest to it. -/
def tile : Whole := ⟨2 ^ 53 + 1, by decide⟩

def otherTile : Whole := ⟨2 ^ 53, by decide⟩

def tileProperties : Properties :=
  [("id", tile.json)]

theorem whole_numbers_as_doubles_tile :
    tileProperties.lookup "id" = some tile.json ∧
      ComparedAsDoubles tileProperties "id" tile otherTile :=
  ⟨rfl, whole_numbers_as_doubles tileProperties "id" tile otherTile rfl⟩

theorem tiles_confused :
    ¬ ∀ (ps : Properties) (name : String) (m n : Whole), ps.lookup name = some m.json →
      (expressions (comparison .equal name n.json) ps = .ok true ↔ m = n) := by
  intro h
  have hequal : looselyEqual tile.json otherTile.json = true := by decide +kernel
  have hpassed : expressions (comparison .equal "id" otherTile.json) tileProperties = .ok true := by
    rw [expressions, evaluate_comparison, ← hequal]
    rfl
  exact absurd ((h tileProperties "id" tile otherTile rfl).mp hpassed) (by decide)

end Symbology.Filter
