import Symbology.Proofs.Double.Ordered
import Symbology.Proofs.Json.Unique

namespace Symbology.Json

open Double (unsignedZero unsignedZero_eq_iff)

def Number.unsigned : Number → Number
  | .int n => .int n
  | .double x => .double (unsignedZero x)

theorem Number.same_iff {m n : Number} (hm : (Json.num m).IsFinite)
    (hn : (Json.num n).IsFinite) : m.same n = true ↔ m.unsigned = n.unsigned := by
  cases m with
  | int m => cases n <;> simp [Number.same, Number.unsigned]
  | double x =>
      cases n with
      | int n => simp [Number.same, Number.unsigned]
      | double y =>
          rw [Number.same, Double.beq_iff_level (finite_double hm) (finite_double hn),
            Number.unsigned, Number.unsigned, Number.double.injEq, unsignedZero_eq_iff]

mutual

def unsigned : Json → Json
  | .null => .null
  | .bool b => .bool b
  | .num n => .num n.unsigned
  | .str s => .str s
  | .arr items => .arr (unsignedItems items)
  | .obj members => .obj (unsignedMembers members)

def unsignedItems : List Json → List Json
  | [] => []
  | v :: rest => unsigned v :: unsignedItems rest

def unsignedMembers : List (String × Json) → List (String × Json)
  | [] => []
  | (key, v) :: rest => (key, unsigned v) :: unsignedMembers rest

end

mutual

theorem same_iff (a b : Json) (ha : a.IsFinite) (hb : b.IsFinite) :
    same a b = true ↔ unsigned a = unsigned b := by
  match a with
  | .null | .bool _ | .str _ => cases b <;> simp [same, unsigned]
  | .num m =>
      cases b with
      | num n => rw [same, Number.same_iff ha hb, unsigned, unsigned, Json.num.injEq]
      | _ => simp [same, unsigned]
  | .arr vs =>
      cases b with
      | arr ws => rw [same, sameItems_iff vs ws ha.item hb.item, unsigned, unsigned, Json.arr.injEq]
      | _ => simp [same, unsigned]
  | .obj ms =>
      cases b with
      | obj ns =>
          rw [same, sameMembers_iff ms ns ha.member hb.member, unsigned, unsigned, Json.obj.injEq]
      | _ => simp [same, unsigned]

theorem sameItems_iff (vs ws : List Json) (hvs : ∀ v ∈ vs, v.IsFinite)
    (hws : ∀ w ∈ ws, w.IsFinite) :
    sameItems vs ws = true ↔ unsignedItems vs = unsignedItems ws := by
  match vs with
  | [] => cases ws <;> simp [sameItems, unsignedItems]
  | v :: vs =>
      cases ws with
      | nil => simp [sameItems, unsignedItems]
      | cons w ws =>
          rw [List.forall_mem_cons] at hvs hws
          rw [sameItems, Bool.and_eq_true, same_iff v w hvs.1 hws.1,
            sameItems_iff vs ws hvs.2 hws.2, unsignedItems, unsignedItems, List.cons.injEq]

theorem sameMembers_iff (ms ns : List (String × Json)) (hms : ∀ m ∈ ms, m.2.IsFinite)
    (hns : ∀ n ∈ ns, n.2.IsFinite) :
    sameMembers ms ns = true ↔ unsignedMembers ms = unsignedMembers ns := by
  match ms with
  | [] => cases ns <;> simp [sameMembers, unsignedMembers]
  | (k, v) :: ms =>
      cases ns with
      | nil => simp [sameMembers, unsignedMembers]
      | cons n ns =>
          obtain ⟨l, w⟩ := n
          rw [List.forall_mem_cons] at hms hns
          rw [sameMembers, Bool.and_eq_true, Bool.and_eq_true, decide_eq_true_eq,
            same_iff v w hms.1 hns.1, sameMembers_iff ms ns hms.2 hns.2, unsignedMembers,
            unsignedMembers, List.cons.injEq, Prod.mk.injEq]

end

end Symbology.Json
