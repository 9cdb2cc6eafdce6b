import Symbology.Filter.Evaluate

namespace Symbology.Filter

def Operator.combines : Operator → Bool
  | .compare _ => false
  | _ => true

inductive Compares : Json → String → Prop where
  | comparison {op name : String} {c : Comparison} {expected : Json}
      (hop : Operator.ofName? op = some (.compare c)) :
      Compares (.arr [.str op, .str name, expected]) name
  | operand {op name : String} {o : Operator} {f : Json} {args : List Json}
      (hop : Operator.ofName? op = some o) (ho : o.combines = true) (hf : f ∈ args)
      (h : Compares f name) : Compares (.arr (.str op :: args)) name

/-- Both have the same value for each of these attributes, null for a missing one. -/
def AgreeOn (names : String → Prop) (ps ps' : Properties) : Prop :=
  ∀ name, names name → ps.value name = ps'.value name

variable {ps ps' : Properties}

mutual

theorem evaluate_congr (f : Json) (h : AgreeOn (Compares f) ps ps') :
    evaluate ps f = evaluate ps' f := by
  match f with
  | .arr (.str op :: args) =>
      have hargs {o : Operator} (hop : Operator.ofName? op = some o) (ho : o.combines = true) :
          ∀ g ∈ args, AgreeOn (Compares g) ps ps' :=
        fun g hg name hname => h name (.operand hop ho hg hname)
      rw [evaluate.eq_def ps, evaluate.eq_def ps']
      dsimp only
      split
      · rfl
      · next hop => exact evaluateAll_congr args (hargs hop rfl)
      · next hop => exact evaluateAny_congr args (hargs hop rfl)
      · next hop =>
          split
          · next g => rw [evaluate_congr g (hargs hop rfl g List.mem_cons_self)]
          · rfl
      · next hop =>
          split
          · rw [h _ (.comparison hop)]
          · rfl
  | .null | .bool _ | .num _ | .str _ | .obj _ | .arr [] | .arr (.null :: _) | .arr (.bool _ :: _)
  | .arr (.num _ :: _) | .arr (.arr _ :: _) | .arr (.obj _ :: _) => simp only [evaluate]

theorem evaluateAll_congr (fs : List Json) (h : ∀ f ∈ fs, AgreeOn (Compares f) ps ps') :
    evaluateAll ps fs = evaluateAll ps' fs := by
  match fs with
  | [] => simp only [evaluateAll]
  | f :: fs =>
      rw [evaluateAll, evaluateAll, evaluate_congr f (h f List.mem_cons_self),
        evaluateAll_congr fs fun g hg => h g (List.mem_cons_of_mem f hg)]

theorem evaluateAny_congr (fs : List Json) (h : ∀ f ∈ fs, AgreeOn (Compares f) ps ps') :
    evaluateAny ps fs = evaluateAny ps' fs := by
  match fs with
  | [] => simp only [evaluateAny]
  | f :: fs =>
      rw [evaluateAny, evaluateAny, evaluate_congr f (h f List.mem_cons_self),
        evaluateAny_congr fs fun g hg => h g (List.mem_cons_of_mem f hg)]

end

end Symbology.Filter
