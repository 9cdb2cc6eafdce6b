import Symbology.Proofs.Filter.Laws

namespace Symbology.Filter

variable {ps : Properties} {op : String} {o : Operator} {fault : FilterFault} {e g : Json}

inductive Formula where
  | constant (b : Bool)
  | all (fs : List Formula)
  | any (fs : List Formula)
  | not (f : Formula)
  | compare (c : Comparison) (name : String) (expected : Json)

mutual

def Formula.json : Formula → Json
  | .constant b => .bool b
  | .all fs => allOf (jsons fs)
  | .any fs => anyOf (jsons fs)
  | .not f => notOf f.json
  | .compare c name expected => comparison c name expected

def jsons : List Formula → List Json
  | [] => []
  | f :: fs => f.json :: jsons fs

end

mutual

/-- Every operand is given its value, whether or not the others decide already. -/
def Formula.truth (ps : Properties) : Formula → Bool
  | .constant b => b
  | .all fs => (truths ps fs).all id
  | .any fs => (truths ps fs).any id
  | .not f => !f.truth ps
  | .compare c name expected => c.holds (ps.value name) expected

def truths (ps : Properties) : List Formula → List Bool
  | [] => []
  | f :: fs => f.truth ps :: truths ps fs

end

mutual

theorem evaluate_json (ps : Properties) (f : Formula) : evaluate ps f.json = .ok (f.truth ps) := by
  match f with
  | .constant b => rw [Formula.json, evaluate_bool, Formula.truth]
  | .all fs => rw [Formula.json, evaluate_allOf, evaluateAll_jsons ps fs, Formula.truth]
  | .any fs => rw [Formula.json, evaluate_anyOf, evaluateAny_jsons ps fs, Formula.truth]
  | .not f => rw [Formula.json, evaluate_notOf, evaluate_json ps f, Formula.truth]; rfl
  | .compare c name expected => rw [Formula.json, evaluate_comparison, Formula.truth]

theorem evaluateAll_jsons (ps : Properties) (fs : List Formula) :
    evaluateAll ps (jsons fs) = .ok ((truths ps fs).all id) := by
  match fs with
  | [] => rw [jsons, evaluateAll, truths, List.all_nil]
  | f :: fs =>
      rw [jsons, evaluateAll, evaluate_json ps f, truths, List.all_cons]
      cases f.truth ps with
      | true => exact evaluateAll_jsons ps fs
      | false => rfl

theorem evaluateAny_jsons (ps : Properties) (fs : List Formula) :
    evaluateAny ps (jsons fs) = .ok ((truths ps fs).any id) := by
  match fs with
  | [] => rw [jsons, evaluateAny, truths, List.any_nil]
  | f :: fs =>
      rw [jsons, evaluateAny, evaluate_json ps f, truths, List.any_cons]
      cases f.truth ps with
      | true => rfl
      | false => exact evaluateAny_jsons ps fs

end

inductive Reordered : Formula → Formula → Prop where
  | all {fs gs : List Formula} (h : fs.Perm gs) : Reordered (.all fs) (.all gs)
  | any {fs gs : List Formula} (h : fs.Perm gs) : Reordered (.any fs) (.any gs)
  | inAll {f g : Formula} (before after : List Formula) (h : Reordered f g) :
      Reordered (.all (before ++ f :: after)) (.all (before ++ g :: after))
  | inAny {f g : Formula} (before after : List Formula) (h : Reordered f g) :
      Reordered (.any (before ++ f :: after)) (.any (before ++ g :: after))
  | inNot {f g : Formula} (h : Reordered f g) : Reordered (.not f) (.not g)
  | trans {f g k : Formula} (h : Reordered f g) (h' : Reordered g k) : Reordered f k

theorem truths_eq_map (ps : Properties) (fs : List Formula) :
    truths ps fs = fs.map (Formula.truth ps) := by
  induction fs with
  | nil => rw [truths, List.map_nil]
  | cons f fs ih => rw [truths, List.map_cons, ih]

theorem Reordered.truth_eq {f g : Formula} (h : Reordered f g) (ps : Properties) :
    f.truth ps = g.truth ps := by
  induction h with
  | all h => simp only [Formula.truth, truths_eq_map, List.all_map, h.all_eq]
  | any h => simp only [Formula.truth, truths_eq_map, List.any_map, h.any_eq]
  | inAll before after h ih =>
      simp only [Formula.truth, truths_eq_map, List.map_append, List.map_cons, ih]
  | inAny before after h ih =>
      simp only [Formula.truth, truths_eq_map, List.map_append, List.map_cons, ih]
  | inNot h ih => simp only [Formula.truth, ih]
  | trans h h' ih ih' => exact ih.trans ih'

def Operator.Takes : Operator → List Json → Prop
  | .all, _ => True
  | .any, _ => True
  | .not, args => ∃ f, args = [f]
  | .compare _, args => ∃ name expected, args = [.str name, expected]

/-- What is wrong with an expression by itself, whatever its operands are. -/
inductive Flaw : Json → FilterFault → Prop where
  | unsupported {e : Json} (hbool : ∀ b, e ≠ .bool b) (harr : ∀ items, e ≠ .arr items) :
      Flaw e (.unsupported e)
  | missingOperator {items : List Json} (h : ∀ op args, items ≠ .str op :: args) :
      Flaw (.arr items) (.missingOperator (.arr items))
  | unknownOperator {op : String} (h : ∀ o : Operator, op ≠ o.name) (args : List Json) :
      Flaw (.arr (.str op :: args)) (.unknownOperator op)
  | negationOperands {args : List Json} (h : ¬ Operator.not.Takes args) :
      Flaw (.arr (.str Operator.not.name :: args))
        (.negationOperands (.arr (.str Operator.not.name :: args)))
  | comparisonOperands {c : Comparison} {args : List Json}
      (h : ¬ (Operator.compare c).Takes args) :
      Flaw (.arr (.str c.name :: args)) (.comparisonOperands c.name (.arr (.str c.name :: args)))

inductive Subfilter (g : Json) : Json → Prop where
  | whole : Subfilter g g
  | operand {o : Operator} {f : Json} {args : List Json} (ho : o.combines = true) (hf : f ∈ args)
      (h : Subfilter g f) : Subfilter g (.arr (.str o.name :: args))

theorem Formula.json_cases (f : Formula) :
    (∃ b, f.json = .bool b) ∨
      ∃ (o : Operator) (args : List Json), f.json = .arr (.str o.name :: args) ∧ o.Takes args := by
  cases f with
  | constant b => exact .inl ⟨b, rfl⟩
  | all fs => exact .inr ⟨.all, _, rfl, trivial⟩
  | any fs => exact .inr ⟨.any, _, rfl, trivial⟩
  | not f => exact .inr ⟨.not, _, rfl, _, rfl⟩
  | compare c name expected => exact .inr ⟨.compare c, _, rfl, _, _, rfl⟩

theorem Flaw.json_ne (h : Flaw e fault) (f : Formula) : f.json ≠ e := by
  rcases f.json_cases with ⟨b, hb⟩ | ⟨o, args, ho, htakes⟩
  · rw [hb]
    rintro rfl
    cases h with
    | unsupported hbool => exact hbool b rfl
  · rw [ho]
    intro he
    cases h with
    | unsupported hbool harr => exact harr _ he.symm
    | missingOperator h => cases he; exact h _ _ rfl
    | unknownOperator h => cases he; exact h o rfl
    | negationOperands h =>
        obtain ⟨hname, rfl⟩ := List.cons.inj (Json.arr.inj he)
        obtain rfl := Operator.name_injective (Json.str.inj hname)
        exact h htakes
    | @comparisonOperands c _ h =>
        obtain ⟨hname, rfl⟩ := List.cons.inj (Json.arr.inj he)
        obtain rfl : o = .compare c := Operator.name_injective (Json.str.inj hname)
        exact h htakes

theorem error_of_evaluateAll {fs : List Json} (h : evaluateAll ps fs = .error fault) :
    ∃ f ∈ fs, evaluate ps f = .error fault := by
  induction fs with
  | nil =>
      rw [evaluateAll] at h
      cases h
  | cons f fs ih =>
      rw [evaluateAll] at h
      split at h
      · obtain ⟨g, hg, herror⟩ := ih h
        exact ⟨g, List.mem_cons_of_mem f hg, herror⟩
      · exact ⟨f, List.mem_cons_self, h⟩

theorem error_of_map {r : Except FilterFault Bool} {f : Bool → Bool}
    (h : r.map f = .error fault) : r = .error fault := by
  cases r with
  | ok b => cases h
  | error fault' =>
      cases h
      rfl

theorem error_of_evaluateAny {fs : List Json} (h : evaluateAny ps fs = .error fault) :
    ∃ f ∈ fs, evaluate ps f = .error fault := by
  rw [evaluateAny_eq] at h
  obtain ⟨_, hmem, herror⟩ := error_of_evaluateAll (error_of_map h)
  obtain ⟨f, hf, rfl⟩ := List.mem_map.mp hmem
  rw [evaluate_notOf] at herror
  exact ⟨f, hf, error_of_map herror⟩

theorem flaw_or_operand {o : Operator} {args : List Json}
    (h : evaluate ps (.arr (.str o.name :: args)) = .error fault) :
    Flaw (.arr (.str o.name :: args)) fault ∨
      o.combines = true ∧ ∃ f ∈ args, evaluate ps f = .error fault := by
  rw [evaluate.eq_def] at h
  simp only [Operator.ofName?_name] at h
  cases o with
  | all => exact .inr ⟨rfl, error_of_evaluateAll h⟩
  | any => exact .inr ⟨rfl, error_of_evaluateAny h⟩
  | not =>
      simp only at h
      split at h
      · exact .inr ⟨rfl, _, List.mem_cons_self, error_of_map h⟩
      · next hone =>
          cases h
          refine .inl (.negationOperands ?_)
          rintro ⟨f, hf⟩
          exact hone f hf
  | compare c =>
      simp only at h
      split at h
      · cases h
      · next htwo =>
          cases h
          refine .inl (.comparisonOperands ?_)
          rintro ⟨name, expected, hargs⟩
          exact htwo name expected hargs

theorem flaw_of_unknown {args : List Json} (hop : ∀ o : Operator, op ≠ o.name)
    (h : evaluate ps (.arr (.str op :: args)) = .error fault) :
    Flaw (.arr (.str op :: args)) fault := by
  have hnone : Operator.ofName? op = none := by
    rw [Option.eq_none_iff_forall_ne_some]
    intro o ho
    exact hop o (Operator.ofName?_eq_some_iff.mp ho)
  rw [evaluate.eq_def] at h
  simp only [hnone] at h
  cases h
  exact .unknownOperator hop args

theorem exists_flaw (e : Json) (h : evaluate ps e = .error fault) :
    ∃ g, Subfilter g e ∧ Flaw g fault := by
  cases e with
  | bool b =>
      rw [evaluate_bool] at h
      cases h
  | arr items =>
      cases items with
      | nil =>
          simp only [evaluate, Except.error.injEq] at h
          exact ⟨_, .whole, h ▸ .missingOperator (by simp)⟩
      | cons first args =>
          cases first with
          | str op =>
              by_cases hop : ∃ o : Operator, op = o.name
              · obtain ⟨o, rfl⟩ := hop
                rcases flaw_or_operand h with hflaw | ⟨ho, f, hf, herror⟩
                · exact ⟨_, .whole, hflaw⟩
                · obtain ⟨g, hg, hflaw⟩ := exists_flaw f herror
                  exact ⟨g, .operand ho hf hg, hflaw⟩
              · rw [not_exists] at hop
                exact ⟨_, .whole, flaw_of_unknown hop h⟩
          | _ =>
              simp only [evaluate, Except.error.injEq] at h
              exact ⟨_, .whole, h ▸ .missingOperator (by simp)⟩
  | _ =>
      simp only [evaluate, Except.error.injEq] at h
      exact ⟨_, .whole, h ▸ .unsupported (by simp) (by simp)⟩
termination_by e

theorem expressions_json (ps : Properties) (f : Formula) :
    expressions f.json ps = .ok (f.truth ps) := by
  rw [expressions, evaluate_json]
  rfl

theorem exists_flaw_of_expressions {err : StyleError} (h : expressions e ps = .error err) :
    ∃ g fault, Subfilter g e ∧ Flaw g fault ∧ err = .filterEvaluation fault := by
  rw [expressions] at h
  cases he : evaluate ps e with
  | ok b =>
      rw [he] at h
      cases h
  | error fault =>
      rw [he] at h
      cases h
      obtain ⟨g, hg, hflaw⟩ := exists_flaw e he
      exact ⟨g, fault, hg, hflaw, rfl⟩

theorem expressions_by_truth (ps : Properties) :
    (∀ f : Formula, expressions f.json ps = .ok (f.truth ps)) ∧
    (∀ f g : Formula, Reordered f g → expressions f.json ps = expressions g.json ps) ∧
    ∀ e err, expressions e ps = .error err → ∃ g fault, Subfilter g e ∧
      (∀ f : Formula, f.json ≠ g) ∧ Flaw g fault ∧ err = .filterEvaluation fault := by
  refine ⟨expressions_json ps, fun f g h => ?_, fun e err h => ?_⟩
  · rw [expressions_json, expressions_json, h.truth_eq ps]
  · obtain ⟨g, fault, hg, hflaw, rfl⟩ := exists_flaw_of_expressions h
    exact ⟨g, fault, hg, hflaw.json_ne, hflaw, rfl⟩

def sounding : Properties :=
  [("depth", .num (.int 12)), ("kind", .str "wreck")]

def isDeep : Formula :=
  .compare .greater "depth" (.num (.int 10))

def isClear : Formula :=
  .any [.not (.compare .equal "kind" (.str "wreck")), .compare .equal "swept" (.bool true)]

def misspelt : Json :=
  allOf [isDeep.json, notOf (.arr [.str "~=", .str "kind", .str "wreck"])]

theorem expressions_by_truth_soundings :
    expressions (Formula.all [isDeep, isClear]).json sounding =
      expressions (Formula.all [isClear, isDeep]).json sounding ∧
    ∃ g fault, Subfilter g misspelt ∧ (∀ f : Formula, f.json ≠ g) ∧ Flaw g fault ∧
      StyleError.filterEvaluation (.unknownOperator "~=") = .filterEvaluation fault := by
  obtain ⟨-, hreordered, herror⟩ := expressions_by_truth sounding
  refine ⟨hreordered _ _ (.all (List.Perm.swap _ _ _)), herror misspelt _ ?_⟩
  rfl

end Symbology.Filter
