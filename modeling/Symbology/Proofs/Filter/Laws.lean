import Symbology.Proofs.Filter.Compared

namespace Symbology.Filter

variable {ps : Properties} {op : String} {o : Operator}

def Comparison.name : Comparison → String
  | .equal => "=="
  | .different => "!="
  | .less => "<"
  | .atMost => "<="
  | .greater => ">"
  | .atLeast => ">="
  | .contains => "*="

def Operator.name : Operator → String
  | .all => "&&"
  | .any => "||"
  | .not => "!"
  | .compare c => c.name

theorem Operator.ofName?_eq_some_iff : ofName? op = some o ↔ op = o.name := by
  constructor
  · intro h
    unfold ofName? at h
    split at h <;> cases h <;> rfl
  · rintro rfl
    cases o with
    | all | any | not => rfl
    | compare c => cases c <;> rfl

@[simp] theorem Operator.ofName?_name (o : Operator) : ofName? o.name = some o :=
  ofName?_eq_some_iff.mpr rfl

theorem Operator.name_injective {o o' : Operator} (h : o.name = o'.name) : o = o' :=
  Option.some.inj ((ofName?_name o).symm.trans (ofName?_eq_some_iff.mpr h))

def allOf (fs : List Json) : Json :=
  .arr (.str Operator.all.name :: fs)

def anyOf (fs : List Json) : Json :=
  .arr (.str Operator.any.name :: fs)

def notOf (f : Json) : Json :=
  .arr [.str Operator.not.name, f]

def comparison (c : Comparison) (name : String) (expected : Json) : Json :=
  .arr [.str c.name, .str name, expected]

@[simp] theorem evaluate_bool (b : Bool) : evaluate ps (.bool b) = .ok b := by
  rw [evaluate]

@[simp] theorem evaluate_allOf (fs : List Json) : evaluate ps (allOf fs) = evaluateAll ps fs := by
  rw [allOf, evaluate.eq_def]
  simp only [Operator.ofName?_name]

@[simp] theorem evaluate_anyOf (fs : List Json) : evaluate ps (anyOf fs) = evaluateAny ps fs := by
  rw [anyOf, evaluate.eq_def]
  simp only [Operator.ofName?_name]

@[simp] theorem evaluate_notOf (f : Json) :
    evaluate ps (notOf f) = (evaluate ps f).map (!·) := by
  rw [notOf, evaluate.eq_def]
  simp only [Operator.ofName?_name]

@[simp] theorem evaluate_comparison (c : Comparison) (name : String) (expected : Json) :
    evaluate ps (comparison c name expected) = .ok (c.holds (ps.value name) expected) := by
  have hop : Operator.ofName? c.name = some (.compare c) := Operator.ofName?_name (.compare c)
  rw [comparison, evaluate.eq_def]
  simp only [hop]

variable (ps)

theorem evaluateAny_map_notOf (fs : List Json) :
    evaluateAny ps (fs.map notOf) = (evaluateAll ps fs).map (!·) := by
  induction fs with
  | nil => rw [List.map_nil, evaluateAny, evaluateAll]; rfl
  | cons f fs ih =>
      rw [List.map_cons, evaluateAny, evaluateAll, evaluate_notOf]
      cases evaluate ps f with
      | error fault => rfl
      | ok b =>
          cases b with
          | true => exact ih
          | false => rfl

theorem evaluateAll_map_notOf (fs : List Json) :
    evaluateAll ps (fs.map notOf) = (evaluateAny ps fs).map (!·) := by
  induction fs with
  | nil => rw [List.map_nil, evaluateAny, evaluateAll]; rfl
  | cons f fs ih =>
      rw [List.map_cons, evaluateAny, evaluateAll, evaluate_notOf]
      cases evaluate ps f with
      | error fault => rfl
      | ok b =>
          cases b with
          | true => rfl
          | false => exact ih

theorem map_not_map_not (r : Except FilterFault Bool) : (r.map (!·)).map (!·) = r := by
  cases r with
  | error fault => rfl
  | ok b => exact congrArg Except.ok (Bool.not_not b)

theorem evaluate_notOf_notOf (f : Json) : evaluate ps (notOf (notOf f)) = evaluate ps f := by
  rw [evaluate_notOf, evaluate_notOf, map_not_map_not]

/-- Some operand holds unless all are denied, so what is proved of the one loop goes for the other. -/
theorem evaluateAny_eq (fs : List Json) :
    evaluateAny ps fs = (evaluateAll ps (fs.map notOf)).map (!·) := by
  rw [evaluateAll_map_notOf, map_not_map_not]

theorem evaluateAll_append (fs gs : List Json) :
    evaluateAll ps (fs ++ gs) =
      match evaluateAll ps fs with
      | .ok true => evaluateAll ps gs
      | r => r := by
  induction fs with
  | nil => rw [List.nil_append, evaluateAll]
  | cons f fs ih =>
      rw [List.cons_append, evaluateAll, evaluateAll]
      cases evaluate ps f with
      | error fault => rfl
      | ok b =>
          cases b with
          | true => exact ih
          | false => rfl

theorem evaluateAny_append (fs gs : List Json) :
    evaluateAny ps (fs ++ gs) =
      match evaluateAny ps fs with
      | .ok false => evaluateAny ps gs
      | r => r := by
  rw [evaluateAny_eq, List.map_append, evaluateAll_append, evaluateAny_eq ps fs,
    evaluateAny_eq ps gs]
  cases evaluateAll ps (fs.map notOf) with
  | error fault => rfl
  | ok b => cases b <;> rfl

theorem evaluateAll_allOf_cons (inner after : List Json) :
    evaluateAll ps (allOf inner :: after) = evaluateAll ps (inner ++ after) := by
  rw [evaluateAll, evaluate_allOf]
  exact (evaluateAll_append ps inner after).symm

theorem evaluateAny_anyOf_cons (inner after : List Json) :
    evaluateAny ps (anyOf inner :: after) = evaluateAny ps (inner ++ after) := by
  rw [evaluateAny, evaluate_anyOf]
  exact (evaluateAny_append ps inner after).symm

theorem laws_of_evaluation :
    (∀ fs, evaluate ps (notOf (allOf fs)) = evaluate ps (anyOf (fs.map notOf))) ∧
    (∀ fs, evaluate ps (notOf (anyOf fs)) = evaluate ps (allOf (fs.map notOf))) ∧
    (∀ f, evaluate ps (notOf (notOf f)) = evaluate ps f) ∧
    (∀ before inner after, evaluate ps (allOf (before ++ allOf inner :: after)) =
      evaluate ps (allOf (before ++ inner ++ after))) ∧
    ∀ before inner after, evaluate ps (anyOf (before ++ anyOf inner :: after)) =
      evaluate ps (anyOf (before ++ inner ++ after)) := by
  refine ⟨fun fs => ?_, fun fs => ?_, evaluate_notOf_notOf ps, fun before inner after => ?_,
    fun before inner after => ?_⟩
  · rw [evaluate_notOf, evaluate_allOf, evaluate_anyOf, evaluateAny_map_notOf]
  · rw [evaluate_notOf, evaluate_anyOf, evaluate_allOf, evaluateAll_map_notOf]
  · rw [evaluate_allOf, evaluate_allOf, List.append_assoc, evaluateAll_append,
      evaluateAll_allOf_cons, ← evaluateAll_append]
  · rw [evaluate_anyOf, evaluate_anyOf, List.append_assoc, evaluateAny_append,
      evaluateAny_anyOf_cons, ← evaluateAny_append]

example : evaluate [] (allOf [.bool true, allOf [], .arr [], .bool false]) =
    .error (.missingOperator (.arr [])) := by
  rfl

end Symbology.Filter
