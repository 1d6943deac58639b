import TablePlan.Condition.Meaning
import TablePlan.Proofs.Success

/-!
Aggregate calls among the calls of functions. A call is an aggregate by its name, its argument, its
window and the word before its argument; whatever else stands around the argument is read past.
-/

namespace TablePlan.Condition

open Success

variable {clause : String} {path : List Ident} {modifiers : CallModifiers}

namespace CallModifiers

variable {argument : AggregateFunction → Except ConditionError (Option ColumnRef)}

theorem aggregate_of_none (other : AggregateFunction.ofName? (pathText path) = Option.none) :
    modifiers.aggregate clause path argument =
      unsupported clause s!"function '{pathText path}'" := by
  simp only [aggregate, other]

theorem aggregate_of_some {function : AggregateFunction}
    (named : AggregateFunction.ofName? (pathText path) = some function) :
    modifiers.aggregate clause path argument =
      if modifiers.window.isSome then unsupported clause "window function"
      else argument function >>= fun ref => .ok ⟨function, ref⟩ := by
  simp only [aggregate, named]
  rfl

theorem aggregate_eq_ok {call : AggregateCall} :
    modifiers.aggregate clause path argument = .ok call ↔
    AggregateFunction.ofName? (pathText path) = some call.function ∧
      modifiers.window = Option.none ∧ argument call.function = .ok call.argument := by
  cases named : AggregateFunction.ofName? (pathText path) with
  | none =>
    rw [aggregate_of_none named]
    exact ⟨nofun, nofun⟩
  | some function =>
    rw [aggregate_of_some named]
    cases modifiers.window with
    | some _ => exact ⟨nofun, nofun⟩
    | none =>
      change (argument function >>= fun ref => .ok ⟨function, ref⟩) = .ok call ↔ _
      rw [bind_eq_ok]
      constructor
      · rintro ⟨ref, made, same⟩
        cases same
        exact ⟨rfl, rfl, made⟩
      · rintro ⟨same, _, made⟩
        cases same
        exact ⟨_, made, rfl⟩

theorem aggregate_eq_error {e : ConditionError}
    (failed : modifiers.aggregate clause path argument = .error e) :
    (∃ feature, e = .unsupported clause feature) ∨
      ∃ function, argument function = .error e := by
  cases named : AggregateFunction.ofName? (pathText path) with
  | none =>
    rw [aggregate_of_none named] at failed
    cases failed
    exact .inl ⟨_, rfl⟩
  | some function =>
    rw [aggregate_of_some named] at failed
    split at failed
    · cases failed
      exact .inl ⟨_, rfl⟩
    · rw [bind_eq_error] at failed
      obtain failed | ⟨ref, _, failed⟩ := failed
      · exact .inr ⟨function, failed⟩
      · cases failed

end CallModifiers

theorem rowsArgument_eq_ok {arguments : CallArguments} {function : AggregateFunction}
    {ref : Option ColumnRef} : rowsArgument clause modifiers path arguments function = .ok ref ↔
      arguments = .rows ∧ modifiers.duplicates = none ∧ function = .count ∧ ref = none := by
  unfold rowsArgument
  cases arguments with
  | absent => exact ⟨nofun, nofun⟩
  | listed _ =>
    refine ⟨fun ok => ?_, nofun⟩
    dsimp only at ok
    split at ok <;> cases ok
  | rows =>
    cases modifiers.duplicates with
    | some _ => exact ⟨nofun, nofun⟩
    | none =>
      by_cases count : function = .count
      · simp only [count, if_true]
        exact ⟨fun ok => by cases ok; simp, fun ⟨_, _, _, same⟩ => same ▸ rfl⟩
      · simp only [count, if_false]
        exact ⟨nofun, nofun⟩

theorem rowsArgument_eq_error {arguments : CallArguments} {function : AggregateFunction}
    {e : ConditionError}
    (failed : rowsArgument clause modifiers path arguments function = .error e) :
    ∃ feature, e = .unsupported clause feature := by
  unfold rowsArgument at failed
  dsimp only at failed
  split at failed
  · cases failed
    exact ⟨_, rfl⟩
  · split at failed
    · cases failed
      exact ⟨_, rfl⟩
    · split at failed
      · cases failed
      · cases failed
        exact ⟨_, rfl⟩
  · split at failed <;> cases failed <;> exact ⟨_, rfl⟩

def columnArgument (clause : String) (path : List Ident) (modifiers : CallModifiers)
    (argument : Expr) : Except ConditionError (Option ColumnRef) :=
  if modifiers.duplicates.isSome then unsupported clause "DISTINCT aggregate"
  else argument.operand clause >>= fun operand =>
    match operand with
    | .column ref => .ok (some ref)
    | _ => unsupported clause s!"non-column argument to '{pathText path}'"

theorem columnArgument_eq_ok {argument : Expr} {ref : Option ColumnRef} :
    columnArgument clause path modifiers argument = .ok ref ↔ modifiers.duplicates = none ∧
      ∃ column, argument.operand clause = .ok (.column column) ∧ ref = some column := by
  unfold columnArgument
  cases modifiers.duplicates with
  | some _ => exact ⟨nofun, nofun⟩
  | none =>
    simp only [Option.isSome_none, Bool.false_eq_true, if_false, bind_eq_ok, true_and]
    constructor
    · rintro ⟨operand, read, made⟩
      cases operand with
      | column column =>
        cases made
        exact ⟨column, read, rfl⟩
      | _ => cases made
    · rintro ⟨column, read, rfl⟩
      exact ⟨_, read, rfl⟩

theorem columnArgument_eq_error {argument : Expr} {e : ConditionError}
    (failed : columnArgument clause path modifiers argument = .error e) :
    (∃ feature, e = .unsupported clause feature) ∨ argument.operand clause = .error e := by
  unfold columnArgument at failed
  split at failed
  · cases failed
    exact .inl ⟨_, rfl⟩
  · rw [bind_eq_error] at failed
    obtain failed | ⟨operand, _, failed⟩ := failed
    · exact .inr failed
    · cases operand <;> cases failed <;> exact .inl ⟨_, rfl⟩

namespace Expr

theorem operand_call (argument : Expr) : (call path argument modifiers).operand clause =
    modifiers.aggregate clause path (fun _ => columnArgument clause path modifiers argument) >>=
      fun made => .ok (.aggregate made) :=
  rfl

theorem operand_callOver (arguments : CallArguments) :
    (callOver path arguments modifiers).operand clause =
      modifiers.aggregate clause path (rowsArgument clause modifiers path arguments) >>=
        fun made => .ok (.aggregate made) :=
  rfl

theorem operand_call_eq_ok {argument : Expr} {o : Operand} :
    (call path argument modifiers).operand clause = .ok o ↔
      ∃ function ref, AggregateFunction.ofName? (pathText path) = some function ∧
        modifiers.window = none ∧ modifiers.duplicates = none ∧
        argument.operand clause = .ok (.column ref) ∧ o = .aggregate ⟨function, some ref⟩ := by
  rw [operand_call, bind_eq_ok]
  simp only [CallModifiers.aggregate_eq_ok, columnArgument_eq_ok]
  constructor
  · rintro ⟨⟨function, _⟩, ⟨named, window, duplicates, ref, read, rfl⟩, same⟩
    cases same
    exact ⟨function, ref, named, window, duplicates, read, rfl⟩
  · rintro ⟨function, ref, named, window, duplicates, read, rfl⟩
    exact ⟨⟨function, some ref⟩, ⟨named, window, duplicates, ref, read, rfl⟩, rfl⟩

theorem operand_callOver_eq_ok {arguments : CallArguments} {o : Operand} :
    (callOver path arguments modifiers).operand clause = .ok o ↔
      AggregateFunction.ofName? (pathText path) = some .count ∧ modifiers.window = none ∧
        modifiers.duplicates = none ∧ arguments = .rows ∧ o = .aggregate ⟨.count, none⟩ := by
  rw [operand_callOver, bind_eq_ok]
  simp only [CallModifiers.aggregate_eq_ok, rowsArgument_eq_ok]
  constructor
  · rintro ⟨⟨_, _⟩, ⟨named, window, rfl, duplicates, rfl, rfl⟩, same⟩
    cases same
    exact ⟨named, window, duplicates, rfl, rfl⟩
  · rintro ⟨named, window, duplicates, rfl, rfl⟩
    exact ⟨⟨.count, none⟩, ⟨named, window, rfl, duplicates, rfl, rfl⟩, rfl⟩

theorem operand_call_eq_error {argument : Expr} {e : ConditionError}
    (failed : (call path argument modifiers).operand clause = .error e) :
    (∃ feature, e = .unsupported clause feature) ∨ argument.operand clause = .error e := by
  rw [operand_call, bind_eq_error] at failed
  obtain failed | ⟨_, _, failed⟩ := failed
  · obtain refused | ⟨_, failed⟩ := CallModifiers.aggregate_eq_error failed
    · exact .inl refused
    · exact columnArgument_eq_error failed
  · cases failed

theorem operand_callOver_eq_error {arguments : CallArguments} {e : ConditionError}
    (failed : (callOver path arguments modifiers).operand clause = .error e) :
    ∃ feature, e = .unsupported clause feature := by
  rw [operand_callOver, bind_eq_error] at failed
  obtain failed | ⟨_, _, failed⟩ := failed
  · obtain refused | ⟨_, failed⟩ := CallModifiers.aggregate_eq_error failed
    · exact refused
    · exact rowsArgument_eq_error failed
  · cases failed

end Expr

/-- What is looked at around the argument of a call: the word before it and the window. -/
def CallModifiers.essential (m : CallModifiers) : CallModifiers :=
  ⟨.none, m.duplicates, [], .none, .none, .none, m.window⟩

namespace Expr

/-- An expression with nothing around the arguments of its calls but what is looked at. -/
def essential : Expr → Expr
  | .nested inner => .nested inner.essential
  | .not inner => .not inner.essential
  | .signed negative inner => .signed negative inner.essential
  | .binary left op right => .binary left.essential op right.essential
  | .isNull inner negated => .isNull inner.essential negated
  | .call path argument modifiers => .call path argument.essential modifiers.essential
  | .callOver path arguments modifiers => .callOver path arguments modifiers.essential
  | e => e

theorem operand_essential {e : Expr} {o : Operand} :
    e.essential.operand clause = .ok o ↔ e.operand clause = .ok o := by
  induction e generalizing o with
  | nested inner ih => exact ih
  | signed negative inner ih =>
    simp only [essential, operand, bind_eq_ok, ih]
  | call path argument modifiers ih =>
    simp only [essential, operand_call_eq_ok, ih, CallModifiers.essential]
  | callOver path arguments modifiers =>
    simp only [essential, operand_callOver_eq_ok, CallModifiers.essential]
  | name _ _ | value _ | subquery _ | special _ => exact Iff.rfl
  | not _ | binary _ _ _ | isNull _ _ => exact ⟨nofun, nofun⟩

theorem membersOf_essential (c : Connective) (e : Expr) (p : Predicate) :
    c.membersOf e.essential p = c.membersOf e p := by
  cases e with
  | binary left op right => cases op with
    | connective d => cases d <;> cases p <;> rfl
    | _ => rfl
  | _ => rfl

theorem predicate_essential {e : Expr} {p : Predicate} :
    e.essential.predicate clause = .ok p ↔ e.predicate clause = .ok p := by
  induction e generalizing p with
  | nested inner ih => exact ih
  | not inner ih =>
    simp only [essential, predicate, bind_eq_ok, ih]
  | isNull inner negated =>
    simp only [essential, predicate, bind_eq_ok, operand_essential]
  | binary left op right before after => cases op with
    | connective c =>
      simp only [essential, predicate, bind_eq_ok, before, after, membersOf_essential]
    | compare op =>
      simp only [essential, predicate, bind_eq_ok, operand_essential]
    | other symbol => exact Iff.rfl
  | name _ _ | value _ | subquery _ | special _ => exact Iff.rfl
  | signed _ _ | call _ _ _ | callOver _ _ _ => exact ⟨nofun, nofun⟩

/-- A call is an aggregate exactly when it is one of the five functions over one column, or counts
rows, without a window and without a word before its argument; any other call is unsupported, or its
argument has no meaning. Whatever else stands around the argument of a call changes nothing. -/
theorem call_outcome (clause : String) (path : List Ident) (modifiers : CallModifiers) :
    (∀ argument o, (call path argument modifiers).operand clause = .ok o ↔
      ∃ function ref, AggregateFunction.ofName? (pathText path) = some function ∧
        modifiers.window = none ∧ modifiers.duplicates = none ∧
        argument.operand clause = .ok (.column ref) ∧ o = .aggregate ⟨function, some ref⟩) ∧
    (∀ arguments o, (callOver path arguments modifiers).operand clause = .ok o ↔
      AggregateFunction.ofName? (pathText path) = some .count ∧ modifiers.window = none ∧
        modifiers.duplicates = none ∧ arguments = .rows ∧ o = .aggregate ⟨.count, none⟩) ∧
    (∀ argument e, (call path argument modifiers).operand clause = .error e →
      (∃ feature, e = .unsupported clause feature) ∨ argument.operand clause = .error e) ∧
    (∀ arguments e, (callOver path arguments modifiers).operand clause = .error e →
      ∃ feature, e = .unsupported clause feature) ∧
    (∀ e o, Expr.operand clause e = .ok o ↔ e.essential.operand clause = .ok o) ∧
    ∀ e p, Expr.predicate clause e = .ok p ↔ e.essential.predicate clause = .ok p :=
  ⟨fun _ _ => operand_call_eq_ok, fun _ _ => operand_callOver_eq_ok,
    fun _ _ => operand_call_eq_error, fun _ _ => operand_callOver_eq_error,
    fun _ _ => operand_essential.symm, fun _ _ => predicate_essential.symm⟩

end Expr

example : ((Predicate.read "sum(x LIMIT 1) > 5").map Predicate.text).toOption =
    some "sum(x) > 5" := by
  decide +kernel

end TablePlan.Condition
