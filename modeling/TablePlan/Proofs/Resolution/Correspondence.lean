import TablePlan.Proofs.Success
import TablePlan.Resolution.Basic

/-!
Conditions of one shape. Mapping the operands of a condition keeps its connectives, comparisons and
null tests, and it succeeds exactly with the conditions of that shape over the mapped operands.
-/

namespace TablePlan.Predicate

open Success

mutual

/-- Whether two conditions differ only in their operands, which are related one by one. -/
inductive Corresponds (related : Operand → Operand → Prop) : Predicate → Predicate → Prop
  | and {ps qs : List Predicate} (members : CorrespondAll related ps qs) :
    Corresponds related (.and ps) (.and qs)
  | or {ps qs : List Predicate} (members : CorrespondAll related ps qs) :
    Corresponds related (.or ps) (.or qs)
  | not {p q : Predicate} (inside : Corresponds related p q) : Corresponds related (.not p) (.not q)
  | compare {left left' right right' : Operand} (op : Comparison) (lefts : related left left')
    (rights : related right right') :
    Corresponds related (.compare left op right) (.compare left' op right')
  | isNull {operand operand' : Operand} (negated : Bool) (tested : related operand operand') :
    Corresponds related (.isNull operand negated) (.isNull operand' negated)

inductive CorrespondAll (related : Operand → Operand → Prop) :
    List Predicate → List Predicate → Prop
  | nil : CorrespondAll related [] []
  | cons {p q : Predicate} {ps qs : List Predicate} (first : Corresponds related p q)
    (rest : CorrespondAll related ps qs) : CorrespondAll related (p :: ps) (q :: qs)

end

section Mapping

variable {ε : Type} {f : Operand → Except ε Operand} {related : Operand → Operand → Prop}

mutual

theorem mapOperandsM_eq_ok (results : ∀ o o', f o = .ok o' ↔ related o o') :
    ∀ {p q : Predicate}, p.mapOperandsM f = .ok q ↔ Corresponds related p q
  | .and ps, q => by
    rw [mapOperandsM]
    constructor
    · intro ok
      obtain ⟨qs, mapped, same⟩ := bind_eq_ok.1 ok
      cases pure_eq_ok.1 same
      exact .and ((mapAllM_eq_ok results).1 mapped)
    · intro shape
      cases shape with
      | and members => exact bind_eq_ok.2 ⟨_, (mapAllM_eq_ok results).2 members, rfl⟩
  | .or ps, q => by
    rw [mapOperandsM]
    constructor
    · intro ok
      obtain ⟨qs, mapped, same⟩ := bind_eq_ok.1 ok
      cases pure_eq_ok.1 same
      exact .or ((mapAllM_eq_ok results).1 mapped)
    · intro shape
      cases shape with
      | or members => exact bind_eq_ok.2 ⟨_, (mapAllM_eq_ok results).2 members, rfl⟩
  | .not p, q => by
    rw [mapOperandsM]
    constructor
    · intro ok
      obtain ⟨q, mapped, same⟩ := bind_eq_ok.1 ok
      cases pure_eq_ok.1 same
      exact .not ((mapOperandsM_eq_ok results).1 mapped)
    · intro shape
      cases shape with
      | not inside => exact bind_eq_ok.2 ⟨_, (mapOperandsM_eq_ok results).2 inside, rfl⟩
  | .compare left op right, q => by
    rw [mapOperandsM]
    constructor
    · intro ok
      obtain ⟨left', lefts, ok⟩ := bind_eq_ok.1 ok
      obtain ⟨right', rights, same⟩ := bind_eq_ok.1 ok
      cases pure_eq_ok.1 same
      exact .compare op ((results _ _).1 lefts) ((results _ _).1 rights)
    · intro shape
      cases shape with
      | compare _ lefts rights =>
        exact bind_eq_ok.2 ⟨_, (results _ _).2 lefts, bind_eq_ok.2 ⟨_, (results _ _).2 rights, rfl⟩⟩
  | .isNull operand negated, q => by
    rw [mapOperandsM]
    constructor
    · intro ok
      obtain ⟨operand', tested, same⟩ := bind_eq_ok.1 ok
      cases pure_eq_ok.1 same
      exact .isNull negated ((results _ _).1 tested)
    · intro shape
      cases shape with
      | isNull _ tested => exact bind_eq_ok.2 ⟨_, (results _ _).2 tested, rfl⟩

theorem mapAllM_eq_ok (results : ∀ o o', f o = .ok o' ↔ related o o') :
    ∀ {ps qs : List Predicate}, mapAllM f ps = .ok qs ↔ CorrespondAll related ps qs
  | [], qs => by
    rw [mapAllM, pure_eq_ok]
    constructor
    · rintro rfl
      exact .nil
    · intro shape
      cases shape with
      | nil => rfl
  | p :: ps, qs => by
    rw [mapAllM]
    constructor
    · intro ok
      obtain ⟨q, mapped, ok⟩ := bind_eq_ok.1 ok
      obtain ⟨qs, others, same⟩ := bind_eq_ok.1 ok
      cases pure_eq_ok.1 same
      exact .cons ((mapOperandsM_eq_ok results).1 mapped) ((mapAllM_eq_ok results).1 others)
    · intro shape
      cases shape with
      | cons first rest =>
        exact bind_eq_ok.2 ⟨_, (mapOperandsM_eq_ok results).2 first,
          bind_eq_ok.2 ⟨_, (mapAllM_eq_ok results).2 rest, rfl⟩⟩

end

end Mapping

theorem resolve?_eq_ok {f : Operand → Except ResolutionError Operand}
    {related : Operand → Operand → Prop} (results : ∀ o o', f o = .ok o' ↔ related o o')
    {p p' : Option Predicate} :
    resolve? f p = .ok p' ↔ Option.Rel (Corresponds related) p p' := by
  cases p with
  | none =>
    rw [resolve?, pure_eq_ok]
    constructor
    · rintro rfl
      exact .none
    · intro absent
      cases absent with
      | none => rfl
  | some p =>
    simp only [resolve?, bind_eq_ok, pure_eq_ok, mapOperandsM_eq_ok results]
    constructor
    · rintro ⟨q, shape, rfl⟩
      exact .some shape
    · intro shapes
      cases shapes with
      | some shape => exact ⟨_, shape, rfl⟩

variable {related : Operand → Operand → Prop}

mutual

theorem corresponds_self : ∀ {p : Predicate}, (∀ o ∈ p.operands, related o o) →
    Corresponds related p p
  | .and _, same => .and (correspondAll_self same)
  | .or _, same => .or (correspondAll_self same)
  | .not inner, same => .not (corresponds_self same)
  | .compare left op right, same =>
    .compare op (same left (by simp [operands])) (same right (by simp [operands]))
  | .isNull operand negated, same => .isNull negated (same operand (by simp [operands]))

theorem correspondAll_self : ∀ {ps : List Predicate}, (∀ o ∈ operandsOfAll ps, related o o) →
    CorrespondAll related ps ps
  | [], _ => .nil
  | p :: ps, same => by
    rw [operandsOfAll, List.forall_mem_append] at same
    exact .cons (corresponds_self same.1) (correspondAll_self same.2)

end

theorem rel_corresponds_self {p : Option Predicate}
    (same : ∀ q ∈ p, ∀ o ∈ q.operands, related o o) : Option.Rel (Corresponds related) p p := by
  cases p with
  | none => exact .none
  | some q => exact .some (corresponds_self (same q rfl))

end TablePlan.Predicate
