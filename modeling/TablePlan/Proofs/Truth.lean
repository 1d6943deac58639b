import TablePlan.Proofs.Condition.Meaning
import Mathlib.Order.Fin.Basic

/-!
The three truth values in their order, false below unknown below true. Connectives are the least and
the greatest of their members, and `NOT` turns the order over; so the order of the members of a
connective, anywhere in a condition, changes neither the truth of the condition nor what it reads.
-/

namespace TablePlan

namespace Truth

def level : Truth → Fin 3
  | some false => 0
  | none => 1
  | some true => 2

theorem level_eq_two_iff {t : Truth} : t.level = 2 ↔ t = some true := by
  obtain _ | _ | _ := t <;> decide

theorem level_and (s t : Truth) : (s.and t).level = min s.level t.level := by
  obtain _ | _ | _ := s <;> obtain _ | _ | _ := t <;> decide

theorem level_or (s t : Truth) : (s.or t).level = max s.level t.level := by
  obtain _ | _ | _ := s <;> obtain _ | _ | _ := t <;> decide

theorem level_not (t : Truth) : t.not.level = t.level.rev := by
  obtain _ | _ | _ := t <;> decide

theorem and_left_comm (s t u : Truth) : s.and (t.and u) = t.and (s.and u) := by
  obtain _ | _ | _ := s <;> obtain _ | _ | _ := t <;> obtain _ | _ | _ := u <;> rfl

theorem or_left_comm (s t u : Truth) : s.or (t.or u) = t.or (s.or u) := by
  obtain _ | _ | _ := s <;> obtain _ | _ | _ := t <;> obtain _ | _ | _ := u <;> rfl

theorem and_false (t : Truth) : t.and (some false) = some false := by
  obtain _ | _ | _ := t <;> rfl

theorem or_true (t : Truth) : t.or (some true) = some true := by
  obtain _ | _ | _ := t <;> rfl

theorem and_unknown {t : Truth} (undecided : t ≠ some false) : t.and none = none := by
  obtain _ | _ | _ := t
  · rfl
  · contradiction
  · rfl

theorem or_unknown {t : Truth} (undecided : t ≠ some true) : t.or none = none := by
  obtain _ | _ | _ := t
  · rfl
  · rfl
  · contradiction

end Truth

namespace Predicate

variable {columns : List String} {row : Row} {ps qs : List Predicate} {p q : Predicate}

theorem level_truthOfAll : (truthOfAll columns row ps).level =
    (ps.map fun p => (p.truth columns row).level).foldr min 2 := by
  induction ps with
  | nil => rfl
  | cons p ps ih => rw [truthOfAll, Truth.level_and, ih, List.map_cons, List.foldr_cons]

theorem level_truthOfAny : (truthOfAny columns row ps).level =
    (ps.map fun p => (p.truth columns row).level).foldr max 0 := by
  induction ps with
  | nil => rfl
  | cons p ps ih => rw [truthOfAny, Truth.level_or, ih, List.map_cons, List.foldr_cons]

theorem truthOfAll_perm (perm : ps.Perm qs) :
    truthOfAll columns row ps = truthOfAll columns row qs := by
  induction perm with
  | nil => rfl
  | cons p _ ih => rw [truthOfAll, truthOfAll, ih]
  | swap p q ps => exact Truth.and_left_comm _ _ _
  | trans _ _ first second => exact first.trans second

theorem truthOfAny_perm (perm : ps.Perm qs) :
    truthOfAny columns row ps = truthOfAny columns row qs := by
  induction perm with
  | nil => rfl
  | cons p _ ih => rw [truthOfAny, truthOfAny, ih]
  | swap p q ps => exact Truth.or_left_comm _ _ _
  | trans _ _ first second => exact first.trans second

/-- Whether a condition becomes another one when members of its connectives, at any depth, are taken
in another order. -/
inductive Rearranged : Predicate → Predicate → Prop
  | refl (p : Predicate) : Rearranged p p
  | and {ps qs : List Predicate} (perm : ps.Perm qs) : Rearranged (.and ps) (.and qs)
  | or {ps qs : List Predicate} (perm : ps.Perm qs) : Rearranged (.or ps) (.or qs)
  | inAnd {p q : Predicate} (inside : Rearranged p q) (before after : List Predicate) :
    Rearranged (.and (before ++ p :: after)) (.and (before ++ q :: after))
  | inOr {p q : Predicate} (inside : Rearranged p q) (before after : List Predicate) :
    Rearranged (.or (before ++ p :: after)) (.or (before ++ q :: after))
  | inNot {p q : Predicate} (inside : Rearranged p q) : Rearranged (.not p) (.not q)
  | trans {p q r : Predicate} (first : Rearranged p q) (second : Rearranged q r) : Rearranged p r

theorem Rearranged.truth_eq (rearranged : p.Rearranged q) (columns : List String) (row : Row) :
    p.truth columns row = q.truth columns row := by
  induction rearranged with
  | refl => rfl
  | and perm => exact truthOfAll_perm perm
  | or perm => exact truthOfAny_perm perm
  | inAnd _ before after ih =>
    rw [truth, truth, truthOfAll_append, truthOfAll_append, truthOfAll, truthOfAll, ih]
  | inOr _ before after ih =>
    rw [truth, truth, truthOfAny_append, truthOfAny_append, truthOfAny, truthOfAny, ih]
  | inNot _ ih => rw [truth, truth, ih]
  | trans _ _ first second => exact first.trans second

theorem Rearranged.operands_perm (rearranged : p.Rearranged q) :
    p.operands.Perm q.operands := by
  have members {ps qs : List Predicate} (perm : ps.Perm qs) :
      (operandsOfAll ps).Perm (operandsOfAll qs) := by
    rw [operandsOfAll_eq_flatMap, operandsOfAll_eq_flatMap]
    exact perm.flatMap_right operands
  have member {p q : Predicate} (same : p.operands.Perm q.operands)
      (before after : List Predicate) : (operandsOfAll (before ++ p :: after)).Perm
        (operandsOfAll (before ++ q :: after)) := by
    rw [operandsOfAll_append, operandsOfAll_append, operandsOfAll, operandsOfAll]
    exact (same.append_right _).append_left _
  induction rearranged with
  | refl => exact .refl _
  | and perm => exact members perm
  | or perm => exact members perm
  | inAnd _ before after ih => exact member ih before after
  | inOr _ before after ih => exact member ih before after
  | inNot _ ih => exact ih
  | trans _ _ first second => exact first.trans second

end Predicate

end TablePlan
