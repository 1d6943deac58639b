import TablePlan.Condition.Meaning
import TablePlan.Proofs.Success
import Mathlib.Tactic.Ring

/-!
Chains of one connective, taken apart with a stack instead of by recursion. The stack is empty after
two turns for each link and one more, and the members found on the way are those of the expression.
-/

namespace TablePlan.Condition

open Success

/-- A chain that is being taken apart: the expressions that wait, the next one first, and the
members found so far. -/
structure Chain where
  waiting : List Expr
  members : List Predicate

namespace Connective

variable (c : Connective)

def sides? : Expr → Option (Expr × Expr)
  | .binary left (.connective d) right => if d = c then some (left, right) else none
  | _ => none

def links : Expr → Nat
  | .binary left (.connective d) right => if d = c then links left + links right + 1 else 0
  | _ => 0

variable (clause : String)

/-- One turn: a link makes way for its two sides, and any other expression is a member. -/
def turn (chain : Chain) : Except ConditionError Chain :=
  match chain.waiting with
  | [] => return chain
  | e :: rest =>
    match c.sides? e with
    | some (left, right) => return ⟨left :: right :: rest, chain.members⟩
    | none => return ⟨rest, chain.members ++ [← e.predicate clause]⟩

def turns : Nat → Chain → Except ConditionError Chain
  | 0, chain => return chain
  | n + 1, chain => do turns n (← c.turn clause chain)

variable {c clause}

theorem predicate_link (left right : Expr) (d : Connective) :
    (Expr.binary left (.connective d) right).predicate clause =
      left.predicate clause >>= fun before => right.predicate clause >>= fun after =>
        .ok (d.join (d.membersOf left before ++ d.membersOf right after)) :=
  rfl

theorem membersOf_join (left right : Expr) (members : List Predicate) :
    c.membersOf (.binary left (.connective c) right) (c.join members) = members := by
  cases c <;> simp [membersOf, join]

theorem membersOf_of_sides? {e : Expr} {p : Predicate} (ok : e.predicate clause = .ok p)
    (noLink : c.sides? e = none) : c.membersOf e p = [p] := by
  unfold membersOf
  split
  · rename_i left right items
    cases c with
    | and => simp [sides?] at noLink
    | or => rfl
  · rename_i left right items
    cases c with
    | and => rfl
    | or => simp [sides?] at noLink
  · rfl

theorem links_of_sides? {e : Expr} (noLink : c.sides? e = none) : c.links e = 0 := by
  unfold links
  split
  · rename_i left d right
    refine if_neg fun same => ?_
    rw [sides?, if_pos same] at noLink
    cases noLink
  · rfl

theorem turns_link (left right : Expr) (rest : List Expr) (members : List Predicate) (n : Nat) :
    c.turns clause (n + 1) ⟨.binary left (.connective c) right :: rest, members⟩ =
      c.turns clause n ⟨left :: right :: rest, members⟩ := by
  have side : c.sides? (.binary left (.connective c) right) = some (left, right) := if_pos rfl
  simp only [turns, turn, side]
  rfl

theorem turns_member {e : Expr} (noLink : c.sides? e = none) (rest : List Expr)
    (members : List Predicate) (n : Nat) : c.turns clause (n + 1) ⟨e :: rest, members⟩ =
      e.predicate clause >>= fun p => c.turns clause n ⟨rest, members ++ [p]⟩ := by
  simp only [turns, turn, noLink]
  cases e.predicate clause <;> rfl

theorem turns_of_sides? {e : Expr} (noLink : c.sides? e = none) (rest : List Expr)
    (members : List Predicate) (n : Nat) :
    c.turns clause (2 * c.links e + 1 + n) ⟨e :: rest, members⟩ =
      e.predicate clause >>= fun p => c.turns clause n ⟨rest, members ++ c.membersOf e p⟩ := by
  rw [links_of_sides? noLink, Nat.mul_zero, Nat.zero_add, Nat.add_comm, turns_member noLink]
  cases ok : e.predicate clause with
  | error _ => rfl
  | ok p =>
    exact congrArg (fun found => c.turns clause n ⟨rest, members ++ found⟩)
      (membersOf_of_sides? ok noLink).symm

theorem turns_cons (e : Expr) (rest : List Expr) (members : List Predicate) (n : Nat) :
    c.turns clause (2 * c.links e + 1 + n) ⟨e :: rest, members⟩ =
      e.predicate clause >>= fun p => c.turns clause n ⟨rest, members ++ c.membersOf e p⟩ := by
  induction e generalizing rest members n with
  | binary left op right before after =>
    by_cases same : op = .connective c
    · subst same
      have count : 2 * c.links (.binary left (.connective c) right) + 1 + n =
          2 * c.links left + 1 + (2 * c.links right + 1 + n) + 1 := by
        rw [links, if_pos rfl]
        ring
      rw [count, turns_link, before, predicate_link]
      cases left.predicate clause with
      | error _ => rfl
      | ok p =>
        change c.turns clause _ ⟨right :: rest, _⟩ = _
        rw [after]
        cases right.predicate clause with
        | error _ => rfl
        | ok q =>
          change c.turns clause n _ = c.turns clause n _
          rw [membersOf_join, List.append_assoc]
    · refine turns_of_sides? ?_ rest members n
      cases op with
      | connective d => exact if_neg fun other => same (congrArg _ other)
      | _ => rfl
  | _ => exact turns_of_sides? rfl rest members n

theorem turns_links (e : Expr) : c.turns clause (2 * c.links e + 1) ⟨[e], []⟩ =
    e.predicate clause >>= fun p => .ok ⟨[], c.membersOf e p⟩ :=
  turns_cons e [] [] 0

theorem predicate_eq_turns (left right : Expr) :
    (Expr.binary left (.connective c) right).predicate clause =
      c.turns clause (2 * c.links (.binary left (.connective c) right) + 1)
        ⟨[.binary left (.connective c) right], []⟩ >>= fun chain => .ok (c.join chain.members) := by
  rw [turns_links, predicate_link]
  cases left.predicate clause with
  | error _ => rfl
  | ok p => cases right.predicate clause with
    | error _ => rfl
    | ok q =>
      exact congrArg (fun members => Except.ok (c.join members)) (membersOf_join left right _).symm

end Connective

end TablePlan.Condition
