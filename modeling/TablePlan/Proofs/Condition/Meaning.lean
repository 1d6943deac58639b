import TablePlan.Proofs.Condition.Call
import TablePlan.Proofs.Condition.Chain
import TablePlan.Proofs.Condition.Direct
import TablePlan.Proofs.Predicate

/-!
Conditions mean what their expressions mean. The condition that an expression is has its truth on
every row, reads its leaves from left to right and keeps its connectives, comparisons and tests in
their order.
-/

namespace TablePlan

open Condition Success

namespace Truth

theorem and_assoc (s t u : Truth) : (s.and t).and u = s.and (t.and u) := by
  obtain _ | _ | _ := s <;> obtain _ | _ | _ := t <;> obtain _ | _ | _ := u <;> rfl

theorem or_assoc (s t u : Truth) : (s.or t).or u = s.or (t.or u) := by
  obtain _ | _ | _ := s <;> obtain _ | _ | _ := t <;> obtain _ | _ | _ := u <;> rfl

theorem and_true (t : Truth) : t.and (some true) = t := by
  obtain _ | _ | _ := t <;> rfl

theorem or_false (t : Truth) : t.or (some false) = t := by
  obtain _ | _ | _ := t <;> rfl

theorem true_and (t : Truth) : and (some true) t = t := by
  obtain _ | _ | _ := t <;> rfl

theorem false_or (t : Truth) : or (some false) t = t := by
  obtain _ | _ | _ := t <;> rfl

end Truth

namespace Predicate

variable (columns : List String) (row : Row)

theorem truthOfAll_append (ps qs : List Predicate) : truthOfAll columns row (ps ++ qs) =
    (truthOfAll columns row ps).and (truthOfAll columns row qs) := by
  induction ps with
  | nil => exact (Truth.true_and _).symm
  | cons p ps ih => rw [List.cons_append, truthOfAll, truthOfAll, ih, Truth.and_assoc]

theorem truthOfAny_append (ps qs : List Predicate) : truthOfAny columns row (ps ++ qs) =
    (truthOfAny columns row ps).or (truthOfAny columns row qs) := by
  induction ps with
  | nil => exact (Truth.false_or _).symm
  | cons p ps ih => rw [List.cons_append, truthOfAny, truthOfAny, ih, Truth.or_assoc]

theorem operandsOfAll_append (ps qs : List Predicate) :
    operandsOfAll (ps ++ qs) = operandsOfAll ps ++ operandsOfAll qs := by
  simp [operandsOfAll_eq_flatMap]

end Predicate

namespace Condition

namespace Connective

def both : Connective → Truth → Truth → Truth
  | .and => Truth.and
  | .or => Truth.or

theorem truth_join_append (c : Connective) (columns : List String) (row : Row)
    (ps qs : List Predicate) : (c.join (ps ++ qs)).truth columns row =
      c.both ((c.join ps).truth columns row) ((c.join qs).truth columns row) := by
  cases c with
  | and => exact Predicate.truthOfAll_append columns row ps qs
  | or => exact Predicate.truthOfAny_append columns row ps qs

theorem operands_join (c : Connective) (ps : List Predicate) :
    (c.join ps).operands = Predicate.operandsOfAll ps := by
  cases c <;> rfl

theorem symbols_join (c : Connective) (ps : List Predicate) : (c.join ps).symbols =
    [Symbol.connective c].intercalate (Predicate.symbolsOfEach ps) := by
  cases c <;> rfl

theorem symbols_join_append (c : Connective) {ps qs : List Predicate} (nonempty : ps ≠ [])
    (nonempty' : qs ≠ []) : (c.join (ps ++ qs)).symbols =
      (c.join ps).symbols ++ .connective c :: (c.join qs).symbols := by
  have each {ps : List Predicate} (nonempty : ps ≠ []) : Predicate.symbolsOfEach ps ≠ [] := by
    cases ps with
    | nil => exact absurd rfl nonempty
    | cons p ps => exact List.cons_ne_nil _ _
  simp only [symbols_join, Predicate.symbolsOfEach_append]
  exact intercalate_append (each nonempty) (each nonempty')

theorem membersOf_cases (c : Connective) (e : Expr) (p : Predicate) :
    c.membersOf e p = [p] ∨ p = c.join (c.membersOf e p) := by
  unfold membersOf
  split
  · cases c with
    | and => exact .inr rfl
    | or => exact .inl rfl
  · cases c with
    | and => exact .inl rfl
    | or => exact .inr rfl
  · exact .inl rfl

theorem truth_join_membersOf (c : Connective) (e : Expr) (p : Predicate) (columns : List String)
    (row : Row) : (c.join (c.membersOf e p)).truth columns row = p.truth columns row := by
  obtain alone | joined := c.membersOf_cases e p
  · rw [alone]
    cases c with
    | and => exact Truth.and_true _
    | or => exact Truth.or_false _
  · rw [← joined]

theorem operands_join_membersOf (c : Connective) (e : Expr) (p : Predicate) :
    (c.join (c.membersOf e p)).operands = p.operands := by
  obtain alone | joined := c.membersOf_cases e p
  · rw [alone, operands_join]
    exact List.append_nil _
  · rw [← joined]

theorem symbols_join_membersOf (c : Connective) (e : Expr) (p : Predicate) :
    (c.join (c.membersOf e p)).symbols = p.symbols := by
  obtain alone | joined := c.membersOf_cases e p
  · rw [alone, symbols_join]
    exact List.intercalate_singleton
  · rw [← joined]

variable {clause : String}

theorem membersOf_ne_nil {c : Connective} {e : Expr} {p : Predicate}
    (ok : e.predicate clause = .ok p) : c.membersOf e p ≠ [] := by
  induction e generalizing p with
  | binary left op right before after =>
    by_cases same : op = .connective c
    · subst same
      rw [predicate_link] at ok
      obtain ⟨before_p, ok_before, ok⟩ := bind_eq_ok.1 ok
      obtain ⟨after_p, ok_after, ok⟩ := bind_eq_ok.1 ok
      cases ok
      rw [membersOf_join]
      exact List.append_ne_nil_of_left_ne_nil (before ok_before) _
    · have noLink : c.sides? (.binary left op right) = none := by
        cases op with
        | connective d => exact if_neg fun other => same (congrArg _ other)
        | _ => rfl
      rw [membersOf_of_sides? ok noLink]
      exact List.cons_ne_nil _ _
  | _ =>
    rw [membersOf_of_sides? ok rfl]
    exact List.cons_ne_nil _ _

end Connective

namespace Expr

variable {clause : String}

theorem writes_of_value {v : Value} {literal : Literal} (ok : v.meaning clause = .ok literal) :
    (value v).Writes (.literal literal) := by
  unfold Value.meaning at ok
  split at ok
  · cases ok
    exact .text
  · split at ok
    · rename_i reads
      cases ok
      exact .number reads
    · cases ok
  · cases ok
    exact .bool
  · cases ok
    exact .null
  · cases ok

theorem withSign_eq_ok {negative : Bool} {inner o : Operand}
    (ok : Literal.withSign clause negative inner = .ok o) :
    ∃ x, inner = .literal (.number x) ∧ o = .literal (.number (if negative then -x else x)) := by
  unfold Literal.withSign at ok
  split at ok
  · cases ok
    exact ⟨_, rfl, rfl⟩
  · cases ok

theorem writes_of_operand {e : Expr} {o : Operand} (ok : e.operand clause = .ok o) :
    e.Writes o := by
  induction e generalizing o with
  | name first rest => match rest with
    | [] =>
      rw [operand] at ok
      split at ok
      · rename_i double
        cases ok
        exact .quoted double
      · rename_i other
        cases ok
        exact .bare other
    | [column] =>
      cases ok
      exact .qualified
    | _ :: _ :: _ => cases ok
  | value v =>
    rw [operand] at ok
    obtain ⟨literal, read, same⟩ := bind_eq_ok.1 ok
    cases same
    exact writes_of_value read
  | nested inner ih => exact .nested (ih ok)
  | signed negative inner ih =>
    rw [operand] at ok
    obtain ⟨o', read, signed⟩ := bind_eq_ok.1 ok
    obtain ⟨x, rfl, rfl⟩ := withSign_eq_ok signed
    exact .signed (ih read)
  | call path argument modifiers ih =>
    obtain ⟨function, ref, named, _, _, read, rfl⟩ := operand_call_eq_ok.1 ok
    exact .call named (ih read)
  | callOver path arguments modifiers =>
    obtain ⟨named, _, _, rfl, rfl⟩ := operand_callOver_eq_ok.1 ok
    exact .rows named
  | not _ | binary _ _ _ | isNull _ _ | subquery _ | special _ => cases ok

theorem predicate_compare_eq_ok {left right : Expr} {op : Comparison} {p : Predicate} :
    (binary left (.compare op) right).predicate clause = .ok p ↔
      ∃ a b, left.operand clause = .ok a ∧ right.operand clause = .ok b ∧ p = .compare a op b := by
  rw [predicate, bind_eq_ok]
  simp only [bind_eq_ok, pure_eq_ok]
  constructor
  · rintro ⟨a, read, b, read', rfl⟩
    exact ⟨a, b, read, read', rfl⟩
  · rintro ⟨a, b, read, read', rfl⟩
    exact ⟨a, read, b, read', rfl⟩

theorem predicate_name_eq_ok {first : Ident} {rest : List Ident} {p : Predicate}
    (ok : (name first rest).predicate clause = .ok p) :
    ∃ ref, (name first rest).Writes (.column ref) ∧
      p = .compare (.column ref) .eq (.literal (.bool true)) := by
  rw [predicate] at ok
  obtain ⟨o, read, ok⟩ := bind_eq_ok.1 ok
  cases o with
  | column ref =>
    cases ok
    exact ⟨ref, writes_of_operand read, rfl⟩
  | _ => cases ok

/-- What an expression and its condition have in common. -/
structure Means (e : Expr) (p : Predicate) : Prop where
  truth : ∀ columns row, p.truth columns row = e.truth columns row
  operands : List.Forall₂ Writes e.leaves p.operands
  symbols : p.symbols = e.symbols

theorem Means.connective {c : Connective} {left right : Expr} {p q : Predicate}
    (ok : left.predicate clause = .ok p) (ok' : right.predicate clause = .ok q)
    (before : left.Means p) (after : right.Means q) :
    (binary left (.connective c) right).Means
      (c.join (c.membersOf left p ++ c.membersOf right q)) where
  truth columns row := by
    rw [Connective.truth_join_append, Connective.truth_join_membersOf,
      Connective.truth_join_membersOf, before.truth, after.truth]
    cases c <;> rfl
  operands := by
    rw [Connective.operands_join, Predicate.operandsOfAll_append, ← Connective.operands_join c,
      ← Connective.operands_join c, Connective.operands_join_membersOf,
      Connective.operands_join_membersOf]
    exact List.rel_append before.operands after.operands
  symbols := by
    rw [Connective.symbols_join_append c (Connective.membersOf_ne_nil ok)
      (Connective.membersOf_ne_nil ok'), Connective.symbols_join_membersOf,
      Connective.symbols_join_membersOf, before.symbols, after.symbols]
    rfl

theorem Means.compare {left right : Expr} {a b : Operand} (writes : left.Writes a)
    (writes' : right.Writes b) (op : Comparison) :
    (binary left (.compare op) right).Means (.compare a op b) where
  truth columns row := by
    rw [Predicate.truth, ← writes.cell_eq, ← writes'.cell_eq]
    rfl
  operands := .cons writes (.cons writes' .nil)
  symbols := rfl

theorem Means.isNull {inner : Expr} {a : Operand} (writes : inner.Writes a) (negated : Bool) :
    (isNull inner negated).Means (.isNull a negated) where
  truth columns row := by
    rw [Predicate.truth, ← writes.cell_eq]
    rfl
  operands := .cons writes .nil
  symbols := rfl

theorem Means.name {first : Ident} {rest : List Ident} {ref : ColumnRef}
    (writes : (name first rest).Writes (.column ref)) :
    (name first rest).Means (.compare (.column ref) .eq (.literal (.bool true))) where
  truth columns row := by
    rw [Predicate.truth, ← writes.cell_eq]
    rfl
  operands := .cons writes (.cons .bool .nil)
  symbols := rfl

theorem Means.not {inner : Expr} {p : Predicate} (means : inner.Means p) :
    (not inner).Means (.not p) where
  truth columns row := by
    rw [Predicate.truth, means.truth]
    rfl
  operands := means.operands
  symbols := congrArg _ means.symbols

theorem means_of_predicate {e : Expr} {p : Predicate} (ok : e.predicate clause = .ok p) :
    e.Means p := by
  induction e generalizing p with
  | nested inner ih =>
    have means := ih ok
    exact ⟨means.truth, means.operands, means.symbols⟩
  | not inner ih =>
    rw [predicate] at ok
    obtain ⟨q, inside, same⟩ := bind_eq_ok.1 ok
    cases same
    exact (ih inside).not
  | isNull inner negated =>
    rw [predicate] at ok
    obtain ⟨a, read, same⟩ := bind_eq_ok.1 ok
    cases same
    exact .isNull (writes_of_operand read) negated
  | name first rest =>
    obtain ⟨ref, writes, rfl⟩ := predicate_name_eq_ok ok
    exact .name writes
  | binary left op right before after => cases op with
    | connective c =>
      rw [Connective.predicate_link] at ok
      obtain ⟨p, ok_left, ok⟩ := bind_eq_ok.1 ok
      obtain ⟨q, ok_right, same⟩ := bind_eq_ok.1 ok
      cases same
      exact .connective ok_left ok_right (before ok_left) (after ok_right)
    | compare op =>
      obtain ⟨a, b, read, read', rfl⟩ := predicate_compare_eq_ok.1 ok
      exact .compare (writes_of_operand read) (writes_of_operand read') op
    | other _ => cases ok
  | value _ | signed _ _ | call _ _ _ | callOver _ _ _ | subquery _ | special _ => cases ok

/-- A condition has the truth of its expression on every row; its operands are those that the leaves
of the expression write, from left to right, and its connectives, comparisons and tests are those of
the expression. Any chain of one connective is taken apart by a stack in two turns for each link and
one more, whatever becomes of its members. -/
theorem predicate_faithful (clause : String) (e : Expr) :
    (∀ p, e.predicate clause = .ok p →
      (∀ columns row, p.truth columns row = e.truth columns row) ∧
      List.Forall₂ Writes e.leaves p.operands ∧ p.symbols = e.symbols) ∧
    (∀ c : Connective, c.turns clause (2 * c.links e + 1) ⟨[e], []⟩ =
      e.predicate clause >>= fun p => .ok ⟨[], c.membersOf e p⟩) ∧
    ∀ (c : Connective) (left right : Expr), e = .binary left (.connective c) right →
      e.predicate clause = c.turns clause (2 * c.links e + 1) ⟨[e], []⟩ >>= fun chain =>
        .ok (c.join chain.members) := by
  refine ⟨fun p ok => ?_, fun c => c.turns_links e, ?_⟩
  · have means := means_of_predicate ok
    exact ⟨means.truth, means.operands, means.symbols⟩
  · rintro c left right rfl
    exact Connective.predicate_eq_turns left right

/-- `NOT (e.x > -1 AND "e"."b") OR count(*) IS NOT NULL OR c` -/
def mixed : Expr :=
  .binary
    (.binary
      (.not (.nested (.binary
        (.binary (.name ⟨"e", none⟩ [⟨"x", none⟩]) (.compare .gt)
          (.signed true (.value (.number "1" false))))
        (.connective .and) (.name ⟨"e", some '"'⟩ [⟨"b", some '"'⟩]))))
      (.connective .or)
      (.isNull (.callOver [⟨"count", none⟩] .rows CallModifiers.none) true))
    (.connective .or) (.name ⟨"c", none⟩ [])

theorem predicate_faithful_mixed : ∃ p, mixed.predicate "" = .ok p ∧
    (∀ columns row, p.truth columns row = mixed.truth columns row) ∧
    List.Forall₂ Writes mixed.leaves p.operands ∧ p.symbols = mixed.symbols := by
  have reads : (mixed.predicate "").toOption.any (fun _ => true) = true := by decide +kernel
  obtain ⟨p, ok, _⟩ := exists_of_any_toOption reads
  exact ⟨p, ok, (predicate_faithful "" mixed).1 p ok⟩

end Expr

end Condition

end TablePlan
