import TablePlan.Proofs.Condition.Call
import TablePlan.Proofs.Condition.Parsing
import TablePlan.Proofs.Condition.Written

/-!
Operands read back from their tokens. The tokens of an operand are an expression, as long as it
nests no deeper than the grammar allows, and this expression means the operand.
-/

namespace TablePlan

open Condition Condition.TokenParser

variable {ts rest : List Token} {depth precedence : Nat}

def Opens (ts : List Token) : Prop :=
  ts.head? ≠ some (.symbol ")") ∧ ∀ w ∈ openingWords, ts.head?.bind Token.keyword? ≠ some w

theorem Opens.notMem {words : List String} (opens : Opens ts) (few : words ⊆ openingWords) :
    ∀ w ∈ words, ts.head?.bind Token.keyword? ≠ some w :=
  fun w mem => opens.2 w (few mem)

theorem opens_word {value : String} (noWord : Text.capitals value ∉ openingWords) :
    Opens (.word value none :: rest) :=
  ⟨by simp, fun w mem same => noWord (Option.some.inj same ▸ mem)⟩

theorem nextPrecedence_le_of_follows (follows : Follows rest) : nextPrecedence rest ≤ 20 := by
  cases rest with
  | nil => exact Nat.zero_le _
  | cons t ts =>
    have mem : t ∈ followers := follows t rfl
    simp only [followers, List.mem_cons, List.not_mem_nil, or_false] at mem
    obtain rfl | rfl | rfl | rfl | rfl | rfl | rfl | rfl | rfl | rfl := mem <;>
      exact Nat.le_of_ble_eq_true rfl

namespace ColumnRef

def expr : ColumnRef → Expr
  | ⟨some aliasName, column⟩ => .name ⟨aliasName, none⟩ [⟨column, none⟩]
  | ⟨none, column⟩ => .name ⟨column, none⟩ []

theorem operand_tokens {c : ColumnRef} (expressible : c.Expressible) (sub : ExprParser)
    (noBracket : Token.symbol "[" ∉ rest) (follows : Follows rest) :
    operand sub (c.tokens ++ rest) = .ok (c.expr, rest) := by
  obtain ⟨_ | aliasName, column⟩ := c
  · obtain ⟨noType, noForm, _⟩ := notMem_of_isKeyword expressible.2
    exact (operand_word noType noBracket).trans
      (wordOperand_of_name noForm (follows.nameOrCall sub _) follows)
  · obtain ⟨noType, noForm, _⟩ := notMem_of_isKeyword expressible.1.2
    exact (operand_word noType (by simpa using noBracket)).trans
      (wordOperand_of_name noForm (nameOrCall_qualified _ follows) follows)

theorem opens {c : ColumnRef} (expressible : c.Expressible) : Opens (c.tokens ++ rest) := by
  obtain ⟨_ | aliasName, column⟩ := c
  · exact opens_word (notMem_of_isKeyword expressible.2).2.2
  · exact opens_word (notMem_of_isKeyword expressible.1.2).2.2

theorem noBracket (c : ColumnRef) : Token.symbol "[" ∉ c.tokens := by
  obtain ⟨_ | aliasName, column⟩ := c <;> simp [tokens]

theorem argument_tokens {c : ColumnRef} (expressible : c.Expressible)
    (noBracket : Token.symbol "[" ∉ rest) :
    argument (expression (depth + 1)) (c.tokens ++ .symbol ")" :: rest) =
      .ok (.one c.expr, .symbol ")" :: rest) := by
  have read : expression (depth + 1) 0 (c.tokens ++ .symbol ")" :: rest) =
      .ok (c.expr, .symbol ")" :: rest) :=
    (expression_of_operand (operand_tokens expressible _ (by simpa using noBracket)
      follows_close)).trans (continued_of_le le_rfl)
  obtain ⟨_ | aliasName, column⟩ := c
  · exact argument_bare read
  · exact argument_qualified rfl read

end ColumnRef

namespace AggregateCall

def expr : AggregateCall → Expr
  | ⟨function, some column⟩ => .call [⟨function.name, none⟩] column.expr CallModifiers.none
  | ⟨function, none⟩ => .callOver [⟨function.name, none⟩] .rows CallModifiers.none

def nesting : AggregateCall → Nat
  | ⟨_, some _⟩ => 2
  | ⟨_, none⟩ => 1

theorem operand_tokens {call : AggregateCall} (expressible : call.Expressible)
    (deep : call.nesting ≤ depth + 1) (noBracket : Token.symbol "[" ∉ rest)
    (follows : Follows rest) :
    operand (expression depth) (call.tokens ++ rest) = .ok (call.expr, rest) := by
  have noType : Text.capitals call.function.name ∉ typeWords ∧
      Text.capitals call.function.name ∉ formWords := by
    cases call.function <;> decide +kernel
  obtain ⟨function, _ | column⟩ := call
  · have list : argumentList (expression depth) (.symbol "*" :: .symbol ")" :: rest) =
        .ok ((⟨none, [.rows], []⟩, false), rest) :=
      argumentList_of_argument (by simp) (by simp [Token.keyword?]) argument_rows
    exact (operand_word noType.1 (by simpa [argumentTokens] using noBracket)).trans
      (wordOperand_of_name noType.2 (call_of_argument list follows) follows)
  · obtain ⟨d, rfl⟩ : ∃ d, depth = d + 1 := Nat.exists_eq_succ_of_ne_zero (by
      change 2 ≤ depth + 1 at deep
      omega)
    have opens : Opens (column.tokens ++ .symbol ")" :: rest) := ColumnRef.opens expressible
    have list : argumentList (expression (d + 1)) (column.tokens ++ .symbol ")" :: rest) =
        .ok ((⟨none, [.one column.expr], []⟩, false), rest) :=
      argumentList_of_argument opens.1 (opens.notMem (by decide))
        (ColumnRef.argument_tokens expressible noBracket)
    have called : nameOrCall (expression (d + 1)) ⟨function.name, none⟩
        (.symbol "(" :: (column.tokens ++ .symbol ")" :: rest)) =
        .ok (.call [⟨function.name, none⟩] column.expr CallModifiers.none, rest) :=
      call_of_argument list follows
    have read := (operand_word noType.1 (by simpa [column.noBracket] using noBracket)).trans
      (wordOperand_of_name noType.2 called follows)
    simpa [tokens, argumentTokens, expr] using read

theorem opens (call : AggregateCall) : Opens (call.tokens ++ rest) :=
  opens_word (by cases call.function <;> decide +kernel)

theorem noBracket (call : AggregateCall) : Token.symbol "[" ∉ call.tokens := by
  obtain ⟨function, _ | column⟩ := call
  · simp [tokens, argumentTokens]
  · simp [tokens, argumentTokens, column.noBracket]

end AggregateCall

namespace Literal

def expr : Literal → Expr
  | .text value => .value (.text value)
  | .number value =>
    let (negative, digits) := Decimal.signedText value
    if negative then .signed true (.value (.number digits false))
    else .value (.number digits false)
  | .date value => .value (.text value.text)
  | .bool value => .value (.bool value)
  | .null => .value .null

def nesting : Literal → Nat
  | .number value => if (Decimal.signedText value).1 then 2 else 1
  | _ => 1

theorem operand_signed {negative : Bool} {digits : String}
    (deep : (if negative then 2 else 1) ≤ depth + 1) (noBracket : Token.symbol "[" ∉ rest)
    (follows : Follows rest) : operand (expression depth)
      ((if negative then [.symbol "-"] else []) ++ [.number digits false] ++ rest) =
      .ok (if negative then .signed true (.value (.number digits false))
        else .value (.number digits false), rest) := by
  cases negative with
  | false => exact operand_number noBracket follows
  | true =>
    obtain ⟨d, rfl⟩ : ∃ d, depth = d + 1 := Nat.exists_eq_succ_of_ne_zero (by
      rw [if_pos rfl] at deep
      omega)
    have read : expression (d + 1) 40 (.number digits false :: rest) =
        .ok (.value (.number digits false), rest) :=
      (expression_of_operand (operand_number noBracket follows)).trans
        (continued_of_le ((nextPrecedence_le_of_follows follows).trans (by decide)))
    exact (operand_symbol (by simpa using noBracket) (by decide)).trans
      (symbolOperand_minus read follows)

theorem operand_tokens (l : Literal) (deep : l.nesting ≤ depth + 1)
    (noBracket : Token.symbol "[" ∉ rest) (follows : Follows rest) :
    operand (expression depth) (l.tokens ++ rest) = .ok (l.expr, rest) := by
  cases l with
  | text value => exact operand_text noBracket follows
  | number value =>
    rw [tokens, numberTokens, expr]
    rw [nesting] at deep
    exact operand_signed deep noBracket follows
  | date value => exact operand_text noBracket follows
  | bool value =>
    have noType : Text.capitals (toString value) ∉ typeWords := by
      cases value <;> decide +kernel
    have word : Text.capitals (toString value) = if value then "TRUE" else "FALSE" := by
      cases value <;> decide +kernel
    refine (operand_word noType noBracket).trans (wordOperand_of_form ?_ follows)
    rw [word]
    cases value <;> rfl
  | null =>
    have noType : Text.capitals "NULL" ∉ typeWords := by decide +kernel
    have word : Text.capitals "NULL" = "NULL" := by decide +kernel
    refine (operand_word noType noBracket).trans (wordOperand_of_form ?_ follows)
    rw [word]
    rfl

theorem opens (l : Literal) : Opens (l.tokens ++ rest) := by
  cases l with
  | number value =>
    obtain ⟨digits, same | same⟩ := exists_numberTokens value <;>
      simp [tokens, same, Opens, Token.keyword?]
  | bool value => exact opens_word (by cases value <;> decide +kernel)
  | null => exact opens_word (by decide +kernel)
  | _ => simp [Opens, tokens, Token.keyword?]

theorem noBracket (l : Literal) : Token.symbol "[" ∉ l.tokens := by
  cases l with
  | number value =>
    obtain ⟨digits, same | same⟩ := exists_numberTokens value <;> simp [tokens, same]
  | _ => simp [tokens]

end Literal

namespace Operand

def expr : Operand → Expr
  | .column ref => ref.expr
  | .literal value => value.expr
  | .aggregate call => call.expr

def nesting : Operand → Nat
  | .column _ => 1
  | .literal value => value.nesting
  | .aggregate call => call.nesting

theorem operand_tokens {o : Operand} (expressible : o.Expressible) (deep : o.nesting ≤ depth + 1)
    (noBracket : Token.symbol "[" ∉ rest) (follows : Follows rest) :
    operand (expression depth) (o.tokens ++ rest) = .ok (o.expr, rest) := by
  cases o with
  | column ref => exact ColumnRef.operand_tokens expressible _ noBracket follows
  | literal value => exact Literal.operand_tokens value deep noBracket follows
  | aggregate call => exact AggregateCall.operand_tokens expressible deep noBracket follows

theorem opens {o : Operand} (expressible : o.Expressible) : Opens (o.tokens ++ rest) := by
  cases o with
  | column ref => exact ColumnRef.opens expressible
  | literal value => exact value.opens
  | aggregate call => exact call.opens

theorem noBracket (o : Operand) : Token.symbol "[" ∉ o.tokens := by
  cases o with
  | column ref => exact ref.noBracket
  | literal value => exact value.noBracket
  | aggregate call => exact call.noBracket

theorem nesting_pos (o : Operand) : 1 ≤ o.nesting := by
  cases o with
  | column ref => exact le_rfl
  | literal value =>
    cases value with
    | number value =>
      change 1 ≤ if _ then 2 else 1
      split <;> decide
    | _ => exact le_rfl
  | aggregate call =>
    obtain ⟨_, _ | _⟩ := call
    · exact Nat.le_refl 1
    · exact Nat.le_succ 1

end Operand

section Meaning

variable {clause : String}

theorem ColumnRef.operand_expr (c : ColumnRef) : c.expr.operand clause = .ok (.column c) := by
  obtain ⟨_ | aliasName, column⟩ := c <;> rfl

theorem AggregateCall.operand_expr {call : AggregateCall} (expressible : call.Expressible) :
    call.expr.operand clause = .ok (.aggregate call) := by
  have named : AggregateFunction.ofName? (pathText [⟨call.function.name, none⟩]) =
      some call.function := AggregateFunction.ofName?_name call.function
  obtain ⟨function, _ | column⟩ := call
  · obtain rfl : function = .count := expressible
    exact Expr.operand_callOver_eq_ok.2 ⟨named, rfl, rfl, rfl, rfl⟩
  · exact Expr.operand_call_eq_ok.2 ⟨function, column, named, rfl, rfl, column.operand_expr, rfl⟩

theorem Literal.meaning_signed {negative : Bool} {digits : String} {y : Float}
    (read : Decimal.floatOfText? digits = some y) :
    Expr.operand clause (if negative then .signed true (.value (.number digits false))
      else .value (.number digits false)) =
      .ok (.literal (.number (if negative then -y else y))) := by
  have plain : (Expr.value (.number digits false)).operand clause =
      .ok (.literal (.number y)) := by
    rw [Expr.operand, Value.meaning, read]
    rfl
  cases negative with
  | false => exact plain
  | true =>
    change ((Expr.value (.number digits false)).operand clause >>= fun o =>
      Condition.Literal.withSign clause true o) = _
    rw [plain]
    rfl

theorem Literal.operand_expr {l : Literal} (expressible : l.Expressible) :
    l.expr.operand clause = .ok (.literal l) := by
  cases l with
  | text value =>
    have noDate : textLiteral value = .text value := by
      rw [textLiteral, expressible]
    exact congrArg (fun l => Except.ok (Operand.literal l)) noDate
  | number value =>
    obtain ⟨negative, d, y, parts, _, read, same⟩ := Decimal.exists_signedText expressible
    rw [expr, parts, same]
    exact Literal.meaning_signed read
  | date value =>
    have date : textLiteral value.text = .date value := by
      rw [textLiteral, value.ofFixed?_text expressible]
    exact congrArg (fun l => Except.ok (Operand.literal l)) date
  | bool value => rfl
  | null => rfl

theorem Operand.operand_expr {o : Operand} (expressible : o.Expressible) :
    o.expr.operand clause = .ok o := by
  cases o with
  | column ref => exact ref.operand_expr
  | literal value => exact Literal.operand_expr expressible
  | aggregate call => exact AggregateCall.operand_expr expressible

end Meaning

end TablePlan
