import TablePlan.Proofs.Condition.Chain
import TablePlan.Proofs.Condition.Operands

/-!
Conditions read back from their text. A text is scanned into the tokens of its condition, these
are the expression of the condition, and the expression means the condition, node for node.
-/

namespace TablePlan

open Condition Condition.TokenParser

variable {rest : List Token}

namespace Condition.Connective

def word (c : Connective) : Token :=
  .word (Operator.connective c).text none

def precedence : Connective → Nat
  | .and => 10
  | .or => 5

def chain (c : Connective) : List Expr → Expr
  | [] => .value .null
  | e :: es => es.foldl (fun left right => .binary left (.connective c) right) e

theorem nextPrecedence_word (c : Connective) (ts : List Token) :
    nextPrecedence (c.word :: ts) = c.precedence := by
  cases c <;> rfl

end Condition.Connective

/-- The tokens that may stand after a condition: it ends in parentheses or is a member. -/
def Closes (ts : List Token) : Prop :=
  ∀ t ∈ ts.head?, t ∈ [.symbol ")", .word "AND" none, .word "OR" none]

namespace Closes

theorem follows (closes : Closes rest) : Follows rest := fun t head => by
  have all : ∀ t ∈ [Token.symbol ")", .word "AND" none, .word "OR" none], t ∈ followers := by
    decide
  exact all t (closes t head)

theorem nextPrecedence_le (closes : Closes rest) : nextPrecedence rest ≤ 10 := by
  cases rest with
  | nil => exact Nat.zero_le _
  | cons t ts =>
    have mem := closes t rfl
    simp only [List.mem_cons, List.not_mem_nil, or_false] at mem
    obtain rfl | rfl | rfl := mem <;> exact Nat.le_of_ble_eq_true rfl

end Closes

namespace Predicate

mutual

def expr : Predicate → Expr
  | .and items => .nested (Connective.and.chain (exprsOfAll items))
  | .or items => .nested (Connective.or.chain (exprsOfAll items))
  | .not inner => .not inner.expr
  | .compare left op right => .binary left.expr (.compare op) right.expr
  | .isNull operand negated => .isNull operand.expr negated

def exprsOfAll : List Predicate → List Expr
  | [] => []
  | p :: ps => p.expr :: exprsOfAll ps

end

mutual

/-- How deeply the expression of a condition nests. Parentheses, a negation and the right side of an
operator each hold an expression of their own. -/
def nesting : Predicate → Nat
  | .and items => nestingOfGroup items + 1
  | .or items => nestingOfGroup items + 1
  | .not inner => inner.nesting + 1
  | .compare left _ right => max left.nesting (right.nesting + 1)
  | .isNull operand _ => operand.nesting

def nestingOfGroup : List Predicate → Nat
  | [] => 0
  | p :: ps => max p.nesting (nestingOfRest ps)

def nestingOfRest : List Predicate → Nat
  | [] => 0
  | p :: ps => max (p.nesting + 1) (nestingOfRest ps)

end

theorem nesting_pos (p : Predicate) : 1 ≤ p.nesting := by
  cases p with
  | and items => exact Nat.le_add_left 1 _
  | or items => exact Nat.le_add_left 1 _
  | not inner => exact Nat.le_add_left 1 _
  | compare left op right => exact left.nesting_pos.trans (Nat.le_max_left _ _)
  | isNull operand negated => exact operand.nesting_pos

theorem tokensOfAll_eq_map (ps : List Predicate) : tokensOfAll ps = ps.map tokens := by
  induction ps with
  | nil => rfl
  | cons p ps ih => rw [tokensOfAll, ih, List.map_cons]

theorem exprsOfAll_eq_map (ps : List Predicate) : exprsOfAll ps = ps.map expr := by
  induction ps with
  | nil => rfl
  | cons p ps ih => rw [exprsOfAll, ih, List.map_cons]

def groupTokens (c : Connective) (items : List Predicate) : List Token :=
  .symbol "(" :: ([c.word].intercalate (tokensOfAll items) ++ [.symbol ")"])

theorem tokens_and (items : List Predicate) : (and items).tokens = groupTokens .and items :=
  rfl

theorem tokens_or (items : List Predicate) : (or items).tokens = groupTokens .or items :=
  rfl

def restTokens (c : Connective) (ps : List Predicate) : List Token :=
  ps.flatMap fun p => c.word :: p.tokens

theorem groupTokens_cons (c : Connective) (p : Predicate) (ps : List Predicate) :
    groupTokens c (p :: ps) =
      .symbol "(" :: (p.tokens ++ (restTokens c ps ++ [.symbol ")"])) := by
  rw [groupTokens, tokensOfAll_eq_map, List.map_cons, intercalate_cons, List.flatMap_map,
    List.append_assoc]
  rfl

theorem noBracket_groupTokens (c : Connective) {items : List Predicate}
    (members : ∀ p ∈ items, Token.symbol "[" ∉ p.tokens) :
    Token.symbol "[" ∉ groupTokens c items := by
  cases items with
  | nil => cases c <;> decide
  | cons p ps =>
    rw [List.forall_mem_cons] at members
    rw [groupTokens_cons, restTokens]
    simp only [List.mem_cons, List.mem_append, List.mem_flatMap, not_or, not_exists, not_and]
    exact ⟨by simp, members.1, fun q mem => ⟨by simp [Connective.word], members.2 q mem⟩, by simp⟩

theorem noBracket (p : Predicate) : Token.symbol "[" ∉ p.tokens := by
  induction p using inductionOnMembers with
  | and items ih => exact tokens_and items ▸ noBracket_groupTokens .and ih
  | or items ih => exact tokens_or items ▸ noBracket_groupTokens .or ih
  | not inner ih => simpa [tokens] using ih
  | compare left op right =>
    have other : op.token ≠ .symbol "[" := by
      cases op <;> decide
    simp [tokens, left.noBracket, right.noBracket, Ne.symm other]
  | isNull operand negated => cases negated <;> simp [tokens, operand.noBracket]

theorem opens {p : Predicate} (expressible : p.Expressible) : Opens (p.tokens ++ rest) := by
  cases p with
  | and items => simp [Opens, tokens, Token.keyword?]
  | or items => simp [Opens, tokens, Token.keyword?]
  | not inner => exact opens_word (by decide +kernel)
  | compare left op right =>
    rw [tokens, List.append_assoc]
    exact Operand.opens expressible.1
  | isNull operand negated =>
    rw [tokens, List.append_assoc]
    exact Operand.opens expressible

/-- The tokens of a condition are its expression, at every precedence up to that of a negation. The
bound counts the tokens from the start of the condition and so is enough for what follows it. -/
def Reads (p : Predicate) : Prop :=
  ∀ (depth precedence : Nat) (rest : List Token), p.nesting ≤ depth + 1 → precedence ≤ 15 →
    Token.symbol "[" ∉ rest → Closes rest → ∃ bound, rest.length ≤ bound ∧
      expression (depth + 1) precedence (p.tokens ++ rest) =
        continued (expression depth) precedence bound p.expr rest

theorem Reads.whole {p : Predicate} {depth precedence : Nat} (reads : p.Reads)
    (deep : p.nesting ≤ depth + 1) (low : precedence ≤ 15)
    (noBracket : Token.symbol "[" ∉ rest) (closes : Closes rest)
    (stop : nextPrecedence rest ≤ precedence) :
    expression (depth + 1) precedence (p.tokens ++ rest) = .ok (p.expr, rest) := by
  obtain ⟨bound, _, read⟩ := reads depth precedence rest deep low noBracket closes
  exact read.trans (continued_of_le stop)

theorem exists_bound {depth precedence : Nat} {first : List Token} {t : Token} {after : List Token}
    {left e : Expr}
    (read : operand (expression depth) (first ++ t :: after) = .ok (left, t :: after))
    (more : precedence < nextPrecedence (t :: after))
    (apply : operated (expression depth) (nextPrecedence (t :: after)) left (t :: after) =
      .ok (e, rest)) (shorter : rest.length ≤ after.length) :
    ∃ bound, rest.length ≤ bound ∧ expression (depth + 1) precedence (first ++ t :: after) =
      continued (expression depth) precedence bound e rest := by
  have length : (first ++ t :: after).length = first.length + after.length + 1 := by
    rw [List.length_append, List.length_cons, Nat.add_assoc]
  refine ⟨first.length + after.length, by omega, (expression_of_operand read).trans ?_⟩
  rw [length]
  exact continued_of_lt more apply

theorem operated_compare {sub : ExprParser} (op : Comparison) {left e : Expr} {ts : List Token}
    (opens : Opens ts) (read : sub 20 ts = .ok (e, rest)) :
    operated sub (nextPrecedence (op.token :: ts)) left (op.token :: ts) =
      .ok (.binary left (.compare op) e, rest) := by
  have side : rightSide sub 20 left (.compare op) ts = .ok (.binary left (.compare op) e, rest) :=
    rightSide_of_head (opens.notMem (by decide)) read
  cases op <;> exact side

theorem exists_bound_compare {depth precedence : Nat} (op : Comparison) {first second : List Token}
    {left right : Expr} (low : precedence ≤ 15) (noBracket : Token.symbol "[" ∉ second ++ rest)
    (leftRead : ∀ {ts}, Token.symbol "[" ∉ ts → Follows ts →
      operand (expression depth) (first ++ ts) = .ok (left, ts))
    (opens : Opens (second ++ rest))
    (rightRead : expression depth 20 (second ++ rest) = .ok (right, rest)) :
    ∃ bound, rest.length ≤ bound ∧
      expression (depth + 1) precedence (first ++ op.token :: (second ++ rest)) =
        continued (expression depth) precedence bound (.binary left (.compare op) right) rest := by
  have operator : Follows (op.token :: (second ++ rest)) ∧
      op.token ≠ .symbol "[" ∧ nextPrecedence (op.token :: (second ++ rest)) = 20 := by
    cases op <;> exact ⟨by simp [Follows, followers, Comparison.token, Comparison.symbol],
      by decide, rfl⟩
  obtain ⟨follows, other, binds⟩ := operator
  have more : precedence < nextPrecedence (op.token :: (second ++ rest)) := by
    rw [binds]
    omega
  exact exists_bound (leftRead (by simpa [Ne.symm other] using noBracket) follows) more
    (operated_compare op opens rightRead) (by simp)

theorem reads_compare {left right : Operand} (op : Comparison) (first : left.Expressible)
    (second : right.Expressible) : (Predicate.compare left op right).Reads := by
  intro depth precedence rest deep low noBracket closes
  have deep : max left.nesting (right.nesting + 1) ≤ depth + 1 := deep
  have some := right.nesting_pos
  obtain ⟨d, rfl⟩ : ∃ d, depth = d + 1 := Nat.exists_eq_succ_of_ne_zero (by omega)
  have rightRead : expression (d + 1) 20 (right.tokens ++ rest) = .ok (right.expr, rest) :=
    (expression_of_operand (Operand.operand_tokens second (by omega) noBracket
      closes.follows)).trans (continued_of_le (closes.nextPrecedence_le.trans (by decide)))
  have found := exists_bound_compare op low (by simp [right.noBracket, noBracket])
    (Operand.operand_tokens first (by omega)) (Operand.opens second) rightRead
  simpa [tokens, expr] using found

theorem reads_isNull {operand : Operand} (negated : Bool) (expressible : operand.Expressible) :
    (Predicate.isNull operand negated).Reads := by
  intro depth precedence rest deep low noBracket closes
  have test : Token.symbol "[" ∉ Token.word "IS" none ::
      ((if negated then [.word "NOT" none] else []) ++ .word "NULL" none :: rest) := by
    cases negated <;> simpa using noBracket
  have read := Operand.operand_tokens expressible deep test (by simp [Follows, followers])
  have more : precedence < nextPrecedence (.word "IS" none ::
      ((if negated then [.word "NOT" none] else []) ++ .word "NULL" none :: rest)) := by
    change precedence < 17
    omega
  have found := exists_bound read more (operated_isNull negated) (by
    rw [List.length_append, List.length_cons]
    omega)
  simpa [tokens, expr] using found

theorem reads_not {inner : Predicate} (expressible : inner.Expressible) (reads : inner.Reads) :
    (Predicate.not inner).Reads := by
  intro depth precedence rest deep low noBracket closes
  have deep : inner.nesting + 1 ≤ depth + 1 := deep
  have some := inner.nesting_pos
  obtain ⟨d, rfl⟩ : ∃ d, depth = d + 1 := Nat.exists_eq_succ_of_ne_zero (by omega)
  have innerRead : expression (d + 1) 15 (inner.tokens ++ rest) = .ok (inner.expr, rest) :=
    reads.whole (by omega) le_rfl noBracket closes (closes.nextPrecedence_le.trans (by decide))
  have noType : Text.capitals "NOT" ∉ typeWords := by decide +kernel
  have word : Text.capitals "NOT" = "NOT" := by decide +kernel
  have negated : wordOperand (expression (d + 1)) ⟨"NOT", none⟩ (Text.capitals "NOT")
      (inner.tokens ++ rest) = .ok (.not inner.expr, rest) := by
    rw [word]
    exact wordOperand_of_form
      (form_not _ ((opens expressible).2 "EXISTS" (by decide)) innerRead) closes.follows
  have read := (operand_word noType (by simp [inner.noBracket, noBracket])).trans negated
  refine ⟨_, ?_, expression_of_operand read⟩
  rw [tokens, List.cons_append, List.length_cons, List.length_append]
  omega

section Groups

variable {c : Connective}

theorem closes_restTokens (c : Connective) (ps : List Predicate) :
    Closes (restTokens c ps ++ .symbol ")" :: rest) ∧
      nextPrecedence (restTokens c ps ++ .symbol ")" :: rest) ≤ c.precedence := by
  cases ps with
  | nil => exact ⟨by simp [Closes, restTokens], Nat.zero_le _⟩
  | cons p ps =>
    refine ⟨?_, (c.nextPrecedence_word _).le⟩
    cases c <;> simp [Closes, restTokens, Connective.word, Operator.text]

theorem noBracket_restTokens (c : Connective) (ps : List Predicate)
    (noBracket : Token.symbol "[" ∉ rest) :
    Token.symbol "[" ∉ restTokens c ps ++ .symbol ")" :: rest := by
  simp [restTokens, Connective.word, Predicate.noBracket, noBracket]

theorem continued_restTokens {depth bound : Nat} {left : Expr} {ps : List Predicate}
    (expressible : AllExpressible ps) (reads : ∀ p ∈ ps, p.Reads)
    (deep : nestingOfRest ps ≤ depth + 1) (noBracket : Token.symbol "[" ∉ rest)
    (enough : ps.length ≤ bound) :
    continued (expression depth) 0 bound left (restTokens c ps ++ .symbol ")" :: rest) =
      .ok ((ps.map expr).foldl (fun left right => .binary left (.connective c) right) left,
        .symbol ")" :: rest) := by
  induction ps generalizing left bound with
  | nil => exact continued_of_le le_rfl
  | cons p ps ih =>
    obtain ⟨bound, rfl⟩ : ∃ b, bound = b + 1 := Nat.exists_eq_succ_of_ne_zero (by
      rw [List.length_cons] at enough
      omega)
    rw [List.forall_mem_cons] at reads
    have deep : max (p.nesting + 1) (nestingOfRest ps) ≤ depth + 1 := deep
    have pos := p.nesting_pos
    obtain ⟨d, rfl⟩ : ∃ d, depth = d + 1 := Nat.exists_eq_succ_of_ne_zero (by omega)
    -- The word before a member binds no tighter than the next such word, so the member ends there.
    have tight : 0 < c.precedence ∧ c.precedence ≤ 15 := by cases c <;> decide
    have others := noBracket_restTokens c ps noBracket
    obtain ⟨closes, stop⟩ : Closes (restTokens c ps ++ .symbol ")" :: rest) ∧ _ :=
      closes_restTokens c ps
    generalize after : restTokens c ps ++ .symbol ")" :: rest = ts at others closes stop
    have right : expression (d + 1) c.precedence (p.tokens ++ ts) = .ok (p.expr, ts) :=
      reads.1.whole (by omega) tight.2 others closes stop
    have more : 0 < nextPrecedence (c.word :: (p.tokens ++ ts)) := by
      rw [c.nextPrecedence_word]
      exact tight.1
    have link : operated (expression (d + 1)) (nextPrecedence (c.word :: (p.tokens ++ ts)))
        left (c.word :: (p.tokens ++ ts)) = .ok (.binary left (.connective c) p.expr, ts) := by
      rw [c.nextPrecedence_word]
      exact operated_connective c ((opens expressible.1).notMem (by decide)) right
    have linked : continued (expression (d + 1)) 0 (bound + 1) left _ = _ :=
      continued_of_lt more link
    rw [← after, ih expressible.2 reads.2 (by omega) (Nat.le_of_succ_le_succ enough)] at linked
    simpa [restTokens] using linked

theorem length_le_restTokens (c : Connective) (ps : List Predicate) :
    ps.length ≤ (restTokens c ps).length := by
  induction ps with
  | nil => exact le_rfl
  | cons p ps ih =>
    rw [restTokens, List.flatMap_cons, List.length_append]
    exact (Nat.add_comm _ _).trans_le (Nat.add_le_add (by simp) ih)

theorem operand_groupTokens {depth : Nat} {items : List Predicate} (some : items ≠ [])
    (expressible : AllExpressible items) (reads : ∀ p ∈ items, p.Reads)
    (deep : nestingOfGroup items ≤ depth) (noBracket : Token.symbol "[" ∉ rest)
    (closes : Closes rest) : operand (expression depth) (groupTokens c items ++ rest) =
      .ok (.nested (c.chain (exprsOfAll items)), rest) := by
  cases items with
  | nil => exact absurd rfl some
  | cons p ps =>
    have deep : max p.nesting (nestingOfRest ps) ≤ depth := deep
    have pos := p.nesting_pos
    obtain ⟨d, rfl⟩ : ∃ d, depth = d + 1 := Nat.exists_eq_succ_of_ne_zero (by omega)
    rw [List.forall_mem_cons] at reads
    obtain ⟨bound, enough, first⟩ := reads.1 d 0 (restTokens c ps ++ .symbol ")" :: rest)
      (by omega) (Nat.zero_le 15) (noBracket_restTokens c ps noBracket) (closes_restTokens c ps).1
    have count := length_le_restTokens c ps
    rw [List.length_append] at enough
    have inner := first.trans
      (continued_restTokens expressible.2 reads.2 (by omega) noBracket (by omega))
    have noBrackets : Token.symbol "[" ∉ groupTokens c (p :: ps) ++ rest := by
      rw [List.mem_append, not_or]
      exact ⟨noBracket_groupTokens c fun p _ => p.noBracket, noBracket⟩
    rw [groupTokens_cons, List.cons_append] at noBrackets ⊢
    rw [operand_symbol noBrackets (by decide)]
    have opened : Opens (p.tokens ++ (restTokens c ps ++ .symbol ")" :: rest)) :=
      opens expressible.1
    have group := symbolOperand_group (opened.notMem (by decide)) inner closes.follows
    simpa [exprsOfAll, exprsOfAll_eq_map, Connective.chain] using group

theorem reads_group {items : List Predicate} (some : 2 ≤ items.length)
    (expressible : AllExpressible items) (reads : ∀ p ∈ items, p.Reads)
    {depth precedence : Nat} (deep : nestingOfGroup items + 1 ≤ depth + 1)
    (noBracket : Token.symbol "[" ∉ rest) (closes : Closes rest) :
    ∃ bound, rest.length ≤ bound ∧
      expression (depth + 1) precedence (groupTokens c items ++ rest) =
        continued (expression depth) precedence bound (.nested (c.chain (exprsOfAll items)))
          rest := by
  have nonempty : items ≠ [] := List.ne_nil_of_length_pos (by omega)
  refine ⟨_, ?_, expression_of_operand (operand_groupTokens nonempty expressible reads
    (Nat.le_of_succ_le_succ deep) noBracket closes)⟩
  rw [List.length_append]
  exact Nat.le_add_left _ _

theorem reads {p : Predicate} (expressible : p.Expressible) : p.Reads := by
  induction p using inductionOnMembers with
  | and items ih =>
    intro depth precedence rest deep _ noBracket closes
    rw [tokens_and, expr]
    exact reads_group expressible.1 expressible.2
      (fun p mem => ih p mem (expressible.2.of_mem p mem)) deep noBracket closes
  | or items ih =>
    intro depth precedence rest deep _ noBracket closes
    rw [tokens_or, expr]
    exact reads_group expressible.1 expressible.2
      (fun p mem => ih p mem (expressible.2.of_mem p mem)) deep noBracket closes
  | not inner ih => exact reads_not expressible (ih expressible)
  | compare left op right => exact reads_compare op expressible.1 expressible.2
  | isNull operand negated => exact reads_isNull negated expressible

end Groups

section Meaning

variable {clause : String} {c : Connective}

theorem sides?_expr (p : Predicate) : c.sides? p.expr = none := by
  cases p <;> rfl

theorem predicate_link_expr {left : Expr} {before : Predicate} {members : List Predicate}
    {p : Predicate} (start : left.predicate clause = .ok before)
    (found : c.membersOf left before = members) (means : p.expr.predicate clause = .ok p) :
    (Expr.binary left (.connective c) p.expr).predicate clause = .ok (c.join (members ++ [p])) := by
  rw [Connective.predicate_link, start, means]
  change Except.ok (c.join (c.membersOf left before ++ c.membersOf p.expr p)) = _
  rw [found, Connective.membersOf_of_sides? means p.sides?_expr]

theorem predicate_foldl {left : Expr} {before p : Predicate} {members ps : List Predicate}
    (start : left.predicate clause = .ok before) (found : c.membersOf left before = members)
    (means : ∀ q ∈ p :: ps, q.expr.predicate clause = .ok q) :
    (((p :: ps).map expr).foldl (fun left right => .binary left (.connective c) right)
      left).predicate clause = .ok (c.join (members ++ p :: ps)) := by
  induction ps generalizing left before p members with
  | nil => exact predicate_link_expr start found (means p List.mem_cons_self)
  | cons q ps ih =>
    rw [List.forall_mem_cons] at means
    have linked := predicate_link_expr start found means.1
    have rest := ih linked (Connective.membersOf_join left p.expr (members ++ [p])) means.2
    rwa [List.append_assoc] at rest

theorem predicate_chain {items : List Predicate} (some : 2 ≤ items.length)
    (means : ∀ p ∈ items, p.expr.predicate clause = .ok p) :
    (Expr.nested (c.chain (exprsOfAll items))).predicate clause = .ok (c.join items) := by
  match items with
  | p :: q :: ps =>
    rw [List.forall_mem_cons] at means
    rw [exprsOfAll_eq_map]
    exact predicate_foldl means.1 (Connective.membersOf_of_sides? means.1 p.sides?_expr) means.2

theorem predicate_expr {p : Predicate} (expressible : p.Expressible) :
    p.expr.predicate clause = .ok p := by
  induction p using inductionOnMembers with
  | and items ih =>
    have members p (mem : p ∈ items) := ih p mem (expressible.2.of_mem p mem)
    exact predicate_chain expressible.1 members
  | or items ih =>
    have members p (mem : p ∈ items) := ih p mem (expressible.2.of_mem p mem)
    exact predicate_chain expressible.1 members
  | not inner ih => rw [expr, Expr.predicate, ih expressible]; rfl
  | compare left op right =>
    rw [expr, Expr.predicate, Operand.operand_expr expressible.1,
      Operand.operand_expr expressible.2]
    rfl
  | isNull operand negated =>
    rw [expr, Expr.predicate, Operand.operand_expr expressible]
    rfl

end Meaning

theorem expression_text {p : Predicate} (expressible : p.Expressible)
    (deep : p.nesting ≤ depthLimit) : Condition.expression p.text = .ok p.expr := by
  have scanned : Token.Scans p.text.toList p.tokens := by
    have ends : EndsOperand [] := by simp [EndsOperand]
    simpa using p.scans expressible ends Token.scans_nil
  have read : TokenParser.expression depthLimit 0 p.tokens = .ok (p.expr, []) := by
    have whole := (reads expressible).whole deep (Nat.zero_le 15) List.not_mem_nil
      (by simp [Closes]) le_rfl
    rwa [List.append_nil] at whole
  have parsed : Expr.parse p.text = .ok p.expr := by
    rw [Expr.parse, scanned.scan?]
    dsimp only
    rw [read]
  rw [Condition.expression, parsed]

/-- Reading the text of a condition gives back the condition, node for node. -/
theorem read_text (p : Predicate) (expressible : p.Expressible) (deep : p.nesting ≤ depthLimit) :
    Predicate.read p.text = .ok p := by
  rw [Predicate.read, expression_text expressible deep]
  exact predicate_expr expressible

/-- `((NOT b.title == 'it''s' AND sum(price) > -2.5) AND (sold <= '2024-02-29' OR shelf IS NOT
NULL))` -/
def groups : Predicate :=
  .and [
    .and [
      .not (.compare (.column (.qualified "b" "title")) .eq (.literal (.text "it's"))),
      .compare (.aggregate ⟨.sum, some (.bare "price")⟩) .gt (.literal (.number (-2.5)))],
    .or [
      .compare (.column (.bare "sold")) .ltEq (.literal (.date ⟨2024, 2, 29, by decide⟩)),
      .isNull (.column (.bare "shelf")) true]]

theorem read_text_groups : (groups.Expressible ∧ groups.nesting ≤ depthLimit) ∧
    Predicate.read groups.text = .ok groups := by
  have expressible : groups.Expressible := by decide +kernel
  have deep : groups.nesting ≤ depthLimit := by decide +kernel
  exact ⟨⟨expressible, deep⟩, read_text groups expressible deep⟩

end Predicate

end TablePlan
