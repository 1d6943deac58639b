import TablePlan.Calendar.Reading
import TablePlan.Condition.Expr
import TablePlan.Condition.Grammar.Expr
import TablePlan.Decimal.Reading

/-!
The conditions and columns that expressions mean. Comparisons, connectives, null tests, columns,
literals and aggregate calls have a meaning; anything else is refused with the text that it stands
in. The main functions are `Predicate.read` and `ColumnSource.read`.
-/

namespace TablePlan

namespace Condition

/-- A text, as a date if it has the shape of one. -/
def textLiteral (value : String) : Literal :=
  match Calendar.Date.ofFixed? value with
  | some date => .date date
  | none => .text value

def Connective.join : Connective → List Predicate → Predicate
  | .and, members => .and members
  | .or, members => .or members

/-- The members that an expression of a given meaning adds to a chain of a connective: a link of the
same chain adds its own members. -/
def Connective.membersOf (c : Connective) : Expr → Predicate → List Predicate
  | .binary _ (.connective .and) _, .and members =>
    if c = .and then members else [.and members]
  | .binary _ (.connective .or) _, .or members => if c = .or then members else [.or members]
  | _, p => [p]

section Meaning

variable (clause : String)

def unsupported {α : Type} (feature : String) : Except ConditionError α :=
  .error (.unsupported clause feature)

def Value.meaning : Value → Except ConditionError Literal
  | .text value => return textLiteral value
  | .number digits _ =>
    match Decimal.floatOfText? digits with
    | some x => return .number x
    | none => .error (.parse clause (.invalidNumber digits))
  | .bool value => return .bool value
  | .null => return .null
  | .other written => unsupported clause s!"literal '{written}'"

def Literal.withSign (negative : Bool) : Operand → Except ConditionError Operand
  | .literal (.number x) => return .literal (.number (if negative then -x else x))
  | _ => unsupported clause "sign on non-numeric operand"

def CallModifiers.aggregate (modifiers : CallModifiers) (path : List Ident)
    (argument : AggregateFunction → Except ConditionError (Option ColumnRef)) :
    Except ConditionError AggregateCall :=
  let name := pathText path
  match AggregateFunction.ofName? name with
  | .none => unsupported clause s!"function '{name}'"
  | some function =>
    if modifiers.window.isSome then unsupported clause "window function"
    else return ⟨function, ← argument function⟩

def rowsArgument (modifiers : CallModifiers) (path : List Ident) (arguments : CallArguments)
    (function : AggregateFunction) : Except ConditionError (Option ColumnRef) :=
  let name := pathText path
  match arguments with
  | .absent => unsupported clause s!"arguments of '{name}'"
  | .rows =>
    if modifiers.duplicates.isSome then unsupported clause "DISTINCT aggregate"
    else if function = .count then return none
    else unsupported clause s!"'*' argument to '{name}'"
  | .listed _ =>
    if modifiers.duplicates.isSome then unsupported clause "DISTINCT aggregate"
    else unsupported clause s!"argument list of '{name}'"

/-- The operand that an expression is. A name in double quotes is a text. -/
def Expr.operand : Expr → Except ConditionError Operand
  | .nested inner => inner.operand
  | .name first [] =>
    if first.quote = some '"' then return .literal (textLiteral first.value)
    else return .column (.bare first.value)
  | .name first [column] => return .column (.qualified first.value column.value)
  | .name first rest =>
    let written := pathText (first :: rest)
    unsupported clause s!"column reference '{written}'"
  | .value v => return .literal (← v.meaning clause)
  | .signed negative inner => do Literal.withSign clause negative (← inner.operand)
  | .call path argument modifiers =>
    return .aggregate (← modifiers.aggregate clause path fun _ => do
      if modifiers.duplicates.isSome then unsupported clause "DISTINCT aggregate"
      else
        match ← argument.operand with
        | .column column => return some column
        | _ =>
          let name := pathText path
          unsupported clause s!"non-column argument to '{name}'")
  | .callOver path arguments modifiers =>
    return .aggregate (← modifiers.aggregate clause path
      (rowsArgument clause modifiers path arguments))
  | e =>
    let written := e.text
    unsupported clause s!"operand '{written}'"

/-- The condition that an expression is. A bare column holds when it is true. -/
def Expr.predicate : Expr → Except ConditionError Predicate
  | .nested inner => inner.predicate
  | .binary left (.connective c) right => do
    let before ← left.predicate
    let after ← right.predicate
    return c.join (c.membersOf left before ++ c.membersOf right after)
  | .binary left (.compare op) right => do
    let before ← left.operand clause
    let after ← right.operand clause
    return .compare before op after
  | .binary _ (.other symbol) _ => unsupported clause s!"operator '{symbol}'"
  | .not inner => return .not (← inner.predicate)
  | .isNull inner negated => return .isNull (← inner.operand clause) negated
  | .name first rest => do
    match ← (Expr.name first rest).operand clause with
    | .column column => return .compare (.column column) .eq (.literal (.bool true))
    | _ => unsupported clause "non-boolean expression"
  | e =>
    let written := e.text
    unsupported clause s!"expression '{written}'"

end Meaning

def expression (text : String) : Except ConditionError Expr :=
  match Expr.parse text with
  | .ok e => .ok e
  | .error fault => .error (.parse text fault)

def startsPlainName (c : Char) : Bool :=
  c.isAlpha || c == '_'

def isPlainName : List Char → Bool
  | [] => false
  | c :: cs => startsPlainName c && cs.all fun d => startsPlainName d || d.isDigit

/-- Whether a text is a column name of core letters, digits and underscores, with an alias of such
before it or without. -/
def isPlainRef (text : String) : Bool :=
  match Text.splitAtFirst? '.' text.toList with
  | some (aliasName, column) => isPlainName aliasName && isPlainName column
  | none => isPlainName text.toList

end Condition

open Condition

def Predicate.read (clause : String) : Except ConditionError Predicate := do
  (← expression clause).predicate clause

/-- The column or aggregate that a select key names; a plain reference needs no grammar. -/
def ColumnSource.read (key : String) : Except ConditionError ColumnSource := do
  let trimmed := Text.trim key
  if isPlainRef trimmed then return .column (.parse trimmed)
  match ← (← expression trimmed).operand key with
  | .column ref => return .column ref
  | .aggregate call => return .aggregate call
  | .literal _ => unsupported key "literal select source"

end TablePlan
