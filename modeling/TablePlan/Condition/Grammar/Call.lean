import TablePlan.Condition.Grammar.Basic

/-!
Calls of functions: the argument list with what may follow the arguments in it, and what may
follow the list. Only a lone expression stays a tree; the rest is kept by its text.
-/

namespace TablePlan.Condition

open Text TokenParser

inductive Argument where
  | rows
  | one (e : Expr)
  | other (text : String)

namespace Argument

def text : Argument → String
  | .rows => "*"
  | .one e => e.text
  | .other written => written

end Argument

structure ArgumentList where
  duplicates : Option String
  arguments : List Argument
  clauses : List String

namespace ArgumentList

def parameterText (list : ArgumentList) : String :=
  let body := joined ", " (list.arguments.map Argument.text)
  "(" ++ joined " "
    (list.duplicates.toList ++ (if body.isEmpty then [] else [body]) ++ list.clauses) ++ ")"

end ArgumentList

namespace TokenParser

variable (sub : ExprParser)

def exprText : TokenParser String :=
  return (← sub 0).text

/-- An expression after a keyword, if the keyword is next; the text starts with a blank. -/
def optionalPart (word : String) : TokenParser String := do
  if ← keyword? word then return " " ++ word ++ " " ++ (← exprText sub) else return ""

def orderText : TokenParser String := do
  let e ← exprText sub
  let direction ← oneOf? ["ASC", "DESC"]
  let nulls ←
    if ← keywords? ["NULLS", "FIRST"] then pure ["NULLS FIRST"]
    else if ← keywords? ["NULLS", "LAST"] then pure ["NULLS LAST"]
    else pure []
  let fill ←
    if ← keywords? ["WITH", "FILL"] then
      let start ← optionalPart sub "FROM"
      let stop ← optionalPart sub "TO"
      let step ← optionalPart sub "STEP"
      pure ["WITH FILL" ++ start ++ stop ++ step]
    else pure []
  return joined " " (e :: direction.toList ++ nulls ++ fill)

def optionalOrder : TokenParser (Option String) := do
  if ← keywords? ["ORDER", "BY"] then return some ("ORDER BY " ++ (← listText (orderText sub)))
  else return none

def optionalNulls : TokenParser (Option String) := do
  match ← oneOf? ["IGNORE", "RESPECT"] with
  | some w =>
    keyword "NULLS"
    return some (w ++ " NULLS")
  | none => return none

/-- The rest of a path that ends in `*`; none if it ends in a name. -/
def rowsOfPath : (bound : Nat) → TokenParser (Option (List Ident))
  | 0 => fail
  | bound + 1 => do
    if ← symbol? "." then
      if ← symbol? "*" then return some []
      let part ← ident
      return (← rowsOfPath bound).map (part :: ·)
    else return none

def argumentValue : TokenParser Argument := do
  let tokens ← get
  if ← symbol? "*" then return .rows
  match tokens with
  | .word _ _ :: .symbol "." :: _ | .string .plain _ :: .symbol "." :: _ =>
    let first ← ident
    match ← rowsOfPath tokens.length with
    | some parts => return .other (pathText (first :: parts) ++ ".*")
    | none =>
      set tokens
      return .one (← sub 0)
  | _ => return .one (← sub 0)

def namedArgument : TokenParser Argument := do
  let name ← ident
  let mark ←
    if ← symbol? "=>" then pure "=>"
    else
      symbol ":="
      pure ":="
  let value ← argumentValue sub
  return .other (name.text ++ " " ++ mark ++ " " ++ value.text)

def argument : TokenParser Argument := do
  match ← attempt (namedArgument sub) with
  | some a => return a
  | none => argumentValue sub

def optionalLimit : TokenParser (Option String) := do
  if ← keyword? "LIMIT" then return some ("LIMIT " ++ (← exprText sub)) else return none

def optionalBound : TokenParser (Option String) := do
  if ← keyword? "HAVING" then
    let kind ← oneOf ["MIN", "MAX"]
    return some ("HAVING " ++ kind ++ " " ++ (← exprText sub))
  else return none

def optionalSeparator : TokenParser (Option String) := do
  if ← keyword? "SEPARATOR" then return some ("SEPARATOR " ++ (← literal).toText)
  else return none

def optionalFiller : TokenParser (Option String) := do
  match ← peek? with
  | some (.string _ _) => return some (← exprText sub)
  | _ =>
    if (← atKeyword "WITH") || (← atKeyword "WITHOUT") then return none else fail

def optionalOverflow : TokenParser (Option String) := do
  if ← keywords? ["ON", "OVERFLOW"] then
    if ← keyword? "ERROR" then return some "ON OVERFLOW ERROR"
    keyword "TRUNCATE"
    let filler ← optionalFiller sub
    let counted ← oneOf ["WITH", "WITHOUT"]
    keyword "COUNT"
    return some (joined " " ("ON OVERFLOW TRUNCATE" :: filler.toList ++ [counted, "COUNT"]))
  else return none

/-- The rest of an argument list after its opening parenthesis, and whether it says what becomes
of nulls. -/
def argumentList : TokenParser (ArgumentList × Bool) := do
  if ← symbol? ")" then return (⟨none, [], []⟩, false)
  let duplicates ← oneOf? ["ALL", "DISTINCT"]
  if duplicates = some "ALL" then
    if ← keyword? "DISTINCT" then fail
  let arguments ← separated (argument sub)
  let nulls ← optionalNulls
  let order ← optionalOrder sub
  let limit ← optionalLimit sub
  let bound ← optionalBound sub
  let separator ← optionalSeparator
  let overflow ← optionalOverflow sub
  symbol ")"
  let clauses := [nulls, order, limit, bound, separator, overflow].filterMap id
  return (⟨duplicates, arguments, clauses⟩, nulls.isSome)

def frameBound : TokenParser String := do
  if ← keywords? ["CURRENT", "ROW"] then return "CURRENT ROW"
  let distance ← if ← keyword? "UNBOUNDED" then pure "UNBOUNDED" else exprText sub
  let side ← oneOf ["PRECEDING", "FOLLOWING"]
  return distance ++ " " ++ side

def frameText : TokenParser String := do
  let units ← oneOf ["ROWS", "RANGE", "GROUPS"]
  if ← keyword? "BETWEEN" then
    let start ← frameBound sub
    keyword "AND"
    let stop ← frameBound sub
    return units ++ " BETWEEN " ++ start ++ " AND " ++ stop
  else return units ++ " " ++ (← frameBound sub)

def windowText : TokenParser String := do
  let name ← match ← peek? with
    | some (.word value none) => if isKeyword value then pure [] else pure [(← ident).text]
    | some (.word _ _) => pure [(← ident).text]
    | _ => pure []
  let partitions ←
    if ← keywords? ["PARTITION", "BY"] then
      pure ["PARTITION BY " ++ (← listText (exprText sub))]
    else pure []
  let order ← optionalOrder sub
  let frame ←
    if ← symbol? ")" then pure []
    else
      let frame ← frameText sub
      symbol ")"
      pure [frame]
  return joined " " (name ++ partitions ++ order.toList ++ frame)

def optionalOver : TokenParser (Option String) := do
  if ← keyword? "OVER" then
    if ← symbol? "(" then return some ("OVER (" ++ (← windowText sub) ++ ")")
    else return some ("OVER " ++ (← ident).text)
  else return none

def optionalWithin : TokenParser (Option String) := do
  if ← keywords? ["WITHIN", "GROUP"] then
    symbol "("
    keywords ["ORDER", "BY"]
    let list ← listText (orderText sub)
    symbol ")"
    return some ("WITHIN GROUP (ORDER BY " ++ list ++ ")")
  else return none

def call (name : List Ident) : TokenParser Expr := do
  symbol "("
  let (first, firstNulls) ← argumentList sub
  let (parameters, list, listNulls) ←
    if ← symbol? "(" then
      let (list, nulls) ← argumentList sub
      pure (some first.parameterText, list, nulls)
    else pure (none, first, firstNulls)
  let within ← optionalWithin sub
  let nulls ← if listNulls then pure none else optionalNulls
  let window ← optionalOver sub
  let modifiers : CallModifiers :=
    ⟨parameters, list.duplicates, list.clauses, within, none, nulls, window⟩
  match list.arguments with
  | [.one e] => return .call name e modifiers
  | [.rows] => return .callOver name .rows modifiers
  | arguments =>
    return .callOver name (.listed (joined ", " (arguments.map Argument.text))) modifiers

/-- A call without parentheses, or with an argument list and nothing after it. -/
def bareCall (name : Ident) : TokenParser Expr := do
  if ← symbol? "(" then
    let (list, _) ← argumentList sub
    let modifiers : CallModifiers :=
      ⟨none, list.duplicates, list.clauses, none, none, none, none⟩
    return .callOver [name] (.listed (joined ", " (list.arguments.map Argument.text))) modifiers
  else return .callOver [name] .absent CallModifiers.none

end TokenParser

end TablePlan.Condition
