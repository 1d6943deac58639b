import TablePlan.Condition.Grammar.Form
import TablePlan.Condition.Scanner

/-!
Expressions from tokens. Operators bind by their precedence, to the left among equals; forms nest
at most fifty deep. The main function is `Expr.parse`.
-/

namespace TablePlan.Condition

open Text

def depthLimit : Nat := 50

/-- How tightly an infix operator binds; 0 if none is next. -/
def nextPrecedence (tokens : List Token) : Nat :=
  match tokens with
  | .symbol s :: _ => symbolPrecedence s
  | token :: rest =>
    match token.keyword? with
    | some "NOT" =>
      match rest.head?.bind Token.keyword? with
      | some w => if w = "IN" ∨ w = "BETWEEN" then 20 else likePrecedence w
      | none => 0
    | some "AT" => if TokenParser.startWith ["TIME", "ZONE"] rest then 41 else 0
    | some w => wordPrecedence w
    | none => 0
  | [] => 0
where
  likePrecedence (w : String) : Nat :=
    if ["LIKE", "ILIKE", "RLIKE", "REGEXP", "SIMILAR"].contains w then 19 else 0
  wordPrecedence (w : String) : Nat :=
    match w with
    | "OR" => 5
    | "AND" => 10
    | "IS" => 17
    | "IN" | "BETWEEN" | "OPERATOR" => 20
    | "XOR" => 24
    | "DIV" => 40
    | _ => likePrecedence w
  symbolPrecedence (s : String) : Nat :=
    if ["=", "==", "<>", "<", "<=", ">", ">=", "<=>", "~", "~*", "!~", "!~*", "~~", "~~*", "!~~",
        "!~~*"].contains s then 20
    else if ["->", "->>", "#>", "#>>", "@>", "<@", "#-", "@?", "@@"].contains s then 16
    else if s = "|" then 21
    else if ["^", "#", "<<", ">>"].contains s then 22
    else if s = "&" then 23
    else if ["+", "-"].contains s then 30
    else if ["*", "/", "//", "%", "||"].contains s then 40
    else if ["::", "!", "[", "&&", "^@"].contains s then 50
    else 0

def operatorOf? (s : String) : Option Operator :=
  match s with
  | "=" | "==" => some (.compare .eq)
  | "<>" => some (.compare .notEq)
  | "<" => some (.compare .lt)
  | "<=" => some (.compare .ltEq)
  | ">" => some (.compare .gt)
  | ">=" => some (.compare .gtEq)
  | _ =>
    if ["<=>", "+", "-", "*", "%", "||", "|", "^", "&", "/", "//", "<<", ">>", "&&", "^@", "~",
        "~*", "!~", "!~*", "~~", "~~*", "!~~", "!~~*", "->", "->>", "#>", "#>>", "@>", "<@", "#-",
        "@?", "@@"].contains s then some (.other s)
    else none

namespace TokenParser

section Operands

variable (sub : ExprParser)

def nameOrCall (first : Ident) : TokenParser Expr := do
  match ← get with
  | .symbol "(" :: _ => call sub [first]
  | .symbol "." :: _ =>
    let rest ← furtherParts (← get).length
    match ← get with
    | .symbol "(" :: _ => call sub (first :: rest)
    | _ => return .name first rest
  | .string form value :: rest =>
    if (form = .plain ∨ form = .hex) ∧ first.value.startsWith "_" then
      set rest
      return .special (first.value ++ " " ++ stringText form value)
    else return .name first []
  | _ => return .name first []

def collated (e : Expr) : TokenParser Expr := do
  if ← keyword? "COLLATE" then
    return .special (e.text ++ " COLLATE " ++ pathText (← path))
  else return e

/-- What a word starts: its form as a keyword, or else a name or a call. A word whose form cannot
be read may still be a name, unless it is strict. -/
def wordOperand (first : Ident) (word : String) : TokenParser Expr := fun tokens =>
  match form sub first word tokens with
  | .ok (some e, rest) => collated e rest
  | .ok (none, _) =>
    match nameOrCall sub first tokens with
    | .ok (e, rest) => collated e rest
    | .error failure => .error failure
  | .error failure =>
    if Keyword.strict.contains word then .error failure
    else match nameOrCall sub first tokens with
      | .ok found => .ok found
      | .error _ => .error failure

def typedLiteral : TokenParser Expr := do
  let type ← TypeName.parser
  if type.known then
    return .special (type.text ++ " " ++ quotedText '\'' (← stringOrName))
  else fail

def grouped : TokenParser Expr := do
  let e ←
    if ← atQuery then pure (Expr.subquery (← query sub))
    else
      match ← separated (sub 0) with
      | [e] => pure (.nested e)
      | es => pure (.special ("(" ++ joined ", " (es.map Expr.text) ++ ")"))
  symbol ")"
  if ← symbol? "." then
    match ← next with
    | .word value quote => return .special (e.text ++ "." ++ (Ident.mk value quote).text)
    | _ => fail
  else return e

def symbolOperand (s : String) : TokenParser Expr :=
  match s with
  | "(" => do collated (← grouped sub)
  | "-" => do collated (.signed true (← sub 40))
  | "+" => do collated (.signed false (← sub 40))
  | "[" => do
    collated (.special ("[" ++ (← listTextUntil "]" (exprText sub)) ++ "]"))
  | "\x7b" => do
    let entries ← listTextUntil "\x7d" (entryText sub (return (← ident).text))
    collated (.special ("\x7b" ++ entries ++ "\x7d"))
  | _ => fail

/-- What stands before the first operator of an expression. Spans of time nest without nesting an
expression; the number of tokens bounds how often. -/
def operandUpTo : (bound : Nat) → TokenParser Expr
  | 0 => fail
  | bound + 1 => do
    let tokens ← get
    match tokens with
    | [] => fail
    | token :: rest =>
      if token.keyword? = some "INTERVAL" then
        set rest
        return .special (← intervalText (operandUpTo bound))
      match ← attempt typedLiteral with
      | some e => return e
      | none =>
        match token with
        | .word value quote =>
          set rest
          wordOperand sub ⟨value, quote⟩ (token.keyword?.getD "")
        | .symbol s =>
          if s = ":" ∨ s = "@" then do collated (.value (← literal))
          else
            set rest
            symbolOperand sub s
        | _ => do collated (.value (← literal))

def operand : TokenParser Expr := do
  operandUpTo sub (← get).length

end Operands

section Operators

variable (sub : ExprParser)

def rightSide (precedence : Nat) (left : Expr) (op : Operator) : TokenParser Expr := do
  match ← oneOf? ["ANY", "ALL", "SOME"] with
  | some w =>
    let tokens ← get
    symbol "("
    let right ←
      if ← atQuery then
        set tokens
        match ← sub precedence with
        | .subquery text => pure ("(" ++ text ++ ")")
        | e => pure ("(" ++ e.text ++ ")")
      else
        let e ← sub precedence
        symbol ")"
        pure ("(" ++ e.text ++ ")")
    match op with
    | .compare _ => return .special (left.text ++ " " ++ op.text ++ " " ++ w ++ right)
    | _ => fail
  | none => return .binary left op (← sub precedence)

def operatorNames : (bound : Nat) → TokenParser (List String)
  | 0 => fail
  | bound + 1 => do
    let part := (← next).text
    if ← symbol? "." then return part :: (← operatorNames bound) else return [part]

def isTest (left : Expr) : TokenParser Expr := do
  if ← keyword? "NULL" then return .isNull left false
  if ← keywords? ["NOT", "NULL"] then return .isNull left true
  let negation ← if ← keyword? "NOT" then pure " IS NOT " else pure " IS "
  match ← oneOf? ["TRUE", "FALSE", "UNKNOWN"] with
  | some w => return .special (left.text ++ negation ++ w)
  | none =>
    keywords ["DISTINCT", "FROM"]
    return .special (left.text ++ negation ++ "DISTINCT FROM " ++ (← exprText sub))

def membership : TokenParser String := do
  if ← keyword? "UNNEST" then
    return "IN UNNEST(" ++ (← parenthesized (exprText sub)) ++ ")"
  symbol "("
  let list ← if ← atQuery then query sub else listText (exprText sub)
  symbol ")"
  return "IN (" ++ list ++ ")"

def range : TokenParser String := do
  let low ← sub 20
  keyword "AND"
  let high ← sub 20
  return "BETWEEN " ++ low.text ++ " AND " ++ high.text

def optionalEscape : TokenParser String := do
  if ← keyword? "ESCAPE" then return " ESCAPE '" ++ (← stringOrName) ++ "'" else return ""

def likePattern (word : String) : TokenParser String := do
  let quantifier ← if ← keyword? "ANY" then pure " ANY " else pure " "
  let pattern ← sub 19
  return word ++ quantifier ++ pattern.text ++ (← optionalEscape)

def similarPattern : TokenParser String := do
  keyword "TO"
  let pattern ← sub 19
  return "SIMILAR TO " ++ pattern.text ++ (← optionalEscape)

def wordTest (left : Expr) : TokenParser Expr := do
  let negation ← if ← keyword? "NOT" then pure " NOT " else pure " "
  match ← oneOf? ["REGEXP", "RLIKE", "IN", "BETWEEN", "LIKE", "ILIKE", "SIMILAR"] with
  | some "IN" => shown negation (membership sub)
  | some "BETWEEN" => shown negation (range sub)
  | some "SIMILAR" => shown negation (similarPattern sub)
  | some "LIKE" => shown negation (likePattern sub "LIKE")
  | some "ILIKE" => shown negation (likePattern sub "ILIKE")
  | some w => shown negation (return w ++ " " ++ (← sub 19).text)
  | none => fail
where
  shown (negation : String) (test : TokenParser String) : TokenParser Expr :=
    return .special (left.text ++ negation ++ (← test))

def subscriptText : TokenParser String := do
  let low ← if ← symbol? ":" then pure none else pure (some (← exprText sub))
  match low with
  | some index =>
    if ← symbol? "]" then return index
    symbol ":"
  | none => if ← symbol? "]" then return ":"
  let start := low.getD "" ++ ":"
  if ← symbol? "]" then return start
  let high ← exprText sub
  if ← symbol? "]" then return start ++ high
  symbol ":"
  if ← symbol? "]" then return start ++ high
  let step ← exprText sub
  symbol "]"
  return start ++ high ++ ":" ++ step

def operated (precedence : Nat) (left : Expr) : TokenParser Expr := do
  match ← get with
  | .symbol "::" :: rest =>
    set rest
    return .special (left.text ++ "::" ++ (← TypeName.parser).text)
  | .symbol "[" :: rest =>
    set rest
    return .special (left.text ++ "[" ++ (← subscriptText sub) ++ "]")
  | .symbol s :: rest =>
    set rest
    match operatorOf? s with
    | some op => rightSide sub precedence left op
    | none => fail
  | token :: rest =>
    match token.keyword? with
    | some "AND" => set rest; rightSide sub precedence left (.connective .and)
    | some "OR" => set rest; rightSide sub precedence left (.connective .or)
    | some "XOR" => set rest; rightSide sub precedence left (.other "XOR")
    | some "OPERATOR" =>
      set rest
      let names ← parenthesized (operatorNames rest.length)
      rightSide sub precedence left (.other ("OPERATOR(" ++ joined "." names ++ ")"))
    | some "IS" => set rest; isTest sub left
    | some "AT" =>
      set rest
      keywords ["TIME", "ZONE"]
      return .special (left.text ++ " AT TIME ZONE " ++ (← sub precedence).text)
    | some "DIV" => fail
    | _ => wordTest sub left
  | [] => fail

/-- An expression from its start on, with all operators that bind tighter than a precedence. -/
def continued (precedence : Nat) : (bound : Nat) → Expr → TokenParser Expr
  | 0, left => return left
  | bound + 1, left => do
    let nextOne := nextPrecedence (← get)
    if nextOne ≤ precedence then return left
    else continued precedence bound (← operated sub nextOne left)

end Operators

def expression : (depth : Nat) → ExprParser
  | 0, _ => throw .tooDeep
  | depth + 1, precedence => do
    let tokens ← get
    let left ← operand (expression depth)
    continued (expression depth) precedence tokens.length left

end TokenParser

namespace Expr

def parse (text : String) : Except ParseFault Expr :=
  match Token.scan? text with
  | none => .error .noExpression
  | some tokens =>
    match TokenParser.expression depthLimit 0 tokens with
    | .ok (e, []) => .ok e
    | .ok (_, token :: _) => .error (.trailing token.text)
    | .error _ => .error .noExpression

end Expr

end TablePlan.Condition
