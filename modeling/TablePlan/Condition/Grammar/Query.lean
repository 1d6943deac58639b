import TablePlan.Condition.Grammar.Call

/-!
Queries inside conditions, by their text. No condition can use one, so a query is read only to find
where it ends and how it is shown.
-/

namespace TablePlan.Condition

open Text

namespace TokenParser

/-- The keywords that are no alias of a column unless `AS` stands before them. -/
def reservedForColumns : List String :=
  ["WITH", "EXPLAIN", "ANALYZE", "SELECT", "WHERE", "GROUP", "SORT", "HAVING", "ORDER", "TOP",
    "LATERAL", "VIEW", "LIMIT", "OFFSET", "FETCH", "UNION", "EXCEPT", "INTERSECT", "CLUSTER",
    "DISTRIBUTE", "RETURNING", "FROM", "INTO", "END"]

def reservedForTables : List String :=
  ["WITH", "EXPLAIN", "ANALYZE", "SELECT", "WHERE", "GROUP", "SORT", "HAVING", "ORDER", "PIVOT",
    "UNPIVOT", "TOP", "LATERAL", "VIEW", "LIMIT", "OFFSET", "FETCH", "UNION", "EXCEPT", "INTERSECT",
    "ON", "JOIN", "INNER", "CROSS", "FULL", "LEFT", "RIGHT", "NATURAL", "USING", "CLUSTER",
    "DISTRIBUTE", "GLOBAL", "ANTI", "SEMI", "RETURNING", "ASOF", "MATCH_CONDITION", "OUTER", "SET",
    "QUALIFY", "WINDOW", "END", "FOR", "PARTITION", "PREWHERE", "SETTINGS", "FORMAT", "START",
    "CONNECT", "MATCH_RECOGNIZE"]

def optionalAlias (reserved : List String) : TokenParser String := do
  if ← keyword? "AS" then return " AS " ++ (← ident).text
  match ← peek? with
  | some (.word value none) =>
    if reserved.contains (capitals value) then return "" else return " AS " ++ (← ident).text
  | some (.word _ _) | some (.string .plain _) => return " AS " ++ (← ident).text
  | _ => return ""

variable (sub : ExprParser)

def itemText : TokenParser String := do
  match ← argumentValue sub with
  | .one e => return e.text ++ (← optionalAlias reservedForColumns)
  | item => return item.text

def joinWord : TokenParser (Option String) := do
  if ← keyword? "JOIN" then return some "JOIN"
  if ← keywords? ["INNER", "JOIN"] then return some "JOIN"
  if ← keywords? ["CROSS", "JOIN"] then return some "CROSS JOIN"
  match ← oneOf? ["LEFT", "RIGHT", "FULL"] with
  | some side =>
    let _ ← keyword? "OUTER"
    keyword "JOIN"
    return some (side ++ " JOIN")
  | none => return none

def constraintText : TokenParser String := do
  if ← keyword? "ON" then return " ON " ++ (← exprText sub)
  else if ← keyword? "USING" then
    return " USING(" ++ (← parenthesized (listText (return (← ident).text))) ++ ")"
  else return ""

mutual

/-- A whole query. The number of tokens bounds how deeply queries nest. -/
def queryUpTo : (bound : Nat) → TokenParser String
  | 0 => fail
  | bound + 1 => do
    let shared ←
      if ← keyword? "WITH" then
        pure ("WITH " ++ (← listText (sharedText bound)) ++ " ")
      else pure ""
    let body ← selectsUpTo bound
    let order := (← optionalOrder sub).map (" " ++ ·)
    let limit ← optionalPart sub "LIMIT"
    let offset ← optionalPart sub "OFFSET"
    return shared ++ body ++ order.getD "" ++ limit ++ offset

def sharedText : (bound : Nat) → TokenParser String
  | 0 => fail
  | bound + 1 => do
    let name ← ident
    keyword "AS"
    return name.text ++ " AS (" ++ (← parenthesized (queryUpTo bound)) ++ ")"

def selectsUpTo : (bound : Nat) → TokenParser String
  | 0 => fail
  | bound + 1 => do
    let first ←
      if ← symbol? "(" then
        let inner ← queryUpTo bound
        symbol ")"
        pure ("(" ++ inner ++ ")")
      else selectUpTo bound
    match ← oneOf? ["UNION", "EXCEPT", "INTERSECT"] with
    | some w =>
      let quantifier ← oneOf? ["ALL", "DISTINCT"]
      let rest ← selectsUpTo bound
      return joined " " ([first, w] ++ quantifier.toList ++ [rest])
    | none => return first

def selectUpTo : (bound : Nat) → TokenParser String
  | 0 => fail
  | bound + 1 => do
    keyword "SELECT"
    let quantifier ← oneOf? ["ALL", "DISTINCT"]
    let distinct := if quantifier = some "DISTINCT" then ["DISTINCT"] else []
    let items ← listText (itemText sub)
    let tables ←
      if ← keyword? "FROM" then pure ["FROM " ++ (← listText (tablesUpTo bound))] else pure []
    let condition ← if ← keyword? "WHERE" then pure ["WHERE " ++ (← exprText sub)] else pure []
    let groups ←
      if ← keywords? ["GROUP", "BY"] then pure ["GROUP BY " ++ (← listText (exprText sub))]
      else pure []
    let having ← if ← keyword? "HAVING" then pure ["HAVING " ++ (← exprText sub)] else pure []
    return joined " " (["SELECT"] ++ distinct ++ [items] ++ tables ++ condition ++ groups ++ having)

def tablesUpTo : (bound : Nat) → TokenParser String
  | 0 => fail
  | bound + 1 => do
    let table ← tableUpTo bound
    return table ++ (← joinsUpTo bound)

def joinsUpTo : (bound : Nat) → TokenParser String
  | 0 => return ""
  | bound + 1 => do
    match ← joinWord with
    | some w =>
      let table ← tableUpTo bound
      let condition ← constraintText sub
      return " " ++ w ++ " " ++ table ++ condition ++ (← joinsUpTo bound)
    | none => return ""

def tableUpTo : (bound : Nat) → TokenParser String
  | 0 => fail
  | bound + 1 => do
    let table ←
      if ← symbol? "(" then
        let inner ← queryUpTo bound
        symbol ")"
        pure ("(" ++ inner ++ ")")
      else pure (pathText (← path))
    return table ++ (← optionalAlias reservedForTables)

end

def query : TokenParser String := do
  queryUpTo sub (3 * (← get).length + 3)

def atQuery : TokenParser Bool :=
  return (← atKeyword "SELECT") || (← atKeyword "WITH")

end TokenParser

end TablePlan.Condition
