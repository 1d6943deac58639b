import TablePlan.Condition.Grammar.Query
import TablePlan.Condition.Grammar.TypeName

/-!
The forms that a keyword starts, such as `CASE` and `CAST`. All but the truth values, `NULL`, `NOT`
and a few calls without parentheses are kept by their text.
-/

namespace TablePlan.Condition

open Text

namespace TokenParser

def timeUnits : List String :=
  ["YEAR", "YEARS", "MONTH", "MONTHS", "WEEK", "WEEKS", "DAY", "DAYS", "HOUR", "HOURS", "MINUTE",
    "MINUTES", "SECOND", "SECONDS", "CENTURY", "DECADE", "DOW", "DOY", "EPOCH", "ISODOW", "ISOYEAR",
    "JULIAN", "MICROSECOND", "MICROSECONDS", "MILLENIUM", "MILLENNIUM", "MILLISECOND",
    "MILLISECONDS", "NANOSECOND", "NANOSECONDS", "QUARTER", "TIMEZONE", "TIMEZONE_HOUR",
    "TIMEZONE_MINUTE"]

def timeParts : List String :=
  timeUnits ++ ["DAYOFWEEK", "DAYOFYEAR", "DATE", "DATETIME", "ISOWEEK", "TIME", "TIMEZONE_ABBR",
    "TIMEZONE_REGION"]

/-- A unit or part of time; any other name stands for itself. -/
def timePart : TokenParser String := do
  match ← oneOf? timeParts with
  | some "WEEK" =>
    if ← symbol? "(" then
      let day ← ident
      symbol ")"
      return "WEEK(" ++ day.text ++ ")"
    else return "WEEK"
  | some w => return w
  | none => return (← ident).text

variable (sub : ExprParser)

def branchesUpTo : (bound : Nat) → TokenParser String
  | 0 => fail
  | bound + 1 => do
    let condition ← exprText sub
    keyword "THEN"
    let result ← exprText sub
    let branch := " WHEN " ++ condition ++ " THEN " ++ result
    if ← keyword? "WHEN" then return branch ++ (← branchesUpTo bound) else return branch

def caseText : TokenParser String := do
  let scrutinee ←
    if ← keyword? "WHEN" then pure ""
    else
      let e ← exprText sub
      keyword "WHEN"
      pure (" " ++ e)
  let branches ← branchesUpTo sub (← get).length
  let otherwise ← optionalPart sub "ELSE"
  keyword "END"
  return "CASE" ++ scrutinee ++ branches ++ otherwise ++ " END"

def castText (word : String) : TokenParser String := do
  symbol "("
  let e ← exprText sub
  keyword "AS"
  let type ← TypeName.parser
  let format ←
    if ← keyword? "FORMAT" then
      let format := (← literal).toText
      if ← keywords? ["AT", "TIME", "ZONE"] then
        pure (" FORMAT " ++ format ++ " AT TIME ZONE " ++ (← literal).toText)
      else pure (" FORMAT " ++ format)
    else pure ""
  symbol ")"
  return word ++ "(" ++ e ++ " AS " ++ type.text ++ format ++ ")"

def convertText (word : String) : TokenParser String := do
  symbol "("
  let e ← exprText sub
  let target ←
    if ← keyword? "USING" then pure (" USING " ++ pathText (← path))
    else
      symbol ","
      let type ← TypeName.parser
      if ← keywords? ["CHARACTER", "SET"] then
        pure (", " ++ type.text ++ " CHARACTER SET " ++ pathText (← path))
      else pure (", " ++ type.text)
  symbol ")"
  return word ++ "(" ++ e ++ target ++ ")"

def existsText (negated : Bool) : TokenParser String := do
  let inner ← parenthesized (query sub)
  return (if negated then "NOT " else "") ++ "EXISTS (" ++ inner ++ ")"

def extractText : TokenParser String := do
  symbol "("
  let part ← timePart
  let between ←
    if ← keyword? "FROM" then pure " FROM "
    else
      symbol ","
      pure ", "
  let e ← exprText sub
  symbol ")"
  return "EXTRACT(" ++ part ++ between ++ e ++ ")"

def roundingText (word : String) : TokenParser String := do
  symbol "("
  let e ← exprText sub
  let unit ←
    if ← keyword? "TO" then pure (" TO " ++ (← timePart))
    else if ← symbol? "," then
      match ← literal with
      | .number digits long => pure (", " ++ Token.numberText digits long)
      | _ => fail
    else pure ""
  symbol ")"
  return word ++ "(" ++ e ++ unit ++ ")"

/-- The place of one text in another; without `IN` it is a call like any other. -/
def position (name : Ident) : TokenParser Expr := do
  let found ← attempt (do
    symbol "("
    let e ← sub 20
    keyword "IN"
    let whole ← exprText sub
    symbol ")"
    return "POSITION(" ++ e.text ++ " IN " ++ whole ++ ")")
  match found with
  | some text => return .special text
  | none => call sub [name]

def substringText : TokenParser String := do
  symbol "("
  let e ← exprText sub
  let commas ← symbol? ","
  let start ←
    if commas then pure (", " ++ (← exprText sub)) else optionalPart sub "FROM"
  let mark := if commas then ", " else " FOR "
  let stop ←
    if ← keyword? "FOR" then pure (mark ++ (← exprText sub))
    else if ← symbol? "," then pure (mark ++ (← exprText sub))
    else pure ""
  symbol ")"
  return "SUBSTRING(" ++ e ++ start ++ stop ++ ")"

def overlayText : TokenParser String := do
  symbol "("
  let e ← exprText sub
  keyword "PLACING"
  let what ← exprText sub
  keyword "FROM"
  let start ← exprText sub
  let length ← optionalPart sub "FOR"
  symbol ")"
  return "OVERLAY(" ++ e ++ " PLACING " ++ what ++ " FROM " ++ start ++ length ++ ")"

def trimText : TokenParser String := do
  symbol "("
  let side := match ← oneOf? ["BOTH", "LEADING", "TRAILING"] with
    | some w => w ++ " "
    | none => ""
  let e ← exprText sub
  if ← keyword? "FROM" then
    let whole ← exprText sub
    symbol ")"
    return "TRIM(" ++ side ++ e ++ " FROM " ++ whole ++ ")"
  else if ← symbol? "," then
    let characters ← listText (exprText sub)
    symbol ")"
    return "TRIM(" ++ e ++ ", " ++ characters ++ ")"
  else
    symbol ")"
    return "TRIM(" ++ side ++ e ++ ")"

def optionalPlaces : TokenParser String := do
  if ← symbol? "(" then
    let n ← wholeNumber
    symbol ")"
    return " (" ++ n ++ ")"
  else return ""

def optionalSecondPlaces : TokenParser String := do
  if ← symbol? "(" then
    let n ← wholeNumber
    let fraction ← if ← symbol? "," then pure [← wholeNumber] else pure []
    symbol ")"
    return " (" ++ joined ", " (n :: fraction) ++ ")"
  else return ""

def intervalText (operand : TokenParser Expr) : TokenParser String := do
  let value := (← operand).text
  match ← get with
  | token :: _ =>
    if timeUnits.contains (token.keyword?.getD "") then
      let unit ← timePart
      if unit = "SECOND" then
        return "INTERVAL " ++ value ++ " SECOND" ++ (← optionalSecondPlaces)
      else range ("INTERVAL " ++ value ++ " " ++ unit)
    else range ("INTERVAL " ++ value)
  | [] => return "INTERVAL " ++ value
where
  range (start : String) : TokenParser String := do
    let places ← optionalPlaces
    if ← keyword? "TO" then
      let last ← timePart
      let lastPlaces ← if last = "SECOND" then optionalPlaces else pure ""
      return start ++ places ++ " TO " ++ last ++ lastPlaces
    else return start ++ places

def fieldText : TokenParser String := do
  let e ← exprText sub
  if ← keyword? "AS" then return e ++ " AS " ++ (← ident).text else return e

def entryText (key : TokenParser String) : TokenParser String := do
  let key ← key
  symbol ":"
  return key ++ ": " ++ (← exprText sub)

def matchText : TokenParser String := do
  let columns ← parenthesized (listText (return (← ident).text))
  keyword "AGAINST"
  symbol "("
  let value ← match ← literal with
    | .text value => pure (quotedText '\'' value)
    | _ => fail
  let modifier ←
    if ← keywords? ["IN", "NATURAL", "LANGUAGE", "MODE"] then
      if ← keywords? ["WITH", "QUERY", "EXPANSION"] then
        pure " IN NATURAL LANGUAGE MODE WITH QUERY EXPANSION"
      else pure " IN NATURAL LANGUAGE MODE"
    else if ← keywords? ["IN", "BOOLEAN", "MODE"] then pure " IN BOOLEAN MODE"
    else if ← keywords? ["WITH", "QUERY", "EXPANSION"] then pure " WITH QUERY EXPANSION"
    else pure ""
  symbol ")"
  return "MATCH (" ++ columns ++ ") AGAINST (" ++ value ++ modifier ++ ")"

def negation : TokenParser Expr := do
  if ← keyword? "EXISTS" then return .special (← existsText sub true)
  else return .not (← sub 15)

/-- The form that a keyword starts, after the keyword; none if it starts no form here. -/
def form (name : Ident) (word : String) : TokenParser (Option Expr) :=
  match word with
  | "TRUE" => return some (.value (.bool true))
  | "FALSE" => return some (.value (.bool false))
  | "NULL" => return some (.value .null)
  | "NOT" => return some (← negation sub)
  | "CURRENT_CATALOG" | "CURRENT_USER" | "SESSION_USER" | "USER" =>
    return some (.callOver [name] .absent CallModifiers.none)
  | "CURRENT_TIMESTAMP" | "CURRENT_TIME" | "CURRENT_DATE" | "LOCALTIME" | "LOCALTIMESTAMP" =>
    return some (← bareCall sub name)
  | "CASE" => special (caseText sub)
  | "CONVERT" | "TRY_CONVERT" => special (convertText sub word)
  | "CAST" | "TRY_CAST" | "SAFE_CAST" => special (castText sub word)
  | "EXISTS" => special (existsText sub false)
  | "EXTRACT" => special (extractText sub)
  | "CEIL" | "FLOOR" => special (roundingText sub word)
  | "POSITION" => do
    match ← peek? with
    | some (.symbol "(") => return some (← position sub name)
    | _ => return none
  | "SUBSTRING" => special (substringText sub)
  | "OVERLAY" => special (overlayText sub)
  | "TRIM" => special (trimText sub)
  | "ARRAY" => do
    if ← symbol? "[" then
      return some (.special ("ARRAY[" ++ (← listTextUntil "]" (exprText sub)) ++ "]"))
    else if ← symbol? "(" then
      let inner ← query sub
      symbol ")"
      return some (.callOver [name] (.listed inner) CallModifiers.none)
    else return none
  | "MATCH" => special matchText
  | "STRUCT" =>
    special (return "STRUCT(" ++ (← parenthesized (listText (fieldText sub))) ++ ")")
  | "MAP" => do
    if ← symbol? "\x7b" then
      let entries ← listTextUntil "\x7d" (entryText sub (exprText sub))
      return some (.special ("MAP \x7b" ++ entries ++ "\x7d"))
    else return none
  | _ => return none
where
  special (text : TokenParser String) : TokenParser (Option Expr) :=
    return some (.special (← text))

end TokenParser

end TablePlan.Condition
