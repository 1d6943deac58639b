import TablePlan.Condition.Grammar.Basic

/-!
Names of types, by the text that shows them. The types of the grammar come with the spelling of
their sizes; any other name is a type of its own.
-/

namespace TablePlan.Condition

open Text

structure TypeName where
  text : String
  known : Bool
  deriving DecidableEq, Repr

namespace TypeName

open TokenParser

/-- What may follow the word of a type. -/
inductive Size where
  | none
  | precision
  | integer
  | length
  | exact
  | time
  /-- Texts in parentheses, one of which must stand. -/
  | members
  deriving DecidableEq, Repr

/-- The words of types, what each is shown as and what may follow it. -/
def table : List (String × String × Size) :=
  (["BOOLEAN", "BOOL", "REAL", "FLOAT4", "FLOAT8", "FLOAT64", "INT64", "UUID", "DATE", "JSON",
    "JSONB", "REGCLASS", "TEXT", "TINYTEXT", "MEDIUMTEXT", "LONGTEXT", "BYTEA", "TINYBLOB",
    "MEDIUMBLOB", "LONGBLOB", "TRIGGER", "STRUCT"].map fun w => (w, w, .none)) ++
  ([("FLOAT32", "Float32"), ("INT16", "Int16"), ("INT32", "Int32"), ("INT128", "Int128"),
    ("INT256", "Int256"), ("UINT8", "UInt8"), ("UINT16", "UInt16"), ("UINT32", "UInt32"),
    ("UINT64", "UInt64"), ("UINT128", "UInt128"), ("UINT256", "UInt256"),
    ("DATE32", "Date32")].map fun (w, shown) => (w, shown, .none)) ++
  (["FLOAT", "CLOB", "BINARY", "VARBINARY", "BLOB", "BYTES", "STRING", "DATETIME", "TIMESTAMPTZ",
    "TIMETZ"].map fun w => (w, w, .precision)) ++
  (["TINYINT", "INT2", "SMALLINT", "MEDIUMINT", "INT", "INT4", "INTEGER", "BIGINT",
    "INT8"].map fun w => (w, w, .integer)) ++
  (["VARCHAR", "NVARCHAR"].map fun w => (w, w, .length)) ++
  (["NUMERIC", "DECIMAL", "DEC", "BIGNUMERIC", "BIGDECIMAL"].map fun w => (w, w, .exact)) ++
  (["TIMESTAMP", "TIME"].map fun w => (w, w, .time)) ++
  (["ENUM", "SET"].map fun w => (w, w, .members))

def optionalPrecision : TokenParser String := do
  if ← symbol? "(" then
    let n ← wholeNumber
    symbol ")"
    return "(" ++ n ++ ")"
  else return ""

def optionalLength : TokenParser String := do
  if ← symbol? "(" then
    if ← keyword? "MAX" then
      symbol ")"
      return "(MAX)"
    let n ← wholeNumber
    let unit ← oneOf? ["CHARACTERS", "OCTETS"]
    symbol ")"
    return "(" ++ joined " " (n :: unit.toList) ++ ")"
  else return ""

def optionalExact : TokenParser String := do
  if ← symbol? "(" then
    let precision ← wholeNumber
    let scale ← if ← symbol? "," then pure [← wholeNumber] else pure []
    symbol ")"
    return "(" ++ joined "," (precision :: scale) ++ ")"
  else return ""

def optionalZone : TokenParser String := do
  match ← oneOf? ["WITH", "WITHOUT"] with
  | some w =>
    keywords ["TIME", "ZONE"]
    return " " ++ w ++ " TIME ZONE"
  | none => return ""

def memberText : TokenParser String := do
  match ← next with
  | .string .plain value => return quotedText '\'' value
  | _ => fail

def sizeText : Size → TokenParser String
  | .none => return ""
  | .precision => optionalPrecision
  | .integer => do
    let precision ← optionalPrecision
    return precision ++ (if ← keyword? "UNSIGNED" then " UNSIGNED" else "")
  | .length => optionalLength
  | .exact => optionalExact
  | .time => do
    let precision ← optionalPrecision
    return precision ++ (← optionalZone)
  | .members => return "(" ++ (← parenthesized (listText memberText)) ++ ")"

def characterText (word : String) : TokenParser String := do
  if ← keyword? "VARYING" then return word ++ " VARYING" ++ (← optionalLength)
  else if ← keywords? ["LARGE", "OBJECT"] then
    return word ++ " LARGE OBJECT" ++ (← optionalPrecision)
  else return word ++ (← optionalLength)

/-- What a type of its own has in parentheses; commas between the parts are not needed. -/
def customModifiers : (bound : Nat) → TokenParser (List String)
  | 0 => fail
  | bound + 1 => do
    match ← next with
    | .word value quote => return (Token.word value quote).text :: (← customModifiers bound)
    | .number digits _ => return digits :: (← customModifiers bound)
    | .string .plain value => return value :: (← customModifiers bound)
    | .symbol "," => customModifiers bound
    | .symbol ")" => return []
    | _ => fail

def custom : TokenParser TypeName := do
  let name ← path
  if ← symbol? "(" then
    match ← customModifiers (← get).length with
    | [] => return ⟨pathText name, false⟩
    | parts => return ⟨pathText name ++ "(" ++ joined ", " parts ++ ")", false⟩
  else return ⟨pathText name, false⟩

def suffixed : (bound : Nat) → TypeName → TokenParser TypeName
  | 0, type => return type
  | bound + 1, type => do
    if ← symbol? "[" then
      let size ← attempt wholeNumber
      symbol "]"
      suffixed bound ⟨type.text ++ "[" ++ size.getD "" ++ "]", true⟩
    else return type

/-- A type, and whether a closing angle bracket after it was read with it: two brackets in a row
are one symbol. -/
def nestedType : (bound : Nat) → TokenParser (TypeName × Bool)
  | 0 => fail
  | bound + 1 => do
    let tokens ← get
    let token ← next
    let word := token.keyword?.getD ""
    match word with
    | "DOUBLE" =>
      if ← keyword? "PRECISION" then known "DOUBLE PRECISION" else known "DOUBLE"
    | "CHARACTER" | "CHAR" => known (← characterText word)
    | "BIT" =>
      if ← keyword? "VARYING" then known ("BIT VARYING" ++ (← optionalPrecision))
      else known ("BIT" ++ (← optionalPrecision))
    | "INTERVAL" => known "INTERVAL"
    | "FIXEDSTRING" => known ("FixedString(" ++ (← parenthesized wholeNumber) ++ ")")
    | "ARRAY" =>
      symbol "<"
      let (inner, closed) ← nestedType bound
      let text := "ARRAY<" ++ inner.text ++ ">"
      if closed then known text
      else if ← symbol? ">>" then return (⟨text, true⟩, true)
      else
        symbol ">"
        known text
    | "NULLABLE" =>
      let (inner, _) ← parenthesized (nestedType bound)
      known ("Nullable(" ++ inner.text ++ ")")
    | "LOWCARDINALITY" =>
      let (inner, _) ← parenthesized (nestedType bound)
      known ("LowCardinality(" ++ inner.text ++ ")")
    | _ =>
      match table.lookup word with
      | some (shown, size) => known (shown ++ (← sizeText size))
      | none =>
        match token with
        | .word _ _ =>
          set tokens
          return (← suffixed tokens.length (← custom), false)
        | _ => fail
where
  known (text : String) : TokenParser (TypeName × Bool) := do
    return (← suffixed (← get).length ⟨text, true⟩, false)

def parser : TokenParser TypeName := do
  match ← nestedType (← get).length with
  | (type, false) => return type
  | (_, true) => fail

end TypeName

end TablePlan.Condition
