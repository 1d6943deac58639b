import TablePlan.Json.Value
import TablePlan.Json.Token

/-!
JSON documents read from their tokens. A document is one value and nothing after it.
-/

namespace TablePlan.Json

mutual

/-- The first value of the tokens. Each level of a value takes a token, so their number bounds the
depth. -/
def value? : (bound : Nat) → List Token → Option (Json × List Token)
  | 0, _ => none
  | _ + 1, .null :: rest => some (.null, rest)
  | _ + 1, .bool b :: rest => some (.bool b, rest)
  | _ + 1, .number text :: rest => some (.number text, rest)
  | _ + 1, .string s :: rest => some (.string s, rest)
  | _ + 1, .openBracket :: .closeBracket :: rest => some (.array [], rest)
  | bound + 1, .openBracket :: rest =>
    (items? bound rest).map fun (items, rest) => (.array items, rest)
  | _ + 1, .openBrace :: .closeBrace :: rest => some (.object [], rest)
  | bound + 1, .openBrace :: rest =>
    (members? bound rest).map fun (members, rest) => (.object members, rest)
  | _ + 1, _ => none

def items? : (bound : Nat) → List Token → Option (List Json × List Token)
  | 0, _ => none
  | bound + 1, tokens => do
    let (item, rest) ← value? bound tokens
    match rest with
    | .closeBracket :: rest => return ([item], rest)
    | .comma :: rest =>
      let (items, rest) ← items? bound rest
      return (item :: items, rest)
    | _ => none

def members? : (bound : Nat) → List Token → Option (List (String × Json) × List Token)
  | bound + 1, .string name :: .colon :: rest => do
    let (value, rest) ← value? bound rest
    match rest with
    | .closeBrace :: rest => return ([(name, value)], rest)
    | .comma :: rest =>
      let (members, rest) ← members? bound rest
      return ((name, value) :: members, rest)
    | _ => none
  | _, _ => none

end

def parse? (text : String) : Option Json := do
  let tokens ← Token.scan text
  match ← value? (tokens.length + 1) tokens with
  | (value, []) => return value
  | _ => none

end TablePlan.Json
