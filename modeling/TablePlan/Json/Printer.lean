import TablePlan.Json.Value
import TablePlan.Text.Blank

/-!
JSON text of a document, on one line or indented by two spaces.
-/

namespace TablePlan.Json

open Text (joined)

def hexDigit (n : Nat) : Char :=
  Char.ofNat (if n < 10 then '0'.toNat + n else 'a'.toNat + (n - 10))

def escape (c : Char) : String :=
  match c with
  | '"' => "\\\""
  | '\\' => "\\\\"
  | '\n' => "\\n"
  | '\r' => "\\r"
  | '\t' => "\\t"
  | '\x08' => "\\b"
  | '\x0c' => "\\f"
  | c =>
    if c.toNat < 0x20 then
      "\\u00" ++ String.ofList [hexDigit (c.toNat / 16), hexDigit (c.toNat % 16)]
    else c.toString

def quote (s : String) : String :=
  "\"" ++ s.foldl (fun out c => out ++ escape c) "" ++ "\""

mutual

def compact : Json → String
  | .null => "null"
  | .bool b => toString b
  | .number text => text
  | .string s => quote s
  | .array items => "[" ++ joined "," (compactItems items) ++ "]"
  | .object members => "\x7b" ++ joined "," (compactMembers members) ++ "\x7d"

def compactItems : List Json → List String
  | [] => []
  | item :: items => compact item :: compactItems items

def compactMembers : List (String × Json) → List String
  | [] => []
  | (name, value) :: members => (quote name ++ ":" ++ compact value) :: compactMembers members

end

def indent (depth : Nat) : String :=
  "\n" ++ String.ofList (List.replicate (2 * depth) ' ')

mutual

def pretty (depth : Nat) : Json → String
  | .null => "null"
  | .bool b => toString b
  | .number text => text
  | .string s => quote s
  | .array [] => "[]"
  | .array items => "[" ++ joined "," (prettyItems (depth + 1) items) ++ indent depth ++ "]"
  | .object [] => "\x7b\x7d"
  | .object members =>
    "\x7b" ++ joined "," (prettyMembers (depth + 1) members) ++ indent depth ++ "\x7d"

def prettyItems (depth : Nat) : List Json → List String
  | [] => []
  | item :: items => (indent depth ++ pretty depth item) :: prettyItems depth items

def prettyMembers (depth : Nat) : List (String × Json) → List String
  | [] => []
  | (name, value) :: members =>
    (indent depth ++ quote name ++ ": " ++ pretty depth value) :: prettyMembers depth members

end

end TablePlan.Json
