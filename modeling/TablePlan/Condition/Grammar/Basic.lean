import TablePlan.Condition.Expr
import TablePlan.Condition.Keyword

/-!
Parsers over the tokens of a condition. A parser fails where its form does not stand, or where
expressions nest too deeply; only the first kind of failure can be tried past.
-/

namespace TablePlan.Condition

inductive Failure where
  | unexpected
  | tooDeep
  deriving DecidableEq, Repr

abbrev TokenParser (α : Type) := StateT (List Token) (Except Failure) α

/-- A parser of expressions whose operators bind tighter than a precedence. -/
abbrev ExprParser := Nat → TokenParser Expr

namespace TokenParser

variable {α : Type}

def fail : TokenParser α := throw .unexpected

/-- Runs a parser; where its form does not stand, nothing is read. -/
def attempt (p : TokenParser α) : TokenParser (Option α) := fun tokens =>
  match p tokens with
  | .ok (a, rest) => .ok (some a, rest)
  | .error .unexpected => .ok (none, tokens)
  | .error .tooDeep => .error .tooDeep

def peek? : TokenParser (Option Token) := return (← get).head?

def next : TokenParser Token := do
  match ← get with
  | token :: rest =>
    set rest
    return token
  | [] => fail

def symbol? (text : String) : TokenParser Bool := do
  match ← get with
  | .symbol s :: rest => if s = text then set rest; return true else return false
  | _ => return false

def symbol (text : String) : TokenParser Unit := do
  unless ← symbol? text do fail

def startWith : List String → List Token → Bool
  | [], _ => true
  | _ :: _, [] => false
  | w :: ws, t :: ts => t.keyword? == some w && startWith ws ts

def keywords? (words : List String) : TokenParser Bool := do
  let tokens ← get
  if startWith words tokens then
    set (tokens.drop words.length)
    return true
  else return false

def keyword? (word : String) : TokenParser Bool := keywords? [word]

def keywords (words : List String) : TokenParser Unit := do
  unless ← keywords? words do fail

def keyword (word : String) : TokenParser Unit := keywords [word]

def oneOf? (words : List String) : TokenParser (Option String) := do
  match ← get with
  | token :: rest =>
    match words.find? fun w => token.keyword? == some w with
    | some w => set rest; return some w
    | none => return none
  | [] => return none

def oneOf (words : List String) : TokenParser String := do
  match ← oneOf? words with
  | some w => return w
  | none => fail

def atKeyword (word : String) : TokenParser Bool := return startWith [word] (← get)

def separatedUpTo (p : TokenParser α) : (bound : Nat) → TokenParser (List α)
  | 0 => return [← p]
  | bound + 1 => do
    let first ← p
    if ← symbol? "," then return first :: (← separatedUpTo p bound)
    else return [first]

def separated (p : TokenParser α) : TokenParser (List α) := do
  separatedUpTo p (← get).length

def listText (p : TokenParser String) : TokenParser String :=
  return Text.joined ", " (← separated p)

def listTextUntil (close : String) (p : TokenParser String) : TokenParser String := do
  if ← symbol? close then return ""
  let list ← listText p
  symbol close
  return list

def parenthesized (p : TokenParser α) : TokenParser α := do
  symbol "("
  let a ← p
  symbol ")"
  return a

/-- A name: a word of any kind, or a plain string. -/
def ident : TokenParser Ident := do
  match ← next with
  | .word value quote => return ⟨value, quote⟩
  | .string .plain value => return ⟨value, some '\''⟩
  | _ => fail

def furtherParts : (bound : Nat) → TokenParser (List Ident)
  | 0 => return []
  | bound + 1 => do
    if ← symbol? "." then
      let part ← ident
      return part :: (← furtherParts bound)
    else return []

def path : TokenParser (List Ident) := do
  let first ← ident
  return first :: (← furtherParts (← get).length)

/-- A whole number below `2 ^ 64`, without leading zeros. -/
def wholeNumber : TokenParser String := do
  match ← next with
  | .number digits _ =>
    match digits.toList.all Char.isDigit, digits.toNat? with
    | true, some n => if n < Nat.pow 2 64 then return toString n else fail
    | _, _ => fail
  | _ => fail

def stringOrName : TokenParser String := do
  match ← next with
  | .word value none => if isKeyword value then fail else return value
  | .word value (some _) => return value
  | .string .plain value => return value
  | .string .escaped value => return value
  | .string .unicode value => return value
  | _ => fail

def literal : TokenParser Value := do
  match ← next with
  | .number digits long => return .number digits long
  | .string .plain value => return .text value
  | .string form value => return .other (stringText form value)
  | .placeholder text => return .other text
  | .symbol s =>
    if s = ":" ∨ s = "@" then
      match ← next with
      | .word value _ => return .other (s ++ value)
      | .number digits false => return .other (s ++ digits)
      | _ => fail
    else fail
  | .word value none =>
    match Text.capitals value with
    | "TRUE" => return .bool true
    | "FALSE" => return .bool false
    | "NULL" => return .null
    | _ => fail
  | .word value (some quote) =>
    if quote = '"' then return .other (quotedText '"' value) else fail

end TokenParser

end TablePlan.Condition
