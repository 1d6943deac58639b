import TablePlan.Condition.Token
import TablePlan.Predicate.Basic

/-!
Expressions of condition texts, and the text that shows one. What a condition can use is kept as a
tree; a form that no condition can use is kept as its text alone.
-/

namespace TablePlan.Condition

open Text

structure Ident where
  value : String
  quote : Option Char
  deriving DecidableEq, Repr

/-- Doubles each quote, except one after a backslash and a pair that stands doubled already. -/
def doubleQuotes (quote : Char) : (afterBackslash : Bool) → List Char → List Char
  | _, [] => []
  | afterBackslash, [c] =>
    if c = quote && !afterBackslash then [c, c] else [c]
  | afterBackslash, c :: d :: rest =>
    if c ≠ quote then c :: doubleQuotes quote (c == '\\') (d :: rest)
    else if afterBackslash then c :: doubleQuotes quote true (d :: rest)
    else if d = quote then c :: d :: doubleQuotes quote false rest
    else c :: c :: doubleQuotes quote false (d :: rest)

def quotedText (quote : Char) (value : String) : String :=
  quote.toString ++ String.ofList (doubleQuotes quote false value.toList) ++ quote.toString

namespace Ident

def text (name : Ident) : String :=
  match name.quote with
  | some quote => quotedText quote name.value
  | none => name.value

end Ident

def pathText (path : List Ident) : String :=
  joined "." (path.map Ident.text)

def escapedChar : Char → String
  | '\'' => "\\'"
  | '\\' => "\\\\"
  | '\n' => "\\n"
  | '\t' => "\\t"
  | '\r' => "\\r"
  | c => c.toString

def hexDigits (width n : Nat) : String :=
  let digits := (Nat.toDigits 16 n).map Char.toUpper
  String.ofList (List.replicate (width - digits.length) '0' ++ digits)

def numberedChar (c : Char) : String :=
  if c = '\'' then "''"
  else if c = '\\' then "\\\\"
  else if c.toNat < 128 then c.toString
  else if c.toNat < 65536 then "\\" ++ hexDigits 4 c.toNat
  else "\\+" ++ hexDigits 6 c.toNat

def stringText : StringForm → String → String
  | .plain, value => quotedText '\'' value
  | .escaped, value => StringForm.escaped.enclose (joined "" (value.toList.map escapedChar))
  | .unicode, value => StringForm.unicode.enclose (joined "" (value.toList.map numberedChar))
  | form, value => form.enclose value

inductive Value where
  | number (digits : String) (long : Bool)
  | text (value : String)
  | bool (value : Bool)
  | null
  /-- A literal that no condition can use. -/
  | other (text : String)
  deriving DecidableEq, Repr

namespace Value

def toText : Value → String
  | .number digits long => Token.numberText digits long
  | .text value => quotedText '\'' value
  | .bool value => toString value
  | .null => "NULL"
  | .other written => written

end Value

inductive Connective where
  | and | or
  deriving DecidableEq, Repr

inductive Operator where
  | connective (c : Connective)
  | compare (c : Comparison)
  | other (symbol : String)
  deriving DecidableEq, Repr

namespace Operator

def text : Operator → String
  | .connective .and => "AND"
  | .connective .or => "OR"
  | .compare .eq => "="
  | .compare .notEq => "<>"
  | .compare c => c.symbol
  | .other symbol => symbol

end Operator

/-- What stands around the arguments of a call, each part by its text. -/
structure CallModifiers where
  /-- An argument list before the arguments. -/
  parameters : Option String
  duplicates : Option String
  /-- An order, a limit and the like after the arguments. -/
  clauses : List String
  withinGroup : Option String
  /-- The rows that the call ranges over. The grammar has no place for it. -/
  filter : Option String
  nulls : Option String
  window : Option String
  deriving DecidableEq, Repr

/-- Arguments other than a single expression. -/
inductive CallArguments where
  | absent
  | rows
  | listed (text : String)
  deriving DecidableEq, Repr

namespace CallModifiers

def none : CallModifiers := ⟨.none, .none, [], .none, .none, .none, .none⟩

def callText (m : CallModifiers) (name : List Ident) (arguments : Option String) : String :=
  let list := match arguments with
    | some text =>
      "(" ++ joined " " (m.duplicates.toList ++ (if text.isEmpty then [] else [text]) ++ m.clauses)
        ++ ")"
    | .none => ""
  pathText name ++ m.parameters.getD "" ++ list
    ++ joined ""
      ((m.withinGroup.toList ++ m.filter.toList ++ m.nulls.toList ++ m.window.toList).map
        (" " ++ ·))

end CallModifiers

inductive Expr where
  | name (first : Ident) (rest : List Ident)
  | value (v : Value)
  | nested (inner : Expr)
  | not (inner : Expr)
  | signed (negative : Bool) (inner : Expr)
  | binary (left : Expr) (op : Operator) (right : Expr)
  | isNull (inner : Expr) (negated : Bool)
  | call (name : List Ident) (argument : Expr) (modifiers : CallModifiers)
  | callOver (name : List Ident) (arguments : CallArguments) (modifiers : CallModifiers)
  | subquery (query : String)
  /-- A form that no condition can use. -/
  | special (text : String)

namespace Expr

def text : Expr → String
  | .name first rest => pathText (first :: rest)
  | .value v => v.toText
  | .nested inner => "(" ++ inner.text ++ ")"
  | .not inner => "NOT " ++ inner.text
  | .signed negative inner => (if negative then "-" else "+") ++ inner.text
  | .binary left op right => left.text ++ " " ++ op.text ++ " " ++ right.text
  | .isNull inner negated => inner.text ++ (if negated then " IS NOT NULL" else " IS NULL")
  | .call path argument modifiers => modifiers.callText path (some argument.text)
  | .callOver path .absent modifiers => modifiers.callText path none
  | .callOver path .rows modifiers => modifiers.callText path (some "*")
  | .callOver path (.listed list) modifiers => modifiers.callText path (some list)
  | .subquery query => "(" ++ query ++ ")"
  | .special written => written

end Expr

end TablePlan.Condition
