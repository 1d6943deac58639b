import TablePlan.Condition.Error
import TablePlan.Text.Alphabetic
import TablePlan.Text.Blank

/-!
Tokens of condition texts: words, numbers, strings, placeholders and symbols, each with the text
that stands for it in messages.
-/

namespace TablePlan.Condition

open Text

inductive StringForm where
  | plain | national | escaped | unicode | hex
  | bytes (quote : Char)
  | raw (quote : Char) (triple : Bool)
  | dollar (tag : String)
  deriving DecidableEq, Repr

namespace StringForm

def delimiters : StringForm → String × String
  | .plain => ("'", "'")
  | .national => ("N'", "'")
  | .escaped => ("E'", "'")
  | .unicode => ("U&'", "'")
  | .hex => ("X'", "'")
  | .bytes quote => ("B" ++ quote.toString, quote.toString)
  | .raw quote triple =>
    let mark := String.ofList (List.replicate (if triple then 3 else 1) quote)
    ("R" ++ mark, mark)
  | .dollar tag => ("$" ++ tag ++ "$", "$" ++ tag ++ "$")

def enclose (form : StringForm) (body : String) : String :=
  form.delimiters.1 ++ body ++ form.delimiters.2

end StringForm

inductive Token where
  | word (value : String) (quote : Option Char)
  | number (digits : String) (long : Bool)
  | string (form : StringForm) (value : String)
  | placeholder (text : String)
  | symbol (text : String)
  deriving DecidableEq, Repr

namespace Token

def numberText (digits : String) (long : Bool) : String :=
  digits ++ (if long then "L" else "")

def text : Token → String
  | .word value none => value
  | .word value (some quote) => quote.toString ++ value ++ quote.toString
  | .number digits long => numberText digits long
  | .string form value => form.enclose value
  | .placeholder text => text
  | .symbol text => text

/-- The keyword that the token may stand for: an unquoted word in capitals. -/
def keyword? : Token → Option String
  | .word value none => some (capitals value)
  | _ => none

/-- The operators and marks, the longer before the shorter that they start with, and the text that
each is known by. -/
def symbols : List (String × String) :=
  ["!~~*", "!~~", "!~*", "!~"].map (fun s => (s, s)) ++ [("!=", "<>")] ++
    ["!!", "!", "->>", "->", "-", "||/", "||", "|/", "|", "=>", "==", "=", "<=>", "<=", "<>", "<<",
      "<@", "<", ">=", ">>", ">", "::", ":=", ":", "&&", "&", "^@", "^", "~~*", "~~", "~*", "~",
      "//", "/", "#-", "#>>", "#>", "#", "@>", "@?", "@@", "@", "%", "(", ")", ",", "+", "*", ";",
      "\\", "[", "]", "\x7b", "\x7d"].map fun s => (s, s)

def startsWord (c : Char) : Bool :=
  isAlphabetic c || c == '_'

def continuesWord (c : Char) : Bool :=
  isAlphabetic c || c.isDigit || c == '@' || c == '$' || c == '#' || c == '_'

def isHexDigit (c : Char) : Bool :=
  c.isDigit || ('a' ≤ c && c ≤ 'f') || ('A' ≤ c && c ≤ 'F')

def wordFrom (start rest : List Char) : Token × List Char :=
  (.word (String.ofList (start ++ rest.takeWhile continuesWord)) none, rest.dropWhile continuesWord)

end Token

end TablePlan.Condition
