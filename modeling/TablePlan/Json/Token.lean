/-!
Tokens of JSON text. Scanning a text gives its tokens, or nothing if some part of it is no token.
Strings come decoded; numbers keep their text.
-/

namespace TablePlan.Json

inductive Token where
  | openBrace | closeBrace | openBracket | closeBracket | colon | comma
  | null
  | bool (value : Bool)
  | number (text : String)
  | string (value : String)
  deriving DecidableEq

namespace Token

def isSpace (c : Char) : Bool :=
  c == ' ' || c == '\t' || c == '\n' || c == '\r'

def hexValue? (c : Char) : Option Nat :=
  if c.isDigit then some (c.toNat - '0'.toNat)
  else if 'a' ≤ c && c ≤ 'f' then some (c.toNat - 'a'.toNat + 10)
  else if 'A' ≤ c && c ≤ 'F' then some (c.toNat - 'A'.toNat + 10)
  else none

def unit? (a b c d : Char) : Option Nat := do
  return (((← hexValue? a) * 16 + (← hexValue? b)) * 16 + (← hexValue? c)) * 16 + (← hexValue? d)

def pairedChar? (high low : Nat) : Option Char :=
  if 0xd800 ≤ high ∧ high < 0xdc00 ∧ 0xdc00 ≤ low ∧ low < 0xe000 then
    some (Char.ofNat (0x10000 + (high - 0xd800) * 0x400 + (low - 0xdc00)))
  else none

def escaped? : Char → Option Char
  | '"' => some '"'
  | '\\' => some '\\'
  | '/' => some '/'
  | 'b' => some '\x08'
  | 'f' => some '\x0c'
  | 'n' => some '\n'
  | 'r' => some '\r'
  | 't' => some '\t'
  | _ => none

def string? : (decoded : List Char) → List Char → Option (String × List Char)
  | _, [] => none
  | decoded, '"' :: rest => some (String.ofList decoded.reverse, rest)
  | decoded, '\\' :: 'u' :: a :: b :: c :: d :: '\\' :: 'u' :: e :: f :: g :: h :: rest => do
    let first ← unit? a b c d
    if first < 0xd800 ∨ 0xe000 ≤ first then
      string? (Char.ofNat first :: decoded) ('\\' :: 'u' :: e :: f :: g :: h :: rest)
    else
      string? ((← pairedChar? first (← unit? e f g h)) :: decoded) rest
  | decoded, '\\' :: 'u' :: a :: b :: c :: d :: rest => do
    let first ← unit? a b c d
    if first < 0xd800 ∨ 0xe000 ≤ first then string? (Char.ofNat first :: decoded) rest else none
  | decoded, '\\' :: c :: rest => do string? ((← escaped? c) :: decoded) rest
  | decoded, c :: rest => if c.toNat < 0x20 ∨ c = '\\' then none else string? (c :: decoded) rest
termination_by _ cs => cs.length

def digits? (cs : List Char) : Option (List Char × List Char) :=
  let digits := cs.takeWhile Char.isDigit
  if digits.isEmpty then none else some (digits, cs.drop digits.length)

def whole? : List Char → Option (List Char × List Char)
  | '0' :: rest => some (['0'], rest)
  | cs => digits? cs

def fraction? : List Char → Option (List Char × List Char)
  | '.' :: rest => (digits? rest).map fun (digits, rest) => ('.' :: digits, rest)
  | cs => some ([], cs)

def exponent? (cs : List Char) : Option (List Char × List Char) :=
  match cs with
  | e :: sign :: rest =>
    if e != 'e' && e != 'E' then some ([], cs)
    else if sign == '+' || sign == '-' then
      (digits? rest).map fun (digits, rest) => (e :: sign :: digits, rest)
    else (digits? (sign :: rest)).map fun (digits, rest) => (e :: digits, rest)
  | [e] => if e == 'e' || e == 'E' then none else some ([], cs)
  | [] => some ([], cs)

def number? (cs : List Char) : Option (String × List Char) := do
  let (sign, rest) := match cs with
    | '-' :: rest => (['-'], rest)
    | _ => ([], cs)
  let (whole, rest) ← whole? rest
  let (fraction, rest) ← fraction? rest
  let (exponent, rest) ← exponent? rest
  return (String.ofList (sign ++ whole ++ fraction ++ exponent), rest)

def next? : List Char → Option (Token × List Char)
  | '{' :: rest => some (.openBrace, rest)
  | '}' :: rest => some (.closeBrace, rest)
  | '[' :: rest => some (.openBracket, rest)
  | ']' :: rest => some (.closeBracket, rest)
  | ':' :: rest => some (.colon, rest)
  | ',' :: rest => some (.comma, rest)
  | '"' :: rest => (string? [] rest).map fun (s, rest) => (.string s, rest)
  | 'n' :: 'u' :: 'l' :: 'l' :: rest => some (.null, rest)
  | 't' :: 'r' :: 'u' :: 'e' :: rest => some (.bool true, rest)
  | 'f' :: 'a' :: 'l' :: 's' :: 'e' :: rest => some (.bool false, rest)
  | cs => (number? cs).map fun (text, rest) => (.number text, rest)

def scanUpTo : (bound : Nat) → List Char → Option (List Token)
  | 0, cs => if cs.all isSpace then some [] else none
  | bound + 1, cs =>
    match cs.dropWhile isSpace with
    | [] => some []
    | cs => do
      let (token, rest) ← next? cs
      let tokens ← scanUpTo bound rest
      return token :: tokens

def scan (text : String) : Option (List Token) :=
  let cs := text.toList
  scanUpTo cs.length cs

end Token

end TablePlan.Json
