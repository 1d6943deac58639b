import TablePlan.Condition.Token

/-!
Scanning a condition text into tokens. Blanks and comments separate tokens and are dropped; a text
has no tokens at all if a string, a quoted word or a comment in it does not end.
-/

namespace TablePlan.Condition

open Text

namespace Token

/-- The text up to a quote that stands alone, where two in a row stand for one, and the rest. -/
def upToQuote? (quote : Char) : List Char → Option (List Char × List Char)
  | [] => none
  | [c] => if c = quote then some ([], []) else none
  | c :: d :: rest =>
    if c ≠ quote then (upToQuote? quote (d :: rest)).map fun (body, rest) => (c :: body, rest)
    else if d = quote then (upToQuote? quote rest).map fun (body, rest) => (quote :: body, rest)
    else some ([], d :: rest)

def backslashed : Char → Char
  | '0' => '\x00'
  | 'a' => '\x07'
  | 'b' => '\x08'
  | 'f' => '\x0c'
  | 'n' => '\n'
  | 'r' => '\r'
  | 't' => '\t'
  | 'Z' => '\x1a'
  | c => c

/-- Like `upToQuote?` for a single quote, where a backslash changes the next character. -/
def upToQuoteBackslashed? : List Char → Option (List Char × List Char)
  | [] => none
  | '\'' :: '\'' :: rest =>
    (upToQuoteBackslashed? rest).map fun (body, rest) => ('\'' :: body, rest)
  | '\'' :: rest => some ([], rest)
  | '\\' :: c :: rest =>
    (upToQuoteBackslashed? rest).map fun (body, rest) => (backslashed c :: body, rest)
  | c :: rest => (upToQuoteBackslashed? rest).map fun (body, rest) => (c :: body, rest)

def upToMark? (mark : List Char) : List Char → Option (List Char × List Char)
  | [] => none
  | c :: rest =>
    if mark.isPrefixOf (c :: rest) then some ([], (c :: rest).drop mark.length)
    else (upToMark? mark rest).map fun (body, rest) => (c :: body, rest)

def hexDigitValue (c : Char) : Nat :=
  if c.isDigit then c.toNat - '0'.toNat else c.toLower.toNat - 'a'.toNat + 10

def valueIn (base : Nat) (digits : List Char) : Nat :=
  digits.foldl (fun n c => base * n + hexDigitValue c) 0

def charOf? (n : Nat) : Option Char :=
  if n < 0xd800 ∨ (0xe000 ≤ n ∧ n < 0x110000) then some (Char.ofNat n) else none

def hexChar? (digits : List Char) : Option Char :=
  if digits.all isHexDigit then charOf? (valueIn 16 digits) else none

def byteChar? (base : Nat) (digits : List Char) : Option Char :=
  let n := valueIn base digits % 256
  if n < 128 then some (Char.ofNat n) else none

def isOctalDigit (c : Char) : Bool :=
  '0' ≤ c && c ≤ '7'

/-- The character that stands for `count` characters after a backslash and a letter; a plus sign
may stand before the digits. -/
def wideEscape? (count : Nat) (cs : List Char) : Option (Char × List Char) :=
  let digits := match cs.take count with
    | '+' :: digits => digits
    | digits => digits
  if cs.length < count || digits.isEmpty then none
  else (hexChar? digits).map (·, cs.drop count)

def escape? : List Char → Option (Char × List Char)
  | [] => none
  | 'b' :: rest => some ('\x08', rest)
  | 'f' :: rest => some ('\x0c', rest)
  | 'n' :: rest => some ('\n', rest)
  | 'r' :: rest => some ('\r', rest)
  | 't' :: rest => some ('\t', rest)
  | 'u' :: rest => wideEscape? 4 rest
  | 'U' :: rest => wideEscape? 8 rest
  | 'x' :: rest =>
    let digits := (rest.take 2).takeWhile isHexDigit
    if digits.isEmpty then some ('x', rest)
    else (byteChar? 16 digits).map (·, rest.drop digits.length)
  | c :: rest =>
    if isOctalDigit c then
      let digits := (rest.take 2).takeWhile isOctalDigit
      (byteChar? 8 (c :: digits)).map (·, rest.drop digits.length)
    else some (c, rest)

/-- The characters of an escaped string after its opening quote, and the rest. The length of the
text bounds the number of steps. -/
def escaped? : (bound : Nat) → List Char → Option (List Char × List Char)
  | 0, _ => none
  | _ + 1, [] => none
  | bound + 1, '\'' :: '\'' :: rest =>
    (escaped? bound rest).map fun (body, rest) => ('\'' :: body, rest)
  | _ + 1, '\'' :: rest => some ([], rest)
  | bound + 1, '\\' :: rest => do
    let (c, rest) ← escape? rest
    if c = '\x00' then none
    else (escaped? bound rest).map fun (body, rest) => (c :: body, rest)
  | bound + 1, c :: rest => (escaped? bound rest).map fun (body, rest) => (c :: body, rest)

def numbered? : (bound : Nat) → List Char → Option (List Char × List Char)
  | 0, _ => none
  | _ + 1, [] => none
  | bound + 1, '\'' :: '\'' :: rest =>
    (numbered? bound rest).map fun (body, rest) => ('\'' :: body, rest)
  | _ + 1, '\'' :: rest => some ([], rest)
  | bound + 1, '\\' :: '\\' :: rest =>
    (numbered? bound rest).map fun (body, rest) => ('\\' :: body, rest)
  | bound + 1, '\\' :: rest => do
    let (count, rest) := match rest with
      | '+' :: rest => (6, rest)
      | _ => (4, rest)
    if rest.length < count then none
    else
      let c ← hexChar? (rest.take count)
      (numbered? bound (rest.drop count)).map fun (body, rest) => (c :: body, rest)
  | bound + 1, c :: rest => (numbered? bound rest).map fun (body, rest) => (c :: body, rest)

def stringToken (form : StringForm) (found : Option (List Char × List Char)) :
    Option (Token × List Char) :=
  found.map fun (body, rest) => (.string form (String.ofList body), rest)

/-- A raw string from its opening quotes on: one, or three with others free in between. Two are an
empty string. -/
def raw? (quote : Char) (cs : List Char) : Option (Token × List Char) :=
  if [quote, quote, quote].isPrefixOf cs then
    stringToken (.raw quote true) (upToMark? [quote, quote, quote] (cs.drop 3))
  else if [quote, quote].isPrefixOf cs then some (.string (.raw quote false) "", cs.drop 2)
  else stringToken (.raw quote false) (upToQuote? quote (cs.drop 1))

/-- What stands between two double dollar signs; single ones are kept. -/
def betweenDollars? : (afterDollar : Bool) → List Char → Option (List Char × List Char)
  | _, [] => none
  | true, '$' :: rest => some ([], rest)
  | false, '$' :: rest => betweenDollars? true rest
  | afterDollar, c :: rest =>
    (betweenDollars? false rest).map fun (body, rest) =>
      (if afterDollar then '$' :: c :: body else c :: body, rest)

/-- A string in dollar signs with or without a tag, or a placeholder, after the first dollar. -/
def dollar? (cs : List Char) : Option (Token × List Char) :=
  match cs with
  | '$' :: rest => stringToken (.dollar "") (betweenDollars? false rest)
  | _ =>
    let continues c := isAlphabetic c || isNumeric c || c == '_'
    let tag := cs.takeWhile continues
    match cs.dropWhile continues with
    | '$' :: rest =>
      stringToken (.dollar (String.ofList tag)) (upToMark? ('$' :: tag ++ ['$']) rest)
    | rest => some (.placeholder (String.ofList ('$' :: tag)), rest)

def exponent (cs : List Char) : List Char :=
  match cs with
  | e :: sign :: rest =>
    if e != 'e' && e != 'E' then []
    else if sign == '+' || sign == '-' then
      let digits := rest.takeWhile Char.isDigit
      if digits.isEmpty then [] else e :: sign :: digits
    else
      let digits := (sign :: rest).takeWhile Char.isDigit
      if digits.isEmpty then [] else e :: digits
  | _ => []

/-- A number, a lone point, or a hexadecimal string after `0x`. -/
def numeric (cs : List Char) : Token × List Char :=
  let whole := cs.takeWhile Char.isDigit
  match whole, cs.drop whole.length with
  | ['0'], 'x' :: rest =>
    (.string .hex (String.ofList (rest.takeWhile isHexDigit)), rest.dropWhile isHexDigit)
  | _, afterWhole =>
    let fraction := match afterWhole with
      | '.' :: rest => '.' :: rest.takeWhile Char.isDigit
      | _ => []
    let mantissa := whole ++ fraction
    if mantissa = ['.'] then (.symbol ".", cs.drop 1)
    else
      let power := exponent (cs.drop mantissa.length)
      let digits := String.ofList (mantissa ++ power)
      match cs.drop (mantissa.length + power.length) with
      | 'L' :: rest => (.number digits true, rest)
      | rest => (.number digits false, rest)

def symbolOf (cs : List Char) : Token × List Char :=
  match symbols.find? fun s => s.1.toList.isPrefixOf cs with
  | some (written, known) => (.symbol known, cs.drop written.length)
  | none => (.symbol (String.ofList (cs.take 1)), cs.drop 1)

def next? (cs : List Char) : Option (Token × List Char) :=
  match cs with
  | [] => none
  | '\'' :: rest => stringToken .plain (upToQuote? '\'' rest)
  | '"' :: rest =>
    (upToQuote? '"' rest).map fun (body, rest) => (.word (String.ofList body) (some '"'), rest)
  | '`' :: rest =>
    (upToQuote? '`' rest).map fun (body, rest) => (.word (String.ofList body) (some '`'), rest)
  | '$' :: rest => dollar? rest
  | '?' :: rest =>
    some (.placeholder (String.ofList ('?' :: rest.takeWhile isNumeric)), rest.dropWhile isNumeric)
  | '#' :: c :: rest =>
    if c = '-' || c = '>' || c = ' ' then some (symbolOf cs) else some (wordFrom ['#', c] rest)
  | '@' :: '@' :: c :: rest =>
    if c = ' ' then some (symbolOf cs) else some (wordFrom ['@', '@', c] rest)
  | '@' :: c :: rest =>
    if c = '@' || c = '>' || c = '?' || c = ' ' || c = '\'' || c = '"' || c = '`' then
      some (symbolOf cs)
    else some (wordFrom ['@', c] rest)
  | c :: '&' :: '\'' :: rest =>
    if c = 'u' || c = 'U' then stringToken .unicode (numbered? (rest.length + 1) rest)
    else some (plainNext c ('&' :: '\'' :: rest))
  | c :: '\'' :: rest =>
    if c = 'b' || c = 'B' then stringToken (.bytes '\'') (upToQuote? '\'' rest)
    else if c = 'n' || c = 'N' then stringToken .national (upToQuote? '\'' rest)
    else if c = 'e' || c = 'E' then stringToken .escaped (escaped? (rest.length + 1) rest)
    else if c = 'x' || c = 'X' then stringToken .hex (upToQuoteBackslashed? rest)
    else if c = 'r' || c = 'R' then raw? '\'' ('\'' :: rest)
    else some (plainNext c ('\'' :: rest))
  | c :: '"' :: rest =>
    if c = 'b' || c = 'B' then stringToken (.bytes '"') (upToQuote? '"' rest)
    else if c = 'r' || c = 'R' then raw? '"' ('"' :: rest)
    else some (plainNext c ('"' :: rest))
  | c :: rest => some (plainNext c rest)
where
  plainNext (c : Char) (rest : List Char) : Token × List Char :=
    if c.isDigit || c = '.' then numeric (c :: rest)
    else if startsWord c then wordFrom [c] rest
    else symbolOf (c :: rest)

/-- The text after a comment whose opening is read; comments nest, and a character may belong to
two marks. -/
def afterComment? : (depth : Nat) → (last : Char) → List Char → Option (List Char)
  | _, _, [] => none
  | depth, last, c :: rest =>
    if last = '/' ∧ c = '*' then afterComment? (depth + 1) c rest
    else if last = '*' ∧ c = '/' then
      if depth ≤ 1 then some rest else afterComment? (depth - 1) c rest
    else afterComment? depth c rest

/-- The tokens of a text; every step takes a character, so the length bounds their number. -/
def scanUpTo : (bound : Nat) → List Char → Option (List Token)
  | _, [] => some []
  | 0, _ => none
  | bound + 1, '-' :: '-' :: rest => scanUpTo bound ((rest.dropWhile (· != '\n')).drop 1)
  | bound + 1, '/' :: '*' :: rest => do scanUpTo bound (← afterComment? 1 ' ' rest)
  | bound + 1, c :: rest =>
    if isBlank c then scanUpTo bound rest
    else do
      let (token, rest) ← next? (c :: rest)
      let tokens ← scanUpTo bound rest
      return token :: tokens

def scan? (text : String) : Option (List Token) :=
  let cs := text.toList
  scanUpTo cs.length cs

end Token

end TablePlan.Condition
