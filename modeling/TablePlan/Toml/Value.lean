import TablePlan.Calendar.Date
import TablePlan.Decimal.Reading
import TablePlan.Decimal.Width
import TablePlan.Toml.Lexeme

/-!
Values of TOML documents, and those of them that are written without brackets: strings, numbers,
booleans, dates and times.
-/

namespace TablePlan.Toml

inductive Value where
  | string (text : String)
  | integer (n : Int)
  | float (x : Float)
  | bool (b : Bool)
  | moment (text : String)
  | array (items : List Value)
  | table (members : List (String × Value))

/-- Digits with single underscores between them, without the underscores. -/
def digitGroups? (isDigit : Char → Bool) : List Char → Option (List Char)
  | [] => none
  | [c] => if isDigit c then some [c] else none
  | c :: '_' :: rest =>
    if isDigit c then (digitGroups? isDigit rest).map (c :: ·) else none
  | c :: rest => if isDigit c then (digitGroups? isDigit rest).map (c :: ·) else none

def digitsValue (base : Nat) (digits : List Char) : Nat :=
  digits.foldl (fun n c =>
    base * n + if c.isDigit then c.toNat - '0'.toNat else c.toLower.toNat - 'a'.toNat + 10) 0

/-- Decimal digits without a needless zero in front. -/
def decimalDigits? (cs : List Char) : Option (List Char) :=
  match digitGroups? Char.isDigit cs with
  | some ['0'] => some ['0']
  | some ('0' :: _) | none => none
  | some digits => some digits

def splitSign : List Char → Bool × Bool × List Char
  | '-' :: rest => (true, true, rest)
  | '+' :: rest => (true, false, rest)
  | cs => (false, false, cs)

/-- An integer; one of more than 128 bits is refused. -/
def integer? (cs : List Char) : Option Int := do
  let (signed, negative, rest) := splitSign cs
  let magnitude ← match signed, rest with
    | false, '0' :: 'x' :: digits =>
      (digitGroups? TextReader.isHexDigit digits).map (digitsValue 16)
    | false, '0' :: 'o' :: digits =>
      (digitGroups? (fun c => '0' ≤ c && c ≤ '7') digits).map (digitsValue 8)
    | false, '0' :: 'b' :: digits =>
      (digitGroups? (fun c => c == '0' || c == '1') digits).map (digitsValue 2)
    | _, digits => (decimalDigits? digits).map (digitsValue 10)
  let n : Int := if negative then -(magnitude : Int) else magnitude
  if Decimal.isWord 128 n then some n else none

def exponentDigits? (cs : List Char) : Option (List Char) := do
  let (signed, negative, rest) := splitSign cs
  let digits ← digitGroups? Char.isDigit rest
  return if signed && negative then '-' :: digits else digits

/-- A number with a fraction or an exponent; a value beyond the doubles is refused. -/
def float? (cs : List Char) : Option Float := do
  let (_, negative, rest) := splitSign cs
  let signed (x : Float) : Float := if negative then -x else x
  if rest = "inf".toList then return signed (1 / 0)
  if rest = "nan".toList then return 0 / 0
  let isMark c := c == 'e' || c == 'E'
  let mantissa := rest.takeWhile fun c => !isMark c
  let whole ← decimalDigits? (mantissa.takeWhile (· != '.'))
  let fraction ← match mantissa.dropWhile (· != '.') with
    | '.' :: digits => (digitGroups? Char.isDigit digits).map ('.' :: ·)
    | _ => some []
  let exponent ← match rest.dropWhile fun c => !isMark c with
    | _ :: digits => (exponentDigits? digits).map ('e' :: ·)
    | [] => some []
  if fraction.isEmpty && exponent.isEmpty then none
  let x ← Decimal.floatOfText? (String.ofList (whole ++ fraction ++ exponent))
  if x.isInf then none else return signed x

def twoDigits? (limit : Nat) (a b : Char) : Option Nat :=
  if a.isDigit && b.isDigit then
    let n := digitsValue 10 [a, b]
    if n ≤ limit then some n else none
  else none

def afterDate? : List Char → Option (List Char)
  | a :: b :: c :: d :: '-' :: m :: m' :: '-' :: t :: t' :: rest => do
    if !([a, b, c, d].all Char.isDigit) then none
    let month ← twoDigits? 12 m m'
    let day ← twoDigits? 31 t t'
    let _ ← Calendar.Date.ofDay? (digitsValue 10 [a, b, c, d]) month day
    return rest
  | _ => none

def afterTime? : List Char → Option (List Char)
  | h :: h' :: ':' :: m :: m' :: ':' :: s :: s' :: rest => do
    let _ ← twoDigits? 23 h h'
    let _ ← twoDigits? 59 m m'
    let _ ← twoDigits? 60 s s'
    match rest with
    | '.' :: fraction =>
      let digits := fraction.takeWhile Char.isDigit
      if digits.isEmpty then none else return fraction.drop digits.length
    | _ => return rest
  | _ => none

def isOffset : List Char → Bool
  | [] => true
  | ['Z'] | ['z'] => true
  | [sign, h, h', ':', m, m'] =>
    (sign == '+' || sign == '-') && (twoDigits? 23 h h').isSome && (twoDigits? 59 m m').isSome
  | _ => false

def isMoment (cs : List Char) : Bool :=
  match afterDate? cs with
  | some [] => true
  | some (mark :: rest) =>
    (mark == 'T' || mark == 't' || mark == ' ') && ((afterTime? rest).map isOffset).getD false
  | none => afterTime? cs == some []

def bareValue? (cs : List Char) : Option Value :=
  if cs = "true".toList then some (.bool true)
  else if cs = "false".toList then some (.bool false)
  else if isMoment cs then some (.moment (String.ofList cs))
  else match integer? cs with
    | some n => some (.integer n)
    | none => (float? cs).map .float

namespace TextReader

def isBareValueChar (c : Char) : Bool :=
  c.isAlphanum || c == '_' || c == '-' || c == '+' || c == '.' || c == ':'

/-- The text of a bare value; a blank may stand between a date and a time. -/
def bareText : TextReader (List Char) := do
  let first ← takeWhile isBareValueChar
  match ← get with
  | ' ' :: d :: _ =>
    if d.isDigit && afterDate? first == some [] then
      let _ ← next
      return first ++ ' ' :: (← takeWhile isBareValueChar)
    else return first
  | _ => return first

def scalar : TextReader Value := do
  match ← peek? with
  | some '"' => return .string (← string '"')
  | some '\'' => return .string (← string '\'')
  | _ => bareValue? (← bareText)

end TextReader

end TablePlan.Toml
