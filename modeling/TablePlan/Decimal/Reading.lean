/-!
Doubles read from decimal text: digits with a point among them or without, then an exponent. The
value is the nearest double, infinite beyond the largest one.
-/

namespace TablePlan.Decimal

structure Numeral where
  significand : Nat
  exponent : Int
  deriving DecidableEq, Repr

namespace Numeral

def digitsValue (digits : List Char) : Nat :=
  digits.foldl (fun n c => 10 * n + (c.toNat - '0'.toNat)) 0

def exponent? : List Char → Option Int
  | '-' :: digits => magnitude? digits |>.map fun n => -(n : Int)
  | '+' :: digits => magnitude? digits |>.map fun n => (n : Int)
  | digits => magnitude? digits |>.map fun n => (n : Int)
where
  magnitude? (digits : List Char) : Option Nat :=
    if digits.isEmpty || !digits.all Char.isDigit then none else some (digitsValue digits)

def ofChars? (cs : List Char) : Option Numeral :=
  let whole := cs.takeWhile Char.isDigit
  let rest := cs.drop whole.length
  let (fraction, rest) := match rest with
    | '.' :: rest => (rest.takeWhile Char.isDigit, rest.dropWhile Char.isDigit)
    | _ => ([], rest)
  if whole.isEmpty && fraction.isEmpty then none
  else
    let numeral : Numeral := ⟨digitsValue (whole ++ fraction), -(fraction.length : Int)⟩
    match rest with
    | [] => some numeral
    | e :: rest =>
      if e == 'e' || e == 'E' then
        (exponent? rest).map fun n => ⟨numeral.significand, numeral.exponent + n⟩
      else none

/-- The nearest double. Numerals far outside the doubles are told by their length alone. -/
def toFloat (x : Numeral) : Float :=
  let places : Int := (Nat.toDigits 10 x.significand).length + x.exponent
  if x.significand = 0 ∨ places < -330 then 0
  else if places > 310 then 1 / 0
  else Float.ofScientific x.significand (x.exponent < 0) x.exponent.natAbs

end Numeral

def floatOfText? (text : String) : Option Float :=
  (Numeral.ofChars? text.toList).map Numeral.toFloat

end TablePlan.Decimal
