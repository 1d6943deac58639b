import TablePlan.Decimal.Width
import TablePlan.Json.Token

/-!
The values of JSON numbers. An integer of 64 bits is itself. Any other number is its leading
digits, as many as fit in 64 bits, scaled by a power of ten, where both are rounded to doubles
first; a value beyond the doubles is none.
-/

namespace TablePlan.Json.Number

/-- Digits read into a number of 64 bits, and the power of ten that it is to be scaled by. -/
structure Leading where
  significand : Nat
  exponent : Int
  deriving DecidableEq, Repr

def Leading.fits (l : Leading) (digit : Nat) : Bool :=
  l.significand * 10 + digit < Nat.pow 2 64

/-- The digits of the whole part: from the first that does not fit, each scales by ten. -/
def Leading.whole : Leading → List Nat → Leading
  | l, [] => l
  | l, digit :: digits =>
    if l.fits digit then Leading.whole ⟨l.significand * 10 + digit, l.exponent⟩ digits
    else ⟨l.significand, l.exponent + (digits.length + 1)⟩

/-- The digits after the point: from the first that does not fit, all are dropped. -/
def Leading.fraction : Leading → List Nat → Leading
  | l, [] => l
  | l, digit :: digits =>
    if l.fits digit then Leading.fraction ⟨l.significand * 10 + digit, l.exponent - 1⟩ digits
    else l

/-- Scales down in steps of at most 308 powers of ten. -/
def scaleDown (value : Float) (places : Nat) : Float :=
  if places ≤ 308 then value / Float.ofScientific 1 false places
  else if value == 0 then value
  else scaleDown (value / Float.ofScientific 1 false 308) (places - 308)
termination_by places

def Leading.toFloat? (l : Leading) : Option Float :=
  let value := Float.ofNat l.significand
  if l.exponent < 0 then some (scaleDown value (-l.exponent).toNat)
  else if l.exponent ≤ 308 then
    let scaled := value * Float.ofScientific 1 false l.exponent.toNat
    if scaled.isInf then none else some scaled
  else if l.significand = 0 then some value else none

def digitsOf (cs : List Char) : List Nat :=
  cs.map fun c => c.toNat - '0'.toNat

def natOf (cs : List Char) : Nat :=
  (digitsOf cs).foldl (fun n d => 10 * n + d) 0

def exponentOf : List Char → Int
  | _ :: '-' :: digits => -natOf digits
  | _ :: '+' :: digits => natOf digits
  | _ :: digits => natOf digits
  | [] => 0

structure Parts where
  negative : Bool
  whole : List Char
  fraction : List Char
  exponent : List Char

def Parts.ofText (text : String) : Parts :=
  let cs := text.toList
  let (negative, cs) := match cs with
    | '-' :: rest => (true, rest)
    | _ => (false, cs)
  let whole := cs.takeWhile Char.isDigit
  let rest := cs.drop whole.length
  let fraction := match rest with
    | '.' :: rest => rest.takeWhile Char.isDigit
    | _ => []
  ⟨negative, whole, fraction, rest.dropWhile fun c => c != 'e' && c != 'E'⟩

/-- The value of an integer text; a negative zero is not an integer. -/
def toInt? (text : String) : Option Int :=
  let p := Parts.ofText text
  if p.fraction.isEmpty && p.exponent.isEmpty then
    let n := natOf p.whole
    if p.negative then (if n = 0 then none else some (-n)) else some n
  else none

def toInt64? (text : String) : Option Int64 :=
  (toInt? text).bind Decimal.int64?

def toFloat? (text : String) : Option Float :=
  let p := Parts.ofText text
  let leading := (Leading.whole ⟨0, 0⟩ (digitsOf p.whole)).fraction (digitsOf p.fraction)
  let scaled : Leading := ⟨leading.significand, leading.exponent + exponentOf p.exponent⟩
  scaled.toFloat?.map fun value => if p.negative then -value else value

end TablePlan.Json.Number
