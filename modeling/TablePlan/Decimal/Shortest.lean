import TablePlan.Decimal.Binary64

/-!
The fewest decimal digits that read back as a given double. A finite double is the middle of the
interval of the reals that round to it; for one digit, two digits and so on, the two decimals next
to it are tried, and the first of them that lies in the interval is taken, the nearer one if both
do.
-/

namespace TablePlan.Decimal

structure Scaled where
  digits : Nat
  exponent : Int
  deriving DecidableEq, Repr

/-- What a decimal half way between its two neighbours becomes. -/
inductive Tie where
  | up
  | even

/-- The reals that round to one double, in units of `2 ^ exponent`. -/
structure Interval where
  low : Nat
  middle : Nat
  high : Nat
  exponent : Int
  closed : Bool

/-- The interval of `mantissa · 2 ^ exponent`. Below a power of two the doubles lie twice as
dense. -/
def Interval.around (mantissa : Nat) (exponent : Int) : Interval where
  low := 4 * mantissa - (if mantissa = Nat.pow 2 52 ∧ -1074 < exponent then 1 else 2)
  middle := 4 * mantissa
  high := 4 * mantissa + 2
  exponent := exponent - 2
  closed := mantissa % 2 = 0

def ratio (n : Nat) (binary decimal : Int) : Nat × Nat :=
  (n * Nat.pow 2 binary.toNat * Nat.pow 10 decimal.toNat,
    Nat.pow 2 (-binary).toNat * Nat.pow 10 (-decimal).toNat)

namespace Interval

def holds (i : Interval) (digits : Nat) (scale : Int) : Bool :=
  let (unit, size) := ratio 1 i.exponent (-scale)
  let value := digits * size
  if i.closed then i.low * unit ≤ value && value ≤ i.high * unit
  else i.low * unit < value && value < i.high * unit

/-- The grid point next to the middle that lies in the interval. -/
def nearest? (i : Interval) (tie : Tie) (scale : Int) : Option Nat :=
  let (value, size) := ratio i.middle i.exponent (-scale)
  let below := value / size
  let above := below + 1
  match i.holds below scale && below != 0, i.holds above scale with
  | false, false => none
  | true, false => some below
  | false, true => some above
  | true, true =>
    let gap := 2 * (value % size)
    if gap < size then some below
    else if gap = size then
      match tie with
      | .up => some above
      | .even => some (if below % 2 = 0 then below else above)
    else some above

end Interval

def digitCount (n : Nat) : Nat :=
  (Nat.toDigits 10 n).length

def leadingExponent (mantissa : Nat) (exponent : Int) : Int :=
  if 0 ≤ exponent then digitCount (mantissa * Nat.pow 2 exponent.toNat) - 1
  else
    let places := (-exponent).toNat
    (digitCount (mantissa * Nat.pow 5 places) : Int) - places - 1

def Scaled.stripZeros (x : Scaled) : Nat → Scaled
  | 0 => x
  | fuel + 1 =>
    if x.digits % 10 = 0 ∧ x.digits ≠ 0 then
      Scaled.stripZeros ⟨x.digits / 10, x.exponent + 1⟩ fuel
    else x

/-- The shortest decimal of a positive double, at most seventeen digits long. -/
def shortest (tie : Tie) (mantissa : Nat) (exponent : Int) : Scaled :=
  let interval := Interval.around mantissa exponent
  let leading := leadingExponent mantissa exponent
  let found := (List.range 17).findSome? fun (places : Nat) =>
    let scale := leading - places
    (interval.nearest? tie scale).map fun digits => Scaled.mk digits scale
  (found.getD ⟨mantissa, 0⟩).stripZeros 17

end TablePlan.Decimal
