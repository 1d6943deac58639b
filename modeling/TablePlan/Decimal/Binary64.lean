import TablePlan.Decimal.Width

/-!
Doubles as exact numbers: a finite one is `mantissa · 2 ^ exponent` with a sign, read off its bits.
The integral ones are recognised here, so that equal integers and doubles can share one key.
-/

namespace TablePlan.Decimal

inductive Binary64 where
  | nan
  | infinite (negative : Bool)
  | finite (negative : Bool) (mantissa : Nat) (exponent : Int)
  deriving DecidableEq, Repr

namespace Binary64

def ofBits (bits : UInt64) : Binary64 :=
  let n := bits.toNat
  let negative := n / Nat.pow 2 63 == 1
  let biased : Nat := n / Nat.pow 2 52 % 2048
  let fraction : Nat := n % Nat.pow 2 52
  if biased = 2047 then
    if fraction = 0 then .infinite negative else .nan
  else if biased = 0 then .finite negative fraction (-1074)
  else .finite negative (Nat.pow 2 52 + fraction) (Int.subNatNat biased 1075)

def ofFloat (x : Float) : Binary64 :=
  ofBits x.toBits

/-- The value when it is an integer; both zeros are 0. -/
def toInt? : Binary64 → Option Int
  | .finite negative mantissa exponent =>
    let size := Nat.pow 2 (-exponent).toNat
    if mantissa % size = 0 then
      let n : Int := ((mantissa / size * Nat.pow 2 exponent.toNat : Nat) : Int)
      some (if negative then -n else n)
    else none
  | _ => none

def toInt64? (x : Binary64) : Option Int64 :=
  x.toInt?.bind int64?

end Binary64

end TablePlan.Decimal
