/-!
Whole numbers by the bits that they need.
-/

namespace TablePlan.Decimal

def isSigned (bits : Nat) (n : Int) : Bool :=
  -((Nat.pow 2 bits : Nat) : Int) ≤ n && n < ((Nat.pow 2 bits : Nat) : Int)

def isWord (bits : Nat) (n : Int) : Bool :=
  isSigned (bits - 1) n || (0 ≤ n && n < ((Nat.pow 2 bits : Nat) : Int))

def int64? (n : Int) : Option Int64 :=
  if isSigned 63 n then some (Int64.ofInt n) else none

end TablePlan.Decimal
