import TablePlan.Decimal.Shortest

/-!
Decimal text of a double. A `Layout` holds the decisions that one output format takes; the digits
are the shortest ones that read back.
-/

namespace TablePlan.Decimal

structure Layout where
  tie : Tie
  /-- The exponents of the leading digit that are written without an exponent; none means all. -/
  positional : Option (Int × Int)
  pointZero : Bool
  nan : String
  infinity (negative : Bool) : String

/-- Text shows every place, drops a fraction of zero and rounds a tie up. -/
def Layout.plain : Layout :=
  ⟨.up, none, false, "NaN", fun negative => if negative then "-inf" else "inf"⟩

/-- Documents keep `.0`, write an exponent below `1e-5` and from `1e16` on, and have no text for
what is not finite. -/
def Layout.document : Layout :=
  ⟨.even, some (-5, 15), true, "null", fun _ => "null"⟩

private def zeros (n : Nat) : String :=
  String.ofList (List.replicate n '0')

namespace Layout

def positionalText (layout : Layout) (x : Scaled) : String :=
  let digits := toString x.digits
  if 0 ≤ x.exponent then
    digits ++ zeros x.exponent.toNat ++ (if layout.pointZero then ".0" else "")
  else
    let places := (-x.exponent).toNat
    let padded := (zeros (places + 1 - digits.length) ++ digits).toList
    let whole := padded.length - places
    String.ofList (padded.take whole) ++ "." ++ String.ofList (padded.drop whole)

def exponentText (x : Scaled) : String :=
  let digits := (toString x.digits).toList
  let point := if digits.length = 1 then "" else "."
  String.ofList (digits.take 1) ++ point ++ String.ofList (digits.drop 1) ++ "e"
    ++ toString (x.exponent + digits.length - 1)

def text (layout : Layout) (value : Float) : String :=
  match Binary64.ofFloat value with
  | .nan => layout.nan
  | .infinite negative => layout.infinity negative
  | .finite negative mantissa exponent =>
    let x := if mantissa = 0 then ⟨0, 0⟩ else shortest layout.tie mantissa exponent
    let leading := x.exponent + digitCount x.digits - 1
    let body := match layout.positional with
      | none => layout.positionalText x
      | some (low, high) =>
        if low ≤ leading && leading ≤ high then layout.positionalText x else exponentText x
    (if negative then "-" else "") ++ body

end Layout

end TablePlan.Decimal
