import TablePlan.Calendar.Date
import TablePlan.Text.Blank

/-!
Dates read from text of the form year, month and day. A year without a sign has at most four
digits; months and days have one or two. Blanks may stand before each number; the loose form also
allows them before the dashes and at the end.
-/

namespace TablePlan.Calendar

open Text

inductive Spacing where
  | beforeNumbers
  | anywhere
  deriving DecidableEq

namespace Spacing

def skip (spacing : Spacing) (cs : List Char) : List Char :=
  match spacing with
  | .beforeNumbers => cs
  | .anywhere => dropBlanks cs

end Spacing

def digitValue (c : Char) : Nat :=
  c.toNat - '0'.toNat

def leadingDigits (limit : Option Nat) (cs : List Char) : List Char :=
  let digits := cs.takeWhile Char.isDigit
  match limit with
  | some n => digits.take n
  | none => digits

def numberOfDigits (digits : List Char) : Nat :=
  digits.foldl (fun n c => 10 * n + digitValue c) 0

def readNumber? (limit : Option Nat) (cs : List Char) : Option (Nat × List Char) :=
  let digits := leadingDigits limit cs
  if digits.isEmpty then none else some (numberOfDigits digits, cs.drop digits.length)

/-- A year: a sign lifts the limit of four digits. -/
def readYear? (cs : List Char) : Option (Int × List Char) :=
  match cs with
  | '-' :: rest => (readNumber? none rest).map fun (n, rest) => (-(n : Int), rest)
  | '+' :: rest => (readNumber? none rest).map fun (n, rest) => ((n : Int), rest)
  | _ => (readNumber? (some 4) cs).map fun (n, rest) => ((n : Int), rest)

def readDash? (spacing : Spacing) (cs : List Char) : Option (List Char) :=
  match spacing.skip cs with
  | '-' :: rest => some rest
  | _ => none

namespace Date

def ofChars? (spacing : Spacing) (cs : List Char) : Option Date := do
  let (year, rest) ← readYear? (dropBlanks cs)
  let rest ← readDash? spacing rest
  let (month, rest) ← readNumber? (some 2) (dropBlanks rest)
  let rest ← readDash? spacing rest
  let (day, rest) ← readNumber? (some 2) (dropBlanks rest)
  if (spacing.skip rest).isEmpty then ofDay? year month day else none

def ofText? (spacing : Spacing) (s : String) : Option Date :=
  ofChars? spacing s.toList

def hasFixedShape (cs : List Char) : Bool :=
  cs.length == 10 &&
    cs.zipIdx.all fun (c, i) => if i = 4 ∨ i = 7 then c == '-' else c.isDigit

def ofFixed? (s : String) : Option Date :=
  if hasFixedShape s.toList then ofText? .beforeNumbers s else none

end Date

end TablePlan.Calendar
