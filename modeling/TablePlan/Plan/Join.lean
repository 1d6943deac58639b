import TablePlan.Predicate.Basic

/-!
Joins between declared tables. An edge names one alias and one key on each side; reversing it swaps
the sides and swaps its kind too.
-/

namespace TablePlan

inductive JoinKind where
  | inner | left | right | full
  deriving DecidableEq, Repr

namespace JoinKind

/-- Kinds are read without regard to case; dashes and spaces count as underscores. -/
def ofText? (s : String) : Option JoinKind :=
  match s.toLower.map (fun c => if c = '-' ∨ c = ' ' then '_' else c) with
  | "inner" => some .inner
  | "left" | "left_outer" => some .left
  | "right" | "right_outer" => some .right
  | "full" | "full_outer" | "outer" => some .full
  | _ => none

def name : JoinKind → String
  | .inner => "inner"
  | .left => "left"
  | .right => "right"
  | .full => "full"

theorem ofText?_name (k : JoinKind) : ofText? k.name = some k := by
  cases k <;> decide +kernel

def swapped : JoinKind → JoinKind
  | .inner => .inner
  | .left => .right
  | .right => .left
  | .full => .full

theorem swapped_swapped (k : JoinKind) : k.swapped.swapped = k := by
  cases k <;> rfl

def keepsLeft : JoinKind → Bool
  | .left | .full => true
  | .inner | .right => false

def keepsRight : JoinKind → Bool
  | .right | .full => true
  | .inner | .left => false

theorem keepsLeft_iff {k : JoinKind} : k.keepsLeft = true ↔ k = .left ∨ k = .full := by
  cases k <;> decide

theorem keepsRight_iff {k : JoinKind} : k.keepsRight = true ↔ k = .right ∨ k = .full := by
  cases k <;> decide

theorem keepsLeft_swapped (k : JoinKind) : k.swapped.keepsLeft = k.keepsRight := by
  cases k <;> rfl

theorem keepsRight_swapped (k : JoinKind) : k.swapped.keepsRight = k.keepsLeft := by
  cases k <;> rfl

end JoinKind

structure JoinEdge where
  leftAlias : String
  rightAlias : String
  leftKey : ColumnRef
  rightKey : ColumnRef
  kind : JoinKind
  deriving DecidableEq, Repr

namespace JoinEdge

def reversed (e : JoinEdge) : JoinEdge where
  leftAlias := e.rightAlias
  rightAlias := e.leftAlias
  leftKey := e.rightKey
  rightKey := e.leftKey
  kind := e.kind.swapped

theorem reversed_reversed (e : JoinEdge) : e.reversed.reversed = e := by
  simp [reversed, JoinKind.swapped_swapped]

def condition (e : JoinEdge) : Predicate :=
  .compare (.column e.leftKey) .eq (.column e.rightKey)

end JoinEdge

end TablePlan
