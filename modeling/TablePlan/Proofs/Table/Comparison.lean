import TablePlan.Cell
import Mathlib.Tactic.Common

/-!
Comparisons from the other side. Swapping two cells swaps their order, of whatever kinds they are;
doubles compare by their unpacked forms, in which a sign, an exponent and a significand decide.
-/

namespace TablePlan

open Float.Model (UnpackedFloat)

theorem compare_unpacked_swap (a b : UnpackedFloat) :
    b.compare a = (a.compare b).map .swap := by
  have signs (s t : UnpackedFloat.Sign) : compare t s = (compare s t).swap := by
    cases s <;> cases t <;> rfl
  have ints (m n : Int) : compare n m = (compare m n).swap := Std.OrientedCmp.eq_swap
  have nats (m n : Nat) : compare n m = (compare m n).swap := Std.OrientedCmp.eq_swap
  cases a with
  | notANumber => cases b with
    | infinity t => cases t <;> rfl
    | finite t _ _ _ => cases t <;> rfl
    | _ => rfl
  | infinity s => cases b with
    | infinity t => exact congrArg some (signs s t)
    | finite t _ _ _ => cases s <;> cases t <;> rfl
    | _ => cases s <;> rfl
  | zero s => cases b with
    | infinity t => cases t <;> rfl
    | finite t _ _ _ => cases t <;> rfl
    | _ => rfl
  | finite s m e _ => cases b with
    | infinity t => cases s <;> cases t <;> rfl
    | finite t m' e' _ =>
      have parts : (compare e' e).then (compare m' m) =
          ((compare e e').then (compare m m')).swap := by
        rw [ints e e', nats m m', Ordering.swap_then]
      cases s <;> cases t
      · exact congrArg (fun order => some order.swap) parts
      · rfl
      · rfl
      · exact congrArg some parts
    | _ => cases s <;> rfl

theorem compareFloats_eq (a b : Float) :
    compareFloats a b = a.toModel.unpack.compare b.toModel.unpack := by
  have less (a b : Float) : a < b ↔ a.toModel.unpack.compare b.toModel.unpack = some .lt := by
    change decide ((_ == some Ordering.lt) = true) = true ↔ _
    simp
  have equal : (a == b) = true ↔ a.toModel.unpack.compare b.toModel.unpack = some .eq := by
    change (_ == some Ordering.eq) = true ↔ _
    simp
  unfold compareFloats
  simp only [less, equal, compare_unpacked_swap a.toModel.unpack b.toModel.unpack]
  cases a.toModel.unpack.compare b.toModel.unpack with
  | none => rfl
  | some order => cases order <;> rfl

theorem compareFloats_swap (a b : Float) : compareFloats b a = (compareFloats a b).map .swap := by
  rw [compareFloats_eq, compareFloats_eq, compare_unpacked_swap]

theorem Calendar.Date.compare_swap (a b : Calendar.Date) : compare b a = (compare a b).swap := by
  change b.compare a = (a.compare b).swap
  have numbers {α : Type} [Ord α] [Std.OrientedOrd α] (m n : α) :
      compare n m = (compare m n).swap := Std.OrientedCmp.eq_swap
  simp only [Calendar.Date.compare, Ordering.swap_then, numbers a.year, numbers a.month,
    numbers a.day]

namespace Cell

theorem compare_swap (a b : Cell) : b.compare a = (a.compare b).map .swap := by
  have ordered {α : Type} [Ord α] [Std.OrientedOrd α] (m n : α) :
      some (Ord.compare n m) = (some (Ord.compare m n)).map Ordering.swap :=
    congrArg some Std.OrientedCmp.eq_swap
  cases a with
  | null => exact compare_null_right b
  | bool m => cases b with
    | bool n => exact ordered m n
    | _ => rfl
  | int m => cases b with
    | int n => exact ordered m.toInt n.toInt
    | float y => exact compareFloats_swap _ y
    | _ => rfl
  | float x => cases b with
    | int n => exact compareFloats_swap x _
    | float y => exact compareFloats_swap x y
    | _ => rfl
  | date d => cases b with
    | date e => exact congrArg some (d.compare_swap e)
    | text t =>
      rw [compare, compare, Option.map_map]
      exact congrArg (Option.map · _) (funext fun e => d.compare_swap e)
    | _ => rfl
  | text s => cases b with
    | date e =>
      rw [compare, compare, Option.map_map]
      exact congrArg (Option.map · _) (funext fun d => d.compare_swap e)
    | text t => exact ordered s t
    | _ => rfl

end Cell

end TablePlan
