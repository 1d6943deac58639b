import TablePlan.Named
import Mathlib.Data.List.Basic
import Mathlib.Data.List.Induction
import Mathlib.Tactic.Common

/-!
Lookups among named values. A list of entries is looked up by its last entry of a name.
-/

namespace TablePlan.Named

variable {α : Type} {name other : String} {value : α}

theorem mem_of_find? {entries : Named α} (found : find? name entries = some value) :
    (name, value) ∈ entries := by
  induction entries with
  | nil => cases found
  | cons entry rest ih =>
    obtain ⟨first, stored⟩ := entry
    rw [find?] at found
    split at found
    · rename_i same
      cases found
      rw [same]
      exact List.mem_cons_self
    · exact List.mem_cons_of_mem _ (ih found)

theorem find?_filter_ne (name other : String) (entries : Named α) :
    find? name (entries.filter fun entry => entry.1 != other) =
      if name = other then none else find? name entries := by
  induction entries with
  | nil => simp [find?]
  | cons entry rest ih =>
    obtain ⟨first, stored⟩ := entry
    by_cases removed : first = other
    · rw [List.filter_cons_of_neg (by simpa using removed), ih, find?]
      split_ifs with asked skipped
      · rfl
      · exact absurd (skipped.symm.trans removed) asked
      · rfl
    · rw [List.filter_cons_of_pos (by simpa using removed), find?, find?, ih]
      split_ifs with found asked
      · exact absurd (found.trans asked) removed
      · rfl
      · rfl
      · rfl

theorem find?_ofList (name : String) (entries : List (String × α)) :
    (ofList entries).find? name =
      (entries.filter fun entry => entry.1 == name).getLast?.map Prod.snd := by
  induction entries using List.reverseRecOn with
  | nil => rfl
  | append_singleton entries entry ih =>
    have last : ofList (entries ++ [entry]) = (ofList entries).insert entry.1 entry.2 :=
      List.foldl_append
    rw [last, List.filter_append]
    by_cases same : entry.1 = name
    · rw [List.filter_cons_of_pos (by simpa using same), ← same, find?_insert_self]
      simp
    · rw [List.filter_cons_of_neg (by simpa using same), find?_insert_of_ne (Ne.symm same), ih]
      simp

end TablePlan.Named
