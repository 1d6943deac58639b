import TablePlan.Plan.Basic
import TablePlan.Proofs.Named
import Mathlib.Data.List.Nodup

/-!
The tables that are declared under an alias. A lookup among declarations finds the first of them,
while the columns in scope and the inputs of a run are those of the last.
-/

namespace TablePlan

def declaredAs (tables : List TableDecl) (aliasName : String) : List TableDecl :=
  tables.filter fun t => t.aliasName == aliasName

theorem mem_declaredAs {tables : List TableDecl} {t : TableDecl} {a : String} :
    t ∈ declaredAs tables a ↔ t ∈ tables ∧ t.aliasName = a := by
  simp [declaredAs]

theorem findTable?_eq_head? (tables : List TableDecl) (a : String) :
    findTable? tables a = (declaredAs tables a).head? :=
  (List.head?_filter ..).symm

theorem nodup_aliases_iff {tables : List TableDecl} :
    (tables.map TableDecl.aliasName).Nodup ↔
      ∀ t ∈ tables, declaredAs tables t.aliasName = [t] := by
  have number (a : String) :
      (tables.map TableDecl.aliasName).count a = (declaredAs tables a).length := by
    rw [List.count, List.countP_map, List.countP_eq_length_filter]
    rfl
  constructor
  · intro distinct t mem
    have one : (declaredAs tables t.aliasName).length = 1 := by
      rw [← number]
      exact List.count_eq_one_of_mem distinct (List.mem_map_of_mem mem)
    obtain ⟨u, single⟩ := List.length_eq_one_iff.1 one
    have among : t ∈ declaredAs tables t.aliasName := mem_declaredAs.2 ⟨mem, rfl⟩
    rw [single, List.mem_singleton] at among
    rw [single, among]
  · intro single
    refine List.nodup_iff_count_le_one.2 fun a => ?_
    rw [number]
    cases declared : declaredAs tables a with
    | nil => exact Nat.zero_le _
    | cons t rest =>
      obtain ⟨mem, named⟩ := mem_declaredAs.1 (declared ▸ List.mem_cons_self : t ∈ declaredAs _ a)
      have one : declaredAs tables a = [t] := named ▸ single t mem
      exact Nat.le_of_eq (congrArg List.length (declared.symm.trans one))

theorem declaredAs_of_mem {tables : List TableDecl} {t : TableDecl}
    (distinct : (tables.map TableDecl.aliasName).Nodup) (mem : t ∈ tables) :
    declaredAs tables t.aliasName = [t] :=
  nodup_aliases_iff.1 distinct t mem

theorem find?_ofList_map {α : Type} (f : TableDecl → α) (tables : List TableDecl) (a : String) :
    (Named.ofList (tables.map fun t => (t.aliasName, f t))).find? a =
      (declaredAs tables a).getLast?.map f := by
  rw [Named.find?_ofList, List.filter_map, List.getLast?_map, Option.map_map]
  rfl

theorem declaredAs_perm {tables tables' : List TableDecl}
    (distinct : (tables.map TableDecl.aliasName).Nodup) (perm : tables'.Perm tables) (a : String) :
    declaredAs tables' a = declaredAs tables a := by
  have same : (declaredAs tables' a).Perm (declaredAs tables a) := perm.filter _
  cases declared : declaredAs tables a with
  | nil => exact (declared ▸ same).eq_nil
  | cons t rest =>
    obtain ⟨mem, named⟩ := mem_declaredAs.1 (declared ▸ List.mem_cons_self : t ∈ declaredAs _ a)
    have single : declaredAs tables a = [t] := named ▸ declaredAs_of_mem distinct mem
    rw [← declared, single]
    exact List.perm_singleton.1 (single ▸ same)

end TablePlan
