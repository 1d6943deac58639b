import TablePlan.Proofs.Execution.Sources
import TablePlan.Proofs.Plan.Compilation
import TablePlan.Proofs.Spec.Document

/-!
The aliases of an accepted document. An alias is a key without the blanks around it, so keys that
differ in blanks only declare several tables under one alias. A spec and its plan then show the
first of these tables, while names are resolved and rows are taken from the last.
-/

namespace TablePlan.Spec

open Success
open Yaml (Node)
open Text (trim)

def tableKeys : Node → List Node
  | .mapping root => match Node.get? "dependencies" root with
    | some (.mapping members) => members.map Prod.fst
    | _ => []
  | _ => []

theorem aliases_of_mapM {members : Members} {tables : List TableDecl}
    (read : members.mapM (fun (key, value) => readTable key value) = .ok tables) :
    ∃ keys : List String, members.map Prod.fst = keys.map Node.string ∧
      tables.map TableDecl.aliasName = keys.map trim := by
  rw [mapM_eq_ok] at read
  induction read with
  | nil => exact ⟨[], rfl, rfl⟩
  | cons first _ ih =>
    obtain ⟨s, _, same, named, _⟩ := of_readTable_eq_ok first
    obtain ⟨keys, written, aliases⟩ := ih
    exact ⟨s :: keys, by rw [List.map_cons, same, written, List.map_cons],
      by rw [List.map_cons, named, aliases, List.map_cons]⟩

theorem aliases_of_ofNode {document : Node} {spec : Spec} (ok : ofNode document = .ok spec) :
    ∃ keys : List String, tableKeys document = keys.map Node.string ∧
      spec.tables.map TableDecl.aliasName = keys.map trim := by
  obtain ⟨root, node, rfl, _, found, read⟩ := of_ofNode_eq_ok ok
  obtain ⟨members, rfl, _, read⟩ := readTables_eq_ok.1 read
  rw [tableKeys, (required_eq_ok.1 found).1]
  exact aliases_of_mapM read

theorem alias_plain_of_ofNode {document : Node} {spec : Spec} (ok : ofNode document = .ok spec) :
    ∀ t ∈ spec.tables, t.aliasName ≠ "" ∧ '.' ∉ t.aliasName.toList := by
  obtain ⟨_, _, rfl, _, _, read⟩ := of_ofNode_eq_ok ok
  obtain ⟨members, rfl, _, read⟩ := readTables_eq_ok.1 read
  intro t mem
  obtain ⟨_, _, read⟩ := exists_of_mem_mapM read mem
  obtain ⟨_, _, _, _, nonempty, dotFree, _⟩ := of_readTable_eq_ok read
  exact ⟨nonempty, dotFree⟩

/-- Every lookup answers with the only table of an alias just when no two keys are the same without
the blanks around them. -/
theorem ofNode_declares {document : Node} {spec : Spec} (ok : ofNode document = .ok spec) :
    (∃ keys : List String, tableKeys document = keys.map Node.string ∧
      spec.tables.map TableDecl.aliasName = keys.map trim ∧
      ((keys.map trim).Nodup ↔ ∀ t ∈ spec.tables, declaredAs spec.tables t.aliasName = [t])) ∧
    (∀ t ∈ spec.tables, t.aliasName ≠ "" ∧ '.' ∉ t.aliasName.toList) ∧
    ∀ a,
      spec.table? a = (declaredAs spec.tables a).head? ∧
      (∀ schemas default plan, spec.compile schemas default = .ok plan →
        plan.table? a = (declaredAs spec.tables a).head?) ∧
      (∀ schemas scope, Scope.ofTables schemas spec.tables = .ok scope →
        scope.columns.find? a =
          (declaredAs spec.tables a).getLast?.bind fun t => schemas.find? t.physicalName) ∧
      ∀ data inputs, Inputs.ofTables data spec.tables = .ok inputs →
        inputs.find? a =
          (declaredAs spec.tables a).getLast?.map fun t => (data.tableOf t).qualified a := by
  obtain ⟨keys, written, aliases⟩ := aliases_of_ofNode ok
  refine ⟨⟨keys, written, aliases, aliases ▸ nodup_aliases_iff⟩, alias_plain_of_ofNode ok,
    fun a => ⟨findTable?_eq_head? _ a, fun schemas default plan made => ?_,
      fun schemas scope made => Scope.find?_columns made a, fun data inputs made => ?_⟩⟩
  · rw [Plan.table?, tables_of_compile made, findTable?_eq_head?]
  · rw [(Inputs.ofTables_eq_ok.1 made).2, Inputs.find?_declared_eq]

def twoOrders : Node :=
  let table (name : String) : Node :=
    .mapping [(.string "table_name", .string name), (.string "type", .string "source")]
  .mapping [(.string "constructed_table_name", .string "t"),
    (.string "dependencies", .mapping [(.string "o", table "orders"),
      (.string " o", table "old_orders")]),
    (.string "select", .mapping [(.string "o.id", .null)])]

theorem ofNode_declares_twoOrders : ∃ spec, ofNode twoOrders = .ok spec ∧
    ¬(spec.tables.map TableDecl.aliasName).Nodup ∧
    spec.table? "o" = some ⟨"o", "orders", .source, none⟩ ∧
    ∀ data inputs, Inputs.ofTables data spec.tables = .ok inputs →
      inputs.find? "o" =
        some ((data.tableOf ⟨"o", "old_orders", .source, none⟩).qualified "o") := by
  have reads : (ofNode twoOrders).toOption.any (fun spec => decide (spec.tables =
      [⟨"o", "orders", .source, none⟩, ⟨"o", "old_orders", .source, none⟩])) = true := by
    simp only [ofNode, readTables, readTable, checkAlias_eq]
    decide +kernel
  obtain ⟨spec, ok, tables⟩ := exists_of_any_toOption reads
  rw [decide_eq_true_eq] at tables
  obtain ⟨_, _, lookups⟩ := ofNode_declares ok
  obtain ⟨first, _, _, last⟩ := lookups "o"
  rw [tables] at last
  exact ⟨spec, ok, tables ▸ by decide, first.trans (tables ▸ rfl), tables ▸ last⟩

end TablePlan.Spec
