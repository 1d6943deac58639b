import TablePlan.Proofs.Success
import TablePlan.Spec.Reader

/-!
What a document holds that is read as a spec. Keys are checked without the blanks around them, and
each section is looked up by its name as it stands.
-/

namespace TablePlan

open Success
open Yaml (Node)
open Text (trim)

/-- A key that is one of these names once the blanks around it are dropped. -/
def Yaml.Node.Spells (key : Node) (names : List String) : Prop :=
  ∃ s, key = .string s ∧ trim s ∈ names

namespace Spec

theorem readMapping_eq_ok {path : String} {node : Node} {members : Members} :
    readMapping path node = .ok members ↔ node = .mapping members := by
  cases node <;> simp [readMapping]

theorem readKey_eq_ok {path name : String} {key : Node} :
    readKey path key = .ok name ↔ ∃ s, key = .string s ∧ trim s = name := by
  cases key <;> simp [readKey]

theorem required_eq_ok {name : String} {members : Members} {node : Node} :
    required name members = .ok node ↔ Node.get? name members = some node ∧ node ≠ .null := by
  unfold required section?
  cases Node.get? name members with
  | none => simp
  | some found => cases found <;> simp +contextual [eq_comm]

theorem rejectUnknown_eq_ok {allowed : List String} {parent : Option String} {members : Members} :
    rejectUnknown allowed parent members = .ok () ↔
      ∀ entry ∈ members, entry.1.Spells allowed := by
  induction members with
  | nil => simp [rejectUnknown]
  | cons entry members ih =>
    obtain ⟨key, value⟩ := entry
    rw [rejectUnknown, bind_eq_ok, List.forall_mem_cons, ← ih]
    constructor
    · rintro ⟨name, read, checked⟩
      obtain ⟨s, rfl, rfl⟩ := readKey_eq_ok.1 read
      split at checked
      · rename_i known
        exact ⟨⟨s, rfl, List.contains_iff_mem.1 known⟩, checked⟩
      · cases checked
    · rintro ⟨⟨s, rfl, known⟩, checked⟩
      exact ⟨trim s, rfl, by rw [if_pos (List.contains_iff_mem.2 known), checked]⟩

theorem checkAlias_eq (path aliasName : String) : checkAlias path aliasName =
    if aliasName = "" then .error (.invalidValue path .emptyAlias)
    else if '.' ∈ aliasName.toList then .error (.invalidValue path .dottedAlias)
    else .ok () := by
  simp [checkAlias]

theorem checkAlias_eq_ok {path aliasName : String} :
    checkAlias path aliasName = .ok () ↔ aliasName ≠ "" ∧ '.' ∉ aliasName.toList := by
  rw [checkAlias_eq]
  split_ifs with empty dotted <;> simp [*]

theorem of_readTable_eq_ok {key value : Node} {t : TableDecl} (read : readTable key value = .ok t) :
    ∃ s members, key = .string s ∧ t.aliasName = trim s ∧ t.aliasName ≠ "" ∧
      '.' ∉ t.aliasName.toList ∧ value = .mapping members ∧
      ∀ entry ∈ members, entry.1.Spells tableFieldNames := by
  simp only [readTable, bind_eq_ok, pure_eq_ok] at read
  obtain ⟨_, named, _, checked, members, mapping, _, known, _, _, _, _, _, _, _, _, _, _, rfl⟩ :=
    read
  obtain ⟨s, rfl, rfl⟩ := readKey_eq_ok.1 named
  obtain ⟨nonempty, dotFree⟩ := checkAlias_eq_ok.1 checked
  exact ⟨s, members, rfl, rfl, nonempty, dotFree, readMapping_eq_ok.1 mapping,
    rejectUnknown_eq_ok.1 known⟩

theorem readTables_eq_ok {node : Node} {tables : List TableDecl} :
    readTables node = .ok tables ↔ ∃ members, node = .mapping members ∧ members ≠ [] ∧
      members.mapM (fun (key, value) => readTable key value) = .ok tables := by
  unfold readTables
  rw [bind_eq_ok]
  refine exists_congr fun members => ?_
  rw [readMapping_eq_ok]
  cases members <;> simp

theorem of_ofNode_eq_ok {document : Node} {spec : Spec} (ok : ofNode document = .ok spec) :
    ∃ root node, document = .mapping root ∧ (∀ entry ∈ root, entry.1.Spells sectionNames) ∧
      required "dependencies" root = .ok node ∧ readTables node = .ok spec.tables := by
  simp only [ofNode, bind_eq_ok, pure_eq_ok] at ok
  obtain ⟨root, mapping, _, known, _, _, _, _, node, found, tables, read, _, _, _, _, _, _, _, _,
    _, _, _, _, _, _, rfl⟩ := ok
  exact ⟨root, node, readMapping_eq_ok.1 mapping, rejectUnknown_eq_ok.1 known, found, read⟩

end Spec

end TablePlan
