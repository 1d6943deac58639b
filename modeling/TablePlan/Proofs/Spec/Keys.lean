import TablePlan.Proofs.Spec.Document

/-!
The members of a document that count. A member is read if its key is one of the names as they
stand. A key that is one of them only without the blanks around it passes the check of keys, but no
lookup finds it: the document is read as if the member were not there. Any other key is an error.
-/

namespace TablePlan

open Success
open Yaml (Node)

namespace Yaml.Node

/-- A key that is one of these names as they stand. -/
def IsOneOf (key : Node) (names : List String) : Prop :=
  ∃ name ∈ names, key = .string name

variable {key value : Node} {names : List String}

theorem get?_append_cons {name : String} (other : key ≠ .string name)
    (before after : List (Node × Node)) :
    get? name (before ++ (key, value) :: after) = get? name (before ++ after) := by
  unfold get?
  rw [List.find?_append, List.find?_append, List.find?_cons_of_neg]
  cases key with
  | string s => simpa using other
  | _ => simp

theorem get?_append_of_none {name : String} {before : List (Node × Node)}
    (first : get? name before = none) (after : List (Node × Node)) :
    get? name (before ++ (.string name, value) :: after) = some value := by
  unfold get? at first ⊢
  rw [Option.map_eq_none_iff] at first
  rw [List.find?_append, first, List.find?_cons_of_pos (by simp)]
  rfl

theorem get?_append_cons_of_ne {name other : String} (differ : other ≠ name)
    (before after : List (Node × Node)) (value' : Node) :
    get? name (before ++ (.string other, value) :: after) =
      get? name (before ++ (.string other, value') :: after) := by
  have other : Node.string other ≠ .string name := fun same => differ (Node.string.inj same)
  rw [get?_append_cons other, get?_append_cons other]

end Yaml.Node

namespace Spec

variable {key value : Node} {before after members members' : Members}

theorem rejectUnknown_append_cons {allowed : List String} (spells : key.Spells allowed)
    (parent : Option String) : rejectUnknown allowed parent (before ++ (key, value) :: after) =
      rejectUnknown allowed parent (before ++ after) := by
  induction before with
  | nil =>
    obtain ⟨s, rfl, known⟩ := spells
    rw [List.nil_append, rejectUnknown, readKey, ok_bind, if_pos (List.contains_iff_mem.2 known)]
    rfl
  | cons entry before ih =>
    rw [List.cons_append, List.cons_append, rejectUnknown, rejectUnknown, ih]

theorem readTable_congr (aliasKey : Node)
    (keys : ∀ parent, rejectUnknown tableFieldNames parent members =
      rejectUnknown tableFieldNames parent members')
    (same : ∀ name ∈ tableFieldNames, Node.get? name members = Node.get? name members') :
    readTable aliasKey (.mapping members) = readTable aliasKey (.mapping members') := by
  simp only [readTable, readMapping, ok_bind, tableField, keys, same "table_name" (by decide),
    same "type" (by decide), same "source" (by decide)]

theorem ofNode_congr
    (keys : rejectUnknown sectionNames none members = rejectUnknown sectionNames none members')
    (tables : required "dependencies" members >>= readTables =
      required "dependencies" members' >>= readTables)
    (same : ∀ name ∈ sectionNames, name ≠ "dependencies" →
      Node.get? name members = Node.get? name members') :
    ofNode (.mapping members) = ofNode (.mapping members') := by
  have sections (name : String) (mem : name ∈ sectionNames) (other : name ≠ "dependencies") :
      (section? name members) = section? name members' := by
    rw [section?, section?, same name mem other]
  have tables {α : Type} (rest : List TableDecl → Except SpecError α) :
      (required "dependencies" members >>= fun node => readTables node >>= rest) =
        (required "dependencies" members' >>= fun node => readTables node >>= rest) := by
    rw [← bind_assoc, ← bind_assoc, tables]
  simp only [ofNode, readMapping, ok_bind, keys, tables]
  simp only [required, readList,
    sections "constructed_table_name" (by decide) (by decide),
    sections "join_conditions" (by decide) (by decide),
    sections "select" (by decide) (by decide),
    sections "filter_condition" (by decide) (by decide),
    sections "group_condition" (by decide) (by decide),
    sections "having_condition" (by decide) (by decide),
    sections "sort_condition" (by decide) (by decide)]

theorem readTables_append_cons {aliasKey : Node} (earlier later : Members)
    (same : readTable aliasKey (.mapping members) = readTable aliasKey (.mapping members')) :
    readTables (.mapping (earlier ++ (aliasKey, .mapping members) :: later)) =
      readTables (.mapping (earlier ++ (aliasKey, .mapping members') :: later)) := by
  have present (value : Node) : (earlier ++ (aliasKey, value) :: later).isEmpty = false := by simp
  simp only [readTables, readMapping, ok_bind, present, List.mapM_append, List.mapM_cons, same]

/-- A mapping of a document in which members have names: the document itself, or the declaration
of a table in the section of dependencies. -/
inductive Part where
  | document
  | table (before after earlier later : Members) (aliasKey : Node)
    (first : Node.get? "dependencies" before = none)

namespace Part

def names : Part → List String
  | document => sectionNames
  | table .. => tableFieldNames

def fill : Part → Members → Node
  | document, members => .mapping members
  | table before after earlier later aliasKey _, members =>
    .mapping (before ++ (.string "dependencies",
      .mapping (earlier ++ (aliasKey, .mapping members) :: later)) :: after)

end Part

theorem ofNode_fill_spelled {part : Part} (spells : key.Spells part.names)
    (unread : ¬key.IsOneOf part.names) :
    ofNode (part.fill (before ++ (key, value) :: after)) =
      ofNode (part.fill (before ++ after)) := by
  have same (name : String) (mem : name ∈ part.names) :
      Node.get? name (before ++ (key, value) :: after) = Node.get? name (before ++ after) :=
    Node.get?_append_cons (fun literal => unread ⟨name, mem, literal⟩) before after
  cases part with
  | document =>
    refine ofNode_congr (rejectUnknown_append_cons spells none) ?_ fun name mem _ => same name mem
    rw [required, required, section?, section?, same "dependencies" (by decide : _ ∈ sectionNames)]
  | table outer outer' earlier later aliasKey first =>
    have tables := readTables_append_cons earlier later
      (readTable_congr aliasKey (rejectUnknown_append_cons spells) same)
    refine ofNode_congr ?_ ?_ fun name mem other => Node.get?_append_cons_of_ne other.symm ..
    · have spells : (Node.string "dependencies").Spells sectionNames :=
        ⟨"dependencies", rfl, by decide +kernel⟩
      rw [rejectUnknown_append_cons spells, rejectUnknown_append_cons spells]
    · simp only [required, section?, Node.get?_append_of_none first, ok_bind, tables]

theorem exists_ofNode_fill_eq_error {part : Part} (unknown : ¬key.Spells part.names) :
    ∃ e, ofNode (part.fill (before ++ (key, value) :: after)) = .error e := by
  cases read : ofNode (part.fill (before ++ (key, value) :: after)) with
  | error e => exact ⟨e, rfl⟩
  | ok spec =>
    obtain ⟨root, node, mapping, known, found, tables⟩ := of_ofNode_eq_ok read
    refine absurd ?_ unknown
    cases part with
    | document =>
      cases mapping
      exact known (key, value) (by simp)
    | table outer outer' earlier later aliasKey first =>
      cases mapping
      rw [required_eq_ok, Node.get?_append_of_none first] at found
      obtain ⟨⟨⟩, _⟩ := found
      obtain ⟨_, ⟨⟩, _, tables⟩ := readTables_eq_ok.1 tables
      obtain ⟨t, made⟩ := exists_mapM_eq_ok.1 ⟨_, tables⟩
        (aliasKey, .mapping (before ++ (key, value) :: after)) (by simp)
      obtain ⟨_, _, _, _, _, _, ⟨⟩, known⟩ := of_readTable_eq_ok made
      exact known (key, value) (by simp)

/-- What becomes of a document with a member whose key is no name as it stands. -/
theorem ofNode_fill (part : Part) (before after : Members) {key : Node} (value : Node)
    (unread : ¬key.IsOneOf part.names) :
    (key.Spells part.names → ofNode (part.fill (before ++ (key, value) :: after)) =
      ofNode (part.fill (before ++ after))) ∧
    (¬key.Spells part.names → ∃ e, ofNode (part.fill (before ++ (key, value) :: after)) =
      .error e) :=
  ⟨fun spells => ofNode_fill_spelled spells unread, exists_ofNode_fill_eq_error⟩

def allOrders : Members :=
  [(.string "constructed_table_name", .string "t"),
    (.string "dependencies", .mapping [(.string "o",
      .mapping [(.string "table_name", .string "orders"), (.string "type", .string "source")])]),
    (.string "select", .mapping [(.string "o.id", .null)])]

theorem ofNode_fill_allOrders : ∃ spec,
    ofNode (.mapping (allOrders ++ [(.string " filter_condition", .sequence
      [.string "o.id = 1"])])) = .ok spec ∧ spec.filter = [] := by
  have unread : ¬(Node.string " filter_condition").IsOneOf Part.document.names := by
    rintro ⟨name, mem, same⟩
    cases same
    exact absurd mem (by decide)
  have spells : (Node.string " filter_condition").Spells Part.document.names :=
    ⟨" filter_condition", rfl, by decide +kernel⟩
  have reads : (ofNode (.mapping allOrders)).toOption.any (fun spec => spec.filter == []) =
      true := by
    simp only [ofNode, readTables, readTable, checkAlias_eq]
    decide +kernel
  obtain ⟨spec, ok, none⟩ := exists_of_any_toOption reads
  have dropped := (ofNode_fill .document allOrders [] (.sequence [.string "o.id = 1"]) unread).1
  exact ⟨spec, (dropped spells).trans ok, by simpa using none⟩

end Spec

end TablePlan
