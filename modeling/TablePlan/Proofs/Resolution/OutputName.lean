import TablePlan.Proofs.Resolution.Bound

/-!
Selected entries with their output names written out. A name changes nothing of what the entry
itself resolves to. In `having` a written name stands for the source of its entry, while the
default name of an entry that has none in writing is only a column in scope.
-/

namespace TablePlan

open Success

def SelectEntry.withOutputName (name : String) (entry : SelectEntry) : SelectEntry :=
  { entry with outputName := some name }

def SelectClause.withOutputName (name : String) (clause : SelectClause) : SelectClause :=
  { clause with outputName := some name }

def ResolvedSelect.withOutputName (name : String) (entry : ResolvedSelect) : ResolvedSelect :=
  { entry with outputName := some name }

def Spec.withOutputName (spec : Spec) (i : Nat) (name : String) : Spec :=
  { spec with select := spec.select.modify i (SelectEntry.withOutputName name) }

def Clauses.withOutputName (clauses : Clauses) (i : Nat) (name : String) : Clauses :=
  { clauses with select := clauses.select.modify i (SelectClause.withOutputName name) }

def ResolvedSpec.withOutputName (spec : ResolvedSpec) (i : Nat) (name : String) : ResolvedSpec :=
  { spec with select := spec.select.modify i (ResolvedSelect.withOutputName name) }

theorem SelectEntry.read_withOutputName (name : String) (entry : SelectEntry) :
    (entry.withOutputName name).read = entry.read.map (SelectClause.withOutputName name) := by
  rw [read, read, withOutputName]
  cases ColumnSource.read entry.source <;> rfl

theorem Clauses.ofSpec_withOutputName (spec : Spec) (i : Nat) (name : String) :
    ofSpec (spec.withOutputName i name) = (ofSpec spec).map (withOutputName · i name) := by
  have select : (spec.withOutputName i name).select.mapM SelectEntry.read =
      (spec.select.mapM SelectEntry.read).map
        (List.modify · i (SelectClause.withOutputName name)) :=
    mapM_modify (SelectEntry.read_withOutputName name) spec.select i
  have filter : (spec.withOutputName i name).filter = spec.filter := rfl
  have having : (spec.withOutputName i name).having = spec.having := rfl
  rw [ofSpec, ofSpec, select, filter, having]
  cases spec.select.mapM SelectEntry.read <;> cases Predicate.readAll? spec.filter <;>
    cases Predicate.readAll? spec.having <;> rfl

namespace Scope

theorem selectClause_withOutputName (scope : Scope) (index : Nat) (name : String)
    (clause : SelectClause) : scope.selectClause index (clause.withOutputName name) =
      (scope.selectClause index clause).map (ResolvedSelect.withOutputName name) := by
  rw [selectClause, selectClause, SelectClause.withOutputName]
  cases scope.selectSource (.select index clause.key) clause.source <;> rfl

theorem mapM_selectClause_withOutputName (scope : Scope) (clauses : Clauses) (i : Nat)
    (name : String) :
    ((clauses.withOutputName i name).select.zipIdx.mapM fun (c, i) => scope.selectClause i c) =
      (clauses.select.zipIdx.mapM fun (c, i) => scope.selectClause i c).map
        (List.modify · i (ResolvedSelect.withOutputName name)) := by
  rw [Clauses.withOutputName, zipIdx_modify]
  exact mapM_modify (fun (c, i) => scope.selectClause_withOutputName i name c) _ i

section Owners

variable {schemas : Schemas} {tables : List TableDecl} {scope : Scope} {place : Place}
  {a name : String}

theorem mem_owners_of_has (made : ofTables schemas tables = .ok scope)
    (has : scope.has a name = true) : a ∈ scope.owners name := by
  obtain ⟨t, mem, named, _⟩ := declared_of_has made has
  refine List.mem_filter.2 ⟨?_, has⟩
  rw [(ofTables_eq_ok.1 made).2, Option.some.inj named]
  exact List.mem_map_of_mem mem

theorem owner_of_selectClause (made : ofTables schemas tables = .ok scope) {index : Nat}
    {clause : SelectClause} {entry : ResolvedSelect} {ref : ColumnRef} {source : ColumnSource}
    (ok : scope.selectClause index clause = .ok entry) (column : clause.source = .column ref)
    (resolved : entry.source = .resolved source) :
    ∃ a ∈ scope.owners ref.column, source = .column (.qualified a ref.column) := by
  obtain ⟨_, _, selects⟩ := selectClause_eq_ok_iff.1 ok
  rw [column, resolved] at selects
  obtain ⟨ref', rfl, found⟩ := selects.findsOperand.exists_column
  obtain ⟨a, rfl, has⟩ := found.exists_has
  exact ⟨a, mem_owners_of_has made has, rfl⟩

theorem column_bare (owner : a ∈ scope.owners name) : scope.column place (.bare name) =
    if 1 < (scope.owners name).length then
      .error (.ambiguousColumn name (scope.owners name) place)
    else .ok (.qualified a name) := by
  unfold column ColumnRef.bare
  dsimp only
  cases owners : scope.owners name with
  | nil => simp [owners] at owner
  | cons first rest =>
    cases rest with
    | nil =>
      rw [owners, List.mem_singleton] at owner
      simp [owner]
    | cons second rest => simp

end Owners

end Scope

/-- A resolved entry without an output name, and a name that no entry has in writing. -/
structure Unwritten (select : List ResolvedSelect) (i : Nat) (name : String)
    (source : ColumnSource) : Prop where
  entry : ∃ key, select[i]? = some ⟨key, .resolved source, none⟩
  unused : ∀ e ∈ select, e.outputName ≠ some name

namespace Unwritten

open ResolvedSelect (withOutputName sourceNamed?)

variable {select : List ResolvedSelect} {i : Nat} {name : String}

section Lookup

variable {source : ColumnSource} (unwritten : Unwritten select i name source)

include unwritten

theorem sourceNamed?_eq_none : ∀ e ∈ select, e.sourceNamed? name = none := by
  intro e mem
  refine Option.eq_none_iff_forall_ne_some.2 fun found same => ?_
  exact unwritten.unused e mem (ResolvedSelect.sourceNamed?_eq_some.1 same).2

theorem findSome?_written :
    (select.modify i (withOutputName name)).findSome? (sourceNamed? name) = some source := by
  obtain ⟨key, at_i⟩ := unwritten.entry
  obtain ⟨inside, same⟩ := List.getElem?_eq_some_iff.1 at_i
  rw [List.modify_eq_take_cons_drop inside, same]
  refine List.findSome?_eq_some_iff.2 ⟨_, _, _, rfl, ?_, fun e mem => ?_⟩
  · exact ResolvedSelect.sourceNamed?_eq_some.2 ⟨rfl, rfl⟩
  · exact unwritten.sourceNamed?_eq_none e (List.mem_of_mem_take mem)

theorem findSome?_of_ne {other : String} (differ : other ≠ name) :
    (select.modify i (withOutputName name)).findSome? (sourceNamed? other) =
      select.findSome? (sourceNamed? other) := by
  have same : (select.modify i (withOutputName name)).map (sourceNamed? other) =
      select.map (sourceNamed? other) := by
    refine map_modify_of_same fun entry at_i => ?_
    obtain ⟨key, unnamed⟩ := unwritten.entry
    cases at_i.symm.trans unnamed
    simp [sourceNamed?, withOutputName, differ.symm]
  have folded := congrArg (List.findSome? id) same
  rwa [List.findSome?_map, List.findSome?_map] at folded

variable (scope : Scope)

theorem havingOperand_written :
    scope.havingOperand (select.modify i (withOutputName name)) (.column (.bare name)) =
      .ok source.toOperand := by
  rw [ColumnRef.bare, Scope.havingOperand, unwritten.findSome?_written]

theorem havingOperand_unwritten : scope.havingOperand select (.column (.bare name)) =
    scope.operand .having (.column (.bare name)) := by
  rw [ColumnRef.bare, Scope.havingOperand,
    List.findSome?_eq_none_iff.2 unwritten.sourceNamed?_eq_none]

theorem havingOperand_of_ne {operand : Operand} (differ : operand ≠ .column (.bare name)) :
    scope.havingOperand (select.modify i (withOutputName name)) operand =
      scope.havingOperand select operand := by
  unfold Scope.havingOperand
  split
  · rename_i other
    rw [unwritten.findSome?_of_ne fun same => differ (same ▸ rfl)]
  · rfl

end Lookup

section Owned

variable {scope : Scope} {a : String}
  (unwritten : Unwritten select i name (.column (.qualified a name)))
  (owner : a ∈ scope.owners name)

include unwritten owner

theorem havingOperand_bare : scope.havingOperand select (.column (.bare name)) =
    if 1 < (scope.owners name).length then
      .error (.ambiguousColumn name (scope.owners name) .having)
    else .ok (.column (.qualified a name)) := by
  rw [unwritten.havingOperand_unwritten, Scope.operand, Scope.column_bare owner]
  split <;> rfl

theorem havingOperand_eq (single : ¬ 1 < (scope.owners name).length) (operand : Operand) :
    scope.havingOperand (select.modify i (withOutputName name)) operand =
      scope.havingOperand select operand := by
  by_cases bare : operand = .column (.bare name)
  · rw [bare, unwritten.havingOperand_written, unwritten.havingOperand_bare owner, if_neg single]
    rfl
  · exact unwritten.havingOperand_of_ne scope bare

theorem resolve?_written {p p' : Option Predicate}
    (ok : Predicate.resolve? (scope.havingOperand select) p = .ok p') :
    Predicate.resolve? (scope.havingOperand (select.modify i (withOutputName name))) p =
      .ok p' := by
  -- With several owners the name itself has no result before, so there is nothing to keep.
  refine Predicate.resolve?_of (fun o o' made => ?_) ok
  by_cases many : 1 < (scope.owners name).length
  · by_cases bare : o = .column (.bare name)
    · rw [bare, unwritten.havingOperand_bare owner, if_pos many] at made
      cases made
    · exact (unwritten.havingOperand_of_ne scope bare).trans made
  · exact (unwritten.havingOperand_eq owner many o).trans made

theorem resolve?_eq {p : Option Predicate}
    (apart : ¬ ((∃ q ∈ p, .column (.bare name) ∈ q.operands) ∧ 1 < (scope.owners name).length)) :
    Predicate.resolve? (scope.havingOperand (select.modify i (withOutputName name))) p =
      Predicate.resolve? (scope.havingOperand select) p := by
  refine Predicate.resolve?_congr fun q mem o read => ?_
  by_cases bare : o = .column (.bare name)
  · have single : ¬ 1 < (scope.owners name).length :=
      fun many => apart ⟨⟨q, mem, bare ▸ read⟩, many⟩
    exact unwritten.havingOperand_eq owner single o
  · exact unwritten.havingOperand_of_ne scope bare

theorem resolve?_eq_error {p p' : Option Predicate}
    (reads : ∃ q ∈ p, .column (.bare name) ∈ q.operands) (many : 1 < (scope.owners name).length)
    (ok : Predicate.resolve? (scope.havingOperand (select.modify i (withOutputName name))) p =
      .ok p') :
    Predicate.resolve? (scope.havingOperand select) p =
      .error (.ambiguousColumn name (scope.owners name) .having) := by
  obtain ⟨q, rfl, mem⟩ := reads
  obtain ⟨q', _, mapped⟩ := Predicate.resolve?_some_eq_ok ok
  refine Predicate.resolve?_some_eq_error.2 (mapM_eq_error_of_mem mapped mem ?_ fun o differ => ?_)
  · rw [unwritten.havingOperand_bare owner, if_pos many]
  · exact (unwritten.havingOperand_of_ne scope differ).symm

end Owned

end Unwritten

namespace Spec

variable {spec : Spec} {schemas : Schemas} {default : JoinKind} {clauses : Clauses}
  {resolved : ResolvedSpec} {i : Nat} {name : String}

theorem Stages.withOutputName (stages : spec.Stages schemas default clauses resolved) (i : Nat)
    (name : String) : (spec.withOutputName i name).Stages schemas default
      (clauses.withOutputName i name) (resolved.withOutputName i name) :=
  { stages with
    select := by
      rw [Scope.mapM_selectClause_withOutputName]
      exact map_eq_ok.2 ⟨_, stages.select, rfl⟩ }

theorem exists_stages (stages : (spec.withOutputName i name).Stages schemas default
      (clauses.withOutputName i name) resolved) :
    ∃ unnamed, resolved = unnamed.withOutputName i name ∧
      spec.Stages schemas default clauses unnamed := by
  have selected := stages.select
  rw [Scope.mapM_selectClause_withOutputName] at selected
  obtain ⟨select, selected, same⟩ := map_eq_ok.1 selected
  refine ⟨{ resolved with select := select }, ?_, ?_⟩
  · rw [ResolvedSpec.withOutputName, same]
  · exact { stages with select := selected }

end Spec

end TablePlan
