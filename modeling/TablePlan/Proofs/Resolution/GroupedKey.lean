import TablePlan.Proofs.Condition.ColumnText
import TablePlan.Proofs.Resolution.Output
import TablePlan.Proofs.Resolution.Scope
import TablePlan.Proofs.Resolution.Stages

/-!
Select keys repeated as group conditions. A select key may be written in ways that group conditions
do not know; a key that both read alike groups a spec by its own column, which may then be selected.
-/

namespace TablePlan

open Success Text Condition

def Spec.groupedBy (spec : Spec) (key : String) : Spec :=
  { spec with group := spec.group ++ [key] }

def ResolvedSpec.groupedBy (spec : ResolvedSpec) (ref : ColumnRef) : ResolvedSpec :=
  { spec with group := spec.group ++ [ref] }

namespace Scope

variable {scope : Scope}

theorem mapM_group_eq_ok {texts : List String} {refs : List ColumnRef} :
    (texts.zipIdx.mapM fun (text, i) => scope.column (.group i) (.parse text)) = .ok refs ↔
      List.Forall₂ (fun text ref => scope.Finds (.parse text) ref) texts refs :=
  mapM_zipIdx_eq_ok fun _ _ _ => column_eq_ok_iff

end Scope

namespace Spec

variable {spec : Spec} {schemas : Schemas} {default : JoinKind} {resolved : ResolvedSpec}
  {key : String} {ref : ColumnRef}

theorem Stages.groupedBy {clauses : Clauses} (stages : spec.Stages schemas default clauses resolved)
    (found : resolved.scope.Finds (.parse key) ref) :
    (spec.groupedBy key).Stages schemas default clauses (resolved.groupedBy ref) :=
  { stages with
    group := Scope.mapM_group_eq_ok.2
      (List.rel_append (Scope.mapM_group_eq_ok.1 stages.group) (.cons found .nil)) }

theorem selectedSource_of_group (read : ColumnSource.read key = .ok (.column ref))
    (agree : ColumnRef.parse key = ref) (ok : spec.resolved schemas default = .ok resolved)
    {entry : ResolvedSelect} (selected : entry ∈ resolved.select) (named : entry.key = key)
    {source : ColumnSource} (found : entry.source = .resolved source) :
    ∃ column, source = .column column ∧
      (spec.groupedBy key).resolved schemas default = .ok (resolved.groupedBy column) ∧
      (resolved.groupedBy column).selectedSource entry = .ok source ∧
      (key ∈ spec.group → resolved.selectedSource entry = .ok source) := by
  obtain ⟨clauses, clauses_read, stages, held⟩ := resolved_eq_ok.1 ok
  obtain ⟨written, _⟩ := Clauses.ofSpec_eq_ok.1 clauses_read
  obtain ⟨clause, mem, i, made⟩ :=
    exists_of_mem_forall₂ (forall₂_of_mapM_zipIdx stages.select) selected
  obtain ⟨same_key, _, selects⟩ := Scope.selectClause_eq_ok_iff.1 made
  rw [named] at same_key
  have source_read : clause.source = .column ref := by
    obtain ⟨e, _, made'⟩ := exists_of_mem_mapM written mem
    obtain ⟨source', read', same⟩ := bind_eq_ok.1 made'
    cases pure_eq_ok.1 same
    dsimp only at same_key
    rw [← same_key, read] at read'
    exact (Except.ok.inj read').symm
  rw [source_read, found] at selects
  obtain ⟨column, rfl, resolves⟩ := selects.findsOperand.exists_column
  rw [← agree] at resolves
  refine ⟨column, rfl, ?_, ?_, fun mem => ?_⟩
  · exact resolved_eq_ok.2 ⟨clauses, clauses_read, stages.groupedBy resolves, held⟩
  · refine ResolvedSpec.selectedSource_eq_ok.2 ⟨found, fun _ ref same => ?_⟩
    cases same
    exact List.mem_append_right _ List.mem_cons_self
  · refine ResolvedSpec.selectedSource_eq_ok.2 ⟨found, fun _ ref same => ?_⟩
    cases same
    obtain ⟨column', grouped, resolves'⟩ :=
      exists_of_mem_forall₂ (Scope.mapM_group_eq_ok.1 stages.group).flip mem
    exact resolves.unique resolves' ▸ grouped

/-- A select key that is a column is the same reference as a group condition, a join key or a sort
condition, exactly if it has no characters but those of the reference and blanks, and the text of
the reference reads back. All keys of words, points and blanks are such. Where the readings agree,
the key may be repeated as a group condition, and then its column may be selected from groups. -/
theorem select_key_elsewhere (read : ColumnSource.read key = .ok (.column ref)) :
    (ColumnRef.parse key = ref ↔
      visible key.toList = visible ref.text.toList ∧ ColumnRef.parse ref.text = ref) ∧
    (isPlainKey key = true → ColumnRef.parse key = ref) ∧
    (ColumnRef.parse key = ref → ∀ (spec : Spec) (schemas : Schemas) (default : JoinKind)
      (resolved : ResolvedSpec), spec.resolved schemas default = .ok resolved →
      ∀ entry ∈ resolved.select, entry.key = key →
      ∀ source, entry.source = .resolved source → ∃ column, source = .column column ∧
        (spec.groupedBy key).resolved schemas default = .ok (resolved.groupedBy column) ∧
        (resolved.groupedBy column).selectedSource entry = .ok source ∧
        (key ∈ spec.group → resolved.selectedSource entry = .ok source)) :=
  ⟨ColumnSource.parse_eq_iff read, ColumnSource.parse_of_isPlainKey read,
    fun agree _ _ _ _ ok _ selected named _ found =>
      selectedSource_of_group read agree ok selected named found⟩

def headcount (key : String) : Spec where
  name := "headcount"
  tables := [⟨"e", "employees", .source, none⟩]
  joins := []
  select := [⟨key, some "department"⟩, ⟨"count(*)", some "heads"⟩]
  filter := []
  group := []
  having := []
  sort := []

def headcountSchemas : Schemas :=
  [("employees", ["id", "dept"])]

theorem select_key_elsewhere_spaced :
    ColumnSource.read " e . dept" = .ok (.column (.qualified "e" "dept")) ∧
    ColumnRef.parse " e . dept" = .qualified "e" "dept" ∧
    ∃ resolved, (headcount " e . dept").resolved headcountSchemas .inner = .ok resolved ∧
      ∃ entry ∈ resolved.select, entry.key = " e . dept" ∧
        ((headcount " e . dept").groupedBy " e . dept").resolved headcountSchemas .inner =
          .ok (resolved.groupedBy (.qualified "e" "dept")) ∧
        (resolved.groupedBy (.qualified "e" "dept")).selectedSource entry =
          .ok (.column (.qualified "e" "dept")) := by
  have read : ColumnSource.read " e . dept" = .ok (.column (.qualified "e" "dept")) := by
    decide +kernel
  obtain ⟨_, plain, elsewhere⟩ := select_key_elsewhere read
  have agree := plain (by decide +kernel)
  have resolves : ((headcount " e . dept").resolved headcountSchemas .inner).toOption.any
      (fun resolved => resolved.select.any fun entry => entry.key == " e . dept" &&
        entry.source == .resolved (.column (.qualified "e" "dept"))) = true := by decide +kernel
  obtain ⟨resolved, ok, selects⟩ := exists_of_any_toOption resolves
  obtain ⟨entry, selected, facts⟩ := List.any_eq_true.1 selects
  rw [Bool.and_eq_true, beq_iff_eq, beq_iff_eq] at facts
  obtain ⟨column, same, grouped, chosen, _⟩ :=
    elsewhere agree _ _ _ resolved ok entry selected facts.1 _ facts.2
  cases same
  exact ⟨read, agree, resolved, ok, entry, selected, facts.1, grouped, chosen⟩

/-- A select key in parentheses is a column, but no group condition. -/
theorem select_key_in_parentheses :
    ¬ (∀ key ref, ColumnSource.read key = .ok (.column ref) → ColumnRef.parse key = ref) ∧
    (((headcount "(e.dept)").groupedBy "e.dept").compile headcountSchemas .inner).isOk = true ∧
    (((headcount "(e.dept)").groupedBy "(e.dept)").compile headcountSchemas .inner).isOk =
      false := by
  have read : ColumnSource.read "(e.dept)" = .ok (.column (.qualified "e" "dept")) := by
    decide +kernel
  have other : ColumnRef.parse "(e.dept)" ≠ .qualified "e" "dept" := by decide +kernel
  exact ⟨fun all => other (all _ _ read), by decide +kernel, by decide +kernel⟩

end Spec

end TablePlan
