import TablePlan.Proofs.Resolution.Scope
import TablePlan.Proofs.Resolution.Stages

/-!
What resolution leaves of names as they are written. A reference keeps its column and its alias, if
it has one; selected entries, group keys and sort conditions stay in their order.
-/

namespace TablePlan

open Success

/-- Whether a reference is another one as it is written, with an alias if it had none. -/
def ColumnRef.Qualifies (ref written : ColumnRef) : Prop :=
  ref.column = written.column ∧ ∀ a ∈ written.aliasName, ref.aliasName = some a

inductive ColumnSource.Qualifies : (source written : ColumnSource) → Prop
  | column {ref written : ColumnRef} (column : ref.Qualifies written) :
    Qualifies (.column ref) (.column written)
  | aggregate {call written : AggregateCall} (function : call.function = written.function)
    (argument : Option.Rel ColumnRef.Qualifies call.argument written.argument) :
    Qualifies (.aggregate call) (.aggregate written)

def ResolvedSelect.Qualifies (entry : ResolvedSelect) (written : SelectEntry) : Prop :=
  entry.outputName = written.outputName ∧ ∃ source, ColumnSource.read written.source = .ok source ∧
    ∀ found, entry.source = .resolved found → found.Qualifies source

namespace Scope

variable {scope : Scope}

theorem Finds.qualifies {written ref : ColumnRef} (found : scope.Finds written ref) :
    ref.Qualifies written := by
  cases found with
  | named => exact ⟨rfl, fun _ same => same⟩
  | bare => exact ⟨rfl, nofun⟩

theorem FindsOperand.qualifies {written source : ColumnSource}
    (found : scope.FindsOperand written.toOperand source.toOperand) :
    source.Qualifies written := by
  cases written with
  | column ref =>
    obtain ⟨ref', rfl, finds⟩ := found.exists_column
    exact .column finds.qualifies
  | aggregate call =>
    cases source with
    | column ref => cases found
    | aggregate call' =>
      cases found with
      | aggregate found =>
        cases found with
        | none => exact .aggregate rfl .none
        | some found => exact .aggregate rfl (.some found.qualifies)

end Scope

namespace Spec

/-- What a resolved spec keeps of the spec as it is written. -/
structure KeptBy (spec : Spec) (resolved : ResolvedSpec) : Prop where
  select : List.Forall₂ ResolvedSelect.Qualifies resolved.select spec.select
  group : List.Forall₂ (fun ref text => ref.Qualifies (.parse text)) resolved.group spec.group
  sort : resolved.sort = spec.sort

theorem keptBy_of_resolved {spec : Spec} {schemas : Schemas} {default : JoinKind}
    {resolved : ResolvedSpec} (ok : spec.resolved schemas default = .ok resolved) :
    spec.KeptBy resolved := by
  obtain ⟨clauses, read, stages, _⟩ := resolved_eq_ok.1 ok
  obtain ⟨written, _⟩ := Clauses.ofSpec_eq_ok.1 read
  refine ⟨?_, ?_, stages.sort⟩
  · have entries := forall₂_trans (mapM_eq_ok.1 written) (forall₂_of_mapM_zipIdx stages.select)
    refine (entries.imp ?_).flip
    rintro entry found ⟨clause, clause_read, i, made⟩
    obtain ⟨source, source_read, same⟩ := bind_eq_ok.1 clause_read
    cases pure_eq_ok.1 same
    obtain ⟨_, name, selects⟩ := Scope.selectClause_eq_ok_iff.1 made
    exact ⟨name, source, source_read, fun found resolved =>
      (resolved ▸ selects).findsOperand.qualifies⟩
  · refine ((forall₂_of_mapM_zipIdx stages.group).imp ?_).flip
    rintro text ref ⟨i, found⟩
    exact (Scope.column_eq_ok_iff.1 found).qualifies

end Spec

end TablePlan
