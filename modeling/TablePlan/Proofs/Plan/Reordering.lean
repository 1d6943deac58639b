import TablePlan.Proofs.Plan.Compilation

/-!
Specs with their join conditions in another order. They resolve to the same edges in another order
and to the same of everything else, and compile when the spec as it was written does.
-/

namespace TablePlan

open Success

namespace Scope

variable {scope : Scope}

theorem joins_eq_ok {default : JoinKind} {joins : List JoinCondition} {edges : List JoinEdge} :
    (joins.zipIdx.mapM fun (c, i) => scope.join default i c) = .ok edges ↔
      List.Forall₂ (scope.Links default) joins edges :=
  mapM_zipIdx_eq_ok fun _ _ _ => join_eq_ok_iff

theorem joins_perm {default : JoinKind} {joins joins' : List JoinCondition} {edges : List JoinEdge}
    (ok : (joins.zipIdx.mapM fun (c, i) => scope.join default i c) = .ok edges)
    (permuted : joins'.Perm joins) :
    ∃ edges', edges'.Perm edges ∧
      (joins'.zipIdx.mapM fun (c, i) => scope.join default i c) = .ok edges' := by
  obtain ⟨edges', links, perm⟩ := List.perm_comp_forall₂ permuted (joins_eq_ok.1 ok)
  exact ⟨edges', perm, joins_eq_ok.2 links⟩

end Scope

namespace ResolvedSpec

theorem planned_joins {spec : ResolvedSpec} {plan : Plan} (ok : spec.planned = .ok plan) :
    ∃ order output sort, spec.joinOrder = .ok order ∧ plan = spec.assembled order output sort ∧
      ∀ edges order', { spec with joins := edges }.joinOrder = .ok order' →
        { spec with joins := edges }.planned =
          .ok ({ spec with joins := edges }.assembled order' output sort) := by
  obtain ⟨order, output, sort, ordered, selected, sorted, made⟩ := planned_eq_ok.1 ok
  obtain ⟨plain, held, rfl⟩ := assemble_eq_ok.1 made
  refine ⟨order, output, sort, ordered, rfl, fun edges order' ordered' => ?_⟩
  have selected' : { spec with joins := edges }.outputColumns = .ok output := by
    rw [← selected]
    exact outputColumns_congr rfl fun _ => rfl
  exact planned_eq_ok.2 ⟨order', output, sort, ordered', selected', sorted,
    assemble_eq_ok.2 ⟨plain, held, rfl⟩⟩

end ResolvedSpec

namespace Spec

variable {spec : Spec} {joins : List JoinCondition} {schemas : Schemas} {default : JoinKind}

theorem resolved_perm {resolved : ResolvedSpec} (ok : spec.resolved schemas default = .ok resolved)
    (permuted : joins.Perm spec.joins) : ∃ edges, edges.Perm resolved.joins ∧
      { spec with joins := joins }.resolved schemas default =
        .ok { resolved with joins := edges } := by
  obtain ⟨clauses, read, stages, held⟩ := resolved_eq_ok.1 ok
  obtain ⟨edges, perm, joined⟩ := Scope.joins_perm stages.joins permuted
  exact ⟨edges, perm, resolved_eq_ok.2 ⟨clauses, read, { stages with joins := joined }, held⟩⟩

theorem compile_perm {plan : Plan} (ok : spec.compile schemas default = .ok plan)
    (permuted : joins.Perm spec.joins) :
    ∃ resolved edges order order' output sort, spec.resolved schemas default = .ok resolved ∧
      edges.Perm resolved.joins ∧ resolved.joinOrder = .ok order ∧
      { resolved with joins := edges }.joinOrder = .ok order' ∧
      plan = resolved.assembled order output sort ∧
      { spec with joins := joins }.compile schemas default =
        .ok ({ resolved with joins := edges }.assembled order' output sort) := by
  obtain ⟨resolved, named, ok⟩ := bind_eq_ok.1 ok
  obtain ⟨order, output, sort, ordered, rfl, planned⟩ := ResolvedSpec.planned_joins ok
  obtain ⟨edges, perm, named'⟩ := resolved_perm named permuted
  have joinable := (JoinOrder.exists_ofEdges_eq_ok.1 ⟨order, ordered⟩).perm perm.symm
  obtain ⟨order', ordered'⟩ := JoinOrder.exists_ofEdges_eq_ok.2 joinable
  exact ⟨resolved, edges, order, order', output, sort, named, perm, ordered, ordered', rfl,
    bind_eq_ok.2 ⟨_, named', planned edges order' ordered'⟩⟩

end Spec

end TablePlan
