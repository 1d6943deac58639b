import TablePlan.Proofs.Plan.Compilation
import TablePlan.Proofs.Resolution.TableOrder

/-!
Specs with their tables declared in another order. They compile to the same plan but for the order
of its tables: the root and the steps come from the join conditions, and the rest from names that
resolve to the same.
-/

namespace TablePlan

open Success

namespace JoinOrder

variable {aliases aliases' : List String} {edges : List JoinEdge}

theorem Spans.perm_aliases (spans : Spans aliases edges) (perm : aliases'.Perm aliases) :
    Spans aliases' edges where
  declared e mem := (spans.declared e mem).imp perm.mem_iff.2 perm.mem_iff.2
  joined a mem := spans.joined a (perm.subset mem)
  connected a mem b mem' := spans.connected a (perm.subset mem) b (perm.subset mem')

theorem Joinable.perm_aliases (joinable : Joinable aliases edges) (perm : aliases'.Perm aliases) :
    Joinable aliases' edges where
  nonempty none := joinable.nonempty (none ▸ perm).symm.eq_nil
  apart := joinable.apart
  once := joinable.once
  spans many := (joinable.spans (perm.length_eq ▸ many)).perm_aliases perm

theorem ofEdges_perm_aliases {order : JoinOrder} (perm : aliases'.Perm aliases)
    (ok : ofEdges aliases edges = .ok order) : ofEdges aliases' edges = .ok order := by
  by_cases many : aliases.length ≠ 1
  · rw [ofEdges_many many] at ok
    rw [ofEdges_many (perm.length_eq ▸ many)]
    exact ⟨ok.1.perm_aliases perm, ok.2⟩
  · obtain ⟨a, rfl⟩ := List.length_eq_one_iff.1 (not_not.1 many)
    rwa [List.perm_singleton.1 perm]

end JoinOrder

namespace ResolvedSpec

variable {spec : ResolvedSpec} {tables : List TableDecl} {scope : Scope}

theorem sortKeys_tables {output : List OutputColumn} {keys : List SortKey}
    (ok : spec.sortKeys output = .ok keys) :
    { spec with tables := tables, scope := scope }.sortKeys output = .ok keys := by
  refine mapM_of_mapM ok fun (c, i) key _ made => ?_
  dsimp only at made ⊢
  unfold sortKey at made ⊢
  split at made
  · exact made
  · split at made
    · split at made <;> cases made
    · cases made

theorem planned_tables {plan : Plan} (perm : tables.Perm spec.tables)
    (ok : spec.planned = .ok plan) :
    { spec with tables := tables, scope := scope }.planned =
      .ok { plan with tables := tables } := by
  obtain ⟨order, output, sort, ordered, selected, sorted, made⟩ := planned_eq_ok.1 ok
  obtain ⟨plain, held, rfl⟩ := assemble_eq_ok.1 made
  have selected' : { spec with tables := tables, scope := scope }.outputColumns = .ok output := by
    rw [← selected]
    exact outputColumns_congr rfl fun _ => rfl
  exact planned_eq_ok.2 ⟨order, output, sort, JoinOrder.ofEdges_perm_aliases (perm.map _) ordered,
    selected', sortKeys_tables sorted, assemble_eq_ok.2 ⟨plain, held, rfl⟩⟩

end ResolvedSpec

namespace Spec

theorem compile_tables (spec : Spec) {tables : List TableDecl} {schemas : Schemas}
    {default : JoinKind} {plan : Plan} (distinct : (spec.tables.map TableDecl.aliasName).Nodup)
    (perm : tables.Perm spec.tables) (ok : spec.compile schemas default = .ok plan) :
    { spec with tables := tables }.compile schemas default =
      .ok { plan with tables := tables } := by
  obtain ⟨resolved, named, planned⟩ := bind_eq_ok.1 ok
  obtain ⟨_, output, _, _, selected, _⟩ := ResolvedSpec.planned_eq_ok.1 planned
  have same_tables := (of_resolved_eq_ok named).1
  have plain := ResolvedSpec.resolved_of_outputColumns selected
  obtain ⟨clauses, read, resolves⟩ := bind_eq_ok.1 named
  obtain ⟨scope, resolves'⟩ := resolve_tables distinct perm plain (mapError_eq_ok.1 resolves)
  exact bind_eq_ok.2 ⟨{ resolved with tables := tables, scope := scope },
    bind_eq_ok.2 ⟨clauses, read, mapError_eq_ok.2 resolves'⟩,
    ResolvedSpec.planned_tables (same_tables ▸ perm) planned⟩

end Spec

end TablePlan
