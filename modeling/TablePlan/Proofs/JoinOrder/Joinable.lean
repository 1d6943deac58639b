import TablePlan.Proofs.JoinOrder.Walk
import TablePlan.Proofs.Success

/-!
Edges that can be joined. The checks before the walk pass exactly when no edge joins a table to
itself or repeats a pair and, from two tables on, the edges connect all tables. None of this
depends on the order in which the edges are written.
-/

namespace TablePlan

open Success

theorem JoinEdge.samePair_comm (d e : JoinEdge) : d.samePair e = e.samePair d := by
  rw [Bool.eq_iff_iff]
  simp only [samePair, Bool.or_eq_true, Bool.and_eq_true, beq_iff_eq]
  constructor
  · rintro (⟨left, right⟩ | ⟨left, right⟩)
    · exact .inl ⟨left.symm, right.symm⟩
    · exact .inr ⟨right.symm, left.symm⟩
  · rintro (⟨left, right⟩ | ⟨left, right⟩)
    · exact .inl ⟨left.symm, right.symm⟩
    · exact .inr ⟨right.symm, left.symm⟩

namespace JoinOrder

def Declared (aliases : List String) (edges : List JoinEdge) : Prop :=
  ∀ e ∈ edges, e.leftAlias ∈ aliases ∧ e.rightAlias ∈ aliases

theorem checkPairs_eq_ok {earlier edges : List JoinEdge} :
    checkPairs earlier edges = .ok () ↔ (∀ e ∈ edges, e.leftAlias ≠ e.rightAlias) ∧
      (∀ e ∈ edges, ∀ d ∈ earlier, e.samePair d = false) ∧
      edges.Pairwise fun d e => e.samePair d = false := by
  induction edges generalizing earlier with
  | nil => simp [checkPairs]
  | cons e edges ih =>
    rw [checkPairs]
    split_ifs with loop repeated
    · simp [loop]
    · obtain ⟨d, mem, same⟩ := List.any_eq_true.1 repeated
      simp only [List.forall_mem_cons, false_iff]
      rintro ⟨_, ⟨first, _⟩, _⟩
      rw [first d mem] at same
      cases same
    · have first : ∀ d ∈ earlier, e.samePair d = false := by simpa using repeated
      rw [ih]
      simp only [List.forall_mem_cons, List.pairwise_cons]
      constructor
      · rintro ⟨apart, others, later⟩
        exact ⟨⟨loop, apart⟩, ⟨first, fun d mem => (others d mem).2⟩,
          fun d mem => (others d mem).1, later⟩
      · rintro ⟨⟨_, apart⟩, ⟨_, others⟩, against, later⟩
        exact ⟨apart, fun d mem => ⟨against d mem, others d mem⟩, later⟩

theorem checkDeclared_eq_ok {aliases : List String} {edges : List JoinEdge} :
    checkDeclared aliases edges = .ok () ↔ Declared aliases edges := by
  have search : (edges.flatMap fun e => [e.leftAlias, e.rightAlias]).find?
      (!aliases.contains ·) = none ↔ Declared aliases edges := by
    simp only [List.find?_eq_none, List.forall_mem_flatMap, List.forall_mem_cons, Declared]
    simp
  rw [← search]
  unfold checkDeclared
  split <;> rename_i found <;> rw [found] <;> simp

theorem checkJoined_eq_ok {aliases : List String} {edges : List JoinEdge} :
    checkJoined aliases edges = .ok () ↔ ∀ a ∈ aliases, ∃ e ∈ edges, e.joins a = true := by
  have search : (aliases.find? fun a => !edges.any (·.joins a)) = none ↔
      ∀ a ∈ aliases, ∃ e ∈ edges, e.joins a = true := by
    simp
  rw [← search]
  unfold checkJoined
  split <;> rename_i found <;> rw [found] <;> simp

theorem checkConnected_eq_ok {aliases : List String} {edges : List JoinEdge} {root : String} :
    checkConnected aliases edges root = .ok () ↔ ∀ a ∈ aliases, Connected edges root a := by
  have search : aliases.filter (!(component edges root).contains ·) = [] ↔
      ∀ a ∈ aliases, Connected edges root a := by
    simp [List.filter_eq_nil_iff, mem_component_iff]
  rw [← search]
  unfold checkConnected
  dsimp only
  split
  · rename_i none
    exact iff_of_true rfl none
  · rename_i some
    exact iff_of_false (by simp) some

structure Spans (aliases : List String) (edges : List JoinEdge) : Prop where
  declared : Declared aliases edges
  joined : ∀ a ∈ aliases, ∃ e ∈ edges, e.joins a = true
  connected : ∀ a ∈ aliases, ∀ b ∈ aliases, Connected edges a b

structure Joinable (aliases : List String) (edges : List JoinEdge) : Prop where
  nonempty : aliases ≠ []
  apart : ∀ e ∈ edges, e.leftAlias ≠ e.rightAlias
  once : edges.Pairwise fun d e => e.samePair d = false
  spans : aliases.length ≠ 1 → Spans aliases edges

def start (edges : List JoinEdge) : String :=
  (edges.head?.map JoinEdge.leftAlias).getD ""

def walked (edges : List JoinEdge) : JoinOrder :=
  ⟨start edges, (order [start edges] edges).1, (order [start edges] edges).2⟩

theorem exists_first {aliases : List String} {edges : List JoinEdge} (nonempty : aliases ≠ [])
    (joined : ∀ a ∈ aliases, ∃ e ∈ edges, e.joins a = true) :
    ∃ first rest, edges = first :: rest := by
  obtain ⟨a, mem⟩ := List.exists_mem_of_ne_nil aliases nonempty
  obtain ⟨e, mem, _⟩ := joined a mem
  exact List.exists_cons_of_ne_nil (List.ne_nil_of_mem mem)

theorem start_mem {aliases : List String} {edges : List JoinEdge} (nonempty : aliases ≠ [])
    (declared : Declared aliases edges) (joined : ∀ a ∈ aliases, ∃ e ∈ edges, e.joins a = true) :
    start edges ∈ aliases := by
  obtain ⟨first, rest, rfl⟩ := exists_first nonempty joined
  exact (declared first List.mem_cons_self).1

theorem spans_iff {aliases : List String} {edges : List JoinEdge} (nonempty : aliases ≠ []) :
    Spans aliases edges ↔ Declared aliases edges ∧
      (∀ a ∈ aliases, ∃ e ∈ edges, e.joins a = true) ∧
      ∀ a ∈ aliases, Connected edges (start edges) a := by
  constructor
  · rintro ⟨declared, joined, connected⟩
    exact ⟨declared, joined, connected _ (start_mem nonempty declared joined)⟩
  · rintro ⟨declared, joined, reached⟩
    exact ⟨declared, joined, fun a mem b mem' => (reached a mem).symm.trans (reached b mem')⟩

theorem ofEdges_single {a : String} {edges : List JoinEdge} {order : JoinOrder} :
    ofEdges [a] edges = .ok order ↔ Joinable [a] edges ∧ order = ⟨a, [], []⟩ := by
  rw [ofEdges, check_eq_ok, checkPairs_eq_ok, pure_eq_ok]
  constructor
  · rintro ⟨⟨apart, _, once⟩, rfl⟩
    exact ⟨⟨List.cons_ne_nil _ _, apart, once, fun many => absurd rfl many⟩, rfl⟩
  · rintro ⟨joinable, rfl⟩
    exact ⟨⟨joinable.apart, by simp, joinable.once⟩, rfl⟩

theorem ofEdges_many {aliases : List String} {edges : List JoinEdge} {order : JoinOrder}
    (many : aliases.length ≠ 1) :
    ofEdges aliases edges = .ok order ↔ Joinable aliases edges ∧ order = walked edges := by
  unfold ofEdges
  split
  · simp only [reduceCtorEq, false_iff]
    rintro ⟨joinable, _⟩
    exact joinable.nonempty rfl
  · exact absurd rfl many
  · rename_i nonempty _
    rw [check_eq_ok, check_eq_ok, check_eq_ok, check_eq_ok, checkPairs_eq_ok,
      checkDeclared_eq_ok, checkJoined_eq_ok, checkConnected_eq_ok, pure_eq_ok]
    constructor
    · rintro ⟨⟨apart, _, once⟩, declared, joined, reached, rfl⟩
      exact ⟨⟨nonempty, apart, once, fun _ => (spans_iff nonempty).2 ⟨declared, joined, reached⟩⟩,
        rfl⟩
    · rintro ⟨joinable, rfl⟩
      obtain ⟨declared, joined, reached⟩ := (spans_iff nonempty).1 (joinable.spans many)
      exact ⟨⟨joinable.apart, by simp, joinable.once⟩, declared, joined, reached, rfl⟩

theorem exists_ofEdges_eq_ok {aliases : List String} {edges : List JoinEdge} :
    (∃ order, ofEdges aliases edges = .ok order) ↔ Joinable aliases edges := by
  by_cases many : aliases.length ≠ 1
  · simp only [ofEdges_many many, exists_and_left, exists_eq, and_true]
  · obtain ⟨a, rfl⟩ := List.length_eq_one_iff.1 (not_not.1 many)
    simp only [ofEdges_single, exists_and_left, exists_eq, and_true]

section Permutation

variable {aliases : List String} {edges edges' : List JoinEdge} (same : edges.Perm edges')

include same

theorem Connected.perm {a b : String} (path : Connected edges a b) : Connected edges' a b := by
  refine Relation.ReflTransGen.mono ?_ a b path
  rintro c d ⟨e, mem, ends⟩
  exact ⟨e, same.subset mem, ends⟩

theorem Spans.perm (spans : Spans aliases edges) : Spans aliases edges' where
  declared e mem := spans.declared e (same.symm.subset mem)
  joined a mem := by
    obtain ⟨e, mem, joins⟩ := spans.joined a mem
    exact ⟨e, same.subset mem, joins⟩
  connected a mem b mem' := (spans.connected a mem b mem').perm same

theorem Joinable.perm (joinable : Joinable aliases edges) : Joinable aliases edges' where
  nonempty := joinable.nonempty
  apart e mem := joinable.apart e (same.symm.subset mem)
  once := (same.pairwise_iff fun {d e} apart => (d.samePair_comm e).trans apart).1 joinable.once
  spans many := (joinable.spans many).perm same

end Permutation

end JoinOrder

end TablePlan
