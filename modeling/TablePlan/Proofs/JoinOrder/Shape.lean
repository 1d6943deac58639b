import TablePlan.Compile
import TablePlan.Proofs.JoinOrder.Joinable

/-!
The shape of every order of joins. Each declared table is scanned once, each step starts from a
table that is joined before it, and each edge makes one step or is left over. A step is made of the
first edge that can make one.
-/

namespace TablePlan

namespace JoinOrder

/-- The aliases in the order in which their tables are scanned. -/
def scanned (order : JoinOrder) : List String :=
  order.root :: order.steps.map JoinEdge.rightAlias

def joinedBefore (order : JoinOrder) (k : Nat) : List String :=
  order.scanned.take (k + 1)

theorem mem_joinedBefore {order : JoinOrder} {k : Nat} {a : String} :
    a ∈ order.joinedBefore k ↔ a ∈ joinedBy [order.root] (order.steps.take k) := by
  rw [mem_joinedBy, joinedBefore, scanned, List.take_succ_cons, List.map_take, List.mem_cons,
    List.mem_singleton]

theorem mem_scanned {order : JoinOrder} {a : String} :
    a ∈ order.scanned ↔ a ∈ joinedBy [order.root] order.steps := by
  rw [mem_joinedBy, scanned, List.mem_cons, List.mem_singleton]

/-- How an order uses numbered edges: step `k` takes edge `picks[k]`, and the others are left. -/
structure Greedy (order : JoinOrder) (edges : List JoinEdge) (picks : List Nat) : Prop where
  distinct : picks.Nodup
  length_eq : picks.length = order.steps.length
  step : ∀ k i, picks[k]? = some i → ∃ e step, edges[i]? = some e ∧ order.steps[k]? = some step ∧
    (step = e ∨ step = e.reversed) ∧ step.leftAlias ∈ order.joinedBefore k ∧
    e.crosses (order.joinedBefore k) = true ∧
    ∀ j d, edges[j]? = some d → j ∉ picks.take k → d.crosses (order.joinedBefore k) = true → i ≤ j
  residual : order.residual = (edges.zipIdx.filter fun e => e.2 ∉ picks).map Prod.fst

namespace Greedy

variable {order : JoinOrder} {edges : List JoinEdge} {picks : List Nat}

theorem exists_pick (greedy : order.Greedy edges picks) {k : Nat} {step : JoinEdge}
    (at_k : order.steps[k]? = some step) : ∃ e ∈ edges, (step = e ∨ step = e.reversed) ∧
      step.leftAlias ∈ order.joinedBefore k := by
  obtain ⟨within, _⟩ := List.getElem?_eq_some_iff.1 at_k
  rw [← greedy.length_eq] at within
  obtain ⟨e, step', at_pick, at_k', written, reached, _⟩ :=
    greedy.step k picks[k] (List.getElem?_eq_getElem within)
  rw [at_k] at at_k'
  cases at_k'
  exact ⟨e, List.mem_of_getElem? at_pick, written, reached⟩

theorem mem_of_mem_residual (greedy : order.Greedy edges picks) {e : JoinEdge}
    (mem : e ∈ order.residual) : e ∈ edges := by
  rw [greedy.residual] at mem
  obtain ⟨numbered, kept, rfl⟩ := List.mem_map.1 mem
  exact List.mem_of_getElem? (List.mem_zipIdx_iff_getElem?.1 (List.mem_filter.1 kept).1)

end Greedy

section Walked

variable {edges : List JoinEdge} {picked left : List Numbered}

theorem greedy_of_walk {root : String} (walk : Walk [root] edges.zipIdx picked left) :
    Greedy ⟨root, directed [root] picked, left.map Prod.fst⟩ edges (picked.map Prod.snd) where
  distinct := by
    have numbers : (edges.zipIdx.map Prod.snd).Nodup := by
      rw [List.zipIdx_map_snd]
      exact List.nodup_range'
    exact ((walk.perm.map Prod.snd).nodup_iff.2 numbers).sublist
      ((List.sublist_append_left picked left).map Prod.snd)
  length_eq := by rw [List.length_map, length_directed]
  step k i number := by
    have sorted : edges.zipIdx.Pairwise fun d e => d.2 < e.2 := by
      rw [← List.pairwise_map, List.zipIdx_map_snd]
      exact List.pairwise_lt_range'
    obtain ⟨e, at_step, rfl⟩ : ∃ e, picked[k]? = some e ∧ e.2 = i := by
      simpa using number
    obtain ⟨made, crosses, lowest⟩ := walk.pick sorted k e at_step
    have same (a : String) : a ∈ joinedBy [root] ((directed [root] picked).take k) ↔
        a ∈ joinedBefore ⟨root, directed [root] picked, left.map Prod.fst⟩ k := by
      rw [mem_joinedBefore]
    rw [JoinEdge.outward_congr same] at made
    rw [JoinEdge.crosses_congr same] at crosses
    have mem : e ∈ edges.zipIdx :=
      walk.perm.subset (List.mem_append_left _ (List.mem_of_getElem? at_step))
    refine ⟨e.1, _, List.mem_zipIdx_iff_getElem?.1 mem, made, e.1.outward_eq _,
      (JoinEdge.outward_of_crosses crosses).1, crosses, fun j d at_j unpicked crosses' => ?_⟩
    rw [← JoinEdge.crosses_congr same] at crosses'
    refine lowest (d, j) (List.mem_zipIdx_iff_getElem?.2 at_j) (fun picked => ?_) crosses'
    rw [← List.map_take] at unpicked
    exact unpicked (List.mem_map.2 ⟨_, picked, rfl⟩)
  residual := by
    have numbers : (edges.zipIdx.map Prod.snd).Nodup := by
      rw [List.zipIdx_map_snd]
      exact List.nodup_range'
    rw [walk.left_eq numbers]

theorem exists_greedy_walked (edges : List JoinEdge) :
    ∃ picks, Greedy (walked edges) edges picks := by
  obtain ⟨picked, left, walk, ordered⟩ := exists_walk [start edges] edges.zipIdx
  rw [List.zipIdx_map_fst] at ordered
  refine ⟨picked.map Prod.snd, ?_⟩
  rw [walked, ordered]
  exact greedy_of_walk walk

theorem scanned_walked (edges : List JoinEdge) : (walked edges).scanned.Nodup ∧
    ∀ a, a ∈ (walked edges).scanned ↔ Connected edges (start edges) a := by
  obtain ⟨picked, left, walk, ordered⟩ := exists_walk [start edges] edges.zipIdx
  have closed := walk.closed
  rw [List.zipIdx_map_fst] at ordered closed
  have steps : (walked edges).steps = directed [start edges] picked := by rw [walked, ordered]
  constructor
  · have distinct : (joinedBy [start edges] (directed [start edges] picked)).Nodup :=
      walk.nodup_joinedBy (List.pairwise_singleton _ _)
    rw [← steps, joinedBy, ← List.reverse_singleton, ← List.reverse_append] at distinct
    exact (List.reverse_perm _).nodup_iff.1 distinct
  · intro a
    rw [mem_scanned, steps]
    constructor
    · intro mem
      refine walk.forall_mem_joinedBy ?_ ?_ a mem
      · rw [List.zipIdx_map_fst]
        exact closed_connected edges (start edges)
      · exact fun b mem => List.mem_singleton.1 mem ▸ .refl
    · intro path
      exact path.of_closed closed (mem_joinedBy.2 (.inl List.mem_cons_self))

end Walked

theorem scanned_perm {aliases : List String} {edges : List JoinEdge} {order : JoinOrder}
    (distinct : aliases.Nodup) (ok : ofEdges aliases edges = .ok order) :
    order.scanned.Perm aliases := by
  by_cases many : aliases.length ≠ 1
  · obtain ⟨joinable, rfl⟩ := (ofEdges_many many).1 ok
    obtain ⟨declared, joined, connected⟩ := joinable.spans many
    obtain ⟨once, scanned⟩ := scanned_walked edges
    have start_mem := start_mem joinable.nonempty declared joined
    rw [List.perm_ext_iff_of_nodup once distinct]
    intro a
    rw [scanned a]
    constructor
    · intro path
      refine path.of_closed (p := (· ∈ aliases)) (fun e mem => ?_) start_mem
      exact iff_of_true (declared e mem).1 (declared e mem).2
    · exact connected _ start_mem a
  · obtain ⟨a, rfl⟩ := List.length_eq_one_iff.1 (not_not.1 many)
    obtain ⟨_, rfl⟩ := ofEdges_single.1 ok
    exact .refl _

theorem exists_greedy {aliases : List String} {edges : List JoinEdge} {order : JoinOrder}
    (declared : Declared aliases edges) (ok : ofEdges aliases edges = .ok order) :
    ∃ picks, order.Greedy edges picks := by
  by_cases many : aliases.length ≠ 1
  · obtain ⟨_, rfl⟩ := (ofEdges_many many).1 ok
    exact exists_greedy_walked edges
  · obtain ⟨a, rfl⟩ := List.length_eq_one_iff.1 (not_not.1 many)
    obtain ⟨joinable, rfl⟩ := ofEdges_single.1 ok
    -- Both ends of an edge would be the one table.
    have none : edges = [] := List.eq_nil_iff_forall_not_mem.2 fun e mem => by
      have ends := declared e mem
      rw [List.mem_singleton, List.mem_singleton] at ends
      exact joinable.apart e mem (ends.1.trans ends.2.symm)
    subst none
    exact ⟨[], List.nodup_nil, rfl, by simp, rfl⟩

end JoinOrder

namespace ResolvedSpec

/-- The shape of the order of joins. The walk ends after one step for each table but the first. -/
theorem joinOrder_shape {spec : ResolvedSpec} {order : JoinOrder}
    (distinct : (spec.tables.map TableDecl.aliasName).Nodup)
    (declared : JoinOrder.Declared (spec.tables.map TableDecl.aliasName) spec.joins)
    (ok : spec.joinOrder = .ok order) :
    order.scanned.Perm (spec.tables.map TableDecl.aliasName) ∧
      order.steps.length + 1 = spec.tables.length ∧
      (∃ picks, order.Greedy spec.joins picks) ∧
      ∀ e ∈ order.residual, e.leftAlias ∈ order.scanned ∧ e.rightAlias ∈ order.scanned := by
  have perm := JoinOrder.scanned_perm distinct ok
  obtain ⟨picks, greedy⟩ := JoinOrder.exists_greedy declared ok
  refine ⟨perm, ?_, ⟨picks, greedy⟩, fun e mem => ?_⟩
  · simpa [JoinOrder.scanned] using perm.length_eq
  · have ends := declared e (greedy.mem_of_mem_residual mem)
    exact ⟨perm.symm.subset ends.1, perm.symm.subset ends.2⟩

def triangle : ResolvedSpec where
  name := "triangle"
  tables := [⟨"a", "ta", .source, none⟩, ⟨"b", "tb", .source, none⟩, ⟨"c", "tc", .source, none⟩]
  joins := [
    ⟨"a", "b", .qualified "a" "x", .qualified "b" "x", .inner⟩,
    ⟨"c", "b", .qualified "c" "y", .qualified "b" "y", .left⟩,
    ⟨"a", "c", .qualified "a" "z", .qualified "c" "z", .inner⟩]
  select := []
  filter := none
  group := []
  having := none
  sort := []
  scope := ⟨["a", "b", "c"], [("a", ["x", "z"]), ("b", ["x", "y"]), ("c", ["y", "z"])]⟩

theorem joinOrder_shape_triangle :
    ∃ order, triangle.joinOrder = .ok order ∧ order.steps.length = 2 ∧
      order.scanned.Perm ["a", "b", "c"] ∧ ∃ picks, order.Greedy triangle.joins picks := by
  have declared : JoinOrder.Declared (triangle.tables.map TableDecl.aliasName) triangle.joins := by
    unfold JoinOrder.Declared
    decide
  have ok : triangle.joinOrder = .ok ⟨"a",
      [⟨"a", "b", .qualified "a" "x", .qualified "b" "x", .inner⟩,
        ⟨"b", "c", .qualified "b" "y", .qualified "c" "y", .right⟩],
      [⟨"a", "c", .qualified "a" "z", .qualified "c" "z", .inner⟩]⟩ := by cbv
  obtain ⟨perm, _, greedy, _⟩ := joinOrder_shape (by decide) declared ok
  exact ⟨_, ok, rfl, perm, greedy⟩

end ResolvedSpec

end TablePlan
