import TablePlan.Plan.JoinOrder
import Mathlib.Logic.Relation
import Mathlib.Tactic.Common

/-!
Aliases that join edges connect. A set of aliases that no edge leaves is closed; sweeping over the
edges as often as there are edges gives the least closed set around an alias, which are the aliases
connected with it.
-/

namespace TablePlan

namespace JoinEdge

def Within (e : JoinEdge) (p : String → Prop) : Prop :=
  p e.leftAlias ↔ p e.rightAlias

theorem crosses_eq_false_iff {e : JoinEdge} {joined : List String} :
    e.crosses joined = false ↔ e.Within (· ∈ joined) := by
  unfold crosses Within
  rw [bne_eq_false_iff_eq, Bool.eq_iff_iff, List.contains_iff_mem, List.contains_iff_mem]

theorem crosses_congr {e : JoinEdge} {joined joined' : List String}
    (same : ∀ a, a ∈ joined ↔ a ∈ joined') : e.crosses joined = e.crosses joined' := by
  have contains_eq (a : String) : joined.contains a = joined'.contains a := by
    rw [Bool.eq_iff_iff, List.contains_iff_mem, List.contains_iff_mem, same]
  simp only [crosses, contains_eq]

theorem outward_congr {e : JoinEdge} {joined joined' : List String}
    (same : ∀ a, a ∈ joined ↔ a ∈ joined') : e.outward joined = e.outward joined' := by
  simp only [outward, List.contains_iff_mem, same]

theorem outward_eq (e : JoinEdge) (joined : List String) :
    e.outward joined = e ∨ e.outward joined = e.reversed := by
  unfold outward
  split
  · exact .inl rfl
  · exact .inr rfl

theorem outward_of_crosses {e : JoinEdge} {joined : List String}
    (crossing : e.crosses joined = true) :
    (e.outward joined).leftAlias ∈ joined ∧ (e.outward joined).rightAlias ∉ joined := by
  have apart : ¬ (e.leftAlias ∈ joined ↔ e.rightAlias ∈ joined) := fun within => by
    rw [crosses_eq_false_iff.2 within] at crossing
    cases crossing
  unfold outward
  by_cases left : e.leftAlias ∈ joined
  · rw [if_pos (List.contains_iff_mem.2 left)]
    exact ⟨left, fun right => apart (iff_of_true left right)⟩
  · rw [if_neg fun contained => left (List.contains_iff_mem.1 contained)]
    refine ⟨?_, left⟩
    rw [JoinEdge.reversed]
    by_contra right
    exact apart (iff_of_false left right)

theorem outward_ends (e : JoinEdge) (joined : List String) (p : String → Prop) :
    p (e.outward joined).leftAlias ∧ p (e.outward joined).rightAlias ↔
      p e.leftAlias ∧ p e.rightAlias := by
  obtain same | same := e.outward_eq joined <;> rw [same]
  exact and_comm

end JoinEdge

namespace JoinOrder

def Closed (edges : List JoinEdge) (p : String → Prop) : Prop :=
  ∀ e ∈ edges, e.Within p

def sweepEdge (reached : List String) (e : JoinEdge) : List String :=
  if reached.contains e.leftAlias then reached.insert e.rightAlias
  else if reached.contains e.rightAlias then reached.insert e.leftAlias
  else reached

theorem subset_sweepEdge (reached : List String) (e : JoinEdge) :
    reached ⊆ sweepEdge reached e := by
  unfold sweepEdge
  split_ifs
  · exact fun a mem => List.mem_insert_of_mem mem
  · exact fun a mem => List.mem_insert_of_mem mem
  · exact fun a mem => mem

theorem subset_sweep (edges : List JoinEdge) (reached : List String) :
    reached ⊆ sweep edges reached := by
  induction edges generalizing reached with
  | nil => exact fun a mem => mem
  | cons e edges ih => exact fun a mem => ih _ (subset_sweepEdge reached e mem)

theorem forall_mem_sweepEdge {p : String → Prop} {reached : List String} {e : JoinEdge}
    (within : e.Within p) (inside : ∀ a ∈ reached, p a) : ∀ a ∈ sweepEdge reached e, p a := by
  unfold sweepEdge
  split_ifs with left right
  · intro a mem
    obtain rfl | mem := List.mem_insert_iff.1 mem
    · exact within.1 (inside _ (List.contains_iff_mem.1 left))
    · exact inside a mem
  · intro a mem
    obtain rfl | mem := List.mem_insert_iff.1 mem
    · exact within.2 (inside _ (List.contains_iff_mem.1 right))
    · exact inside a mem
  · exact inside

theorem forall_mem_sweep {p : String → Prop} {edges : List JoinEdge} {reached : List String}
    (closed : Closed edges p) (inside : ∀ a ∈ reached, p a) : ∀ a ∈ sweep edges reached, p a := by
  induction edges generalizing reached with
  | nil => exact inside
  | cons e edges ih =>
    have closed := List.forall_mem_cons.1 closed
    exact ih closed.2 (forall_mem_sweepEdge closed.1 inside)

theorem ends_mem_sweep {edges : List JoinEdge} {reached : List String} {e : JoinEdge}
    (mem : e ∈ edges) (touched : e.leftAlias ∈ reached ∨ e.rightAlias ∈ reached) :
    e.leftAlias ∈ sweep edges reached ∧ e.rightAlias ∈ sweep edges reached := by
  induction edges generalizing reached with
  | nil => cases mem
  | cons first edges ih =>
    obtain rfl | mem := List.mem_cons.1 mem
    · have ends : e.leftAlias ∈ sweepEdge reached e ∧ e.rightAlias ∈ sweepEdge reached e := by
        unfold sweepEdge
        split_ifs with left right
        · exact ⟨List.mem_insert_of_mem (List.contains_iff_mem.1 left), List.mem_insert_self⟩
        · exact ⟨List.mem_insert_self, List.mem_insert_of_mem (List.contains_iff_mem.1 right)⟩
        · rw [List.contains_iff_mem] at left right
          exact absurd touched (not_or.2 ⟨left, right⟩)
      exact ⟨subset_sweep edges _ ends.1, subset_sweep edges _ ends.2⟩
    · exact ih mem (touched.imp (subset_sweepEdge _ _ ·) (subset_sweepEdge _ _ ·))

def inner (edges : List JoinEdge) (reached : List String) : Nat :=
  edges.countP fun e => reached.contains e.leftAlias && reached.contains e.rightAlias

theorem closed_of_inner_eq {edges : List JoinEdge} {reached : List String}
    (all : edges.length ≤ inner edges reached) : Closed edges (· ∈ reached) := by
  have every := List.countP_eq_length.1 (Nat.le_antisymm List.countP_le_length all)
  intro e mem
  have both := every e mem
  rw [Bool.and_eq_true, List.contains_iff_mem, List.contains_iff_mem] at both
  exact iff_of_true both.1 both.2

theorem inner_lt_inner_sweep {edges : List JoinEdge} {reached : List String}
    (leads : ¬ Closed edges (· ∈ reached)) :
    inner edges reached < inner edges (sweep edges reached) := by
  obtain ⟨e, mem, crossing⟩ : ∃ e ∈ edges, ¬ e.Within (· ∈ reached) := by
    simpa [Closed] using leads
  obtain ⟨before, after, split⟩ := List.append_of_mem mem
  have grow (part : List JoinEdge) :
      inner part reached ≤ inner part (sweep edges reached) := by
    refine List.countP_mono_left fun d _ both => ?_
    rw [Bool.and_eq_true, List.contains_iff_mem, List.contains_iff_mem] at both ⊢
    exact ⟨subset_sweep _ _ both.1, subset_sweep _ _ both.2⟩
  have outside : (reached.contains e.leftAlias && reached.contains e.rightAlias) = false := by
    rw [Bool.and_eq_false_iff, ← Bool.not_eq_true, ← Bool.not_eq_true, List.contains_iff_mem,
      List.contains_iff_mem, ← not_and_or]
    exact fun both => crossing (iff_of_true both.1 both.2)
  have touched : e.leftAlias ∈ reached ∨ e.rightAlias ∈ reached := by
    by_contra neither
    rw [not_or] at neither
    exact crossing (iff_of_false neither.1 neither.2)
  have ends := ends_mem_sweep mem touched
  have now_inside : ((sweep edges reached).contains e.leftAlias &&
      (sweep edges reached).contains e.rightAlias) = true := by
    rw [Bool.and_eq_true, List.contains_iff_mem, List.contains_iff_mem]
    exact ends
  have first := grow before
  have last := grow after
  have split_inner (s : List String) : inner edges s = inner before s +
      (inner after s + if s.contains e.leftAlias && s.contains e.rightAlias then 1 else 0) := by
    rw [split]
    simp only [inner, List.countP_append, List.countP_cons]
  rw [split_inner, split_inner, outside, now_inside]
  simp only [if_true, Bool.false_eq_true, if_false]
  omega

/-- After some sweeps the aliases reached are closed, or each sweep has settled another edge. -/
theorem closed_or_le_inner (edges : List JoinEdge) (root : String) (n : Nat) :
    Closed edges (· ∈ n.repeat (sweep edges) [root]) ∨
      n ≤ inner edges (n.repeat (sweep edges) [root]) := by
  induction n with
  | zero => exact .inr (Nat.zero_le _)
  | succ n ih =>
    rw [Nat.repeat]
    by_cases closed : Closed edges (· ∈ n.repeat (sweep edges) [root])
    · refine .inl fun e mem => ?_
      have same (a : String) : a ∈ sweep edges (n.repeat (sweep edges) [root]) ↔
          a ∈ n.repeat (sweep edges) [root] :=
        ⟨fun reached => forall_mem_sweep closed (fun _ h => h) a reached,
          fun reached => subset_sweep _ _ reached⟩
      exact (same _).trans ((closed e mem).trans (same _).symm)
    · have settled := ih.resolve_left closed
      exact .inr (Nat.lt_of_le_of_lt settled (inner_lt_inner_sweep closed))

theorem closed_component (edges : List JoinEdge) (root : String) :
    Closed edges (· ∈ component edges root) :=
  (closed_or_le_inner edges root edges.length).elim id closed_of_inner_eq

theorem root_mem_component (edges : List JoinEdge) (root : String) :
    root ∈ component edges root := by
  unfold component
  induction edges.length with
  | zero => exact List.mem_singleton.2 rfl
  | succ n ih => exact subset_sweep _ _ ih

theorem forall_mem_component {p : String → Prop} {edges : List JoinEdge} {root : String}
    (closed : Closed edges p) (holds : p root) : ∀ a ∈ component edges root, p a := by
  unfold component
  induction edges.length with
  | zero => exact fun a mem => List.mem_singleton.1 mem ▸ holds
  | succ n ih => exact forall_mem_sweep closed ih

def Adjacent (edges : List JoinEdge) (a b : String) : Prop :=
  ∃ e ∈ edges, (e.leftAlias = a ∧ e.rightAlias = b) ∨ (e.leftAlias = b ∧ e.rightAlias = a)

def Connected (edges : List JoinEdge) : String → String → Prop :=
  Relation.ReflTransGen (Adjacent edges)

theorem Adjacent.symm {edges : List JoinEdge} {a b : String} (adjacent : Adjacent edges a b) :
    Adjacent edges b a := by
  obtain ⟨e, mem, ends⟩ := adjacent
  exact ⟨e, mem, ends.symm⟩

theorem Connected.symm {edges : List JoinEdge} {a b : String} (path : Connected edges a b) :
    Connected edges b a := by
  induction path with
  | refl => exact .refl
  | tail _ adjacent ih => exact ih.head adjacent.symm

theorem closed_connected (edges : List JoinEdge) (root : String) :
    Closed edges (Connected edges root) := by
  intro e mem
  exact ⟨fun path => path.tail ⟨e, mem, .inl ⟨rfl, rfl⟩⟩,
    fun path => path.tail ⟨e, mem, .inr ⟨rfl, rfl⟩⟩⟩

theorem Connected.of_closed {edges : List JoinEdge} {p : String → Prop} {a b : String}
    (path : Connected edges a b) (closed : Closed edges p) (holds : p a) : p b := by
  induction path with
  | refl => exact holds
  | tail _ adjacent ih =>
    obtain ⟨e, mem, ⟨rfl, rfl⟩ | ⟨rfl, rfl⟩⟩ := adjacent
    · exact (closed e mem).1 ih
    · exact (closed e mem).2 ih

theorem mem_component_iff {edges : List JoinEdge} {root a : String} :
    a ∈ component edges root ↔ Connected edges root a :=
  ⟨fun mem => forall_mem_component (closed_connected edges root) .refl a mem,
    fun path => path.of_closed (closed_component edges root) (root_mem_component edges root)⟩

end JoinOrder

end TablePlan
