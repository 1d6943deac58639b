import TablePlan.Proofs.JoinOrder.Connection

/-!
Runs of the greedy walk over numbered edges. A run picks the first crossing edge again and again
and ends when none crosses; what it joins are distinct aliases, and every edge is picked or left.
-/

namespace TablePlan.JoinOrder

section TakeFirst

variable {α β : Type} {p : α → Bool} {as rest : List α} {a : α}

theorem takeFirst?_eq_none : takeFirst? p as = none ↔ ∀ b ∈ as, p b = false := by
  induction as with
  | nil => simp [takeFirst?]
  | cons b bs ih =>
    rw [takeFirst?, List.forall_mem_cons, ← ih]
    split
    · simp [*]
    · simp [*]

theorem exists_of_takeFirst? (found : takeFirst? p as = some (a, rest)) :
    ∃ before after, as = before ++ a :: after ∧ rest = before ++ after ∧ p a = true ∧
      ∀ b ∈ before, p b = false := by
  induction as generalizing rest with
  | nil => cases found
  | cons b bs ih =>
    rw [takeFirst?] at found
    split at found
    · rename_i holds
      cases found
      exact ⟨[], _, rfl, rfl, holds, by simp⟩
    · rename_i fails
      obtain ⟨⟨found, others⟩, later, same⟩ := Option.map_eq_some_iff.1 found
      cases same
      obtain ⟨before, after, rfl, rfl, holds, skipped⟩ := ih later
      have skipped : ∀ c ∈ b :: before, p c = false :=
        List.forall_mem_cons.2 ⟨by simpa using fails, skipped⟩
      exact ⟨b :: before, after, rfl, rfl, holds, skipped⟩

theorem takeFirst?_map {p : β → Bool} (f : α → β) (as : List α) :
    takeFirst? p (as.map f) =
      (takeFirst? (fun a => p (f a)) as).map fun (a, rest) => (f a, rest.map f) := by
  induction as with
  | nil => rfl
  | cons a as ih =>
    rw [List.map_cons, takeFirst?, takeFirst?, ih]
    split
    · rfl
    · simp [Function.comp_def]

end TakeFirst

theorem order_of_none {joined : List String} {edges : List JoinEdge}
    (none : takeFirst? (·.crosses joined) edges = none) : order joined edges = ([], edges) := by
  rw [order]
  split
  · rfl
  · simp_all

theorem order_of_some {joined : List String} {edges rest : List JoinEdge} {e : JoinEdge}
    (found : takeFirst? (·.crosses joined) edges = some (e, rest)) :
    order joined edges =
      (e.outward joined :: (order ((e.outward joined).rightAlias :: joined) rest).1,
        (order ((e.outward joined).rightAlias :: joined) rest).2) := by
  rw [order]
  split
  · simp_all
  · rename_i found'
    rw [found] at found'
    cases found'
    rfl

/-- An edge with its number in declaration order. -/
abbrev Numbered : Type :=
  JoinEdge × Nat

/-- Runs from some joined aliases over the edges that are not yet used: the edges that are picked,
one after another, and those that are left when none crosses. -/
inductive Walk : (joined : List String) → (edges picked left : List Numbered) → Prop
  | done {joined edges} (none : ∀ e ∈ edges, e.1.crosses joined = false) :
    Walk joined edges [] edges
  | step {joined before e after picked left}
    (skipped : ∀ d ∈ before, d.1.crosses joined = false)
    (crossing : e.1.crosses joined = true)
    (rest : Walk ((e.1.outward joined).rightAlias :: joined) (before ++ after) picked left) :
    Walk joined (before ++ e :: after) (e :: picked) left

def directed : (joined : List String) → (picked : List Numbered) → List JoinEdge
  | _, [] => []
  | joined, e :: picked =>
    e.1.outward joined :: directed ((e.1.outward joined).rightAlias :: joined) picked

theorem length_directed (joined : List String) (picked : List Numbered) :
    (directed joined picked).length = picked.length := by
  induction picked generalizing joined with
  | nil => rfl
  | cons e picked ih => rw [directed, List.length_cons, List.length_cons, ih]

/-- The aliases that some steps have joined, the newest first. -/
def joinedBy (joined : List String) (steps : List JoinEdge) : List String :=
  (steps.map JoinEdge.rightAlias).reverse ++ joined

@[simp] theorem joinedBy_nil (joined : List String) : joinedBy joined [] = joined :=
  rfl

@[simp] theorem joinedBy_cons (joined : List String) (step : JoinEdge) (steps : List JoinEdge) :
    joinedBy joined (step :: steps) = joinedBy (step.rightAlias :: joined) steps := by
  simp [joinedBy]

theorem mem_joinedBy {joined : List String} {steps : List JoinEdge} {a : String} :
    a ∈ joinedBy joined steps ↔ a ∈ joined ∨ a ∈ steps.map JoinEdge.rightAlias := by
  rw [joinedBy, List.mem_append, List.mem_reverse]
  exact or_comm

theorem exists_walk (joined : List String) (edges : List Numbered) :
    ∃ picked left, Walk joined edges picked left ∧
      order joined (edges.map Prod.fst) = (directed joined picked, left.map Prod.fst) := by
  induction n : edges.length generalizing joined edges with
  | zero =>
    rw [List.length_eq_zero_iff] at n
    subst n
    exact ⟨[], [], .done (by simp), order_of_none rfl⟩
  | succ n ih =>
    have mapped := takeFirst?_map (p := (·.crosses joined)) Prod.fst edges
    cases found : takeFirst? (fun e : Numbered => e.1.crosses joined) edges with
    | none =>
      rw [found] at mapped
      exact ⟨[], edges, .done (takeFirst?_eq_none.1 found), order_of_none mapped⟩
    | some taken =>
      obtain ⟨e, rest⟩ := taken
      rw [found] at mapped
      obtain ⟨before, after, rfl, rfl, crossing, skipped⟩ := exists_of_takeFirst? found
      obtain ⟨picked, left, walk, ordered⟩ :=
        ih ((e.1.outward joined).rightAlias :: joined) (before ++ after) (by grind)
      refine ⟨e :: picked, left, .step skipped crossing walk, ?_⟩
      rw [order_of_some mapped, ordered, directed]

namespace Walk

variable {joined : List String} {edges picked left : List Numbered}

theorem perm (walk : Walk joined edges picked left) : (picked ++ left).Perm edges := by
  induction walk with
  | done => exact .refl _
  | step _ _ _ ih => exact (ih.cons _).trans List.perm_middle.symm

theorem left_eq (walk : Walk joined edges picked left) (distinct : (edges.map Prod.snd).Nodup) :
    left = edges.filter fun e => e.2 ∉ picked.map Prod.snd := by
  induction walk with
  | done => exact (List.filter_eq_self.2 (by simp)).symm
  | @step joined before e after picked left skipped crossing rest ih =>
    have unlike : ∀ d ∈ before ++ after, d.2 ≠ e.2 := by
      have moved := (List.perm_middle.map Prod.snd).nodup distinct
      rw [List.map_cons, List.nodup_cons] at moved
      exact fun d mem same => moved.1 (List.mem_map.2 ⟨d, mem, same⟩)
    have sub : (before ++ after).Sublist (before ++ e :: after) :=
      (List.sublist_cons_self e after).append_left before
    rw [ih ((sub.map Prod.snd).nodup distinct), List.filter_append, List.filter_append,
      List.filter_cons_of_neg (by simp), ← List.filter_append, ← List.filter_append]
    refine List.filter_congr fun d mem => ?_
    simp [unlike d mem]

theorem nodup_joinedBy (walk : Walk joined edges picked left) (distinct : joined.Nodup) :
    (joinedBy joined (directed joined picked)).Nodup := by
  induction walk with
  | done => exact distinct
  | step _ crossing _ ih =>
    rw [directed, joinedBy_cons]
    exact ih (List.nodup_cons.2 ⟨(JoinEdge.outward_of_crosses crossing).2, distinct⟩)

theorem left_within (walk : Walk joined edges picked left) :
    ∀ e ∈ left, e.1.Within (· ∈ joinedBy joined (directed joined picked)) := by
  induction walk with
  | done none => exact fun e mem => JoinEdge.crosses_eq_false_iff.1 (none e mem)
  | step _ _ _ ih =>
    rw [directed, joinedBy_cons]
    exact ih

theorem picked_ends (walk : Walk joined edges picked left) :
    ∀ e ∈ picked, e.1.leftAlias ∈ joinedBy joined (directed joined picked) ∧
      e.1.rightAlias ∈ joinedBy joined (directed joined picked) := by
  induction walk with
  | done => simp
  | @step joined before e after picked left skipped crossing rest ih =>
    rw [directed, joinedBy_cons]
    refine List.forall_mem_cons.2 ⟨?_, ih⟩
    rw [← JoinEdge.outward_ends e.1 joined]
    have start := JoinEdge.outward_of_crosses crossing
    exact ⟨mem_joinedBy.2 (.inl (List.mem_cons_of_mem _ start.1)),
      mem_joinedBy.2 (.inl List.mem_cons_self)⟩

theorem closed (walk : Walk joined edges picked left) :
    Closed (edges.map Prod.fst) (· ∈ joinedBy joined (directed joined picked)) := by
  refine List.forall_mem_map.2 fun e mem => ?_
  obtain picked | left := List.mem_append.1 (walk.perm.symm.subset mem)
  · have ends := walk.picked_ends e picked
    exact iff_of_true ends.1 ends.2
  · exact walk.left_within e left

theorem forall_mem_joinedBy {p : String → Prop} (walk : Walk joined edges picked left)
    (closed : Closed (edges.map Prod.fst) p) (inside : ∀ a ∈ joined, p a) :
    ∀ a ∈ joinedBy joined (directed joined picked), p a := by
  induction walk with
  | done => exact inside
  | @step joined before e after picked left skipped crossing rest ih =>
    rw [directed, joinedBy_cons]
    have closed := List.forall_mem_map.1 closed
    refine ih (List.forall_mem_map.2 fun d mem => closed d ?_) ?_
    · exact ((List.sublist_cons_self e after).append_left before).subset mem
    · have within := closed e (List.mem_append_right _ List.mem_cons_self)
      have from_inside := inside _ (JoinEdge.outward_of_crosses crossing).1
      refine List.forall_mem_cons.2 ⟨?_, inside⟩
      obtain same | same := e.1.outward_eq joined
      · rw [same] at from_inside ⊢
        exact within.1 from_inside
      · rw [same] at from_inside ⊢
        exact within.2 from_inside

theorem pick (walk : Walk joined edges picked left)
    (sorted : edges.Pairwise (fun d e => d.2 < e.2)) (k : Nat) (e : Numbered)
    (at_step : picked[k]? = some e) :
    (directed joined picked)[k]? =
        some (e.1.outward (joinedBy joined ((directed joined picked).take k))) ∧
      e.1.crosses (joinedBy joined ((directed joined picked).take k)) = true ∧
      ∀ d ∈ edges, d ∉ picked.take k →
        d.1.crosses (joinedBy joined ((directed joined picked).take k)) = true → e.2 ≤ d.2 := by
  induction walk generalizing k with
  | done => cases at_step
  | @step joined before first after picked left skipped crossing rest ih =>
    have sub : (before ++ after).Sublist (before ++ first :: after) :=
      (List.sublist_cons_self first after).append_left before
    cases k with
    | zero =>
      cases at_step
      refine ⟨rfl, crossing, fun d mem _ crosses => ?_⟩
      obtain mem | mem := List.mem_append.1 mem
      · rw [List.take_zero, joinedBy_nil, skipped d mem] at crosses
        cases crosses
      · obtain rfl | mem := List.mem_cons.1 mem
        · exact Nat.le_refl _
        · have tail := (List.pairwise_append.1 sorted).2.1
          exact Nat.le_of_lt ((List.pairwise_cons.1 tail).1 d mem)
    | succ k =>
      rw [directed, List.take_succ_cons, joinedBy_cons]
      obtain ⟨made, crosses, lowest⟩ := ih (sorted.sublist sub) k at_step
      refine ⟨made, crosses, fun d mem unpicked => ?_⟩
      rw [List.take_succ_cons, List.mem_cons, not_or] at unpicked
      refine lowest d ?_ unpicked.2
      obtain mem | mem := List.mem_append.1 mem
      · exact List.mem_append_left _ mem
      · exact List.mem_append_right _ ((List.mem_cons.1 mem).resolve_left unpicked.1)

end Walk

end TablePlan.JoinOrder
