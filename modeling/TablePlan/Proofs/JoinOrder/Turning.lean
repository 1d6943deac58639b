import TablePlan.Proofs.JoinOrder.Joinable

/-!
Edges written from their other sides. A step leads away from the joined aliases, whichever side its
edge is written from; only the first edge decides where the walk starts. So the steps are the same,
except that the first one may start from its other end.
-/

namespace TablePlan

namespace JoinEdge

def Turned (e' e : JoinEdge) : Prop :=
  e' = e ∨ e' = e.reversed

namespace Turned

variable {d d' e e' : JoinEdge} (turned : e'.Turned e)

include turned

theorem apart (apart : e.leftAlias ≠ e.rightAlias) : e'.leftAlias ≠ e'.rightAlias := by
  obtain rfl | rfl := turned
  · exact apart
  · exact apart.symm

theorem joins (a : String) : e'.joins a = e.joins a := by
  obtain rfl | rfl := turned
  · rfl
  · exact Bool.or_comm _ _

theorem samePair (turned' : d'.Turned d) : e'.samePair d' = e.samePair d := by
  have reversed_left (e d : JoinEdge) : e.reversed.samePair d = e.samePair d := by
    simp only [JoinEdge.samePair, JoinEdge.reversed, Bool.or_comm, Bool.and_comm]
  have reversed_right (e d : JoinEdge) : e.samePair d.reversed = e.samePair d := by
    rw [samePair_comm, reversed_left, samePair_comm]
  obtain rfl | rfl := turned <;> obtain rfl | rfl := turned' <;>
    simp only [reversed_left, reversed_right]

theorem crosses (joined : List String) : e'.crosses joined = e.crosses joined := by
  obtain rfl | rfl := turned
  · rfl
  · exact bne_comm

theorem outward {joined : List String} (crossing : e.crosses joined = true) :
    e'.outward joined = e.outward joined := by
  obtain rfl | rfl := turned
  · rfl
  · unfold JoinEdge.outward
    unfold JoinEdge.crosses at crossing
    rw [JoinEdge.reversed_reversed]
    change (if joined.contains e.rightAlias then _ else _) = _
    revert crossing
    cases joined.contains e.leftAlias <;> cases joined.contains e.rightAlias <;> simp

end Turned

end JoinEdge

namespace JoinOrder

section Edges

variable {aliases : List String} {edges edges' : List JoinEdge}
  (turned : List.Forall₂ JoinEdge.Turned edges' edges)

include turned

theorem Connected.of_turned {a b : String} (path : Connected edges a b) : Connected edges' a b := by
  refine Relation.ReflTransGen.mono ?_ a b path
  rintro c d ⟨e, mem, ends⟩
  obtain ⟨e', mem', rfl | rfl⟩ := exists_of_mem_forall₂ turned mem
  · exact ⟨e', mem', ends⟩
  · exact ⟨_, mem', ends.symm.imp And.symm And.symm⟩

theorem Spans.of_turned (spans : Spans aliases edges) : Spans aliases edges' where
  declared e' mem' := by
    obtain ⟨e, mem, rfl | rfl⟩ := exists_of_mem_forall₂ turned.flip mem'
    · exact spans.declared e' mem
    · exact (spans.declared e mem).symm
  joined a mem := by
    obtain ⟨e, mem, joins⟩ := spans.joined a mem
    obtain ⟨e', mem, turned⟩ := exists_of_mem_forall₂ turned mem
    exact ⟨e', mem, (turned.joins a).trans joins⟩
  connected a mem b mem' := (spans.connected a mem b mem').of_turned turned

theorem Joinable.of_turned (joinable : Joinable aliases edges) : Joinable aliases edges' where
  nonempty := joinable.nonempty
  apart e' mem := by
    obtain ⟨e, mem, turned⟩ := exists_of_mem_forall₂ turned.flip mem
    exact JoinEdge.Turned.apart turned (joinable.apart e mem)
  once := pairwise_of_forall₂ turned
    (fun _ _ _ _ turned turned' other => (turned'.samePair turned).trans other) joinable.once
  spans many := (joinable.spans many).of_turned turned

end Edges

theorem takeFirst?_forall₂ {α β : Type} {related : α → β → Prop} {p : α → Bool} {q : β → Bool}
    {as : List α} {bs : List β} (all : List.Forall₂ related as bs)
    (same : ∀ a b, related a b → p a = q b) :
    (takeFirst? p as = none ∧ takeFirst? q bs = none) ∨
      ∃ a b rest rest', takeFirst? p as = some (a, rest) ∧ takeFirst? q bs = some (b, rest') ∧
        related a b ∧ List.Forall₂ related rest rest' := by
  induction all with
  | nil => exact .inl ⟨rfl, rfl⟩
  | @cons a b as bs first rest ih =>
    rw [takeFirst?, takeFirst?, same a b first]
    cases q b with
    | true => exact .inr ⟨a, b, as, bs, rfl, rfl, first, rest⟩
    | false =>
      simp only [Bool.false_eq_true, if_false]
      obtain ⟨none, none'⟩ | ⟨c, d, rest, rest', found, found', relates, others⟩ := ih
      · rw [none, none']
        exact .inl ⟨rfl, rfl⟩
      · rw [found, found']
        exact .inr ⟨c, d, _, _, rfl, rfl, relates, .cons first others⟩

theorem order_turned {joined joined' : List String} {edges edges' : List JoinEdge}
    (turned : List.Forall₂ JoinEdge.Turned edges' edges) (same : ∀ a, a ∈ joined' ↔ a ∈ joined) :
    (order joined' edges').1 = (order joined edges).1 ∧
      List.Forall₂ JoinEdge.Turned (order joined' edges').2 (order joined edges).2 := by
  induction length : edges.length generalizing joined joined' edges edges' with
  | zero =>
    rw [List.length_eq_zero_iff] at length
    subst length
    cases turned
    rw [order_of_none rfl, order_of_none rfl]
    exact ⟨rfl, .nil⟩
  | succ n ih =>
    have tests (e' e : JoinEdge) (turned : e'.Turned e) : e'.crosses joined' = e.crosses joined :=
      (JoinEdge.crosses_congr same).trans (turned.crosses joined)
    obtain ⟨none', none⟩ | ⟨e', e, rest', rest, found', found, turned_e, others⟩ :=
      takeFirst?_forall₂ turned tests
    · rw [order_of_none none', order_of_none none]
      exact ⟨rfl, turned⟩
    · have shorter : rest.length = n := by
        rw [length_of_takeFirst? found, Nat.add_right_cancel_iff] at length
        exact length
      obtain ⟨_, _, _, _, crossing, _⟩ := exists_of_takeFirst? found
      have step : e'.outward joined' = e.outward joined :=
        (JoinEdge.outward_congr same).trans (turned_e.outward crossing)
      rw [order_of_some found', order_of_some found, step]
      have reached (a : String) : a ∈ (e.outward joined).rightAlias :: joined' ↔
          a ∈ (e.outward joined).rightAlias :: joined := by
        rw [List.mem_cons, List.mem_cons, same]
      obtain ⟨steps, left⟩ := ih others reached shorter
      exact ⟨congrArg (_ :: ·) steps, left⟩

theorem walked_cons {e : JoinEdge} {edges : List JoinEdge} (apart : e.leftAlias ≠ e.rightAlias) :
    walked (e :: edges) =
      ⟨e.leftAlias, e :: (order [e.rightAlias, e.leftAlias] edges).1,
        (order [e.rightAlias, e.leftAlias] edges).2⟩ := by
  have crossing : e.crosses [e.leftAlias] = true := by
    simp [JoinEdge.crosses, apart.symm]
  have found : takeFirst? (·.crosses [e.leftAlias]) (e :: edges) = some (e, edges) := by
    rw [takeFirst?, if_pos crossing]
  have step : e.outward [e.leftAlias] = e := by
    simp [JoinEdge.outward]
  have ordered := order_of_some found
  rw [step] at ordered
  unfold walked
  rw [show start (e :: edges) = e.leftAlias from rfl, ordered]

/-- Two orders of the same steps, but for the side from which the first one starts, over edges left
over that are the same, but for the sides they are written from. -/
inductive Turned : (order' order : JoinOrder) → Prop
  | same {root steps left' left} (residual : List.Forall₂ JoinEdge.Turned left' left) :
    Turned ⟨root, steps, left'⟩ ⟨root, steps, left⟩
  | mirrored {e : JoinEdge} {steps left' left}
    (residual : List.Forall₂ JoinEdge.Turned left' left) :
    Turned ⟨e.rightAlias, e.reversed :: steps, left'⟩ ⟨e.leftAlias, e :: steps, left⟩

theorem Turned.residual {order' order : JoinOrder} (turned : order'.Turned order) :
    List.Forall₂ JoinEdge.Turned order'.residual order.residual := by
  cases turned with
  | same residual => exact residual
  | mirrored residual => exact residual

theorem walked_turned {edges edges' : List JoinEdge}
    (turned : List.Forall₂ JoinEdge.Turned edges' edges)
    (apart : ∀ e ∈ edges, e.leftAlias ≠ e.rightAlias) : (walked edges').Turned (walked edges) := by
  cases turned with
  | nil =>
    unfold walked
    rw [order_of_none rfl]
    exact .same .nil
  | @cons e' e edges' edges first rest =>
    have apart := apart e List.mem_cons_self
    rw [walked_cons apart, walked_cons (first.apart apart)]
    obtain rfl | rfl := first
    · have same (a : String) : a ∈ [e'.rightAlias, e'.leftAlias] ↔
          a ∈ [e'.rightAlias, e'.leftAlias] := Iff.rfl
      obtain ⟨steps, left⟩ := order_turned rest same
      rw [steps]
      exact .same left
    · have same (a : String) : a ∈ [e.leftAlias, e.rightAlias] ↔
          a ∈ [e.rightAlias, e.leftAlias] := by simp [or_comm]
      obtain ⟨steps, left⟩ := order_turned rest same
      change JoinOrder.Turned ⟨_, _ :: (order [e.leftAlias, e.rightAlias] edges').1, _⟩ _
      rw [steps]
      exact .mirrored left

theorem exists_ofEdges_turned {aliases : List String} {edges edges' : List JoinEdge}
    {order : JoinOrder} (ok : ofEdges aliases edges = .ok order)
    (turned : List.Forall₂ JoinEdge.Turned edges' edges) :
    ∃ order', ofEdges aliases edges' = .ok order' ∧ order'.Turned order := by
  by_cases many : aliases.length ≠ 1
  · obtain ⟨joinable, rfl⟩ := (ofEdges_many many).1 ok
    exact ⟨_, (ofEdges_many many).2 ⟨joinable.of_turned turned, rfl⟩,
      walked_turned turned joinable.apart⟩
  · obtain ⟨a, rfl⟩ := List.length_eq_one_iff.1 (not_not.1 many)
    obtain ⟨joinable, rfl⟩ := ofEdges_single.1 ok
    exact ⟨_, ofEdges_single.2 ⟨joinable.of_turned turned, rfl⟩, .same .nil⟩

end JoinOrder

end TablePlan
