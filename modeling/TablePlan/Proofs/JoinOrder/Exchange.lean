import TablePlan.Proofs.JoinOrder.Shape

/-!
Orders of the same edges, written in different orders. Each divides the edges into those that it
makes steps of and those that it leaves over; both leave over equally many, so an edge that only
one of them leaves over comes with one that only the other does.
-/

namespace TablePlan

/-- Whether an edge is one of some steps, in either direction. -/
def JoinEdge.MadeIn (e : JoinEdge) (steps : List JoinEdge) : Prop :=
  e ∈ steps ∨ e.reversed ∈ steps

theorem JoinEdge.samePair_self (e : JoinEdge) : e.samePair e = true := by
  simp [samePair]

theorem JoinEdge.samePair_reversed (e : JoinEdge) : e.samePair e.reversed = true := by
  simp [samePair, reversed]

theorem JoinEdge.reversed_inj {d e : JoinEdge} : d.reversed = e.reversed ↔ d = e := by
  constructor
  · intro same
    rw [← d.reversed_reversed, same, e.reversed_reversed]
  · exact congrArg reversed

namespace JoinOrder

theorem eq_of_samePair {edges : List JoinEdge}
    (once : edges.Pairwise fun d e => e.samePair d = false) {i j : Nat} {d e : JoinEdge}
    (at_i : edges[i]? = some d) (at_j : edges[j]? = some e) (same : d.samePair e = true) :
    i = j := by
  obtain ⟨within_i, rfl⟩ := List.getElem?_eq_some_iff.1 at_i
  obtain ⟨within_j, rfl⟩ := List.getElem?_eq_some_iff.1 at_j
  obtain less | same_index | less := Nat.lt_trichotomy i j
  · have apart := List.pairwise_iff_getElem.1 once i j within_i within_j less
    rw [JoinEdge.samePair_comm, same] at apart
    cases apart
  · exact same_index
  · have apart := List.pairwise_iff_getElem.1 once j i within_j within_i less
    rw [same] at apart
    cases apart

theorem nodup_of_once {edges : List JoinEdge}
    (once : edges.Pairwise fun d e => e.samePair d = false) : edges.Nodup := by
  refine once.imp fun {d e} apart same => ?_
  rw [same, e.samePair_self] at apart
  cases apart

namespace Greedy

variable {order : JoinOrder} {edges : List JoinEdge} {picks : List Nat}
  (greedy : order.Greedy edges picks)

include greedy

theorem residual_sublist : order.residual.Sublist edges := by
  have sub : order.residual.Sublist (edges.zipIdx.map Prod.fst) :=
    greedy.residual ▸ List.filter_sublist.map Prod.fst
  rwa [List.zipIdx_map_fst] at sub

theorem exists_picked {step : JoinEdge} (mem : step ∈ order.steps) :
    ∃ i ∈ picks, ∃ e, edges[i]? = some e ∧ (step = e ∨ step = e.reversed) := by
  obtain ⟨k, at_k⟩ := List.mem_iff_getElem?.1 mem
  obtain ⟨within, _⟩ := List.getElem?_eq_some_iff.1 at_k
  rw [← greedy.length_eq] at within
  obtain ⟨e, step', at_pick, at_k', written, _⟩ :=
    greedy.step k picks[k] (List.getElem?_eq_getElem within)
  cases at_k.symm.trans at_k'
  exact ⟨_, List.getElem_mem within, e, at_pick, written⟩

theorem exists_step {i : Nat} {e : JoinEdge} (picked : i ∈ picks) (at_i : edges[i]? = some e) :
    e.MadeIn order.steps := by
  obtain ⟨k, at_k⟩ := List.mem_iff_getElem?.1 picked
  obtain ⟨d, step, at_i', at_step, written, _⟩ := greedy.step k i at_k
  cases at_i.symm.trans at_i'
  have mem := List.mem_of_getElem? at_step
  obtain rfl | rfl := written
  · exact .inl mem
  · exact .inr mem

theorem forall_steps {p : JoinEdge → Prop} (either : ∀ e, p e.reversed ↔ p e) :
    (∀ step ∈ order.steps, p step) ↔ ∀ e ∈ edges, e.MadeIn order.steps → p e := by
  constructor
  · rintro all e _ (mem | mem)
    · exact all e mem
    · exact (either e).1 (all _ mem)
  · intro all step mem
    obtain ⟨i, _, e, at_i, rfl | rfl⟩ := greedy.exists_picked mem
    · exact all _ (List.mem_of_getElem? at_i) (.inl mem)
    · exact (either e).2 (all e (List.mem_of_getElem? at_i) (.inr mem))

theorem samePair_of_madeIn {e : JoinEdge} (made : e.MadeIn order.steps) :
    ∃ i ∈ picks, ∃ d, edges[i]? = some d ∧ d.samePair e = true := by
  obtain mem | mem := made
  · obtain ⟨i, picked, d, at_i, rfl | rfl⟩ := greedy.exists_picked mem
    · exact ⟨i, picked, _, at_i, JoinEdge.samePair_self _⟩
    · exact ⟨i, picked, d, at_i, d.samePair_reversed⟩
  · obtain ⟨i, picked, d, at_i, same | same⟩ := greedy.exists_picked mem
    · exact ⟨i, picked, d, at_i, by rw [← same, JoinEdge.samePair_comm, e.samePair_reversed]⟩
    · exact ⟨i, picked, d, at_i, by rw [JoinEdge.reversed_inj.1 same, d.samePair_self]⟩

theorem mem_residual_iff (once : edges.Pairwise fun d e => e.samePair d = false) {e : JoinEdge} :
    e ∈ order.residual ↔ e ∈ edges ∧ ¬ e.MadeIn order.steps := by
  rw [greedy.residual]
  constructor
  · intro left
    obtain ⟨⟨e, j⟩, kept, rfl⟩ := List.mem_map.1 left
    obtain ⟨numbered, unpicked⟩ := List.mem_filter.1 kept
    have at_j := List.mem_zipIdx_iff_getElem?.1 numbered
    refine ⟨List.mem_of_getElem? at_j, fun made => of_decide_eq_true unpicked ?_⟩
    obtain ⟨i, picked, d, at_i, same⟩ := greedy.samePair_of_madeIn made
    exact eq_of_samePair once at_i at_j same ▸ picked
  · rintro ⟨mem, unmade⟩
    obtain ⟨i, at_i⟩ := List.mem_iff_getElem?.1 mem
    have numbered : (e, i) ∈ edges.zipIdx := List.mem_zipIdx_iff_getElem?.2 at_i
    refine List.mem_map.2 ⟨(e, i), List.mem_filter.2 ⟨numbered, ?_⟩, rfl⟩
    exact decide_eq_true fun picked => unmade (greedy.exists_step picked at_i)

theorem length_steps_add : order.steps.length + order.residual.length = edges.length := by
  have numbers : (edges.zipIdx.map Prod.snd).Nodup := by
    rw [List.zipIdx_map_snd]
    exact List.nodup_range'
  have picked : ((edges.zipIdx.filter fun e => e.2 ∈ picks).map Prod.snd).Perm picks := by
    refine (List.perm_ext_iff_of_nodup (numbers.sublist (List.filter_sublist.map _))
      greedy.distinct).2 fun i => ?_
    simp only [List.mem_map, List.mem_filter, decide_eq_true_eq]
    constructor
    · rintro ⟨_, ⟨_, picked⟩, rfl⟩
      exact picked
    · intro picked
      obtain ⟨k, at_k⟩ := List.mem_iff_getElem?.1 picked
      obtain ⟨e, _, at_i, _⟩ := greedy.step k i at_k
      exact ⟨(e, i), ⟨List.mem_zipIdx_iff_getElem?.2 at_i, picked⟩, rfl⟩
  have split := List.length_eq_length_filter_add (l := edges.zipIdx) fun e => decide (e.2 ∈ picks)
  rw [← greedy.length_eq, ← picked.length_eq, greedy.residual, List.length_map, List.length_map]
  simpa using split.symm

end Greedy

theorem exists_left_over {aliases : List String} {edges edges' : List JoinEdge}
    {order order' : JoinOrder} (distinct : aliases.Nodup) (declared : Declared aliases edges)
    (permuted : edges'.Perm edges) (ok : ofEdges aliases edges = .ok order)
    (ok' : ofEdges aliases edges' = .ok order') {e : JoinEdge} (left : e ∈ order.residual)
    (made : e ∉ order'.residual) : ∃ d ∈ order'.residual, d ∉ order.residual := by
  obtain ⟨picks, greedy⟩ := exists_greedy declared ok
  obtain ⟨picks', greedy'⟩ :=
    exists_greedy (fun e mem => declared e (permuted.subset mem)) ok'
  have once := (exists_ofEdges_eq_ok.1 ⟨order', ok'⟩).once
  have steps : order.steps.length = order'.steps.length := by
    have aliases := (scanned_perm distinct ok).trans (scanned_perm distinct ok').symm
    simpa [scanned] using aliases.length_eq
  have lengths : order.residual.length = order'.residual.length := by
    have all := greedy.length_steps_add
    have all' := greedy'.length_steps_add
    have edges_length := permuted.length_eq
    omega
  by_contra none
  push Not at none
  have distinct' := (nodup_of_once once).sublist greedy'.residual_sublist
  have same := (List.subperm_of_subset distinct' none).perm_of_length_le (Nat.le_of_eq lengths)
  exact made (same.symm.subset left)

end JoinOrder

end TablePlan
