import TablePlan.Sorter.Basic
import TablePlan.Sorter.Routine

/-!
The sorting routine of the program. Up to 20 elements are inserted one after the other. Up to 32 are
a long run at the front and the others, or else two halves that are merged from both ends at once;
when the comparisons contradict each other the ends need not meet, and then the routine gives up.
Longer lists are merged here in one way only, which makes no difference to consistent comparisons.
-/

namespace TablePlan.Sorter

section Order

variable {n : Nat}

def isLess (cmp : Fin n → Fin n → Ordering) (i j : Fin n) : Bool :=
  cmp i j == .lt

variable {cmp : Fin n → Fin n → Ordering} {i j k : Fin n}

theorem spanRun_pairwise {before : Fin n → Fin n → Prop} {descending : Bool} {l : List (Fin n)}
    (trans : ∀ i j k, before i j → before j k → before i k)
    (step : ∀ i j, i < j → isLess cmp j i = descending → before i j)
    (increasing : (i :: l).Pairwise (· < ·)) :
    (spanRun (isLess cmp) descending i l).1.Pairwise before ∧
      ∀ j ∈ (spanRun (isLess cmp) descending i l).1, j = i ∨ before i j := by
  induction l generalizing i with
  | nil => simp [spanRun]
  | cons j l ih =>
    unfold spanRun
    split
    · rename_i follows
      have older : i < j := List.rel_of_pairwise_cons increasing List.mem_cons_self
      have first := step i j older (beq_iff_eq.1 follows)
      obtain ⟨run, behind⟩ := ih (List.pairwise_cons.1 increasing).2
      have all : ∀ k ∈ (spanRun (isLess cmp) descending j l).1, before i k := by
        intro k mem
        obtain rfl | later := behind k mem
        · exact first
        · exact trans i j k first later
      refine ⟨List.pairwise_cons.2 ⟨all, run⟩, fun k mem => ?_⟩
      exact (List.mem_cons.1 mem).imp id (all k)
    · simp

theorem standsBefore_of_isLess (less : isLess cmp i j = true) : StandsBefore cmp i j := by
  rw [StandsBefore, beq_iff_eq.1 less]
  rfl

variable [Std.TransCmp cmp]

theorem StandsBefore.trans (first : StandsBefore cmp i j) (second : StandsBefore cmp j k) :
    StandsBefore cmp i k :=
  @Std.TransCmp.lt_trans _ (compareLex cmp compare) _ _ _ _ first second

theorem StandsBefore.asymm (before : StandsBefore cmp i j) : ¬ StandsBefore cmp j i := by
  intro back
  have self : (cmp i i).then (compare i i) = .lt := before.trans back
  have same : cmp i i = .eq := Std.ReflCmp.compare_self
  have same' : compare i i = .eq := Std.ReflCmp.compare_self
  rw [same, same'] at self
  cases self

theorem ne_of_standsBefore (before : StandsBefore cmp i j) : i ≠ j := by
  rintro rfl
  exact before.asymm before

theorem standsBefore_of_lt (older : i < j) (stays : isLess cmp j i = false) :
    StandsBefore cmp i j := by
  have position : compare i j = .lt := Nat.compare_eq_lt.2 older
  have turned : cmp i j = (cmp j i).swap := Std.OrientedCmp.eq_swap
  rw [isLess, beq_eq_false_iff_ne] at stays
  rw [StandsBefore, position, turned]
  cases order : cmp j i with
  | lt => exact absurd order stays
  | eq => rfl
  | gt => rfl

theorem isLess_of_standsBefore (before : StandsBefore cmp i j) : isLess cmp j i = false := by
  cases less : isLess cmp j i with
  | false => rfl
  | true => exact absurd (standsBefore_of_isLess less) before.asymm

def Sorted (cmp : Fin n → Fin n → Ordering) (l : List (Fin n)) : Prop :=
  l.Pairwise (StandsBefore cmp)

def Older (l r : List (Fin n)) : Prop :=
  ∀ i ∈ l, ∀ j ∈ r, i < j

theorem Older.of_perm {l l' r r' : List (Fin n)} (older : Older l r) (left : l'.Perm l)
    (right : r'.Perm r) : Older l' r' :=
  fun i mem j mem' => older i (left.mem_iff.1 mem) j (right.mem_iff.1 mem')

theorem moveBack_sorted {back : List (Fin n)} (sorted : Sorted cmp back.reverse)
    (older : Older back [i]) : Sorted cmp (moveBack (isLess cmp) i back).reverse := by
  rw [Sorted, List.pairwise_reverse] at sorted ⊢
  induction back with
  | nil => exact List.pairwise_singleton ..
  | cons j back ih =>
    obtain ⟨last, sorted⟩ := List.pairwise_cons.1 sorted
    have older_j : j < i := older j List.mem_cons_self i List.mem_cons_self
    have moved := ih sorted fun k mem => older k (List.mem_cons_of_mem j mem)
    unfold moveBack
    split
    · rename_i less
      refine List.pairwise_cons.2 ⟨fun k mem => ?_, moved⟩
      obtain rfl | mem := List.mem_cons.1 ((moveBack_perm ..).mem_iff.1 mem)
      · exact standsBefore_of_isLess less
      · exact last k mem
    · rename_i stays
      have before := standsBefore_of_lt older_j (Bool.eq_false_iff.2 stays)
      refine List.pairwise_cons.2 ⟨fun k mem => ?_, List.pairwise_cons.2 ⟨last, sorted⟩⟩
      obtain rfl | mem := List.mem_cons.1 mem
      · exact before
      · exact (last k mem).trans before

theorem insertAll_sorted {sorted l : List (Fin n)} (inOrder : Sorted cmp sorted)
    (older : Older sorted l) (increasing : l.Pairwise (· < ·)) :
    Sorted cmp (insertAll (isLess cmp) sorted l) := by
  induction l generalizing sorted with
  | nil => simpa [insertAll] using inOrder
  | cons i l ih =>
    obtain ⟨first, increasing⟩ := List.pairwise_cons.1 increasing
    rw [insertAll_cons]
    refine ih (moveBack_sorted ?_ ?_) ?_ increasing
    · rwa [List.reverse_reverse]
    · intro j mem k mem'
      cases List.mem_singleton.1 mem'
      exact older j (List.mem_reverse.1 mem) i List.mem_cons_self
    · intro j mem k mem'
      obtain rfl | mem := List.mem_cons.1 ((moved_perm ..).mem_iff.1 mem)
      · exact first k mem'
      · exact older j mem k (List.mem_cons_of_mem i mem')

theorem sortPair_before (older : i < j) :
    StandsBefore cmp (sortPair (isLess cmp) i j).1 (sortPair (isLess cmp) i j).2 := by
  unfold sortPair
  split
  · rename_i less
    exact standsBefore_of_isLess less
  · rename_i stays
    exact standsBefore_of_lt older (Bool.eq_false_iff.2 stays)

theorem sorted_four {a b c d : Fin n} (ab : StandsBefore cmp a b) (bc : StandsBefore cmp b c)
    (cd : StandsBefore cmp c d) : Sorted cmp [a, b, c, d] := by
  simp [Sorted, ab, bc, cd, ab.trans bc, bc.trans cd, (ab.trans bc).trans cd]

theorem mergePairs_sorted {a b c d : Fin n} (left : StandsBefore cmp a b)
    (right : StandsBefore cmp c d) (older : Older [a, b] [c, d]) :
    Sorted cmp (mergePairs (isLess cmp) a b c d) := by
  simp only [Older, List.forall_mem_cons, List.not_mem_nil, false_implies, implies_true,
    and_true] at older
  obtain ⟨⟨ac, ad⟩, bc, bd⟩ := older
  unfold mergePairs
  cases first : isLess cmp c a <;> cases last : isLess cmp d b
  · have a_c := standsBefore_of_lt ac first
    have b_d := standsBefore_of_lt bd last
    cases inner : isLess cmp c b <;> simp only [inner, ite_true, ite_false, Bool.false_eq_true]
    · exact sorted_four left (standsBefore_of_lt bc inner) right
    · exact sorted_four a_c (standsBefore_of_isLess inner) b_d
  · simp only [ite_true, ite_false, Bool.false_eq_true, isLess_of_standsBefore right]
    exact sorted_four (standsBefore_of_lt ac first) right (standsBefore_of_isLess last)
  · simp only [ite_true, ite_false, Bool.false_eq_true, isLess_of_standsBefore left]
    exact sorted_four (standsBefore_of_isLess first) left (standsBefore_of_lt bd last)
  · have c_a := standsBefore_of_isLess first
    have d_b := standsBefore_of_isLess last
    cases inner : isLess cmp d a <;> simp only [inner, ite_true, ite_false, Bool.false_eq_true]
    · exact sorted_four c_a (standsBefore_of_lt ad inner) d_b
    · exact sorted_four right (standsBefore_of_isLess inner) left

theorem sortFour_sorted {a b c d : Fin n} {l : List (Fin n)}
    (increasing : (a :: b :: c :: d :: l).Pairwise (· < ·)) :
    Sorted cmp (sortFour (isLess cmp) a b c d) := by
  have halves : ([a, b] ++ c :: d :: l).Pairwise (· < ·) := increasing
  obtain ⟨left, right, across⟩ := List.pairwise_append.1 halves
  have ab : a < b := List.rel_of_pairwise_cons left List.mem_cons_self
  have cd : c < d := List.rel_of_pairwise_cons right List.mem_cons_self
  have older : Older [a, b] [c, d] := fun i mem j mem' =>
    across i mem j (List.mem_append_left l mem')
  exact mergePairs_sorted (sortPair_before ab) (sortPair_before cd)
    (older.of_perm (sortPair_perm ..) (sortPair_perm ..))

theorem insertAll_nil_sorted {l : List (Fin n)} (increasing : l.Pairwise (· < ·)) :
    Sorted cmp (insertAll (isLess cmp) [] l) :=
  insertAll_sorted .nil (fun _ mem => absurd mem List.not_mem_nil) increasing

theorem sortHalf_sorted {l : List (Fin n)} (increasing : l.Pairwise (· < ·)) :
    Sorted cmp (sortHalf (isLess cmp) l) := by
  unfold sortHalf
  split
  · rename_i a b c d l
    have parts : ([a, b, c, d] ++ l).Pairwise (· < ·) := increasing
    obtain ⟨_, rest, older⟩ := List.pairwise_append.1 parts
    exact insertAll_sorted (sortFour_sorted increasing)
      (Older.of_perm older (sortFour_perm ..) (.refl l)) rest
  · exact insertAll_nil_sorted increasing

section Merge

variable {l r : List (Fin n)} (sorted : Sorted cmp l) (sorted' : Sorted cmp r)
  (older : Older l r)

include sorted sorted' older

theorem mergeForward_sorted : Sorted cmp (mergeForward (isLess cmp) l r) := by
  refine pairwise_merge StandsBefore.trans ?_ ?_ sorted sorted'
  · intro i mem j mem' stays
    exact standsBefore_of_lt (older i mem j mem') (by simpa using stays)
  · intro i _ j _ less
    exact standsBefore_of_isLess (by simpa using less)

theorem mergeBackward_sorted : Sorted cmp (mergeBackward (isLess cmp) l r) := by
  rw [Sorted, mergeBackward, List.pairwise_reverse]
  refine pairwise_merge (fun first second => second.trans first) ?_ ?_
    (List.pairwise_reverse.2 sorted') (List.pairwise_reverse.2 sorted)
  · intro j mem i mem' stays
    exact standsBefore_of_lt (older i (List.mem_reverse.1 mem') j (List.mem_reverse.1 mem))
      (by simpa using stays)
  · intro j _ i _ less
    exact standsBefore_of_isLess (by simpa using less)

theorem mergeRuns_sorted : Sorted cmp (mergeRuns (isLess cmp) l r) := by
  unfold mergeRuns
  split
  · exact mergeForward_sorted sorted sorted' older
  · exact mergeBackward_sorted sorted sorted' older

/-- From either end the merge is the same, so its two halves meet. -/
theorem mergeEnds_sorted : ∃ merged, mergeEnds (isLess cmp) l r = some merged ∧
    Sorted cmp merged := by
  have forward := mergeForward_sorted sorted sorted' older
  have perm := mergeForward_perm (isLess cmp) l r
  have same : mergeBackward (isLess cmp) l r = mergeForward (isLess cmp) l r :=
    List.Perm.eq_of_pairwise (fun _ _ _ _ before after => absurd after before.asymm)
      (mergeBackward_sorted sorted sorted' older) forward
      ((mergeBackward_perm ..).trans perm.symm)
  generalize whole : mergeForward (isLess cmp) l r = merged at same forward perm
  refine ⟨merged, ?_, forward⟩
  have length : merged.length = l.length + r.length := by
    rw [perm.length_eq, List.length_append]
  have halves : mergeHalves (isLess cmp) l r = merged := by
    simp only [mergeHalves, same, whole, ← length]
    exact front_middle_back (forward.imp ne_of_standsBefore) perm.symm
  rw [mergeEnds, halves, if_pos (List.isPerm_iff.2 perm)]

end Merge

variable (cmp) in
theorem sortSmall_sorted {l : List (Fin n)} (increasing : l.Pairwise (· < ·)) :
    ∃ sorted, sortSmall (isLess cmp) l = some sorted ∧ Sorted cmp sorted := by
  have parts := increasing
  rw [← List.take_append_drop (l.length / 2) l] at parts
  obtain ⟨left, right, older⟩ := List.pairwise_append.1 parts
  simp only [sortSmall, List.splitAt_eq]
  split
  · exact mergeEnds_sorted (insertAll_nil_sorted left) (insertAll_nil_sorted right)
      (Older.of_perm older (insertAll_perm ..) (insertAll_perm ..))
  · exact mergeEnds_sorted (sortHalf_sorted left) (sortHalf_sorted right)
      (Older.of_perm older (sortHalf_perm ..) (sortHalf_perm ..))

variable (cmp) in
theorem splitRun_sorted {l : List (Fin n)} (increasing : l.Pairwise (· < ·)) :
    Sorted cmp (splitRun (isLess cmp) l).1 ∧
      Older (splitRun (isLess cmp) l).1 (splitRun (isLess cmp) l).2 ∧
      (splitRun (isLess cmp) l).2.Pairwise (· < ·) := by
  match l with
  | [] | [i] => simp [splitRun, Sorted, Older]
  | i :: j :: l =>
    have parts := increasing
    rw [← spanRun_append (isLess cmp) (isLess cmp j i) i (j :: l)] at parts
    obtain ⟨_, rest, older⟩ := List.pairwise_append.1 parts
    simp only [splitRun]
    cases descending : isLess cmp j i with
    | false =>
      rw [descending] at rest older
      refine ⟨(spanRun_pairwise ?_ ?_ increasing).1, older, rest⟩
      · exact fun _ _ _ => StandsBefore.trans
      · exact fun _ _ => standsBefore_of_lt
    | true =>
      rw [descending] at rest older
      refine ⟨?_, Older.of_perm older (List.reverse_perm _) (.refl _), rest⟩
      rw [if_pos rfl, Sorted, List.pairwise_reverse]
      refine (spanRun_pairwise ?_ ?_ increasing).1
      · exact fun _ _ _ first second => second.trans first
      · exact fun _ _ _ => standsBefore_of_isLess

variable (cmp) in
theorem sortPiece_sorted {l : List (Fin n)} (increasing : l.Pairwise (· < ·)) (least : Nat) :
    ∃ piece rest, sortPiece (isLess cmp) least l = some (piece, rest) ∧ Sorted cmp piece ∧
      Older piece rest ∧ rest.Pairwise (· < ·) := by
  obtain ⟨run, older, rest⟩ := splitRun_sorted cmp increasing
  simp only [sortPiece]
  split
  · exact ⟨_, _, rfl, run, older, rest⟩
  · obtain ⟨sorted, small, inOrder⟩ := sortSmall_sorted cmp increasing
    rw [small]
    exact ⟨sorted, [], rfl, inOrder, fun _ _ _ mem => absurd mem List.not_mem_nil, .nil⟩

theorem sortPieces_sorted {l : List (Fin n)} (increasing : l.Pairwise (· < ·)) :
    ∃ sorted, sortPieces (isLess cmp) l = some sorted ∧ Sorted cmp sorted := by
  obtain ⟨first, rest, made_first, inOrder, older, increasing⟩ :=
    sortPiece_sorted cmp increasing (l.length - l.length / 2)
  obtain ⟨second, rest', made_second, inOrder', _, _⟩ :=
    sortPiece_sorted cmp increasing (l.length - l.length / 2)
  have kept := sortPiece_perm (isLess cmp) made_second
  have older' : Older first second := fun i mem j mem' =>
    older i mem j (kept.mem_iff.1 (List.mem_append_left _ mem'))
  refine ⟨mergeRuns (isLess cmp) first second, ?_, mergeRuns_sorted inOrder inOrder' older'⟩
  exact Option.bind_eq_some_iff.2 ⟨_, made_first, Option.bind_eq_some_iff.2 ⟨_, made_second, rfl⟩⟩

theorem mergeSort_sorted : Sorted cmp ((List.finRange n).mergeSort fun i j =>
    ((cmp i j).then (compare i j)).isLE) := by
  have trans (i j k : Fin n) : (compareLex cmp compare i j).isLE = true →
      (compareLex cmp compare j k).isLE = true → (compareLex cmp compare i k).isLE = true :=
    Std.TransCmp.isLE_trans
  have total (i j : Fin n) : ((compareLex cmp compare i j).isLE ||
      (compareLex cmp compare j i).isLE) = true := by
    have turned : compareLex cmp compare j i = (compareLex cmp compare i j).swap :=
      Std.OrientedCmp.eq_swap
    rw [turned]
    cases compareLex cmp compare i j <;> rfl
  have inOrder := List.pairwise_mergeSort trans total (List.finRange n)
  have distinct := (List.mergeSort_perm (List.finRange n) fun i j =>
    (compareLex cmp compare i j).isLE).nodup_iff.2 (List.nodup_finRange n)
  refine inOrder.imp₂ (fun i j le apart => ?_) distinct
  have apart : compare i j ≠ .eq := fun same => apart (Std.LawfulEqCmp.eq_of_compare same)
  unfold StandsBefore
  cases order : (cmp i j).then (compare i j) with
  | lt => rfl
  | eq => exact absurd (Ordering.then_eq_eq.1 order).2 apart
  | gt =>
    rw [compareLex, order] at le
    cases le

end Order

def standardOrder (n : Nat) (cmp : Fin n → Fin n → Ordering) : Option (List (Fin n)) :=
  let positions := List.finRange n
  if n ≤ 20 then some (insertAll (isLess cmp) [] positions)
  else if n ≤ 32 then sortPieces (isLess cmp) positions
  else some (positions.mergeSort fun i j => ((cmp i j).then (compare i j)).isLE)

theorem standardOrder_perm {n : Nat} {cmp : Fin n → Fin n → Ordering} {order : List (Fin n)}
    (made : standardOrder n cmp = some order) : order.Perm (List.finRange n) := by
  simp only [standardOrder] at made
  split at made
  · cases made
    exact insertAll_perm ..
  · split at made
    · exact sortPieces_perm (isLess cmp) made
    · cases made
      exact List.mergeSort_perm ..

theorem standardOrder_sorted {n : Nat} {cmp : Fin n → Fin n → Ordering}
    (consistent : Std.TransCmp cmp) :
    ∃ order, standardOrder n cmp = some order ∧ Sorted cmp order := by
  have increasing := List.pairwise_lt_finRange n
  simp only [standardOrder]
  split
  · exact ⟨_, rfl, insertAll_nil_sorted increasing⟩
  · split
    · exact sortPieces_sorted increasing
    · exact ⟨_, rfl, mergeSort_sorted⟩

def standard : Sorter where
  arrange := standardOrder
  perm := standardOrder_perm
  stable := standardOrder_sorted

end TablePlan.Sorter
