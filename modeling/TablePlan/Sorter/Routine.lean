/-!
The parts of the sorting routine. Elements are inserted one after the other, runs at the front of a
list are taken as they are, and sorted lists are merged from either end or from both ends at once.
No part loses an element or repeats one, whatever the comparisons say.
-/

namespace TablePlan.Sorter

variable {α : Type} (less : α → α → Bool)

/-- Moves a new element back past those that it is less than. The list stands back to front. -/
def moveBack (a : α) : List α → List α
  | [] => [a]
  | b :: back => if less a b then b :: moveBack a back else a :: b :: back

def insertAll (sorted l : List α) : List α :=
  (l.foldl (fun back a => moveBack less a back) sorted.reverse).reverse

def sortPair (a b : α) : α × α :=
  if less b a then (b, a) else (a, b)

/-- Sorts two sorted pairs by three comparisons: the first ones and the last ones give the ends, and
the third comparison is between the two that remain. -/
def mergePairs (a b c d : α) : List α :=
  let first := if less c a then c else a
  let last := if less d b then b else d
  let left := if less c a then a else if less d b then c else b
  let right := if less d b then d else if less c a then b else c
  if less right left then [first, right, left, last] else [first, left, right, last]

def sortFour (a b c d : α) : List α :=
  let (a, b) := sortPair less a b
  let (c, d) := sortPair less c d
  mergePairs less a b c d

def sortHalf : List α → List α
  | a :: b :: c :: d :: l => insertAll less (sortFour less a b c d) l
  | l => insertAll less [] l

def mergeForward (l r : List α) : List α :=
  l.merge r fun a b => !less b a

def mergeBackward (l r : List α) : List α :=
  (r.reverse.merge l.reverse fun b a => !less b a).reverse

def mergeRuns (l r : List α) : List α :=
  if l.length ≤ r.length then mergeForward less l r else mergeBackward less l r

/-- Half of a merge from the front and half from the back, with what stands in neither. -/
def mergeHalves [DecidableEq α] (l r : List α) : List α :=
  let half := (l.length + r.length) / 2
  let front := (mergeForward less l r).take half
  let back := (mergeBackward less l r).drop (l.length + r.length - half)
  front ++ (l ++ r).filter (fun a => !front.contains a && !back.contains a) ++ back

/-- Unless the two halves meet, some element stands in both of them. -/
def mergeEnds [DecidableEq α] (l r : List α) : Option (List α) :=
  if (mergeHalves less l r).isPerm (l ++ r) then some (mergeHalves less l r) else none

def sortSmall [DecidableEq α] (l : List α) : Option (List α) :=
  let (left, right) := l.splitAt (l.length / 2)
  if l.length < 8 then mergeEnds less (insertAll less [] left) (insertAll less [] right)
  else mergeEnds less (sortHalf less left) (sortHalf less right)

def spanRun (descending : Bool) (a : α) : List α → List α × List α
  | [] => ([a], [])
  | b :: l => if less b a == descending then
      let (run, rest) := spanRun descending b l
      (a :: run, rest)
    else ([a], b :: l)

/-- The run at the front, turned if it descends, and the others. -/
def splitRun : List α → List α × List α
  | a :: b :: l =>
    let (run, rest) := spanRun less (less b a) a (b :: l)
    (if less b a then run.reverse else run, rest)
  | l => (l, [])

/-- The sorted run at the front if it is long enough, or else all elements sorted. -/
def sortPiece [DecidableEq α] (least : Nat) (l : List α) : Option (List α × List α) :=
  let (run, rest) := splitRun less l
  if least ≤ run.length then some (run, rest) else do return (← sortSmall less l, [])

def sortPieces [DecidableEq α] (l : List α) : Option (List α) := do
  let least := l.length - l.length / 2
  let (first, rest) ← sortPiece less least l
  let (second, _) ← sortPiece less least rest
  return mergeRuns less first second

theorem sortPair_perm (a b : α) : [(sortPair less a b).1, (sortPair less a b).2].Perm [a, b] := by
  unfold sortPair
  split
  · exact .swap a b []
  · exact .refl _

theorem moveBack_perm (a : α) (back : List α) : (moveBack less a back).Perm (a :: back) := by
  induction back with
  | nil => exact .refl _
  | cons b back ih =>
    unfold moveBack
    split
    · exact (ih.cons b).trans (.swap a b back)
    · exact .refl _

theorem insertAll_cons (sorted : List α) (a : α) (l : List α) : insertAll less sorted (a :: l) =
    insertAll less (moveBack less a sorted.reverse).reverse l := by
  rw [insertAll, insertAll, List.foldl_cons, List.reverse_reverse]

theorem moved_perm (sorted : List α) (a : α) :
    (moveBack less a sorted.reverse).reverse.Perm (a :: sorted) :=
  (List.reverse_perm _).trans ((moveBack_perm less a _).trans ((List.reverse_perm _).cons a))

theorem insertAll_perm (sorted l : List α) : (insertAll less sorted l).Perm (sorted ++ l) := by
  induction l generalizing sorted with
  | nil => simp [insertAll]
  | cons a l ih =>
    rw [insertAll_cons]
    exact (ih _).trans (((moved_perm less sorted a).append_right l).trans List.perm_middle.symm)

theorem mergeForward_perm (l r : List α) : (mergeForward less l r).Perm (l ++ r) :=
  List.merge_perm_append _

theorem mergeBackward_perm (l r : List α) : (mergeBackward less l r).Perm (l ++ r) := by
  refine (List.reverse_perm _).trans ((List.merge_perm_append _).trans ?_)
  rw [← List.reverse_append]
  exact List.reverse_perm _

theorem mergeRuns_perm (l r : List α) : (mergeRuns less l r).Perm (l ++ r) := by
  unfold mergeRuns
  split
  · exact mergeForward_perm less l r
  · exact mergeBackward_perm less l r

theorem pairwise_merge {before : α → α → Prop} {test : α → α → Bool} {l r : List α}
    (trans : ∀ {a b c}, before a b → before b c → before a c)
    (left : ∀ a ∈ l, ∀ b ∈ r, test a b = true → before a b)
    (right : ∀ a ∈ l, ∀ b ∈ r, test a b = false → before b a)
    (sorted : l.Pairwise before) (sorted' : r.Pairwise before) :
    (l.merge r test).Pairwise before := by
  induction l generalizing r with
  | nil => rwa [List.nil_merge]
  | cons a l ih =>
    induction r with
    | nil => rwa [List.merge_right]
    | cons b r ihr =>
      obtain ⟨first, rest⟩ := List.pairwise_cons.1 sorted
      obtain ⟨first', rest'⟩ := List.pairwise_cons.1 sorted'
      rw [List.cons_merge_cons]
      split
      · rename_i passed
        have before_b := left a List.mem_cons_self b List.mem_cons_self passed
        refine List.pairwise_cons.2 ⟨fun c mem => ?_, ih ?_ ?_ rest sorted'⟩
        · obtain mem | mem := List.mem_merge.1 mem
          · exact first c mem
          · obtain rfl | mem := List.mem_cons.1 mem
            · exact before_b
            · exact trans before_b (first' c mem)
        · exact fun c mem => left c (List.mem_cons_of_mem a mem)
        · exact fun c mem => right c (List.mem_cons_of_mem a mem)
      · rename_i failed
        have before_a := right a List.mem_cons_self b List.mem_cons_self
          (Bool.eq_false_iff.2 failed)
        refine List.pairwise_cons.2 ⟨fun c mem => ?_, ihr ?_ ?_ rest'⟩
        · obtain mem | mem := List.mem_merge.1 mem
          · obtain rfl | mem := List.mem_cons.1 mem
            · exact before_a
            · exact trans before_a (first c mem)
          · exact first' c mem
        · exact fun c mem d mem' => left c mem d (List.mem_cons_of_mem b mem')
        · exact fun c mem d mem' => right c mem d (List.mem_cons_of_mem b mem')

theorem spanRun_append (descending : Bool) (a : α) (l : List α) :
    (spanRun less descending a l).1 ++ (spanRun less descending a l).2 = a :: l := by
  induction l generalizing a with
  | nil => rfl
  | cons b l ih =>
    unfold spanRun
    split
    · exact congrArg (a :: ·) (ih b)
    · rfl

theorem splitRun_perm (l : List α) : ((splitRun less l).1 ++ (splitRun less l).2).Perm l := by
  match l with
  | [] | [a] => simp [splitRun]
  | a :: b :: l =>
    have whole := spanRun_append less (less b a) a (b :: l)
    simp only [splitRun]
    split
    · exact ((List.reverse_perm _).append_right _).trans (.of_eq whole)
    · exact .of_eq whole

variable [DecidableEq α]

theorem mergePairs_perm (a b c d : α) : (mergePairs less a b c d).Perm [a, b, c, d] := by
  unfold mergePairs
  grind

theorem sortFour_perm (a b c d : α) : (sortFour less a b c d).Perm [a, b, c, d] :=
  (mergePairs_perm ..).trans ((sortPair_perm less a b).append (sortPair_perm less c d))

theorem sortHalf_perm (l : List α) : (sortHalf less l).Perm l := by
  unfold sortHalf
  split
  · exact (insertAll_perm ..).trans ((sortFour_perm ..).append_right _)
  · exact insertAll_perm less [] l

theorem mergeEnds_perm {l r merged : List α} (made : mergeEnds less l r = some merged) :
    merged.Perm (l ++ r) := by
  unfold mergeEnds at made
  split at made
  · rename_i kept
    cases made
    exact List.isPerm_iff.1 kept
  · cases made

theorem filter_middle {front middle back : List α}
    (distinct : (front ++ middle ++ back).Nodup) :
    ((front ++ middle ++ back).filter fun a => !front.contains a && !back.contains a) =
      middle := by
  rw [List.nodup_append, List.nodup_append] at distinct
  obtain ⟨⟨_, _, apart⟩, _, apart'⟩ := distinct
  have none_front : (front.filter fun a => !front.contains a && !back.contains a) = [] := by
    simp +contextual
  have none_back : (back.filter fun a => !front.contains a && !back.contains a) = [] := by
    simp +contextual
  have whole : (middle.filter fun a => !front.contains a && !back.contains a) = middle := by
    refine List.filter_eq_self.2 fun a mem => ?_
    have not_front : a ∉ front := fun mem' => apart a mem' a mem rfl
    have not_back : a ∉ back := fun mem' => apart' a (List.mem_append_right _ mem) a mem' rfl
    simp [not_front, not_back]
  rw [List.filter_append, List.filter_append, none_front, none_back, whole, List.nil_append,
    List.append_nil]

theorem front_middle_back {merged other : List α} (distinct : merged.Nodup)
    (perm : other.Perm merged) :
    let front := merged.take (merged.length / 2)
    let back := merged.drop (merged.length - merged.length / 2)
    front ++ (other.filter fun a => !front.contains a && !back.contains a) ++ back = merged := by
  intro front back
  let middle := (merged.drop (merged.length / 2)).take
    (merged.length - merged.length / 2 - merged.length / 2)
  have parts : front ++ middle ++ back = merged := by
    have behind : merged.length / 2 + (merged.length - merged.length / 2 - merged.length / 2) =
        merged.length - merged.length / 2 := by
      omega
    have rest : middle ++ back = merged.drop (merged.length / 2) := by
      rw [← List.take_append_drop (merged.length - merged.length / 2 - merged.length / 2)
        (merged.drop (merged.length / 2)), List.drop_drop, behind]
    rw [List.append_assoc, rest, List.take_append_drop]
  have short : middle.length ≤ 1 := by
    simp only [middle, List.length_take, List.length_drop]
    omega
  have kept := perm.filter fun a => !front.contains a && !back.contains a
  rw [← parts, filter_middle (parts ▸ distinct)] at kept
  have same : (other.filter fun a => !front.contains a && !back.contains a) = middle := by
    match middle, short, kept with
    | [], _, kept => exact kept.eq_nil
    | [a], _, kept => exact List.perm_singleton.1 kept
  rw [same, parts]

theorem sortSmall_perm {l sorted : List α} (made : sortSmall less l = some sorted) :
    sorted.Perm l := by
  simp only [sortSmall, List.splitAt_eq] at made
  have halves : (l.take (l.length / 2) ++ l.drop (l.length / 2)).Perm l :=
    .of_eq (List.take_append_drop _ l)
  split at made
  · exact (mergeEnds_perm less made).trans
      (((insertAll_perm ..).append (insertAll_perm ..)).trans halves)
  · exact (mergeEnds_perm less made).trans
      (((sortHalf_perm ..).append (sortHalf_perm ..)).trans halves)

theorem sortPiece_perm {least : Nat} {l piece rest : List α}
    (made : sortPiece less least l = some (piece, rest)) : (piece ++ rest).Perm l := by
  simp only [sortPiece] at made
  split at made
  · cases made
    exact splitRun_perm less l
  · obtain ⟨sorted, small, made⟩ := Option.bind_eq_some_iff.1 made
    cases made
    rw [List.append_nil]
    exact sortSmall_perm less small

theorem length_sortPiece {least : Nat} {l piece rest : List α}
    (made : sortPiece less least l = some (piece, rest)) : least ≤ piece.length ∨ rest = [] := by
  simp only [sortPiece] at made
  split at made
  · rename_i long
    cases made
    exact .inl long
  · obtain ⟨_, _, made⟩ := Option.bind_eq_some_iff.1 made
    cases made
    exact .inr rfl

theorem sortPieces_eq_some {l sorted : List α} (made : sortPieces less l = some sorted) :
    ∃ first rest second, sortPiece less (l.length - l.length / 2) l = some (first, rest) ∧
      sortPiece less (l.length - l.length / 2) rest = some (second, []) ∧
      sorted = mergeRuns less first second := by
  obtain ⟨⟨first, rest⟩, made_first, made⟩ := Option.bind_eq_some_iff.1 made
  obtain ⟨⟨second, rest'⟩, made_second, made⟩ := Option.bind_eq_some_iff.1 made
  cases made
  have length := (sortPiece_perm less made_first).length_eq
  have length' := (sortPiece_perm less made_second).length_eq
  rw [List.length_append] at length length'
  have none_left : rest' = [] := by
    obtain long' | none_left := length_sortPiece less made_second
    · obtain long | none_left := length_sortPiece less made_first
      · exact List.eq_nil_of_length_eq_zero (by omega)
      · rw [none_left, List.length_nil] at length'
        exact List.eq_nil_of_length_eq_zero (by omega)
    · exact none_left
  exact ⟨first, rest, second, made_first, none_left ▸ made_second, rfl⟩

theorem sortPieces_perm {l sorted : List α} (made : sortPieces less l = some sorted) :
    sorted.Perm l := by
  obtain ⟨first, rest, second, made_first, made_second, rfl⟩ := sortPieces_eq_some less made
  have kept := sortPiece_perm less made_second
  rw [List.append_nil] at kept
  exact (mergeRuns_perm less first second).trans
    ((kept.append_left first).trans (sortPiece_perm less made_first))

end TablePlan.Sorter
