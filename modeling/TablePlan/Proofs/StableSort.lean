import TablePlan.Sorter.Basic
import Mathlib.Data.List.Sort

/-!
Stable sorts by comparisons that are consistent on the elements at hand. A stable sort is determined
by what it keeps: the elements, their order by the comparison, and the order of those that the
comparison does not tell apart. So sorting by one comparison and then by another one is a single
sort by both, the later one first.
-/

namespace TablePlan

variable {α : Type}

/-- Whether a comparison orders all elements of a class consistently: it is the same from both
sides, what is not after is transitive, and what counts as equal is an equivalence. -/
structure Consistent (cmp : α → α → Ordering) (among : α → Prop) : Prop where
  swap : ∀ a b, among a → among b → cmp b a = (cmp a b).swap
  trans : ∀ a b c, among a → among b → among c →
    cmp a b ≠ .gt → cmp b c ≠ .gt → cmp a c ≠ .gt
  equal : Equivalence fun a b : {a // among a} => cmp a b = .eq

/-- A list arranged by a comparison: its elements in the order of the comparison, and equal ones as
they stood. -/
structure Arranges (cmp : α → α → Ordering) (l l' : List α) : Prop where
  perm : l'.Perm l
  ordered : l'.Pairwise fun a b => cmp a b ≠ .gt
  stable : ∀ a ∈ l, (l'.filter fun b => cmp a b == .eq) = l.filter fun b => cmp a b == .eq

def lexicographic (first second : α → α → Ordering) (a b : α) : Ordering :=
  (first a b).then (second a b)

section Ordering

variable {o o' : Ordering}

theorem ne_gt_iff_isLE : o ≠ .gt ↔ o.isLE = true := by
  cases o <;> decide

theorem then_ne_gt : o.then o' ≠ .gt ↔ o = .lt ∨ o = .eq ∧ o' ≠ .gt := by
  cases o <;> simp

theorem eq_of_ne_gt (le : o ≠ .gt) (ge : o.swap ≠ .gt) : o = .eq := by
  cases o <;> simp at le ge ⊢

end Ordering

namespace Consistent

variable {cmp cmp' : α → α → Ordering} {among among' : α → Prop}

theorem of_swap_trans (swap : ∀ a b, among a → among b → cmp b a = (cmp a b).swap)
    (trans : ∀ a b c, among a → among b → among c →
      cmp a b ≠ .gt → cmp b c ≠ .gt → cmp a c ≠ .gt) : Consistent cmp among := by
  refine ⟨swap, trans, ⟨fun a => ?_, fun {a b} same => ?_, fun {a b c} first second => ?_⟩⟩
  · have self := swap a a a.2 a.2
    cases order : cmp a a <;> simp [order] at self ⊢
  · rw [swap a b a.2 b.2, same]
    rfl
  · refine eq_of_ne_gt (trans a b c a.2 b.2 c.2 (by simp [first]) (by simp [second])) ?_
    rw [← swap a c a.2 c.2]
    refine trans c b a c.2 b.2 a.2 ?_ ?_
    · simp [swap b c b.2 c.2, second]
    · simp [swap a b a.2 b.2, first]

theorem of_transCmp [Std.TransCmp cmp] : Consistent cmp among :=
  of_swap_trans (fun _ _ _ _ => Std.OrientedCmp.eq_swap) fun _ _ _ _ _ _ first second =>
    ne_gt_iff_isLE.2 (Std.TransCmp.isLE_trans (ne_gt_iff_isLE.1 first) (ne_gt_iff_isLE.1 second))

theorem transCmp_comp {β : Type} {f : β → α} (consistent : Consistent cmp among)
    (inside : ∀ b, among (f b)) : Std.TransCmp fun a b => cmp (f a) (f b) where
  eq_swap {a b} := consistent.swap _ _ (inside b) (inside a)
  isLE_trans {a b c} first second := ne_gt_iff_isLE.1 (consistent.trans _ _ _ (inside a) (inside b)
    (inside c) (ne_gt_iff_isLE.2 first) (ne_gt_iff_isLE.2 second))

theorem transCmp (consistent : Consistent cmp among) :
    Std.TransCmp fun a b : {a // among a} => cmp a b :=
  consistent.transCmp_comp Subtype.property

theorem mono (consistent : Consistent cmp among) (fewer : ∀ a, among' a → among a) :
    Consistent cmp among' :=
  of_swap_trans (fun a b in_a in_b => consistent.swap a b (fewer a in_a) (fewer b in_b))
    fun a b c in_a in_b in_c => consistent.trans a b c (fewer a in_a) (fewer b in_b) (fewer c in_c)

theorem congr (consistent : Consistent cmp among)
    (same : ∀ a b, among a → among b → cmp' a b = cmp a b) : Consistent cmp' among := by
  refine of_swap_trans (fun a b in_a in_b => ?_) fun a b c in_a in_b in_c => ?_
  · rw [same a b in_a in_b, same b a in_b in_a, consistent.swap a b in_a in_b]
  · rw [same a b in_a in_b, same b c in_b in_c, same a c in_a in_c]
    exact consistent.trans a b c in_a in_b in_c

theorem comap {β : Type} {f : β → α} {images : β → Prop} (consistent : Consistent cmp among)
    (inside : ∀ b, images b → among (f b)) : Consistent (fun a b => cmp (f a) (f b)) images :=
  of_swap_trans (fun a b in_a in_b => consistent.swap _ _ (inside a in_a) (inside b in_b))
    fun a b c in_a in_b in_c =>
      consistent.trans _ _ _ (inside a in_a) (inside b in_b) (inside c in_c)

section Members

variable (consistent : Consistent cmp among) {a b c : α} (in_a : among a) (in_b : among b)

include consistent in_a

theorem self : cmp a a = .eq :=
  consistent.equal.refl ⟨a, in_a⟩

include in_b

theorem symm (same : cmp a b = .eq) : cmp b a = .eq :=
  consistent.equal.symm (x := ⟨a, in_a⟩) (y := ⟨b, in_b⟩) same

theorem congr_left (in_c : among c) (same : cmp a b = .eq) : cmp a c = cmp b c :=
  @Std.TransCmp.congr_left _ (fun a b : {a // among a} => cmp a b) consistent.transCmp
    ⟨a, in_a⟩ ⟨b, in_b⟩ ⟨c, in_c⟩ same

end Members

theorem lexicographic (first : Consistent cmp among) (second : Consistent cmp' among) :
    Consistent (lexicographic cmp cmp') among := by
  refine of_swap_trans (fun a b in_a in_b => ?_) fun a b c in_a in_b in_c => ?_
  · rw [TablePlan.lexicographic, TablePlan.lexicographic, Ordering.swap_then,
      first.swap a b in_a in_b, second.swap a b in_a in_b]
  · simp only [TablePlan.lexicographic, then_ne_gt]
    have le {x y : α} (some : cmp x y = .lt ∨ cmp x y = .eq ∧ cmp' x y ≠ .gt) : cmp x y ≠ .gt := by
      obtain less | ⟨same, _⟩ := some
      · simp [less]
      · simp [same]
    intro ab bc
    have ac := first.trans a b c in_a in_b in_c (le ab) (le bc)
    cases order : cmp a c with
    | lt => exact .inl rfl
    | gt => exact absurd order ac
    | eq =>
      -- Equal ends leave no room between them.
      have ca : cmp c a ≠ .gt := by simp [first.symm in_a in_c order]
      have same_ab : cmp a b = .eq := eq_of_ne_gt (le ab) (by
        rw [← first.swap a b in_a in_b]
        exact first.trans b c a in_b in_c in_a (le bc) ca)
      have same_bc : cmp b c = .eq := (first.congr_left in_a in_b in_c same_ab).symm.trans order
      have ab' : cmp' a b ≠ .gt := by simpa [same_ab] using ab
      have bc' : cmp' b c ≠ .gt := by simpa [same_bc] using bc
      exact .inr ⟨rfl, second.trans a b c in_a in_b in_c ab' bc'⟩

end Consistent

namespace Arranges

variable {cmp cmp' : α → α → Ordering} {among : α → Prop} {l l' l'' : List α}

theorem mem_of_stable (consistent : Consistent cmp among) {a : α} (in_a : among a) (mem : a ∈ l)
    (stable : (l.filter fun b => cmp a b == .eq) = l'.filter fun b => cmp a b == .eq) : a ∈ l' := by
  have tie : a ∈ l.filter fun b => cmp a b == .eq :=
    List.mem_filter.2 ⟨mem, by simp [consistent.self in_a]⟩
  exact (List.mem_filter.1 (stable ▸ tie)).1

theorem heads_tie (consistent : Consistent cmp among) {a b : α} {as bs : List α}
    (in_a : among a) (in_b : among b) (first : ∀ c ∈ as, cmp a c ≠ .gt)
    (first' : ∀ c ∈ bs, cmp b c ≠ .gt) (mem_a : a ∈ b :: bs) (mem_b : b ∈ a :: as) :
    cmp a b = .eq := by
  obtain rfl | mem_a := List.mem_cons.1 mem_a
  · exact consistent.self in_a
  · obtain rfl | mem_b := List.mem_cons.1 mem_b
    · exact consistent.self in_a
    · refine eq_of_ne_gt (first b mem_b) ?_
      rw [← consistent.swap a b in_a in_b]
      exact first' a mem_a

theorem eq_of_stable (consistent : Consistent cmp among) (all : ∀ a ∈ l, among a)
    (all' : ∀ a ∈ l', among a) (ordered : l.Pairwise fun a b => cmp a b ≠ .gt)
    (ordered' : l'.Pairwise fun a b => cmp a b ≠ .gt)
    (stable : ∀ a, among a →
      (l.filter fun b => cmp a b == .eq) = l'.filter fun b => cmp a b == .eq) : l = l' := by
  induction l generalizing l' with
  | nil =>
    cases l' with
    | nil => rfl
    | cons b bs =>
      have in_b := all' b List.mem_cons_self
      cases mem_of_stable consistent in_b List.mem_cons_self (stable b in_b).symm
  | cons a as ih =>
    have in_a := all a List.mem_cons_self
    have mem_a := mem_of_stable consistent in_a List.mem_cons_self (stable a in_a)
    cases l' with
    | nil => cases mem_a
    | cons b bs =>
      have in_b := all' b List.mem_cons_self
      have mem_b := mem_of_stable consistent in_b List.mem_cons_self (stable b in_b).symm
      rw [List.forall_mem_cons] at all all'
      rw [List.pairwise_cons] at ordered ordered'
      have tie := heads_tie consistent in_a in_b ordered.1 ordered'.1 mem_a mem_b
      have heads := stable a in_a
      rw [List.filter_cons_of_pos (by simp [consistent.self in_a]),
        List.filter_cons_of_pos (by simp [tie])] at heads
      obtain ⟨rfl, _⟩ := List.cons.inj heads
      refine congrArg (a :: ·) (ih all.2 all'.2 ordered.2 ordered'.2 fun c in_c => ?_)
      have same := stable c in_c
      rw [List.filter_cons, List.filter_cons] at same
      split at same
      · exact (List.cons.inj same).2
      · exact same

theorem filter_congr_of_tie (consistent : Consistent cmp among) (all : ∀ c ∈ l, among c) {a b : α}
    (in_a : among a) (in_b : among b) (tie : cmp a b = .eq) :
    (l.filter fun c => cmp a c == .eq) = l.filter fun c => cmp b c == .eq :=
  List.filter_congr fun c mem => by rw [consistent.congr_left in_a in_b (all c mem) tie]

theorem sublist_iff (arranges : Arranges cmp l l') {group : List α}
    (tied : ∀ a ∈ group, ∀ b ∈ group, cmp a b = .eq) : group.Sublist l' ↔ group.Sublist l := by
  cases group with
  | nil => simp
  | cons a rest =>
    have whole : ((a :: rest).filter fun b => cmp a b == .eq) = a :: rest :=
      List.filter_eq_self.2 fun b mem => by simp [tied a List.mem_cons_self b mem]
    have inside {l₁ l₂ : List α} (same : a ∈ l₁ → (l₁.filter fun b => cmp a b == .eq) =
        l₂.filter fun b => cmp a b == .eq) (sub : (a :: rest).Sublist l₁) :
        (a :: rest).Sublist l₂ := by
      have kept := sub.filter fun b => cmp a b == .eq
      rw [whole, same (sub.subset List.mem_cons_self)] at kept
      exact kept.trans List.filter_sublist
    exact ⟨inside fun mem => arranges.stable a (arranges.perm.mem_iff.1 mem),
      inside fun mem => (arranges.stable a mem).symm⟩

section Determined

variable (consistent : Consistent cmp among) (all : ∀ a ∈ l, among a)

include consistent all

theorem stable_of_among (arranges : Arranges cmp l l') {a : α} (in_a : among a) :
    (l'.filter fun b => cmp a b == .eq) = l.filter fun b => cmp a b == .eq := by
  have all' : ∀ c ∈ l', among c := fun c mem => all c (arranges.perm.mem_iff.1 mem)
  by_cases found : ∃ b ∈ l, cmp a b = .eq
  · obtain ⟨b, mem, tie⟩ := found
    rw [filter_congr_of_tie consistent all' in_a (all b mem) tie,
      filter_congr_of_tie consistent all in_a (all b mem) tie]
    exact arranges.stable b mem
  · have none : l.filter (fun b => cmp a b == .eq) = [] := by
      rw [List.filter_eq_nil_iff]
      exact fun b mem tie => found ⟨b, mem, by simpa using tie⟩
    exact (List.Perm.eq_nil (none ▸ arranges.perm.filter _)).trans none.symm

theorem of_sublists (perm : l'.Perm l) (ordered : l'.Pairwise fun a b => cmp a b ≠ .gt)
    (groups : ∀ group : List α, (∀ a ∈ group, ∀ b ∈ group, cmp a b = .eq) → group.Sublist l' →
      group.Sublist l) : Arranges cmp l l' := by
  refine ⟨perm, ordered, fun a mem => ?_⟩
  have tied : ∀ b ∈ l'.filter fun b => cmp a b == .eq, ∀ c ∈ l'.filter fun b => cmp a b == .eq,
      cmp b c = .eq := by
    intro b mem_b c mem_c
    obtain ⟨mem_b, tie_b⟩ := List.mem_filter.1 mem_b
    obtain ⟨_, tie_c⟩ := List.mem_filter.1 mem_c
    have alike := consistent.congr_left (all a mem) (all b (perm.mem_iff.1 mem_b))
      (all c (perm.mem_iff.1 (List.mem_filter.1 mem_c).1)) (by simpa using tie_b)
    exact alike ▸ by simpa using tie_c
  have kept := (groups _ tied List.filter_sublist).filter fun b => cmp a b == .eq
  rw [List.filter_filter] at kept
  simp only [Bool.and_self] at kept
  exact kept.eq_of_length (perm.filter _).length_eq

theorem unique (first : Arranges cmp l l') (second : Arranges cmp l l'') : l' = l'' := by
  refine eq_of_stable consistent (fun a mem => all a (first.perm.mem_iff.1 mem))
    (fun a mem => all a (second.perm.mem_iff.1 mem)) first.ordered second.ordered fun a in_a => ?_
  rw [first.stable_of_among consistent all in_a, second.stable_of_among consistent all in_a]

theorem lexicographic (first : Arranges cmp' l l') (second : Arranges cmp l' l'') :
    Arranges (lexicographic cmp cmp') l l'' := by
  have all' : ∀ a ∈ l', among a := fun a mem => all a (first.perm.mem_iff.1 mem)
  refine ⟨second.perm.trans first.perm, ?_, fun a mem => ?_⟩
  · rw [List.pairwise_iff_forall_sublist]
    intro a b pair
    have in_order := List.pairwise_iff_forall_sublist.1 second.ordered pair
    have mem_a : a ∈ l' := second.perm.mem_iff.1 (pair.subset (by simp))
    have mem_b : b ∈ l' := second.perm.mem_iff.1 (pair.subset (by simp))
    rw [TablePlan.lexicographic, then_ne_gt]
    cases order : cmp a b with
    | lt => exact .inl rfl
    | gt => exact absurd order in_order
    | eq =>
      -- Elements that tie stand as the first arrangement left them.
      have kept := pair.filter fun c => cmp a c == .eq
      rw [second.stable a mem_a, List.filter_cons_of_pos, List.filter_cons_of_pos,
        List.filter_nil] at kept
      · exact .inr ⟨rfl, List.pairwise_iff_forall_sublist.1 first.ordered
          (kept.trans List.filter_sublist)⟩
      · simp [order]
      · simp [consistent.self (all' a mem_a)]
  · have both (l : List α) : (l.filter fun b => TablePlan.lexicographic cmp cmp' a b == .eq) =
        (l.filter fun b => cmp a b == .eq).filter fun b => cmp' a b == .eq := by
      rw [List.filter_filter]
      refine List.filter_congr fun b _ => ?_
      rw [TablePlan.lexicographic]
      cases cmp a b <;> simp
    rw [both, both, second.stable a (first.perm.mem_iff.2 mem), List.filter_comm,
      first.stable a mem, List.filter_comm]

end Determined

end Arranges

namespace Sorter

variable (sorter : Sorter) {cmp : α → α → Ordering} {l l' : List α}

theorem sort_eq_arrange {n : Nat} {get : Fin n → α} (length : l.length = n)
    (same : ∀ i : Fin n, l[i] = get i) : sorter.sort cmp l =
      (sorter.arrange n fun i j => cmp (get i) (get j)).map (List.map get) := by
  subst length
  obtain rfl : l.get = get := funext same
  rfl

theorem sort_eq : sorter.sort cmp l =
    (sorter.arrange l.length fun i j => cmp (l.get i) (l.get j)).map (List.map l.get) :=
  rfl

theorem sort_perm (sorted : sorter.sort cmp l = some l') : l'.Perm l := by
  rw [sort_eq] at sorted
  obtain ⟨order, arranged, rfl⟩ := Option.map_eq_some_iff.1 sorted
  have kept := (sorter.perm arranged).map l.get
  rwa [List.map_get_finRange] at kept

/-- A routine sees nothing of the elements but their comparisons. -/
theorem sort_map {β : Type} (f : β → α) (l : List β) : sorter.sort cmp (l.map f) =
    (sorter.sort (fun a b => cmp (f a) (f b)) l).map (List.map f) := by
  have same (i : Fin l.length) : (l.map f)[i] = f (l.get i) := by simp
  rw [sorter.sort_eq_arrange (List.length_map f) same, sort_eq, Option.map_map]
  exact congrArg (Option.map · _) (funext fun order => List.map_map.symm)

theorem ordered_of_standsBefore {n : Nat} {cmp : Fin n → Fin n → Ordering} {i j : Fin n}
    (before : StandsBefore cmp i j) : cmp i j ≠ .gt ∧ (cmp i j = .eq → i < j) := by
  obtain less | ⟨tie, older⟩ := Ordering.then_eq_lt.1 before
  · simp [less]
  · exact ⟨by simp [tie], fun _ => compare_lt_iff_lt.1 older⟩

theorem exists_sort (consistent : Consistent cmp (· ∈ l)) :
    ∃ l', sorter.sort cmp l = some l' ∧ Arranges cmp l l' := by
  obtain ⟨order, arranged, sorted⟩ := sorter.stable (consistent.transCmp_comp l.get_mem)
  have perm := sorter.perm arranged
  refine ⟨order.map l.get, by rw [sort_eq, arranged]; rfl, ?_, ?_, fun a mem => ?_⟩
  · have kept := perm.map l.get
    rwa [List.map_get_finRange] at kept
  · exact List.pairwise_map.2 (sorted.imp fun before => (ordered_of_standsBefore before).1)
  · -- Positions of elements that tie with `a` stand as before, since they tie with each other.
    let ties (i : Fin l.length) : Bool := cmp a (l.get i) == .eq
    have older : (order.filter ties).Pairwise (· < ·) := by
      refine (sorted.filter ties).imp_of_mem fun {i j} mem_i mem_j before => ?_
      have tie_i : cmp a (l.get i) = .eq := by simpa [ties] using (List.mem_filter.1 mem_i).2
      have tie_j : cmp a (l.get j) = .eq := by simpa [ties] using (List.mem_filter.1 mem_j).2
      have alike := consistent.congr_left mem (l.get_mem i) (l.get_mem j) tie_i
      exact (ordered_of_standsBefore before).2 (alike.symm.trans tie_j)
    have same : order.filter ties = (List.finRange l.length).filter ties :=
      List.Perm.eq_of_pairwise (fun i j _ _ less less' => absurd less' less.asymm) older
        ((List.pairwise_lt_finRange _).filter ties) (perm.filter ties)
    have whole : (l.filter fun b => cmp a b == .eq) =
        ((List.finRange l.length).map l.get).filter fun b => cmp a b == .eq := by
      rw [List.map_get_finRange]
    rw [whole, List.filter_map, List.filter_map]
    exact congrArg (List.map l.get) same

end Sorter

end TablePlan
