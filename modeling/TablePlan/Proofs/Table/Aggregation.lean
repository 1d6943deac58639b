import TablePlan.Proofs.Success
import TablePlan.Proofs.Table.Comparison
import TablePlan.Proofs.Table.Matching
import TablePlan.Table.Aggregation
import Mathlib.Data.Int.ModEq

/-!
Aggregates as functions of the cells that are not null. Sums of integers are exact modulo `2 ^ 64`,
and the least and the greatest of cells of one kind bound all of them; so neither depends on the
order of the cells.
-/

namespace TablePlan

open Success

def nonNull (cells : List Cell) : List Cell :=
  cells.filter fun c => !c.isNull

theorem nonNull_nonNull (cells : List Cell) : nonNull (nonNull cells) = nonNull cells := by
  simp [nonNull]

theorem nonNull_perm {cells cells' : List Cell} (perm : cells'.Perm cells) :
    (nonNull cells').Perm (nonNull cells) :=
  perm.filter _

theorem sum_eq_ofInt (ns : List Int64) :
    ns.sum = Int64.ofInt (ns.map Int64.toInt).sum := by
  induction ns with
  | nil => rfl
  | cons n ns ih =>
    rw [List.sum_cons, List.map_cons, List.sum_cons, Int64.ofInt_add, Int64.ofInt_toInt, ih]

theorem toInt_sum_modEq (ns : List Int64) :
    ns.sum.toInt ≡ (ns.map Int64.toInt).sum [ZMOD 2 ^ 64] := by
  rw [sum_eq_ofInt, Int64.toInt_ofInt]
  exact Int.bmod_emod

theorem toInt_sum_of_fits {ns : List Int64} (low : -2 ^ 63 ≤ (ns.map Int64.toInt).sum)
    (high : (ns.map Int64.toInt).sum < 2 ^ 63) :
    ns.sum.toInt = (ns.map Int64.toInt).sum := by
  rw [sum_eq_ofInt, Int64.toInt_ofInt_of_le low high]

theorem int64_sum_perm {ns ns' : List Int64} (perm : ns'.Perm ns) : ns'.sum = ns.sum :=
  perm.foldr_eq 0

namespace Cell

/-- A cell is ordered in one way, or equally, with another. -/
def Bounds (wins : Ordering) (a b : Cell) : Prop :=
  a.compare b = some wins ∨ a.compare b = some .eq

structure Ordered (cells : Cell → Prop) : Prop where
  total : ∀ a b, cells a → cells b → ∃ order, a.compare b = some order
  equal : ∀ a b, cells a → cells b → a.compare b = some .eq → a = b
  trans : ∀ a b c, cells a → cells b → cells c → a.Bounds .lt b → b.Bounds .lt c → a.Bounds .lt c

/-- Kinds of cells that are in one order. -/
inductive Kind where
  | int | text | bool | date
  deriving DecidableEq

def kind? : Cell → Option Kind
  | .int _ => some .int
  | .text _ => some .text
  | .bool _ => some .bool
  | .date _ => some .date
  | .null | .float _ => none

theorem ordered_of_values {kind : Kind} {α : Type} (order : α → α → Ordering) [Std.TransCmp order]
    (cell : α → Cell) (values : ∀ c : Cell, c.kind? = some kind → ∃ x, c = cell x)
    (compares : ∀ x y, (cell x).compare (cell y) = some (order x y))
    (equal : ∀ x y, order x y = .eq → x = y) : Ordered fun c => c.kind? = some kind := by
  have bounds (x y : α) : (cell x).Bounds .lt (cell y) ↔ (order x y).isLE = true := by
    rw [Bounds, compares]
    cases order x y <;> simp
  constructor
  case total =>
    intro a b kind_a kind_b
    obtain ⟨x, rfl⟩ := values a kind_a
    obtain ⟨y, rfl⟩ := values b kind_b
    exact ⟨_, compares x y⟩
  case equal =>
    intro a b kind_a kind_b same
    obtain ⟨x, rfl⟩ := values a kind_a
    obtain ⟨y, rfl⟩ := values b kind_b
    rw [equal x y (Option.some.inj ((compares x y).symm.trans same))]
  case trans =>
    intro a b c kind_a kind_b kind_c first second
    obtain ⟨x, rfl⟩ := values a kind_a
    obtain ⟨y, rfl⟩ := values b kind_b
    obtain ⟨z, rfl⟩ := values c kind_c
    rw [bounds] at first second ⊢
    exact Std.TransCmp.isLE_trans first second

theorem ordered_kind (kind : Kind) : Ordered fun c => c.kind? = some kind := by
  cases kind with
  | int =>
    refine ordered_of_values (compareOn Int64.toInt) .int ?_ (fun _ _ => rfl)
      fun m n same => Int64.toInt_inj.1 (Std.LawfulEqOrd.compare_eq_iff_eq.1 same)
    intro c same
    cases c <;> cases same
    exact ⟨_, rfl⟩
  | text =>
    refine ordered_of_values Ord.compare .text ?_ (fun _ _ => rfl)
      fun s t same => Std.LawfulEqOrd.compare_eq_iff_eq.1 same
    intro c same
    cases c <;> cases same
    exact ⟨_, rfl⟩
  | bool =>
    refine ordered_of_values Ord.compare .bool ?_ (fun _ _ => rfl)
      fun b c same => Std.LawfulEqOrd.compare_eq_iff_eq.1 same
    intro c same
    cases c <;> cases same
    exact ⟨_, rfl⟩
  | date =>
    refine ordered_of_values (compareLex (compareOn Calendar.Date.year)
      (compareLex (compareOn Calendar.Date.month) (compareOn Calendar.Date.day))) .date
      ?_ (fun _ _ => rfl) fun d e same => Calendar.Date.compare_eq_iff.1 same
    intro c same
    cases c <;> cases same
    exact ⟨_, rfl⟩

theorem bounds_swap (wins : Ordering) {a b : Cell} : a.Bounds wins.swap b ↔ b.Bounds wins a := by
  have swapped (order : Ordering) : a.compare b = some order.swap ↔ b.compare a = some order := by
    rw [Cell.compare_swap b a]
    cases b.compare a with
    | none => simp
    | some other => simp [Ordering.swap_inj]
  exact or_congr (swapped wins) (swapped .eq)

namespace Ordered

variable {cells : Cell → Prop} {wins : Ordering} {a b c : Cell}

theorem bounds_trans (ordered : Ordered cells) (a_mem : cells a) (b_mem : cells b) (c_mem : cells c)
    (first : a.Bounds wins b) (second : b.Bounds wins c) : a.Bounds wins c := by
  cases wins with
  | lt => exact ordered.trans a b c a_mem b_mem c_mem first second
  | eq =>
    cases ordered.equal a b a_mem b_mem (first.elim id id)
    exact second
  | gt =>
    have first := (bounds_swap .lt).1 first
    have second := (bounds_swap .lt).1 second
    exact (bounds_swap .lt).2 (ordered.trans c b a c_mem b_mem a_mem second first)

theorem bounds_of_loses (apart : wins ≠ .eq) {order : Ordering}
    (compares : b.compare a = some order) (loses : order ≠ wins) : a.Bounds wins b := by
  rw [Bounds, Cell.compare_swap b a, compares]
  cases order <;> cases wins <;> simp at apart loses ⊢

theorem bounds_self (ordered : Ordered cells) (mem : cells a) (wins : Ordering) :
    a.Bounds wins a := by
  obtain ⟨order, compares⟩ := ordered.total a a mem mem
  have swapped := Cell.compare_swap a a
  rw [compares] at swapped
  refine .inr (compares.trans ?_)
  cases order <;> simp at swapped ⊢

theorem exists_stays (ordered : Ordered cells) (apart : wins ≠ .eq) (a_mem : cells a)
    (b_mem : cells b) {order : Ordering} (compares : b.compare a = some order) :
    ∃ next ∈ [a, b], (if order = wins then b else a) = next ∧ cells next ∧
      next.Bounds wins a ∧ next.Bounds wins b := by
  by_cases won : order = wins
  · exact ⟨b, by simp, if_pos won, b_mem, .inl (won ▸ compares), ordered.bounds_self b_mem wins⟩
  · exact ⟨a, by simp, if_neg won, a_mem, ordered.bounds_self a_mem wins,
      bounds_of_loses apart compares won⟩

theorem eq_of_bounds (ordered : Ordered cells) (apart : wins ≠ .eq) (a_mem : cells a)
    (b_mem : cells b) (first : a.Bounds wins b) (second : b.Bounds wins a) : a = b := by
  obtain first | first := first
  · rw [Bounds, Cell.compare_swap a b, first] at second
    cases wins <;> simp at apart second
  · exact ordered.equal a b a_mem b_mem first

end Ordered

end Cell

theorem Total.add?_eq_none_iff {t : Total} {c : Cell} :
    t.add? c = none ↔ (∀ n, c ≠ .int n) ∧ ∀ x, c ≠ .float x := by
  cases c <;> simp [add?]

namespace AggregateFunction

variable {f : AggregateFunction}

theorem exists_extreme {kind : Cell → Prop} (ordered : Cell.Ordered kind) {wins : Ordering}
    (apart : wins ≠ .eq) {best : Cell} {cells : List Cell} (kinds : ∀ c ∈ best :: cells, kind c) :
    ∃ m ∈ best :: cells, f.extreme wins best cells = .ok m ∧
      ∀ c ∈ best :: cells, m.Bounds wins c := by
  induction cells generalizing best with
  | nil =>
    refine ⟨best, List.mem_cons_self, rfl, fun c mem => ?_⟩
    rw [List.mem_singleton.1 mem]
    exact ordered.bounds_self (kinds best List.mem_cons_self) wins
  | cons cell cells ih =>
    obtain ⟨kind_best, kind_cell, rest⟩ : kind best ∧ kind cell ∧ ∀ c ∈ cells, kind c := by
      simpa only [List.forall_mem_cons] using kinds
    obtain ⟨order, compares⟩ := ordered.total cell best kind_cell kind_best
    obtain ⟨next, mem_next, stays, kind_next, bounds⟩ :=
      ordered.exists_stays apart kind_best kind_cell compares
    have kinds_next : ∀ c ∈ next :: cells, kind c := List.forall_mem_cons.2 ⟨kind_next, rest⟩
    obtain ⟨m, mem, made, least⟩ := ih kinds_next
    have kind_m := kinds_next m mem
    rw [List.forall_mem_cons] at least
    refine ⟨m, ?_, ?_, ?_⟩
    · obtain rfl | mem := List.mem_cons.1 mem
      · simp only [List.mem_cons, List.not_mem_nil, or_false] at mem_next ⊢
        exact mem_next.imp_right .inl
      · exact List.mem_cons_of_mem _ (List.mem_cons_of_mem _ mem)
    · rw [extreme, compares]
      exact (congrArg (f.extreme wins · cells) stays).trans made
    · rw [List.forall_mem_cons, List.forall_mem_cons]
      exact ⟨ordered.bounds_trans kind_m kind_next kind_best least.1 bounds.1,
        ordered.bounds_trans kind_m kind_next kind_cell least.1 bounds.2, least.2⟩

theorem total_ints (ns : List Int64) (start : Total) : ∃ floats,
    f.total start (ns.map Cell.int) = .ok ⟨start.ints + ns.sum, floats, start.allInts⟩ := by
  induction ns generalizing start with
  | nil => exact ⟨start.floats, by rw [List.sum_nil, Int64.add_zero]; rfl⟩
  | cons n ns ih =>
    obtain ⟨floats, made⟩ := ih ⟨start.ints + n, start.floats + Float.ofInt n.toInt, start.allInts⟩
    refine ⟨floats, made.trans ?_⟩
    rw [List.sum_cons, Int64.add_assoc]

theorem total_eq_error_iff {cells : List Cell} {start : Total} :
    (∃ e, f.total start cells = .error e) ↔
      ∃ c ∈ cells, (∀ n, c ≠ .int n) ∧ ∀ x, c ≠ .float x := by
  induction cells generalizing start with
  | nil => simp [total]
  | cons c cells ih =>
    rw [List.exists_mem_cons_iff, ← Total.add?_eq_none_iff (t := start), total]
    cases added : start.add? c with
    | none => simp
    | some next => simpa using ih

variable {cells cells' : List Cell}

theorem aggregate_nonNull (f : AggregateFunction) (cells : List Cell) :
    f.aggregate (nonNull cells) = f.aggregate cells := by
  unfold aggregate
  rw [show (nonNull cells).filter _ = nonNull cells from nonNull_nonNull cells]
  rfl

theorem aggregate_of_nonNull_eq_nil (none : nonNull cells = []) (other : f ≠ .count) :
    f.aggregate cells = .ok .null := by
  rw [← aggregate_nonNull, none]
  cases f <;> first | exact absurd rfl other | rfl

theorem aggregate_of_nonNull_eq_cons {first : Cell} {rest : List Cell}
    (some : nonNull cells = first :: rest) :
    sum.aggregate cells = (sum.total .zero (first :: rest)).map Total.sum ∧
      avg.aggregate cells =
        (avg.total .zero (first :: rest)).map (fun t => t.mean (first :: rest).length) ∧
      min.aggregate cells = min.extreme .lt first rest ∧
      max.aggregate cells = max.extreme .gt first rest := by
  have present : cells.filter (fun c => !c.isNull) = first :: rest := some
  simp only [aggregate, present, and_self]

theorem aggregate_sum_ints {ns : List Int64} (ints : nonNull cells = ns.map Cell.int)
    (some : ns ≠ []) : sum.aggregate cells = .ok (.int ns.sum) := by
  obtain ⟨n, rest, rfl⟩ := List.exists_cons_of_ne_nil some
  obtain ⟨floats, total⟩ := total_ints (f := sum) (n :: rest) .zero
  rw [(aggregate_of_nonNull_eq_cons ints).1, ← List.map_cons, total]
  exact congrArg (fun s => Except.ok (Cell.int s)) (Int64.zero_add _)

theorem aggregate_eq_error_iff (numeric : f = .sum ∨ f = .avg) :
    (∃ e, f.aggregate cells = .error e) ↔
      ∃ c ∈ nonNull cells, (∀ n, c ≠ .int n) ∧ ∀ x, c ≠ .float x := by
  have mapped {g : Total → Cell} {x : Except TableError Total} :
      (∃ e, x.map g = .error e) ↔ ∃ e, x = .error e := by
    cases x <;> simp [Except.map]
  cases present : nonNull cells with
  | nil =>
    have other : f ≠ .count := by
      rintro rfl
      simp at numeric
    simp [aggregate_of_nonNull_eq_nil present other]
  | cons first rest =>
    obtain ⟨sums, means, _⟩ := aggregate_of_nonNull_eq_cons present
    obtain rfl | rfl := numeric
    · rw [sums, mapped, total_eq_error_iff]
    · rw [means, mapped, total_eq_error_iff]

theorem exists_aggregate_extreme {kind : Cell.Kind} {wins : Ordering}
    (least_or_greatest : f = .min ∧ wins = .lt ∨ f = .max ∧ wins = .gt)
    (kinds : ∀ c ∈ nonNull cells, c.kind? = some kind) (present : nonNull cells ≠ []) :
    ∃ m ∈ nonNull cells, f.aggregate cells = .ok m ∧ ∀ c ∈ nonNull cells, m.Bounds wins c := by
  obtain ⟨first, rest, split⟩ := List.exists_cons_of_ne_nil present
  obtain ⟨_, _, least, greatest⟩ := aggregate_of_nonNull_eq_cons split
  have extremes (wins : Ordering) (apart : wins ≠ .eq) :=
    exists_extreme (f := f) (Cell.ordered_kind kind) apart (split ▸ kinds)
  rw [← split] at extremes
  obtain ⟨rfl, rfl⟩ | ⟨rfl, rfl⟩ := least_or_greatest
  · rw [least]
    exact extremes .lt (by decide)
  · rw [greatest]
    exact extremes .gt (by decide)

/-- Nulls change no aggregate, and the order of the cells changes no count, no sum of integers and
no least or greatest cell of one kind. Such a sum is exact modulo `2 ^ 64`, and such a cell bounds
all others. Sums and means fail exactly for cells that are no numbers. -/
theorem aggregate_of_perm (perm : cells'.Perm cells) :
    (∀ f : AggregateFunction, f.aggregate (nonNull cells) = f.aggregate cells) ∧
    count.aggregate cells = .ok (.int (Int64.ofNat (nonNull cells).length)) ∧
    count.aggregate cells' = .ok (.int (Int64.ofNat (nonNull cells).length)) ∧
    (nonNull cells = [] → ∀ f : AggregateFunction, f ≠ .count →
      f.aggregate cells = .ok .null ∧ f.aggregate cells' = .ok .null) ∧
    (∀ ns : List Int64, ns ≠ [] → nonNull cells = ns.map Cell.int → ∃ s,
      sum.aggregate cells = .ok (.int s) ∧ sum.aggregate cells' = .ok (.int s) ∧
      s.toInt ≡ (ns.map Int64.toInt).sum [ZMOD 2 ^ 64] ∧
      (-2 ^ 63 ≤ (ns.map Int64.toInt).sum → (ns.map Int64.toInt).sum < 2 ^ 63 →
        s.toInt = (ns.map Int64.toInt).sum)) ∧
    (∀ f : AggregateFunction, f = .sum ∨ f = .avg →
      ((∃ e, f.aggregate cells = .error e) ↔
        ∃ c ∈ nonNull cells, (∀ n, c ≠ .int n) ∧ ∀ x, c ≠ .float x) ∧
      ((∃ e, f.aggregate cells' = .error e) ↔
        ∃ c ∈ nonNull cells, (∀ n, c ≠ .int n) ∧ ∀ x, c ≠ .float x)) ∧
    ∀ (kind : Cell.Kind) (f : AggregateFunction) (wins : Ordering),
      f = .min ∧ wins = .lt ∨ f = .max ∧ wins = .gt →
      (∀ c ∈ nonNull cells, c.kind? = some kind) → nonNull cells ≠ [] →
      ∃ m ∈ nonNull cells, f.aggregate cells = .ok m ∧ f.aggregate cells' = .ok m ∧
        ∀ c ∈ nonNull cells, m.compare c = some wins ∨ m.compare c = some .eq := by
  have perm := nonNull_perm perm
  refine ⟨fun f => aggregate_nonNull f cells, rfl, ?_, ?_, ?_, ?_, ?_⟩
  · rw [← perm.length_eq]
    rfl
  · intro none f other
    exact ⟨aggregate_of_nonNull_eq_nil none other,
      aggregate_of_nonNull_eq_nil (List.Perm.eq_nil (none ▸ perm)) other⟩
  · intro ns some ints
    obtain ⟨ns', ints', perm'⟩ := exists_map_perm (ints ▸ perm)
    have some' : ns' ≠ [] := fun none => some (List.Perm.eq_nil (none ▸ perm'.symm))
    refine ⟨ns.sum, aggregate_sum_ints ints some, ?_, toInt_sum_modEq ns, toInt_sum_of_fits⟩
    rw [aggregate_sum_ints ints' some', int64_sum_perm perm']
  · intro f numeric
    refine ⟨aggregate_eq_error_iff numeric, (aggregate_eq_error_iff numeric).trans ?_⟩
    simp only [perm.mem_iff]
  · intro kind f wins least_or_greatest kinds present
    obtain ⟨m, mem, made, bounds⟩ := exists_aggregate_extreme least_or_greatest kinds present
    have kinds' : ∀ c ∈ nonNull cells', c.kind? = some kind :=
      fun c mem => kinds c (perm.mem_iff.1 mem)
    obtain ⟨m', mem', made', bounds'⟩ := exists_aggregate_extreme least_or_greatest kinds'
      fun none => present (List.Perm.eq_nil (none ▸ perm.symm))
    have apart : wins ≠ .eq := by
      obtain ⟨_, rfl⟩ | ⟨_, rfl⟩ := least_or_greatest <;> decide
    have same : m' = m := (Cell.ordered_kind kind).eq_of_bounds apart
      (kinds' m' mem') (kinds m mem) (bounds' m (perm.mem_iff.2 mem))
      (bounds m' (perm.mem_iff.1 mem'))
    exact ⟨m, mem, made, same ▸ made', bounds⟩

theorem aggregate_of_perm_carried :
    (∃ s, sum.aggregate [.int 9223372036854775807, .int 1, .null, .int (-1)] = .ok (.int s) ∧
      sum.aggregate [.null, .int (-1), .int 9223372036854775807, .int 1] = .ok (.int s) ∧
      s.toInt = 9223372036854775807) ∧
    ∃ m, max.aggregate [.int 9223372036854775807, .int 1, .null, .int (-1)] = .ok m ∧
      max.aggregate [.null, .int (-1), .int 9223372036854775807, .int 1] = .ok m := by
  have perm : [Cell.null, .int (-1), .int 9223372036854775807, .int 1].Perm
      [.int 9223372036854775807, .int 1, .null, .int (-1)] :=
    @List.perm_append_comm Cell [.null, .int (-1)] _
  obtain ⟨_, _, _, _, sums, _, extremes⟩ := aggregate_of_perm perm
  obtain ⟨s, made, made', _, exact_sum⟩ :=
    sums [9223372036854775807, 1, -1] (List.cons_ne_nil _ _) rfl
  obtain ⟨m, _, greatest, greatest', _⟩ := extremes .int .max .gt (.inr ⟨rfl, rfl⟩)
    (by simp [nonNull, Cell.isNull, Cell.kind?]) (List.cons_ne_nil _ _)
  exact ⟨⟨s, made, made', exact_sum (by decide) (by decide)⟩, m, greatest, greatest'⟩

end AggregateFunction

end TablePlan
