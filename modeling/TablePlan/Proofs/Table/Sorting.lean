import TablePlan.Sorter.Standard
import TablePlan.Proofs.StableSort
import TablePlan.Proofs.Table.Aggregation
import TablePlan.Proofs.Table.Operations

/-!
What a sort by several keys answers. The cells of a column that are of one kind are in order up or
down, with the nulls behind them either way; rows are in the order of the first key that tells them
apart, and rows that no key tells apart stay as they stood.
-/

namespace TablePlan

theorem Direction.apply_swap (direction : Direction) (order : Ordering) :
    direction.apply order.swap = (direction.apply order).swap := by
  cases direction <;> rfl

namespace Cell

inductive Before : Direction → Cell → Cell → Prop where
  | present {direction : Direction} {a : Cell} (present : a.isNull = false) :
    Before direction a .null
  | less {a b : Cell} (order : a.compare b = some .lt) : Before .asc a b
  | greater {a b : Cell} (order : a.compare b = some .gt) : Before .desc a b

variable {direction : Direction} {a b : Cell}

theorem isNull_iff : a.isNull = true ↔ a = .null := by
  cases a <;> simp [isNull]

theorem isNull_of_compare {order : Ordering} (compares : a.compare b = some order) :
    a.isNull = false ∧ b.isNull = false := by
  cases a <;> cases b <;> first | exact ⟨rfl, rfl⟩ | cases compares

def presentOrder (a b : Cell) : Ordering :=
  (a.compare b).getD .eq

theorem sortOrder_present (direction : Direction) (present : a.isNull = false)
    (present' : b.isNull = false) :
    sortOrder direction a b = direction.apply (presentOrder a b) := by
  simp only [sortOrder, present, present', presentOrder]

theorem presentOrder_swap (a b : Cell) : presentOrder b a = (presentOrder a b).swap := by
  rw [presentOrder, presentOrder, compare_swap a b]
  cases a.compare b <;> rfl

theorem sortOrder_swap (direction : Direction) (a b : Cell) :
    sortOrder direction b a = (sortOrder direction a b).swap := by
  cases null : a.isNull <;> cases null' : b.isNull <;> simp only [sortOrder, null, null']
  · rw [← direction.apply_swap]
    exact congrArg direction.apply (presentOrder_swap a b)
  all_goals rfl

theorem sortOrder_eq_lt : sortOrder direction a b = .lt ↔ Before direction a b := by
  constructor
  · intro before
    cases null : a.isNull <;> cases null' : b.isNull <;>
      simp only [sortOrder, null, null'] at before
    · cases compares : a.compare b with
      | none => cases direction <;> simp [compares, Direction.apply] at before
      | some order =>
        cases direction <;> cases order <;> simp [compares, Direction.apply] at before
        · exact .less compares
        · exact .greater compares
    · exact isNull_iff.1 null' ▸ .present null
    all_goals cases before
  · rintro (present | order | order)
    · rw [sortOrder, present]
      rfl
    all_goals
      obtain ⟨null, null'⟩ := isNull_of_compare order
      simp [sortOrder, null, null', order, Direction.apply]

theorem isNull_of_sortOrder (order : sortOrder direction a b ≠ .gt) (present : b.isNull = false) :
    a.isNull = false := by
  by_contra null
  rw [Bool.not_eq_false] at null
  exact order (by simp only [sortOrder, null, present])

theorem consistent_sortOrder_iff {cells : Cell → Prop} : Consistent (sortOrder direction) cells ↔
    Consistent presentOrder fun c => cells c ∧ c.isNull = false := by
  have turned {a b : Cell} : presentOrder b a ≠ .gt ↔ (presentOrder a b).swap ≠ .gt := by
    rw [presentOrder_swap a b]
  constructor
  · intro consistent
    refine .of_swap_trans (fun a b _ _ => presentOrder_swap a b) ?_
    rintro a b c ⟨in_a, present_a⟩ ⟨in_b, present_b⟩ ⟨in_c, present_c⟩ ab bc
    have upward := consistent.trans a b c in_a in_b in_c
    have downward := consistent.trans c b a in_c in_b in_a
    simp only [sortOrder_present, present_a, present_b, present_c] at upward downward
    cases direction with
    | asc => exact upward ab bc
    | desc => exact turned.2 (downward (turned.1 bc) (turned.1 ab))
  · intro consistent
    refine .of_swap_trans (fun a b _ _ => sortOrder_swap direction a b) ?_
    intro a b c in_a in_b in_c ab bc
    cases null : c.isNull with
    | true => cases null' : a.isNull <;> simp [sortOrder, null, null']
    | false =>
      have present_b := isNull_of_sortOrder bc null
      have present_a := isNull_of_sortOrder ab present_b
      rw [sortOrder_present direction present_a present_b] at ab
      rw [sortOrder_present direction present_b null] at bc
      rw [sortOrder_present direction present_a null]
      have upward := consistent.trans a b c ⟨in_a, present_a⟩ ⟨in_b, present_b⟩ ⟨in_c, null⟩
      have downward := consistent.trans c b a ⟨in_c, null⟩ ⟨in_b, present_b⟩ ⟨in_a, present_a⟩
      cases direction with
      | asc => exact upward ab bc
      | desc => exact turned.1 (downward (turned.2 bc) (turned.2 ab))

def InColumn (kind : Kind) (c : Cell) : Prop :=
  c.isNull = false → c.kind? = some kind

instance (kind : Kind) (c : Cell) : Decidable (InColumn kind c) :=
  inferInstanceAs (Decidable (c.isNull = false → c.kind? = some kind))

theorem consistent_kind (kind : Kind) (direction : Direction) :
    Consistent (sortOrder direction) (InColumn kind) := by
  refine consistent_sortOrder_iff.2 (.of_swap_trans (fun a b _ _ => presentOrder_swap a b) ?_)
  rintro a b c ⟨in_a, present_a⟩ ⟨in_b, present_b⟩ ⟨in_c, present_c⟩ ab bc
  have ordered := ordered_kind kind
  have bounds {a b : Cell} (kind_a : a.kind? = some kind) (kind_b : b.kind? = some kind) :
      presentOrder a b ≠ .gt ↔ a.Bounds .lt b := by
    obtain ⟨order, compares⟩ := ordered.total a b kind_a kind_b
    rw [presentOrder, Bounds, compares]
    cases order <;> simp
  rw [bounds (in_a present_a) (in_b present_b)] at ab
  rw [bounds (in_b present_b) (in_c present_c)] at bc
  rw [bounds (in_a present_a) (in_c present_c)]
  exact ordered.trans a b c (in_a present_a) (in_b present_b) (in_c present_c) ab bc

theorem sortOrder_eq_eq {kind : Kind} (in_a : InColumn kind a) (in_b : InColumn kind b) :
    sortOrder direction a b = .eq ↔ a = b := by
  constructor
  · intro tie
    cases null : a.isNull <;> cases null' : b.isNull <;> simp only [sortOrder, null, null'] at tie
    · have ordered := ordered_kind kind
      obtain ⟨order, compares⟩ := ordered.total a b (in_a null) (in_b null')
      have tie : order = .eq := by
        cases direction <;> cases order <;> simp [compares, Direction.apply] at tie ⊢
      exact ordered.equal a b (in_a null) (in_b null') (tie ▸ compares)
    all_goals cases tie
    rw [isNull_iff.1 null, isNull_iff.1 null']
  · rintro rfl
    exact (consistent_kind kind direction).self in_a

end Cell

namespace Row

variable {columns : List String} {keys : List SortKey} {a b : Row}

/-- Whether a row stands before another one: the first key on which they differ decides. -/
inductive Before (columns : List String) : List SortKey → Row → Row → Prop where
  | here {k : SortKey} {keys : List SortKey} {a b : Row} (before : Cell.Before k.direction
    (a.named columns k.column) (b.named columns k.column)) : Before columns (k :: keys) a b
  | next {k : SortKey} {keys : List SortKey} {a b : Row}
    (same : a.named columns k.column = b.named columns k.column)
    (before : Before columns keys a b) : Before columns (k :: keys) a b

def Agree (columns : List String) (keys : List SortKey) (a b : Row) : Prop :=
  ∀ k ∈ keys, a.named columns k.column = b.named columns k.column

/-- Rows that can be sorted by these keys: under each key, cells of one kind and nulls. -/
def Sortable (columns : List String) (keys : List SortKey) (rows : List Row) : Prop :=
  ∀ k ∈ keys, ∃ kind, ∀ row ∈ rows, Cell.InColumn kind (row.named columns k.column)

theorem namedOrder_cons (columns : List String) (k : SortKey) (keys : List SortKey) :
    namedOrder columns (k :: keys) = lexicographic (fun a b =>
      Cell.sortOrder k.direction (a.named columns k.column) (b.named columns k.column))
      (namedOrder columns keys) :=
  rfl

theorem namedOrder_append (columns : List String) (keys keys' : List SortKey) :
    namedOrder columns (keys ++ keys') =
      lexicographic (namedOrder columns keys) (namedOrder columns keys') := by
  funext a b
  induction keys with
  | nil => rfl
  | cons k keys ih =>
    rw [List.cons_append, namedOrder_cons, namedOrder_cons, lexicographic, ih, lexicographic,
      lexicographic, lexicographic, Ordering.then_assoc]

section Sortable

variable {rows : List Row}

theorem consistent_namedOrder (sortable : Sortable columns keys rows) :
    Consistent (namedOrder columns keys) (· ∈ rows) := by
  induction keys with
  | nil => exact .of_swap_trans (fun _ _ _ _ => rfl) fun _ _ _ _ _ _ _ _ => nofun
  | cons k keys ih =>
    obtain ⟨⟨kind, in_column⟩, sortable⟩ := List.forall_mem_cons.1 sortable
    rw [namedOrder_cons]
    exact ((Cell.consistent_kind kind k.direction).comap in_column).lexicographic (ih sortable)

variable (sortable : Sortable columns keys rows) (mem_a : a ∈ rows) (mem_b : b ∈ rows)

include sortable mem_a mem_b

theorem namedOrder_eq_eq : namedOrder columns keys a b = .eq ↔ Agree columns keys a b := by
  induction keys with
  | nil => simp [namedOrder, Agree]
  | cons k keys ih =>
    obtain ⟨⟨kind, in_column⟩, sortable⟩ := List.forall_mem_cons.1 sortable
    rw [Agree, List.forall_mem_cons, namedOrder, Ordering.then_eq_eq, ih sortable,
      Cell.sortOrder_eq_eq (in_column a mem_a) (in_column b mem_b)]
    rfl

theorem namedOrder_eq_lt : namedOrder columns keys a b = .lt ↔ Before columns keys a b := by
  induction keys with
  | nil => exact ⟨nofun, nofun⟩
  | cons k keys ih =>
    obtain ⟨⟨kind, in_column⟩, sortable⟩ := List.forall_mem_cons.1 sortable
    rw [namedOrder, Ordering.then_eq_lt, Cell.sortOrder_eq_lt, ih sortable,
      Cell.sortOrder_eq_eq (in_column a mem_a) (in_column b mem_b)]
    constructor
    · rintro (before | ⟨same, before⟩)
      · exact .here before
      · exact .next same before
    · rintro (before | ⟨same, before⟩)
      · exact .inl before
      · exact .inr ⟨same, before⟩

theorem namedOrder_ne_gt : namedOrder columns keys a b ≠ .gt ↔ ¬ Before columns keys b a := by
  rw [← namedOrder_eq_lt sortable mem_b mem_a,
    (consistent_namedOrder sortable).swap a b mem_a mem_b]
  cases namedOrder columns keys a b <;> simp

end Sortable

end Row

namespace Table

/-- A table sorted by keys: its rows rearranged so that none stands after one that it is before, and
rows that no key tells apart as they stood. -/
structure SortedBy (t : Table) (keys : List SortKey) (t' : Table) : Prop where
  columns : t'.columns = t.columns
  perm : t'.rows.Perm t.rows
  ordered : t'.rows.Pairwise fun a b => ¬ Row.Before t.columns keys b a
  stable : ∀ group : List Row, (∀ a ∈ group, ∀ b ∈ group, Row.Agree t.columns keys a b) →
    (group.Sublist t'.rows ↔ group.Sublist t.rows)

variable {t t' : Table} {keys more : List SortKey}

theorem sortedBy_iff (sortable : Row.Sortable t.columns keys t.rows) : t.SortedBy keys t' ↔
    t'.columns = t.columns ∧ Arranges (Row.namedOrder t.columns keys) t.rows t'.rows := by
  have consistent := Row.consistent_namedOrder sortable
  have orders (perm : t'.rows.Perm t.rows) :
      (t'.rows.Pairwise fun a b => Row.namedOrder t.columns keys a b ≠ .gt) ↔
        t'.rows.Pairwise fun a b => ¬ Row.Before t.columns keys b a :=
    List.Pairwise.iff_of_mem fun {a b} mem_a mem_b => Row.namedOrder_ne_gt sortable
      (perm.mem_iff.1 mem_a) (perm.mem_iff.1 mem_b)
  have ties {group : List Row} (inside : ∀ a ∈ group, a ∈ t.rows) :
      (∀ a ∈ group, ∀ b ∈ group, Row.namedOrder t.columns keys a b = .eq) ↔
        ∀ a ∈ group, ∀ b ∈ group, Row.Agree t.columns keys a b :=
    forall₂_congr fun a mem_a => forall₂_congr fun b mem_b =>
      Row.namedOrder_eq_eq sortable (inside a mem_a) (inside b mem_b)
  constructor
  · rintro ⟨columns, perm, ordered, stable⟩
    refine ⟨columns, .of_sublists consistent (fun _ mem => mem) perm ((orders perm).2 ordered) ?_⟩
    intro group tied sub
    have inside : ∀ a ∈ group, a ∈ t.rows := fun a mem => perm.mem_iff.1 (sub.subset mem)
    exact (stable group ((ties inside).1 tied)).1 sub
  · rintro ⟨columns, arranges⟩
    refine ⟨columns, arranges.perm, (orders arranges.perm).1 arranges.ordered,
      fun group agree => ?_⟩
    constructor
    · intro sub
      have inside : ∀ a ∈ group, a ∈ t.rows :=
        fun a mem => arranges.perm.mem_iff.1 (sub.subset mem)
      exact (arranges.sublist_iff ((ties inside).2 agree)).1 sub
    · intro sub
      exact (arranges.sublist_iff ((ties fun a mem => sub.subset mem).2 agree)).2 sub

theorem Valid.rearranged (valid : t.Valid) {rows : List Row} (perm : rows.Perm t.rows) :
    Valid ⟨t.columns, rows⟩ :=
  ⟨valid.distinct, fun row mem => valid.width row (perm.mem_iff.1 mem)⟩

theorem sort_eq_sorted (sorter : Sorter) (valid : t.Valid)
    (present : ∀ k ∈ keys, k.column ∈ t.columns) :
    t.sort sorter keys = .ok (t.sorted sorter keys) :=
  sort_eq_ok.2 ⟨valid, present, rfl⟩

theorem sorted_eq_some {sorter : Sorter} : t.sorted sorter keys = some t' ↔ ∃ rows,
    sorter.sort (Row.namedOrder t.columns keys) t.rows = some rows ∧ ⟨t.columns, rows⟩ = t' :=
  Option.map_eq_some_iff

theorem exists_sorted (t : Table) (sorter : Sorter) (keys : List SortKey)
    (consistent : Consistent (Row.namedOrder t.columns keys) (· ∈ t.rows)) :
    ∃ rows, t.sorted sorter keys = some ⟨t.columns, rows⟩ ∧
      Arranges (Row.namedOrder t.columns keys) t.rows rows := by
  obtain ⟨rows, sorted, arranges⟩ := sorter.exists_sort consistent
  exact ⟨rows, sorted_eq_some.2 ⟨rows, sorted, rfl⟩, arranges⟩

/-- An integer and a text count as equal, which says nothing of two integers around a text. -/
example :
    (⟨["k"], (List.replicate 8 [[.int 2], [.int 1], [.text "x"]]).flatten⟩ : Table).sort .standard
      [⟨"k", .asc⟩] = .ok none := by
  cbv

/-- A table whose sort columns each hold cells of one kind and nulls has one stable sort, and this
is what a sort answers. Sorting it again changes nothing, and sorting it by more keys is sorting
once by these keys and then the first ones. -/
theorem sort_stable (sorter : Sorter) (valid : t.Valid)
    (present : ∀ k ∈ keys, k.column ∈ t.columns)
    (sortable : Row.Sortable t.columns keys t.rows) :
    ∃ t', t.sort sorter keys = .ok (some t') ∧ (∀ other, t.SortedBy keys other ↔ other = t') ∧
      t'.sort sorter keys = .ok (some t') ∧
      ∀ more, (∀ k ∈ more, k.column ∈ t.columns) → Row.Sortable t.columns more t.rows →
        t'.sort sorter more = t.sort sorter (more ++ keys) := by
  have consistent := Row.consistent_namedOrder sortable
  obtain ⟨rows, sorted, arranges⟩ := exists_sorted t sorter keys consistent
  have valid' := valid.rearranged arranges.perm
  have inside : ∀ row ∈ rows, row ∈ t.rows := fun row mem => arranges.perm.mem_iff.1 mem
  have mem_rows : ∀ row ∈ t.rows, row ∈ t.rows := fun _ mem => mem
  refine ⟨⟨t.columns, rows⟩, ?_, fun other => ?_, ?_, ?_⟩
  · rw [sort_eq_sorted sorter valid present, sorted]
  · rw [sortedBy_iff sortable]
    constructor
    · rintro ⟨columns, arranges'⟩
      have rows := arranges'.unique consistent mem_rows arranges
      cases other
      congr
    · rintro rfl
      exact ⟨rfl, arranges⟩
  · obtain ⟨rows', again, arranges'⟩ := exists_sorted ⟨t.columns, rows⟩ sorter keys
      (consistent.mono inside)
    rw [sort_eq_sorted sorter valid' present, again,
      arranges'.unique (consistent.mono inside) (fun _ mem => mem)
        ⟨.refl _, arranges.ordered, fun _ _ => rfl⟩]
  · intro more present' sortable'
    have consistent' := Row.consistent_namedOrder sortable'
    have both : ∀ k ∈ more ++ keys, k.column ∈ t.columns :=
      List.forall_mem_append.2 ⟨present', present⟩
    have lexicographic := consistent'.lexicographic consistent
    obtain ⟨rows', sorted', arranges'⟩ := exists_sorted ⟨t.columns, rows⟩ sorter more
      (consistent'.mono inside)
    obtain ⟨rows'', sorted'', arranges''⟩ := exists_sorted t sorter (more ++ keys)
      (Row.namedOrder_append t.columns more keys ▸ lexicographic)
    rw [sort_eq_sorted sorter valid' present', sort_eq_sorted sorter valid both, sorted', sorted'']
    -- Sorting twice arranges the rows by both comparisons, and so does sorting once.
    rw [Row.namedOrder_append] at arranges''
    have twice := arranges.lexicographic consistent' mem_rows arranges'
    rw [twice.unique lexicographic mem_rows arranges'']

theorem sort_stable_ages :
    let t : Table := ⟨["name", "age"], [[.text "Ada", .int 36], [.text "Grace", .null],
      [.text "Edsger", .int 72], [.text "Ada", .int 41], [.text "Alan", .int 36]]⟩
    ∃ t', t.sort .standard [⟨"age", .desc⟩] = .ok (some t') ∧
      t.SortedBy [⟨"age", .desc⟩] t' ∧ t'.sort .standard [⟨"age", .desc⟩] = .ok (some t') ∧
      t'.sort .standard [⟨"name", .asc⟩] = t.sort .standard [⟨"name", .asc⟩, ⟨"age", .desc⟩] := by
  intro t
  have sortable : Row.Sortable t.columns [⟨"age", .desc⟩] t.rows :=
    List.forall_mem_singleton.2 ⟨.int, by decide⟩
  have sortable' : Row.Sortable t.columns [⟨"name", .asc⟩] t.rows :=
    List.forall_mem_singleton.2 ⟨.text, by decide⟩
  obtain ⟨t', sorted, only, again, later⟩ :=
    sort_stable .standard ⟨by decide, by decide⟩ (by decide) sortable
  exact ⟨t', sorted, (only t').2 rfl, again, later _ (by decide) sortable'⟩

end Table

end TablePlan
