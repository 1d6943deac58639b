import TablePlan.Proofs.Table.NumberedGroups
import TablePlan.Proofs.Table.NumberedJoin
import TablePlan.Proofs.Table.Sorting

/-!
Table operations one after the other, over given tables and over results of earlier operations. The
given tables need not be valid. Every result is valid, so only a given table can fail its check, and
no operation reads a cell or a row that is not there. Only a sort can give up, and only over rows
that it compares inconsistently.
-/

namespace TablePlan

open Success

/-- An operation with its arguments; `τ` stands for the tables that it takes. -/
inductive Operation (τ : Type) where
  | join (left right : τ) (leftKey rightKey : String) (kind : JoinKind)
  | filter (input : τ) (condition : Predicate)
  | group (input : τ) (columns : List String) (calls : List AggregateCall)
  | project (input : τ) (columns : List Renaming)
  | sort (input : τ) (keys : List SortKey)

namespace Operation

variable {σ τ : Type}

def inputs : Operation τ → List τ
  | .join left right _ _ _ => [left, right]
  | .filter input _ | .group input _ _ | .project input _ | .sort input _ => [input]

def on? (find : σ → Option τ) : Operation σ → Option (Operation τ)
  | .join left right leftKey rightKey kind => do
    return .join (← find left) (← find right) leftKey rightKey kind
  | .filter input condition => do return .filter (← find input) condition
  | .group input columns calls => do return .group (← find input) columns calls
  | .project input columns => do return .project (← find input) columns
  | .sort input keys => do return .sort (← find input) keys

theorem found_of_on? {find : σ → Option τ} {op : Operation σ} {op' : Operation τ}
    (found : op.on? find = some op') : ∀ input ∈ op'.inputs, ∃ s, find s = some input := by
  cases op with
  | join left right leftKey rightKey kind =>
    obtain ⟨l, found_l, found⟩ := Option.bind_eq_some_iff.1 found
    obtain ⟨r, found_r, same⟩ := Option.bind_eq_some_iff.1 found
    cases same
    exact List.forall_mem_cons.2 ⟨⟨left, found_l⟩, List.forall_mem_singleton.2 ⟨right, found_r⟩⟩
  | filter input _ | group input _ _ | project input _ | sort input _ =>
    obtain ⟨t, found_t, same⟩ := Option.bind_eq_some_iff.1 found
    cases same
    exact List.forall_mem_singleton.2 ⟨input, found_t⟩

def run (sorter : Sorter) : Operation Table → Except TableError (Option Table)
  | .join left right leftKey rightKey kind => (left.join right leftKey rightKey kind).map some
  | .filter input condition => (input.filter condition).map some
  | .group input columns calls => (input.group columns calls).map some
  | .project input columns => (input.project columns).map some
  | .sort input keys => input.sort sorter keys

/-- The operation with every read of a cell, a row or a slot checked. -/
def run? (sorter : Sorter) : Operation Table → Reading (Option Table)
  | .join left right leftKey rightKey kind => some <$> left.join? right leftKey rightKey kind
  | .filter input condition => some <$> input.filter? condition
  | .group input columns calls => some <$> input.group? columns calls
  | .project input columns => some <$> input.project? columns
  | .sort input keys => input.sort? sorter keys

def columns : Operation Table → List String
  | .join left right _ _ _ => left.columns ++ right.columns
  | .filter input _ | .sort input _ => input.columns
  | .group _ columns calls => columns ++ calls.map AggregateCall.label
  | .project _ columns => columns.map Renaming.name

variable (sorter : Sorter)

theorem run?_eq (op : Operation Table) : op.run? sorter = Reading.ofExcept (op.run sorter) := by
  have checked {x : Reading Table} {y : Except TableError Table} (same : x = Reading.ofExcept y) :
      some <$> x = Reading.ofExcept (y.map some) := by
    rw [same]
    cases y <;> rfl
  cases op with
  | join left right leftKey rightKey kind =>
    exact checked (left.join?_eq right leftKey rightKey kind)
  | filter input condition => exact checked (input.filter?_eq condition)
  | group input columns calls => exact checked (input.group?_eq columns calls)
  | project input columns => exact checked (input.project?_eq columns)
  | sort input keys => exact input.sort?_eq sorter keys

theorem of_run_eq_some {op : Operation Table} {t : Table} (made : op.run sorter = .ok (some t)) :
    t.Valid ∧ t.columns = op.columns := by
  cases op with
  | join left right leftKey rightKey kind =>
    obtain ⟨valid, valid', _, _, distinct, rfl⟩ := Table.join_eq_ok.1 (map_some_eq_ok_some.1 made)
    exact ⟨⟨distinct, fun _ mem => Table.length_of_mem_joinRows valid valid' mem⟩, rfl⟩
  | filter input condition =>
    obtain ⟨valid, _, rfl⟩ := Table.filter_eq_ok.1 (map_some_eq_ok_some.1 made)
    exact ⟨⟨valid.distinct, fun row mem => valid.width row (List.mem_filter.1 mem).1⟩, rfl⟩
  | group input columns calls =>
    obtain ⟨_, _, names, valid⟩ := Table.of_group_eq_ok (map_some_eq_ok_some.1 made)
    exact ⟨valid, names⟩
  | project input columns =>
    obtain ⟨_, _, distinct, rfl⟩ := Table.project_eq_ok.1 (map_some_eq_ok_some.1 made)
    refine ⟨⟨distinct, fun row mem => ?_⟩, rfl⟩
    obtain ⟨_, _, rfl⟩ := List.mem_map.1 mem
    rw [List.length_map, List.length_map]
  | sort input keys =>
    obtain ⟨valid, _, sorted⟩ := Table.sort_eq_ok.1 made
    obtain ⟨rows, arranged, rfl⟩ := Table.sorted_eq_some.1 sorted.symm
    exact ⟨valid.rearranged (sorter.sort_perm arranged), rfl⟩

def SortsInconsistently (op : Operation Table) : Prop :=
  ∃ input keys, op = .sort input keys ∧
    ¬ Consistent (Row.namedOrder input.columns keys) (· ∈ input.rows)

theorem of_run_eq_none {op : Operation Table} (gaveUp : op.run sorter = .ok none) :
    op.SortsInconsistently := by
  cases op with
  | join _ _ _ _ _ | filter _ _ | group _ _ _ | project _ _ =>
    exact absurd gaveUp map_some_ne_ok_none
  | sort input keys =>
    refine ⟨input, keys, rfl, fun consistent => ?_⟩
    obtain ⟨_, _, failed⟩ := Table.sort_eq_ok.1 gaveUp
    obtain ⟨rows, sorted, _⟩ := Table.exists_sorted input sorter keys consistent
    cases failed.trans sorted

theorem run_eq_error {op : Operation Table} {e : TableError}
    (failed : op.inputs.forM Table.validate = .error e) : op.run sorter = .error e := by
  have mapped {x : Except TableError Table} (failed : x = .error e) : x.map some = .error e := by
    rw [failed]
    rfl
  cases op with
  | join left right leftKey rightKey kind =>
    refine mapped ?_
    obtain failed | ⟨_, passed, failed⟩ := bind_eq_error.1 failed
    · exact bind_eq_error.2 (.inl failed)
    · obtain failed | ⟨_, _, failed⟩ := bind_eq_error.1 failed
      · exact bind_eq_error.2 (.inr ⟨_, passed, bind_eq_error.2 (.inl failed)⟩)
      · cases failed
  | filter input _ | group input _ _ | project input _ =>
    refine mapped ?_
    obtain failed | ⟨_, _, failed⟩ := bind_eq_error.1 failed
    · exact bind_eq_error.2 (.inl failed)
    · cases failed
  | sort input _ =>
    obtain failed | ⟨_, _, failed⟩ := bind_eq_error.1 failed
    · exact bind_eq_error.2 (.inl failed)
    · cases failed

theorem exists_forM_validate_eq_error {ts : List Table} (invalid : ∃ t ∈ ts, ¬t.Valid) :
    ∃ e, ts.forM Table.validate = .error e := by
  induction ts with
  | nil => simp at invalid
  | cons t ts ih =>
    obtain ⟨u, mem, invalid⟩ := invalid
    rw [List.forM]
    cases checked : t.validate with
    | error e => exact ⟨e, rfl⟩
    | ok =>
      have other : u ≠ t := fun same => invalid (same ▸ Table.validate_eq_ok_iff.1 checked)
      exact ih ⟨u, List.mem_of_ne_of_mem other mem, invalid⟩

/-- What the answer to an operation promises, whatever tables the operation is given. -/
structure Sound (sorter : Sorter) (op : Operation Table)
    (answer : Except TableError (Option Table)) : Prop where
  result : ∀ t, answer = .ok (some t) → t.Valid ∧ t.columns = op.columns
  /-- There is an answer except from a sort over rows that it compares inconsistently. -/
  gaveUp : answer = .ok none → op.SortsInconsistently
  /-- With an invalid table the answer is the failure of its check. -/
  invalid : (∃ t ∈ op.inputs, ¬t.Valid) →
    ∃ e, op.inputs.forM Table.validate = .error e ∧ answer = .error e
  /-- The answer is the same if every read of a cell, a row or a slot is checked. -/
  reads : op.run? sorter = Reading.ofExcept answer

theorem sound_run (op : Operation Table) : op.Sound sorter (op.run sorter) where
  result _ := of_run_eq_some sorter
  gaveUp := of_run_eq_none sorter
  invalid invalid := by
    obtain ⟨e, failed⟩ := exists_forM_validate_eq_error invalid
    exact ⟨e, failed, run_eq_error sorter failed⟩
  reads := op.run?_eq sorter

/-- The operations that are run one after the other, each with its answer. Operations take tables
by number: the given ones come first, and every result is put behind the tables that are there. An
operation on a number without a table is left out, and a sort that gives up ends the run. -/
def runAll (sorter : Sorter) : List Table → List (Operation Nat) →
    List (Operation Table × Except TableError (Option Table))
  | _, [] => []
  | tables, op :: ops => match op.on? (tables[·]?) with
    | none => runAll sorter tables ops
    | some op => (op, op.run sorter) :: match op.run sorter with
      | .ok (some t) => runAll sorter (tables ++ [t]) ops
      | .ok none => []
      | .error _ => runAll sorter tables ops

theorem runAll_sound (start : List Table) (ops : List (Operation Nat)) :
    ∀ entry ∈ runAll sorter start ops,
      (∀ t ∈ entry.1.inputs, t ∈ start ∨ t.Valid) ∧ entry.1.Sound sorter entry.2 := by
  suffices from_tables : ∀ tables : List Table, (∀ t ∈ tables, t ∈ start ∨ t.Valid) →
      ∀ entry ∈ runAll sorter tables ops,
        (∀ t ∈ entry.1.inputs, t ∈ start ∨ t.Valid) ∧ entry.1.Sound sorter entry.2 from
    from_tables start fun t mem => .inl mem
  -- What is at hand grows with each result, so the induction is for all tables of that kind.
  induction ops with
  | nil => simp [runAll]
  | cons op ops ih =>
    intro tables origin
    unfold runAll
    cases found : op.on? (tables[·]?) with
    | none => exact ih tables origin
    | some op' =>
      have inputs : ∀ t ∈ op'.inputs, t ∈ start ∨ t.Valid := by
        intro t mem
        obtain ⟨i, at_i⟩ := found_of_on? found t mem
        exact origin t (List.mem_of_getElem? at_i)
      refine List.forall_mem_cons.2 ⟨⟨inputs, op'.sound_run sorter⟩, ?_⟩
      cases made : op'.run sorter with
      | error e => exact ih tables origin
      | ok result =>
        cases result with
        | none => exact List.forall_mem_nil _
        | some t =>
          refine ih _ (List.forall_mem_append.2 ⟨origin, List.forall_mem_singleton.2 (.inr ?_)⟩)
          exact (of_run_eq_some sorter made).1

def people : Table := ⟨["id", "name"], [[.int 1, .text "Ada"], [.int 2, .text "Ida"]]⟩

def nameless : Table := ⟨["id", "name"], [[.int 1]]⟩

theorem runAll_sound_people :
    let keys : Table := ⟨["key"], [[.int 1], [.int 2]]⟩
    let joined : Operation Table := .join people keys "id" "key" .left
    let sorted : Operation Table := .sort nameless [⟨"id", .desc⟩]
    let entries := runAll .standard [people, nameless]
      [.project 0 [⟨"id", "key"⟩], .sort 1 [⟨"id", .desc⟩], .join 0 2 "id" "key" .left]
    ((joined, joined.run .standard) ∈ entries ∧ joined.Sound .standard (joined.run .standard) ∧
      ∀ t ∈ joined.inputs, t ∈ [people, nameless] ∨ t.Valid) ∧
    (sorted, .error (.rowWidth 0 1 2)) ∈ entries ∧
      sorted.Sound .standard (.error (.rowWidth 0 1 2)) := by
  intro keys joined sorted entries
  have second : (sorted, .error (.rowWidth 0 1 2)) ∈ entries := .tail _ (.head _)
  have third : (joined, joined.run .standard) ∈ entries := .tail _ (.tail _ (.head _))
  obtain ⟨origin, sound⟩ := runAll_sound _ _ _ _ third
  exact ⟨⟨third, sound, origin⟩, second, (runAll_sound _ _ _ _ second).2⟩

end Operation

end TablePlan
