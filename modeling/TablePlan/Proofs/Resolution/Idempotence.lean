import TablePlan.Proofs.Resolution.Correspondence
import TablePlan.Proofs.Resolution.Owners

/-!
What a spec resolves to, as a relation that the declared tables determine. Resolution is idempotent:
a resolved spec that is written back, with every reference qualified, resolves to itself.
-/

namespace TablePlan

open Success

/-- What a spec resolves to. Conditions keep their shape, and every name is resolved by the declared
tables alone, but for the names that `select` gives to `having`. -/
structure Spec.ResolvesTo (schemas : Schemas) (default : JoinKind) (clauses : Clauses) (spec : Spec)
    (resolved : ResolvedSpec) : Prop where
  name : resolved.name = spec.name
  tables : resolved.tables = spec.tables
  sort : resolved.sort = spec.sort
  listed : ∀ t ∈ spec.tables, ∃ columns, schemas.find? t.physicalName = some columns
  scope : resolved.scope = Scope.declared schemas spec.tables
  joins : List.Forall₂ (JoinCondition.ResolvesTo schemas spec.tables default)
    spec.joins resolved.joins
  select : List.Forall₂ (SelectClause.ResolvesTo schemas spec.tables)
    clauses.select resolved.select
  filter : Option.Rel (Predicate.Corresponds (Operand.ResolvesTo schemas spec.tables))
    clauses.filter resolved.filter
  group : List.Forall₂ (fun text => (ColumnRef.parse text).ResolvesTo schemas spec.tables)
    spec.group resolved.group
  having : Option.Rel
    (Predicate.Corresponds (Operand.ResolvesInHaving schemas spec.tables resolved.select))
    clauses.having resolved.having

/-- A source as it is written in full; an ambiguous column stays bare. -/
def SelectSource.written : SelectSource → ColumnSource
  | .resolved source => source
  | .ambiguous column _ => .column (.bare column)

def ResolvedSelect.clause (entry : ResolvedSelect) : SelectClause :=
  ⟨entry.key, entry.source.written, entry.outputName⟩

def JoinEdge.written (e : JoinEdge) : JoinCondition :=
  ⟨e.leftAlias, e.rightAlias, e.leftKey.text, e.rightKey.text, some e.kind⟩

namespace ResolvedSpec

/-- The clauses with their references as they are resolved. -/
def clauses (resolved : ResolvedSpec) : Clauses :=
  ⟨resolved.select.map ResolvedSelect.clause, resolved.filter, resolved.having⟩

/-- The spec with its join keys and group keys as they are resolved, in text. -/
def writtenBack (resolved : ResolvedSpec) (spec : Spec) : Spec :=
  { spec with
    joins := resolved.joins.map JoinEdge.written, group := resolved.group.map ColumnRef.text }

end ResolvedSpec

theorem Spec.resolve_eq_ok_iff {spec : Spec} {schemas : Schemas} {default : JoinKind}
    {clauses : Clauses} {resolved : ResolvedSpec}
    (distinct : (spec.tables.map TableDecl.aliasName).Nodup) :
    spec.resolve schemas default clauses = .ok resolved ↔
      spec.ResolvesTo schemas default clauses resolved := by
  rw [resolve_eq_ok]
  constructor
  · rintro ⟨stages, held⟩
    have made := stages.scope
    obtain ⟨listed, scope⟩ := Scope.ofTables_eq_ok.1 made
    exact {
      name := stages.name
      tables := stages.tables
      sort := stages.sort
      listed := listed
      scope := scope
      joins := (mapM_zipIdx_eq_ok fun _ _ _ => Scope.join_eq_ok distinct made).1 stages.joins
      select := (mapM_zipIdx_eq_ok fun _ _ _ =>
        Scope.selectClause_eq_ok distinct made).1 stages.select
      filter := (Predicate.resolve?_eq_ok fun _ _ =>
        Scope.operand_eq_ok distinct made).1 stages.filter
      group := (mapM_zipIdx_eq_ok fun _ _ _ => Scope.column_eq_ok distinct made).1 stages.group
      having := (Predicate.resolve?_eq_ok fun _ _ =>
        Scope.havingOperand_eq_ok distinct made).1 held }
  · intro resolves
    have made : Scope.ofTables schemas spec.tables = .ok resolved.scope :=
      Scope.ofTables_eq_ok.2 ⟨resolves.listed, resolves.scope⟩
    refine ⟨{
      name := resolves.name
      tables := resolves.tables
      sort := resolves.sort
      scope := made
      joins := (mapM_zipIdx_eq_ok fun _ _ _ => Scope.join_eq_ok distinct made).2 resolves.joins
      select := (mapM_zipIdx_eq_ok fun _ _ _ =>
        Scope.selectClause_eq_ok distinct made).2 resolves.select
      filter := (Predicate.resolve?_eq_ok fun _ _ =>
        Scope.operand_eq_ok distinct made).2 resolves.filter
      group := (mapM_zipIdx_eq_ok fun _ _ _ =>
        Scope.column_eq_ok distinct made).2 resolves.group }, ?_⟩
    exact (Predicate.resolve?_eq_ok fun _ _ =>
      Scope.havingOperand_eq_ok distinct made).2 resolves.having

section Self

variable {schemas : Schemas} {tables : List TableDecl}

theorem ColumnRef.Declared.ne_bare {ref : ColumnRef} (declared : ref.Declared schemas tables)
    (name : String) : ref ≠ .bare name := by
  rintro rfl
  obtain ⟨_, _, named, _⟩ := declared
  cases named

theorem Operand.resolvesTo_self : ∀ {operand : Operand},
    (∀ ref ∈ operand.refs, ref.Declared schemas tables) → operand.ResolvesTo schemas tables operand
  | .column ref, declared => .column (.named (declared ref (by simp [refs])))
  | .literal value, _ => .literal value
  | .aggregate ⟨_, none⟩, _ => .aggregate .none
  | .aggregate ⟨_, some ref⟩, declared =>
    .aggregate (.some (.named (declared ref (by simp [refs]))))

theorem Operand.resolvesInHaving_self {select : List ResolvedSelect} {operand : Operand}
    (declared : ∀ ref ∈ operand.refs, ref.Declared schemas tables) :
    operand.ResolvesInHaving schemas tables select operand := by
  refine .table (fun name same => ?_) (resolvesTo_self declared)
  rw [same] at declared
  exact absurd rfl ((declared _ (by simp [refs])).ne_bare name)

theorem SelectClause.ResolvesTo.written {clause : SelectClause} {entry : ResolvedSelect}
    (resolves : clause.ResolvesTo schemas tables entry)
    (declared : ∀ source, entry.source = .resolved source →
      ∀ ref ∈ source.toOperand.refs, ref.Declared schemas tables) :
    entry.clause.ResolvesTo schemas tables entry := by
  refine ⟨rfl, rfl, fun column aliases => ?_, fun source resolved => ?_⟩
  · rw [ResolvedSelect.clause]
    cases found : entry.source with
    | resolved source =>
      have apart : source ≠ .column (.bare column) := by
        rintro rfl
        exact absurd rfl ((declared _ found _ (List.mem_singleton_self _)).ne_bare column)
      simp [SelectSource.written, apart]
    | ambiguous column' aliases' =>
      obtain ⟨_, several, rfl⟩ := (resolves.ambiguous column' aliases').1 found
      simp only [SelectSource.written, SelectSource.ambiguous.injEq, ColumnSource.column.injEq,
        ColumnRef.bare, ColumnRef.mk.injEq, true_and]
      constructor
      · rintro ⟨rfl, rfl⟩
        exact ⟨rfl, several, rfl⟩
      · rintro ⟨rfl, _, rfl⟩
        exact ⟨rfl, rfl⟩
  · have self := Operand.resolvesTo_self (declared source resolved)
    rwa [ResolvedSelect.clause, resolved]

end Self

section Texts

variable {schemas : Schemas} {tables : List TableDecl}
  (plain : ∀ t ∈ tables, Text.trim t.aliasName = t.aliasName ∧ '.' ∉ t.aliasName.toList)

theorem ColumnRef.trim_column_parse (text : String) :
    Text.trim (parse text).column = (parse text).column := by
  unfold parse
  split <;> exact Text.trim_trim _

include plain

theorem ColumnRef.parse_text_of_declared {ref : ColumnRef} (declared : ref.Declared schemas tables)
    (trimmed : Text.trim ref.column = ref.column) : parse ref.text = ref := by
  obtain ⟨t, mem, named, _⟩ := declared
  obtain ⟨_, column⟩ := ref
  cases named
  exact parse_text_qualified (plain t mem).2 ⟨(plain t mem).1, trimmed⟩

theorem ColumnRef.ResolvesTo.written {text : String} {ref : ColumnRef}
    (resolves : (ColumnRef.parse text).ResolvesTo schemas tables ref)
    (declared : ref.Declared schemas tables) :
    (ColumnRef.parse ref.text).ResolvesTo schemas tables ref := by
  have kept : ref.column = (ColumnRef.parse text).column := by
    generalize ColumnRef.parse text = read at resolves
    cases resolves <;> rfl
  rw [ColumnRef.parse_text_of_declared plain declared (kept ▸ trim_column_parse text)]
  exact .named declared

theorem ColumnRef.IsKey.written {side text : String} {key : ColumnRef}
    (found : key.IsKey schemas tables side text) : key.IsKey schemas tables side key.text := by
  have kept : key.column = (parse text).column := by rw [found.key, qualified]
  have read : parse key.text = key :=
    parse_text_of_declared plain found.declared (kept ▸ trim_column_parse text)
  refine ⟨?_, fun a named => ?_, found.declared⟩
  · rw [read, kept]
    exact found.key
  · rw [read, found.key] at named
    exact (Option.some.inj named).symm

theorem JoinCondition.ResolvesTo.written {default : JoinKind} {c : JoinCondition} {e : JoinEdge}
    (resolves : c.ResolvesTo schemas tables default e) :
    e.written.ResolvesTo schemas tables default e where
  leftAlias := rfl
  rightAlias := rfl
  kind := rfl
  leftKey := by
    have key := resolves.leftKey.written plain
    rwa [← resolves.leftAlias] at key
  rightKey := by
    have key := resolves.rightKey.written plain
    rwa [← resolves.rightAlias] at key

end Texts

namespace Spec

variable {spec : Spec} {schemas : Schemas} {default : JoinKind} {clauses : Clauses}
  {resolved : ResolvedSpec}

theorem ResolvesTo.writtenBack
    (plain : ∀ t ∈ spec.tables, Text.trim t.aliasName = t.aliasName ∧ '.' ∉ t.aliasName.toList)
    (resolves : spec.ResolvesTo schemas default clauses resolved)
    (bound : resolved.Bound schemas) :
    (resolved.writtenBack spec).ResolvesTo schemas default resolved.clauses resolved := by
  obtain ⟨_, select, filter, group, having⟩ := bound
  rw [resolves.tables] at select filter group having
  have refs {p : Predicate} (declared : ∀ ref ∈ p.refs, ref.Declared schemas spec.tables) :
      ∀ operand ∈ p.operands, ∀ ref ∈ operand.refs, ref.Declared schemas spec.tables :=
    fun operand mem ref read => declared ref (Predicate.mem_refs.2 ⟨operand, mem, read⟩)
  exact {
    name := resolves.name
    tables := resolves.tables
    sort := resolves.sort
    listed := resolves.listed
    scope := resolves.scope
    joins := List.forall₂_map_left_iff.2 <| List.forall₂_same.2 fun e mem => by
      obtain ⟨c, _, resolves⟩ := exists_of_mem_forall₂ resolves.joins mem
      exact resolves.written plain
    select := List.forall₂_map_left_iff.2 <| List.forall₂_same.2 fun entry mem => by
      obtain ⟨clause, _, resolves⟩ := exists_of_mem_forall₂ resolves.select mem
      exact resolves.written (select entry mem)
    filter := Predicate.rel_corresponds_self fun p mem operand read =>
      Operand.resolvesTo_self (refs (filter p mem) operand read)
    group := List.forall₂_map_left_iff.2 <| List.forall₂_same.2 fun ref mem => by
      obtain ⟨text, _, resolves⟩ := exists_of_mem_forall₂ resolves.group mem
      exact resolves.written plain (group ref mem)
    having := Predicate.rel_corresponds_self fun p mem operand read =>
      Operand.resolvesInHaving_self (refs (having p mem) operand read) }

/-- Resolution is sound and determined by the declared tables, and it is idempotent. Whatever a
spec resolves to reads declared columns only, a bare reference belongs to the only table that has
its column, and writing it back in full resolves to the same. -/
theorem resolve_sound_and_idempotent (distinct : (spec.tables.map TableDecl.aliasName).Nodup)
    (plain : ∀ t ∈ spec.tables,
      Text.trim t.aliasName = t.aliasName ∧ '.' ∉ t.aliasName.toList) :
    (spec.resolve schemas default clauses = .ok resolved ↔
      spec.ResolvesTo schemas default clauses resolved) ∧
    (spec.resolve schemas default clauses = .ok resolved →
      resolved.Bound schemas ∧
      (resolved.writtenBack spec).resolve schemas default resolved.clauses = .ok resolved) := by
  refine ⟨resolve_eq_ok_iff distinct, fun ok => ?_⟩
  have bound := (bound_of_resolve ok).2
  have resolves := (resolve_eq_ok_iff distinct).1 ok
  have same : (resolved.writtenBack spec).tables = spec.tables := rfl
  exact ⟨bound, (resolve_eq_ok_iff (same ▸ distinct)).2 (resolves.writtenBack plain bound)⟩

def paying : Spec where
  name := "paying"
  tables := [⟨"o", "orders", .source, none⟩, ⟨"c", "customers", .source, none⟩]
  joins := [⟨"o", "c", "customer", "c. id", none⟩]
  select := []
  filter := []
  group := ["name", " o . id"]
  having := []
  sort := []

def payingSchemas : Schemas :=
  [("customers", ["id", "name"]), ("orders", ["id", "customer", "total"])]

def payingClauses : Clauses where
  select := [⟨"name", .column (.bare "name"), none⟩, ⟨"id", .column (.bare "id"), none⟩,
    ⟨"sum(total)", .aggregate ⟨.sum, some (.bare "total")⟩, some "revenue"⟩]
  filter := some (.not (.isNull (.column (.bare "customer")) false))
  having := some (.compare (.column (.bare "revenue")) .notEq (.literal .null))

def payingResolved : ResolvedSpec where
  name := "paying"
  tables := paying.tables
  joins := [⟨"o", "c", .qualified "o" "customer", .qualified "c" "id", .left⟩]
  select := [⟨"name", .resolved (.column (.qualified "c" "name")), none⟩,
    ⟨"id", .ambiguous "id" ["o", "c"], none⟩,
    ⟨"sum(total)", .resolved (.aggregate ⟨.sum, some (.qualified "o" "total")⟩), some "revenue"⟩]
  filter := some (.not (.isNull (.column (.qualified "o" "customer")) false))
  group := [.qualified "c" "name", .qualified "o" "id"]
  having := some (.compare (.aggregate ⟨.sum, some (.qualified "o" "total")⟩) .notEq
    (.literal .null))
  sort := []
  scope := .declared payingSchemas paying.tables

theorem resolve_sound_and_idempotent_paying :
    paying.resolve payingSchemas .left payingClauses = .ok payingResolved ∧
      payingResolved.Bound payingSchemas ∧
      (payingResolved.writtenBack paying).resolve payingSchemas .left payingResolved.clauses =
        .ok payingResolved := by
  have ok : paying.resolve payingSchemas .left payingClauses = .ok payingResolved := rfl
  have distinct : (paying.tables.map TableDecl.aliasName).Nodup := by decide
  have plain : ∀ t ∈ paying.tables,
      Text.trim t.aliasName = t.aliasName ∧ '.' ∉ t.aliasName.toList := by decide +kernel
  exact ⟨ok, (resolve_sound_and_idempotent distinct plain).2 ok⟩

end Spec

end TablePlan
