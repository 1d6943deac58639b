import TablePlan.Proofs.JoinOrder.Shape

/-!
Why edges have no order of joins. The first edge that joins a table to itself or repeats a pair is
reported; if there is none, the first table without an edge; and if there is none either, all tables
that no path of edges connects with the first end of the first edge.
-/

namespace TablePlan

open Success

namespace JoinOrder

instance (edges : List JoinEdge) (a b : String) : Decidable (Connected edges a b) :=
  decidable_of_iff _ mem_component_iff

structure Simple (edges : List JoinEdge) : Prop where
  apart : ∀ e ∈ edges, e.leftAlias ≠ e.rightAlias
  once : edges.Pairwise fun d e => e.samePair d = false

/-- What is reported of tables and edges without an order of joins. -/
inductive Fault (aliases : List String) (edges : List JoinEdge) : PlanError → Prop
  | selfJoin {before e after} (written : edges = before ++ e :: after) (simple : Simple before)
    (loop : e.leftAlias = e.rightAlias) : Fault aliases edges (.selfJoin e.leftAlias)
  | duplicateJoin {before e after} (written : edges = before ++ e :: after)
    (simple : Simple before) (apart : e.leftAlias ≠ e.rightAlias)
    (again : ∃ d ∈ before, e.samePair d = true) :
    Fault aliases edges (.duplicateJoin e.leftAlias e.rightAlias)
  | unjoinedTable (simple : Simple edges) (many : aliases.length ≠ 1) {before a after}
    (listed : aliases = before ++ a :: after)
    (joined : ∀ b ∈ before, ∃ e ∈ edges, e.joins b = true)
    (alone : ∀ e ∈ edges, e.joins a = false) : Fault aliases edges (.unjoinedTable a)
  | disconnected (simple : Simple edges) (many : aliases.length ≠ 1)
    (joined : ∀ a ∈ aliases, ∃ e ∈ edges, e.joins a = true) {first rest}
    (written : edges = first :: rest)
    (apart : ∃ a ∈ aliases, ¬ Connected edges first.leftAlias a) :
    Fault aliases edges (.disconnected first.leftAlias
      (aliases.filter fun a => ¬ Connected edges first.leftAlias a))

section Checks

variable {aliases : List String} {edges earlier : List JoinEdge} {error : PlanError}

theorem checkPairs_eq_ok_iff_simple : checkPairs [] edges = .ok () ↔ Simple edges := by
  rw [checkPairs_eq_ok]
  constructor
  · rintro ⟨apart, _, once⟩
    exact ⟨apart, once⟩
  · rintro ⟨apart, once⟩
    exact ⟨apart, by simp, once⟩

def blame? (earlier : List JoinEdge) (e : JoinEdge) : Option PlanError :=
  if e.leftAlias = e.rightAlias then some (.selfJoin e.leftAlias)
  else if earlier.any e.samePair then some (.duplicateJoin e.leftAlias e.rightAlias)
  else none

theorem blame?_eq_some {e : JoinEdge} : blame? earlier e = some error ↔
    (e.leftAlias = e.rightAlias ∧ PlanError.selfJoin e.leftAlias = error) ∨
      (e.leftAlias ≠ e.rightAlias ∧ (∃ d ∈ earlier, e.samePair d = true) ∧
        PlanError.duplicateJoin e.leftAlias e.rightAlias = error) := by
  unfold blame?
  split_ifs with loop repeated
  · simp [loop]
  · simp [loop, List.any_eq_true.1 repeated]
  · rw [List.any_eq_true] at repeated
    simp [loop, repeated]

theorem checkPairs_cons (earlier : List JoinEdge) (e : JoinEdge) (edges : List JoinEdge) :
    checkPairs earlier (e :: edges) =
      (blame? earlier e).elim (checkPairs (e :: earlier) edges) .error := by
  rw [checkPairs, blame?]
  split_ifs <;> rfl

theorem checkPairs_eq_error_iff : checkPairs earlier edges = .error error ↔
    ∃ before e after, edges = before ++ e :: after ∧ checkPairs earlier before = .ok () ∧
      blame? (before.reverse ++ earlier) e = some error := by
  -- Each edge that passes joins the earlier ones, the last of them in front.
  induction edges generalizing earlier with
  | nil => simp [checkPairs]
  | cons first edges ih =>
    rw [checkPairs_cons]
    cases found : blame? earlier first with
    | some fault =>
      constructor
      · intro failed
        cases failed
        exact ⟨[], first, edges, rfl, rfl, found⟩
      · rintro ⟨_ | ⟨d, before⟩, e, after, written, passed, blamed⟩
        · cases written
          cases found.symm.trans blamed
          rfl
        · cases written
          rw [checkPairs_cons, found] at passed
          cases passed
    | none =>
      have passes (before : List JoinEdge) :
          checkPairs earlier (first :: before) = checkPairs (first :: earlier) before := by
        rw [checkPairs_cons, found, Option.elim_none]
      refine ih.trans ⟨?_, ?_⟩
      · rintro ⟨before, e, after, rfl, passed, blamed⟩
        refine ⟨first :: before, e, after, rfl, (passes before).trans passed, ?_⟩
        rwa [List.reverse_cons, List.append_assoc]
      · rintro ⟨_ | ⟨d, before⟩, e, after, written, passed, blamed⟩
        · cases written
          cases found.symm.trans blamed
        · cases written
          rw [List.reverse_cons, List.append_assoc] at blamed
          exact ⟨before, e, after, rfl, (passes before).symm.trans passed, blamed⟩

theorem checkPairs_nil_eq_error_iff : checkPairs [] edges = .error error ↔
    ∃ before e after, edges = before ++ e :: after ∧ Simple before ∧
      ((e.leftAlias = e.rightAlias ∧ PlanError.selfJoin e.leftAlias = error) ∨
        (e.leftAlias ≠ e.rightAlias ∧ (∃ d ∈ before, e.samePair d = true) ∧
          PlanError.duplicateJoin e.leftAlias e.rightAlias = error)) := by
  simp only [checkPairs_eq_error_iff, checkPairs_eq_ok_iff_simple, blame?_eq_some,
    List.append_nil, List.mem_reverse]

theorem fault_of_checkPairs (failed : checkPairs [] edges = .error error) :
    Fault aliases edges error := by
  obtain ⟨before, e, after, written, simple, ⟨loop, rfl⟩ | ⟨apart, again, rfl⟩⟩ :=
    checkPairs_nil_eq_error_iff.1 failed
  · exact .selfJoin written simple loop
  · exact .duplicateJoin written simple apart again

theorem checkJoined_eq_error_iff : checkJoined aliases edges = .error error ↔
    ∃ before a after, aliases = before ++ a :: after ∧
      (∀ b ∈ before, ∃ e ∈ edges, e.joins b = true) ∧ (∀ e ∈ edges, e.joins a = false) ∧
      error = .unjoinedTable a := by
  have search (a : String) : (aliases.find? fun a => !edges.any (·.joins a)) = some a ↔
      ∃ before after, aliases = before ++ a :: after ∧
        (∀ b ∈ before, ∃ e ∈ edges, e.joins b = true) ∧ ∀ e ∈ edges, e.joins a = false := by
    rw [List.find?_eq_some_iff_append]
    simp
    tauto
  unfold checkJoined
  split
  · rename_i a found
    obtain ⟨before, after, listed, joined, alone⟩ := (search a).1 found
    constructor
    · intro failed
      cases failed
      exact ⟨before, a, after, listed, joined, alone, rfl⟩
    · rintro ⟨before', a', after', listed', joined', alone', rfl⟩
      have found' := (search a').2 ⟨before', after', listed', joined', alone'⟩
      rw [found] at found'
      cases found'
      rfl
  · rename_i none
    refine iff_of_false nofun ?_
    rintro ⟨before, a, after, listed, joined, alone, rfl⟩
    rw [(search a).2 ⟨before, after, listed, joined, alone⟩] at none
    cases none

theorem checkConnected_eq_error_iff {root : String} :
    checkConnected aliases edges root = .error error ↔ (∃ a ∈ aliases, ¬ Connected edges root a) ∧
      error = .disconnected root (aliases.filter fun a => ¬ Connected edges root a) := by
  have unreached : (aliases.filter fun a => !(component edges root).contains a) =
      aliases.filter fun a => ¬ Connected edges root a := by
    refine List.filter_congr fun a _ => ?_
    rw [Bool.eq_iff_iff, decide_eq_true_iff, Bool.not_eq_true', ← Bool.not_eq_true,
      List.contains_iff_mem, mem_component_iff]
  have some_unreached : (∃ a ∈ aliases, ¬ Connected edges root a) ↔
      (aliases.filter fun a => ¬ Connected edges root a) ≠ [] := by
    simp [List.filter_eq_nil_iff]
  rw [some_unreached]
  unfold checkConnected
  dsimp only
  rw [unreached]
  split
  · rename_i none
    exact iff_of_false nofun fun some => some.1 none
  · rename_i some
    constructor
    · intro failed
      cases failed
      exact ⟨some, rfl⟩
    · rintro ⟨_, rfl⟩
      rfl

end Checks

section Outcome

variable {aliases : List String} {edges : List JoinEdge} {error : PlanError}

theorem ofEdges_of_checkPairs (nonempty : aliases ≠ [])
    (failed : checkPairs [] edges = .error error) : ofEdges aliases edges = .error error := by
  unfold ofEdges
  split
  · exact absurd rfl nonempty
  · rw [failed]
    rfl
  · rw [failed]
    rfl

theorem ofEdges_eq_error_of_many (nonempty : aliases ≠ []) (many : aliases.length ≠ 1)
    (simple : Simple edges) (declared : Declared aliases edges) :
    ofEdges aliases edges = .error error ↔ checkJoined aliases edges = .error error ∨
      (checkJoined aliases edges = .ok () ∧
        checkConnected aliases edges (start edges) = .error error) := by
  unfold ofEdges
  split
  · exact absurd rfl nonempty
  · exact absurd rfl many
  · rw [checkPairs_eq_ok_iff_simple.2 simple, checkDeclared_eq_ok.2 declared, ok_bind, ok_bind,
      bind_eq_error]
    refine or_congr_right ?_
    constructor
    · rintro ⟨_, passed, failed⟩
      obtain failed | ⟨_, _, failed⟩ := bind_eq_error.1 failed
      · exact ⟨passed, failed⟩
      · cases failed
    · rintro ⟨passed, failed⟩
      exact ⟨(), passed, bind_eq_error.2 (.inl failed)⟩

theorem Fault.ofEdges_eq (fault : Fault aliases edges error) (nonempty : aliases ≠ [])
    (declared : Declared aliases edges) : ofEdges aliases edges = .error error := by
  cases fault with
  | selfJoin written simple loop =>
    exact ofEdges_of_checkPairs nonempty (checkPairs_nil_eq_error_iff.2
      ⟨_, _, _, written, simple, .inl ⟨loop, rfl⟩⟩)
  | duplicateJoin written simple apart again =>
    exact ofEdges_of_checkPairs nonempty (checkPairs_nil_eq_error_iff.2
      ⟨_, _, _, written, simple, .inr ⟨apart, again, rfl⟩⟩)
  | unjoinedTable simple many listed joined alone =>
    exact (ofEdges_eq_error_of_many nonempty many simple declared).2
      (.inl (checkJoined_eq_error_iff.2 ⟨_, _, _, listed, joined, alone, rfl⟩))
  | disconnected simple many joined written apart =>
    subst written
    exact (ofEdges_eq_error_of_many nonempty many simple declared).2
      (.inr ⟨checkJoined_eq_ok.2 joined, checkConnected_eq_error_iff.2 ⟨apart, rfl⟩⟩)

theorem joined_of_connected {root : String} (distinct : aliases.Nodup) (many : aliases.length ≠ 1)
    (connected : ∀ a ∈ aliases, Connected edges root a) :
    ∀ a ∈ aliases, ∃ e ∈ edges, e.joins a = true := by
  intro a mem
  obtain ⟨b, mem_b, differ⟩ : ∃ b ∈ aliases, b ≠ a := by
    by_contra none
    push Not at none
    have one := List.eq_replicate_of_mem none
    rw [one, List.nodup_replicate] at distinct
    have positive := List.length_pos_of_mem mem
    omega
  obtain same | ⟨c, ⟨e, mem_e, ends⟩, _⟩ :=
    ((connected a mem).symm.trans (connected b mem_b)).cases_head
  · exact absurd same.symm differ
  · refine ⟨e, mem_e, ?_⟩
    simp only [JoinEdge.joins, Bool.or_eq_true, beq_iff_eq]
    exact ends.imp And.left And.right

theorem joinable_iff (nonempty : aliases ≠ []) (distinct : aliases.Nodup)
    (declared : Declared aliases edges) : Joinable aliases edges ↔ Simple edges ∧
      (aliases.length = 1 ∨ ∃ first ∈ edges.head?, ∀ a ∈ aliases,
        Connected edges first.leftAlias a) := by
  constructor
  · rintro ⟨_, apart, once, spans⟩
    refine ⟨⟨apart, once⟩, or_iff_not_imp_left.2 fun many => ?_⟩
    obtain ⟨_, joined, connected⟩ := (spans_iff nonempty).1 (spans many)
    obtain ⟨first, rest, rfl⟩ := exists_first nonempty joined
    exact ⟨first, rfl, connected⟩
  · rintro ⟨⟨apart, once⟩, reached⟩
    refine ⟨nonempty, apart, once, fun many => (spans_iff nonempty).2 ?_⟩
    obtain ⟨first, head, connected⟩ := reached.resolve_left many
    have start_eq : start edges = first.leftAlias := by rw [start, head]; rfl
    exact ⟨declared, joined_of_connected distinct many connected, start_eq ▸ connected⟩

theorem fault_of_ofEdges (nonempty : aliases ≠ []) (declared : Declared aliases edges)
    (failed : ofEdges aliases edges = .error error) : Fault aliases edges error := by
  cases pairs : checkPairs [] edges with
  | error other =>
    rw [ofEdges_of_checkPairs nonempty pairs] at failed
    cases failed
    exact fault_of_checkPairs pairs
  | ok _ =>
    have simple := checkPairs_eq_ok_iff_simple.1 pairs
    have many : aliases.length ≠ 1 := fun one => by
      obtain ⟨order, ordered⟩ := exists_ofEdges_eq_ok.2
        ⟨nonempty, simple.apart, simple.once, fun many => absurd one many⟩
      rw [ordered] at failed
      cases failed
    obtain failed | ⟨passed, failed⟩ :=
      (ofEdges_eq_error_of_many nonempty many simple declared).1 failed
    · obtain ⟨before, a, after, listed, joined, alone, rfl⟩ := checkJoined_eq_error_iff.1 failed
      exact .unjoinedTable simple many listed joined alone
    · obtain ⟨apart, rfl⟩ := checkConnected_eq_error_iff.1 failed
      have joined := checkJoined_eq_ok.1 passed
      obtain ⟨first, rest, rfl⟩ := exists_first nonempty joined
      exact .disconnected simple many joined rfl apart

end Outcome

end JoinOrder

namespace ResolvedSpec

/-- Edges between declared tables have an order of joins exactly when no edge joins a table to
itself, no two edges join the same two tables and, from two tables on, all of them are connected
with the first end of the first edge. Otherwise the first fault is reported. -/
theorem joinOrder_outcome {spec : ResolvedSpec} (nonempty : spec.tables ≠ [])
    (distinct : (spec.tables.map TableDecl.aliasName).Nodup)
    (declared : JoinOrder.Declared (spec.tables.map TableDecl.aliasName) spec.joins) :
    ((∃ order, spec.joinOrder = .ok order) ↔ JoinOrder.Simple spec.joins ∧
      (spec.tables.length = 1 ∨ ∃ first ∈ spec.joins.head?, ∀ t ∈ spec.tables,
        JoinOrder.Connected spec.joins first.leftAlias t.aliasName)) ∧
    ∀ error, spec.joinOrder = .error error ↔
      JoinOrder.Fault (spec.tables.map TableDecl.aliasName) spec.joins error := by
  have nonempty : spec.tables.map TableDecl.aliasName ≠ [] := by simpa using nonempty
  constructor
  · rw [joinOrder, JoinOrder.exists_ofEdges_eq_ok,
      JoinOrder.joinable_iff nonempty distinct declared, List.length_map]
    simp only [List.forall_mem_map]
  · exact fun error => ⟨JoinOrder.fault_of_ofEdges nonempty declared,
      fun fault => fault.ofEdges_eq nonempty declared⟩

def pairs : ResolvedSpec :=
  { triangle with
    tables := ["a", "b", "c", "d"].map fun a => ⟨a, a, .source, none⟩
    joins := [
      ⟨"b", "a", .qualified "b" "x", .qualified "a" "x", .inner⟩,
      ⟨"c", "d", .qualified "c" "y", .qualified "d" "y", .left⟩] }

theorem joinOrder_outcome_pairs :
    pairs.joinOrder = .error (.disconnected "b" ["c", "d"]) ∧
      JoinOrder.Fault ["a", "b", "c", "d"] pairs.joins (.disconnected "b" ["c", "d"]) ∧
      ¬ ∃ order, pairs.joinOrder = .ok order := by
  have declared : JoinOrder.Declared (pairs.tables.map TableDecl.aliasName) pairs.joins := by
    unfold JoinOrder.Declared
    decide
  have fails : pairs.joinOrder = .error (.disconnected "b" ["c", "d"]) := by cbv
  obtain ⟨_, reports⟩ := joinOrder_outcome (by decide) (by decide) declared
  refine ⟨fails, (reports _).1 fails, ?_⟩
  rintro ⟨order, ordered⟩
  rw [fails] at ordered
  cases ordered

end ResolvedSpec

end TablePlan
