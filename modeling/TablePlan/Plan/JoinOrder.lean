import TablePlan.Plan.Error

/-!
The order of joins. Starting from one alias, the first edge that leads from a joined table to a new
one is taken, again and again; an edge that is never taken joins two joined tables and is left over
as a condition. The edges must connect all declared tables, each pair of them at most once.
-/

namespace TablePlan

namespace JoinEdge

def joins (e : JoinEdge) (aliasName : String) : Bool :=
  e.leftAlias == aliasName || e.rightAlias == aliasName

def samePair (a b : JoinEdge) : Bool :=
  (a.leftAlias == b.leftAlias && a.rightAlias == b.rightAlias) ||
    (a.leftAlias == b.rightAlias && a.rightAlias == b.leftAlias)

/-- Whether exactly one end is among the joined aliases. -/
def crosses (e : JoinEdge) (joined : List String) : Bool :=
  joined.contains e.leftAlias != joined.contains e.rightAlias

def outward (e : JoinEdge) (joined : List String) : JoinEdge :=
  if joined.contains e.leftAlias then e else e.reversed

end JoinEdge

/-- The join steps in the order in which they run, and the edges left over as conditions. -/
structure JoinOrder where
  root : String
  steps : List JoinEdge
  residual : List JoinEdge
  deriving DecidableEq, Repr

namespace JoinOrder

def takeFirst? {α : Type} (p : α → Bool) : List α → Option (α × List α)
  | [] => none
  | a :: as =>
    if p a then some (a, as) else (takeFirst? p as).map fun (found, rest) => (found, a :: rest)

theorem length_of_takeFirst? {α : Type} {p : α → Bool} {as rest : List α} {a : α}
    (h : takeFirst? p as = some (a, rest)) : as.length = rest.length + 1 := by
  induction as generalizing rest with
  | nil => simp [takeFirst?] at h
  | cons b bs ih =>
    by_cases hb : p b
    · simp only [takeFirst?, hb, if_true, Option.some.injEq, Prod.mk.injEq] at h
      simp [h.2]
    · simp only [takeFirst?, hb, if_false, Option.map_eq_some_iff, Bool.false_eq_true] at h
      obtain ⟨⟨found, tail⟩, found_eq, pair_eq⟩ := h
      simp only [Prod.mk.injEq] at pair_eq
      obtain ⟨rfl, rfl⟩ := pair_eq
      simp [ih found_eq]

/-- Steps from the joined aliases, and what is left of the edges when none leads on. -/
def order (joined : List String) (edges : List JoinEdge) : List JoinEdge × List JoinEdge :=
  match h : takeFirst? (·.crosses joined) edges with
  | none => ([], edges)
  | some (edge, rest) =>
    have := length_of_takeFirst? h
    let step := edge.outward joined
    let (steps, residual) := order (step.rightAlias :: joined) rest
    (step :: steps, residual)
termination_by edges.length

def sweep (edges : List JoinEdge) (reached : List String) : List String :=
  edges.foldl (fun reached e =>
    if reached.contains e.leftAlias then reached.insert e.rightAlias
    else if reached.contains e.rightAlias then reached.insert e.leftAlias
    else reached) reached

/-- The aliases connected with one alias. Each sweep reaches another one or the last. -/
def component (edges : List JoinEdge) (root : String) : List String :=
  edges.length.repeat (sweep edges) [root]

def checkPairs : (earlier edges : List JoinEdge) → Except PlanError Unit
  | _, [] => .ok ()
  | earlier, e :: edges =>
    if e.leftAlias = e.rightAlias then .error (.selfJoin e.leftAlias)
    else if earlier.any e.samePair then .error (.duplicateJoin e.leftAlias e.rightAlias)
    else checkPairs (e :: earlier) edges

def checkDeclared (aliases : List String) (edges : List JoinEdge) : Except PlanError Unit :=
  match (edges.flatMap fun e => [e.leftAlias, e.rightAlias]).find? (!aliases.contains ·) with
  | some aliasName => .error (.undeclaredAlias aliasName)
  | none => .ok ()

def checkJoined (aliases : List String) (edges : List JoinEdge) : Except PlanError Unit :=
  match aliases.find? fun aliasName => !edges.any (·.joins aliasName) with
  | some aliasName => .error (.unjoinedTable aliasName)
  | none => .ok ()

def checkConnected (aliases : List String) (edges : List JoinEdge) (root : String) :
    Except PlanError Unit :=
  let reached := component edges root
  match aliases.filter (!reached.contains ·) with
  | [] => .ok ()
  | unreached => .error (.disconnected root unreached)

/-- The order of joins over the declared aliases. A single table needs no join. -/
def ofEdges (aliases : List String) (edges : List JoinEdge) : Except PlanError JoinOrder :=
  match aliases with
  | [] => .error .noTables
  | [aliasName] => do
    checkPairs [] edges
    return ⟨aliasName, [], []⟩
  | _ => do
    checkPairs [] edges
    checkDeclared aliases edges
    checkJoined aliases edges
    let root := (edges.head?.map JoinEdge.leftAlias).getD ""
    checkConnected aliases edges root
    let (steps, residual) := order [root] edges
    return ⟨root, steps, residual⟩

end JoinOrder

end TablePlan
