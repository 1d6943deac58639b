import TablePlan.Proofs.Success
import TablePlan.Resolution.Basic

/-!
Conditions with their operands mapped. The operands of the result are the mapped operands, from left
to right, and the first of them that fails is the error.
-/

namespace TablePlan.Predicate

open Success

section Operands

variable {m : Type → Type} [Monad m] [LawfulMonad m]

mutual

theorem map_operands_mapOperandsM (f : Operand → m Operand) :
    ∀ p : Predicate, operands <$> p.mapOperandsM f = p.operands.mapM f
  | .and items => by
    rw [mapOperandsM, operands, ← map_operandsOfAll_mapAllM f items]
    simp [operands]
  | .or items => by
    rw [mapOperandsM, operands, ← map_operandsOfAll_mapAllM f items]
    simp [operands]
  | .not inner => by
    rw [mapOperandsM, operands, ← map_operands_mapOperandsM f inner]
    simp [operands]
  | .compare left op right => by simp [mapOperandsM, operands]
  | .isNull operand negated => by simp [mapOperandsM, operands]

theorem map_operandsOfAll_mapAllM (f : Operand → m Operand) :
    ∀ ps : List Predicate, operandsOfAll <$> mapAllM f ps = (operandsOfAll ps).mapM f
  | [] => by simp [mapAllM, operandsOfAll]
  | p :: ps => by
    rw [operandsOfAll, List.mapM_append, ← map_operands_mapOperandsM f p,
      ← map_operandsOfAll_mapAllM f ps]
    simp [mapAllM, operandsOfAll]

end

theorem mapAllM_eq_mapM (f : Operand → m Operand) (ps : List Predicate) :
    mapAllM f ps = ps.mapM (mapOperandsM f) := by
  induction ps with
  | nil => rfl
  | cons p ps ih => rw [mapAllM, List.mapM_cons, ih]

theorem mapM_conjuncts (f : Operand → m Operand) (p : Predicate) :
    p.conjuncts.mapM (mapOperandsM f) = conjuncts <$> p.mapOperandsM f := by
  cases p with
  | and items => simp [mapOperandsM, conjuncts, mapAllM_eq_mapM]
  | _ => simp [mapOperandsM, conjuncts]

theorem mapM_flatMap_conjuncts (f : Operand → m Operand) (ps : List Predicate) :
    (ps.flatMap conjuncts).mapM (mapOperandsM f) =
      List.flatMap conjuncts <$> ps.mapM (mapOperandsM f) := by
  induction ps with
  | nil => simp
  | cons p ps ih => simp [List.mapM_append, mapM_conjuncts, ih]

end Operands

section Outcome

variable {ε : Type} {f g : Operand → Except ε Operand} {p p' : Predicate}

theorem mapM_operands (ok : p.mapOperandsM f = .ok p') : p.operands.mapM f = .ok p'.operands := by
  rw [← map_operands_mapOperandsM, ok]
  rfl

theorem mapOperandsM_eq_error {e : ε} :
    p.mapOperandsM f = .error e ↔ p.operands.mapM f = .error e := by
  rw [← map_operands_mapOperandsM]
  cases p.mapOperandsM f <;> simp [Functor.map, Except.map]

mutual

theorem mapOperandsM_congr : ∀ {p : Predicate}, (∀ o ∈ p.operands, f o = g o) →
    p.mapOperandsM f = p.mapOperandsM g
  | .and items, same => by
    have members : mapAllM f items = mapAllM g items := mapAllM_congr same
    rw [mapOperandsM, mapOperandsM, members]
  | .or items, same => by
    have members : mapAllM f items = mapAllM g items := mapAllM_congr same
    rw [mapOperandsM, mapOperandsM, members]
  | .not inner, same => by
    have inside : inner.mapOperandsM f = inner.mapOperandsM g := mapOperandsM_congr same
    rw [mapOperandsM, mapOperandsM, inside]
  | .compare left op right, same => by
    rw [mapOperandsM, mapOperandsM, same left (by simp [operands]),
      same right (by simp [operands])]
  | .isNull operand negated, same => by
    rw [mapOperandsM, mapOperandsM, same operand (by simp [operands])]

theorem mapAllM_congr : ∀ {ps : List Predicate}, (∀ o ∈ operandsOfAll ps, f o = g o) →
    mapAllM f ps = mapAllM g ps
  | [], _ => rfl
  | p :: ps, same => by
    rw [operandsOfAll, List.forall_mem_append] at same
    rw [mapAllM, mapAllM, mapOperandsM_congr same.1, mapAllM_congr same.2]

end

theorem mapOperandsM_of (same : ∀ o o', f o = .ok o' → g o = .ok o')
    (ok : p.mapOperandsM f = .ok p') : p.mapOperandsM g = .ok p' := by
  rw [← ok]
  refine (mapOperandsM_congr fun o mem => ?_).symm
  obtain ⟨o', made⟩ := exists_mapM_eq_ok.1 ⟨_, mapM_operands ok⟩ o mem
  rw [made, same o o' made]

end Outcome

section Optional

variable {f g : Operand → Except ResolutionError Operand} {p p' : Option Predicate}

theorem resolve?_some_eq_ok {q : Predicate} (ok : resolve? f (some q) = .ok p') :
    ∃ q', p' = some q' ∧ q.operands.mapM f = .ok q'.operands := by
  obtain ⟨q', mapped, made⟩ := bind_eq_ok.1 ok
  exact ⟨q', (pure_eq_ok.1 made).symm, mapM_operands mapped⟩

theorem resolve?_some_eq_error {q : Predicate} {e : ResolutionError} :
    resolve? f (some q) = .error e ↔ q.operands.mapM f = .error e := by
  rw [← mapOperandsM_eq_error, resolve?]
  cases q.mapOperandsM f <;> simp [bind, Except.bind, pure, Except.pure]

theorem resolve?_congr (same : ∀ q ∈ p, ∀ o ∈ q.operands, f o = g o) :
    resolve? f p = resolve? g p := by
  cases p with
  | none => rfl
  | some q => rw [resolve?, resolve?, mapOperandsM_congr (same q rfl)]

theorem resolve?_of (same : ∀ o o', f o = .ok o' → g o = .ok o') (ok : resolve? f p = .ok p') :
    resolve? g p = .ok p' := by
  cases p with
  | none => exact ok
  | some p =>
    obtain ⟨q, mapped, made⟩ := bind_eq_ok.1 ok
    exact bind_eq_ok.2 ⟨q, mapOperandsM_of same mapped, made⟩

def together? : List Predicate → Option Predicate
  | [] => none
  | [p] => some p
  | ps => some (.and ps)

theorem conjunction?_eq_together? (clauses : List Predicate) :
    conjunction? clauses = together? (clauses.flatMap conjuncts) :=
  rfl

theorem resolve?_together? (f : Operand → Except ResolutionError Operand) (ps : List Predicate) :
    resolve? f (together? ps) = together? <$> ps.mapM (mapOperandsM f) := by
  match ps with
  | [] => rfl
  | [p] => simp [together?, resolve?]
  | p :: q :: ps => simp [together?, resolve?, mapOperandsM, mapAllM, mapAllM_eq_mapM]

theorem resolve?_conjunction? (f : Operand → Except ResolutionError Operand)
    (clauses : List Predicate) :
    resolve? f (conjunction? clauses) = conjunction? <$> clauses.mapM (mapOperandsM f) := by
  rw [conjunction?_eq_together?, resolve?_together?, mapM_flatMap_conjuncts, Functor.map_map]
  rfl

end Optional

end TablePlan.Predicate
