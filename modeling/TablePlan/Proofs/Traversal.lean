import TablePlan.Proofs.Resolution.Correspondence

/-!
Mapping the operands of a condition by a function with effects. The mapping is the traversal of the
operands as they are listed, with the results put in their places. So a function that may fail and
keep a state is called on the operands from left to right, up to the first failure.
-/

namespace TablePlan.Predicate

open Success

mutual

def refill : Predicate → List Operand → Predicate
  | .and items, others => .and (refillAll items others)
  | .or items, others => .or (refillAll items others)
  | .not inner, others => .not (inner.refill others)
  | .compare left op right, others => .compare (others.getD 0 left) op (others.getD 1 right)
  | .isNull operand negated, others => .isNull (others.getD 0 operand) negated

def refillAll : List Predicate → List Operand → List Predicate
  | [], _ => []
  | p :: ps, others =>
    p.refill (others.take p.operands.length) :: refillAll ps (others.drop p.operands.length)

end

mutual

theorem operands_refill : ∀ (p : Predicate) {others : List Operand},
    others.length = p.operands.length → (p.refill others).operands = others
  | .and items, _, fits => operandsOfAll_refillAll items fits
  | .or items, _, fits => operandsOfAll_refillAll items fits
  | .not inner, _, fits => operands_refill inner fits
  | .compare left op right, others, fits => by
    obtain ⟨a, b, rfl⟩ := List.length_eq_two.1 fits
    rfl
  | .isNull operand negated, others, fits => by
    obtain ⟨a, rfl⟩ := List.length_eq_one_iff.1 fits
    rfl

theorem operandsOfAll_refillAll : ∀ (ps : List Predicate) {others : List Operand},
    others.length = (operandsOfAll ps).length → operandsOfAll (refillAll ps others) = others
  | [], _, fits => (List.length_eq_zero_iff.1 fits).symm
  | p :: ps, others, fits => by
    rw [operandsOfAll, List.length_append] at fits
    have taken : (others.take p.operands.length).length = p.operands.length := by
      rw [List.length_take]
      omega
    have left : (others.drop p.operands.length).length = (operandsOfAll ps).length := by
      rw [List.length_drop]
      omega
    rw [refillAll, operandsOfAll, operands_refill p taken, operandsOfAll_refillAll ps left,
      List.take_append_drop]

end

mutual

theorem corresponds_refill : ∀ (p : Predicate) (others : List Operand),
    Corresponds (fun _ _ => True) p (p.refill others)
  | .and items, others => .and (correspondAll_refillAll items others)
  | .or items, others => .or (correspondAll_refillAll items others)
  | .not inner, others => .not (corresponds_refill inner others)
  | .compare _ op _, _ => .compare op trivial trivial
  | .isNull _ negated, _ => .isNull negated trivial

theorem correspondAll_refillAll : ∀ (ps : List Predicate) (others : List Operand),
    CorrespondAll (fun _ _ => True) ps (refillAll ps others)
  | [], _ => .nil
  | p :: ps, _ => .cons (corresponds_refill p _) (correspondAll_refillAll ps _)

end

mutual

theorem refill_operands : ∀ p : Predicate, p.refill p.operands = p
  | .and items => congrArg Predicate.and (refillAll_operandsOfAll items)
  | .or items => congrArg Predicate.or (refillAll_operandsOfAll items)
  | .not inner => congrArg Predicate.not (refill_operands inner)
  | .compare _ _ _ => rfl
  | .isNull _ _ => rfl

theorem refillAll_operandsOfAll : ∀ ps : List Predicate, refillAll ps (operandsOfAll ps) = ps
  | [] => rfl
  | p :: ps => by
    rw [operandsOfAll, refillAll, List.take_left, List.drop_left, refill_operands p,
      refillAll_operandsOfAll ps]

end

section Effects

variable {m : Type → Type} [Monad m] [LawfulMonad m]

theorem mapM_bind_congr {α β γ : Type} {f : α → m β} {as : List α} {k k' : List β → m γ}
    (same : ∀ bs, bs.length = as.length → k bs = k' bs) : as.mapM f >>= k = as.mapM f >>= k' := by
  induction as generalizing k k' with
  | nil => simpa using same [] rfl
  | cons a as ih =>
    simp only [List.mapM_cons, bind_assoc, pure_bind]
    refine congrArg (f a >>= ·) (funext fun b => ih fun bs fits => ?_)
    exact same (b :: bs) (congrArg (· + 1) fits)

mutual

theorem mapOperandsM_eq (f : Operand → m Operand) :
    ∀ p : Predicate, p.mapOperandsM f = p.refill <$> p.operands.mapM f
  | .and items => by
    simp only [mapOperandsM, mapAllM_eq f items, operands, refill, bind_pure_comp, Functor.map_map]
  | .or items => by
    simp only [mapOperandsM, mapAllM_eq f items, operands, refill, bind_pure_comp, Functor.map_map]
  | .not inner => by
    simp only [mapOperandsM, mapOperandsM_eq f inner, operands, refill, bind_pure_comp,
      Functor.map_map]
  | .compare left op right => by
    simp [mapOperandsM, operands, refill]
  | .isNull operand negated => by
    simp [mapOperandsM, operands, refill]

theorem mapAllM_eq (f : Operand → m Operand) :
    ∀ ps : List Predicate, mapAllM f ps = refillAll ps <$> (operandsOfAll ps).mapM f
  | [] => by simp [mapAllM, operandsOfAll, refillAll]
  | p :: ps => by
    have places (others : List Operand) (fits : others.length = p.operands.length)
        (more : List Operand) :
        refillAll (p :: ps) (others ++ more) = p.refill others :: refillAll ps more := by
      rw [refillAll, ← fits, List.take_left, List.drop_left]
    rw [mapAllM, operandsOfAll, List.mapM_append, mapOperandsM_eq f p, mapAllM_eq f ps]
    simp only [map_eq_pure_bind, bind_assoc, pure_bind]
    refine mapM_bind_congr fun others fits => ?_
    simp only [places others fits]

end

end Effects

section Calls

variable {σ ε : Type}

theorem run_bind_of_ok {α β : Type} {x : ExceptT ε (StateM σ) α} {k : α → ExceptT ε (StateM σ) β}
    {s s' : σ} {a : α} (ok : x.run.run s = (.ok a, s')) :
    (x >>= k).run.run s = (k a).run.run s' := by
  rw [ExceptT.run_bind, StateT.run_bind, ok]
  rfl

theorem run_bind_of_error {α β : Type} {x : ExceptT ε (StateM σ) α}
    {k : α → ExceptT ε (StateM σ) β} {s s' : σ} {e : ε} (error : x.run.run s = (.error e, s')) :
    (x >>= k).run.run s = (.error e, s') := by
  rw [ExceptT.run_bind, StateT.run_bind, error]
  rfl

variable {f : Operand → ExceptT ε (StateM σ) Operand}

def noting (f : Operand → ExceptT ε (StateM σ) Operand) (o : Operand) :
    ExceptT ε (StateM (σ × List Operand)) Operand :=
  ExceptT.mk fun (s, calls) =>
    let (result, s') := (f o).run.run s
    (result, s', calls ++ [o])

theorem run_noting {s s' : σ} {o : Operand} {result : Except ε Operand}
    (called : (f o).run.run s = (result, s')) (calls : List Operand) :
    (noting f o).run.run (s, calls) = (result, s', calls ++ [o]) := by
  change (((f o).run.run s).1, ((f o).run.run s).2, calls ++ [o]) = _
  rw [called]

/-- Calls on one operand after the other, of which none fails: the results, from the state before
to the state after. -/
inductive Succeeds (f : Operand → ExceptT ε (StateM σ) Operand) :
    σ → List Operand → List Operand → σ → Prop
  | nil (s : σ) : Succeeds f s [] [] s
  | cons {s s' s'' : σ} {o o' : Operand} {os results : List Operand}
    (first : (f o).run.run s = (.ok o', s')) (rest : Succeeds f s' os results s'') :
    Succeeds f s (o :: os) (o' :: results) s''

theorem Succeeds.length_eq {s s' : σ} {os results : List Operand}
    (succeeds : Succeeds f s os results s') : results.length = os.length := by
  induction succeeds with
  | nil => rfl
  | cons _ _ ih => exact congrArg (· + 1) ih

theorem Succeeds.noting {s s' : σ} {os results : List Operand}
    (succeeds : Succeeds f s os results s') (calls : List Operand) :
    Succeeds (noting f) (s, calls) os results (s', calls ++ os) := by
  induction succeeds generalizing calls with
  | nil s =>
    rw [List.append_nil]
    exact .nil _
  | cons first _ ih =>
    rw [List.append_cons]
    exact .cons (run_noting first calls) (ih _)

theorem Succeeds.mapM_eq {s s' : σ} {os results : List Operand}
    (succeeds : Succeeds f s os results s') : (os.mapM f).run.run s = (.ok results, s') := by
  induction succeeds with
  | nil s => rfl
  | cons first _ ih =>
    rw [List.mapM_cons, run_bind_of_ok first, run_bind_of_ok ih]
    rfl

theorem Succeeds.mapM_eq_error {s s' s'' : σ} {before results : List Operand} {o : Operand} {e : ε}
    (succeeds : Succeeds f s before results s') (failed : (f o).run.run s' = (.error e, s''))
    (after : List Operand) : ((before ++ o :: after).mapM f).run.run s = (.error e, s'') := by
  induction succeeds with
  | nil s => rw [List.nil_append, List.mapM_cons, run_bind_of_error failed]
  | cons first _ ih =>
    rw [List.cons_append, List.mapM_cons, run_bind_of_ok first, run_bind_of_error (ih failed)]

theorem succeeds_or_stops (f : Operand → ExceptT ε (StateM σ) Operand) (os : List Operand)
    (s : σ) : (∃ results s', Succeeds f s os results s') ∨
      ∃ before o after results s' e s'', os = before ++ o :: after ∧
        Succeeds f s before results s' ∧ (f o).run.run s' = (.error e, s'') := by
  induction os generalizing s with
  | nil => exact .inl ⟨[], s, .nil s⟩
  | cons o os ih =>
    match called : (f o).run.run s with
    | (.error e, s') => exact .inr ⟨[], o, os, [], s, e, s', rfl, .nil s, called⟩
    | (.ok o', s') =>
      obtain ⟨results, s'', rest⟩ |
        ⟨before, failed, after, results, s₁, e, s₂, same, rest, error⟩ := ih s'
      · exact .inl ⟨o' :: results, s'', .cons called rest⟩
      · exact .inr ⟨o :: before, failed, after, o' :: results, s₁, e, s₂,
          by rw [same, List.cons_append], .cons called rest, error⟩

inductive Traversal (f : Operand → ExceptT ε (StateM σ) Operand) (s : σ) (p : Predicate) : Prop
  /-- Every operand is called once, and the results stand in the places of the operands. -/
  | all (q : Predicate) (s' : σ) (calls : Succeeds f s p.operands q.operands s')
    (shape : Corresponds (fun _ _ => True) p q)
    (mapped : (p.mapOperandsM f).run.run s = (.ok q, s'))
    (noted : (p.mapOperandsM (noting f)).run.run (s, []) = (.ok q, s', p.operands))
  /-- The first call that fails is the last one, and its error is the error of the mapping. -/
  | stopped (before : List Operand) (o : Operand) (after results : List Operand) (s₁ s' : σ) (e : ε)
    (split : p.operands = before ++ o :: after) (calls : Succeeds f s before results s₁)
    (failed : (f o).run.run s₁ = (.error e, s'))
    (mapped : (p.mapOperandsM f).run.run s = (.error e, s'))
    (noted : (p.mapOperandsM (noting f)).run.run (s, []) = (.error e, s', before ++ [o]))

theorem run_map {α β : Type} {g : α → β} {x : ExceptT ε (StateM σ) α} {s : σ} :
    (g <$> x).run.run s = ((x.run.run s).1.map g, (x.run.run s).2) := by
  rw [ExceptT.run_map, StateT.run_map]
  rfl

theorem traversal (f : Operand → ExceptT ε (StateM σ) Operand) (s : σ) (p : Predicate) :
    Traversal f s p := by
  obtain ⟨results, s', calls⟩ | ⟨before, o, after, results, s₁, e, s', split, calls, failed⟩ :=
    succeeds_or_stops f p.operands s
  · have places := operands_refill p calls.length_eq
    refine .all (p.refill results) s' (places.symm ▸ calls) (corresponds_refill p results) ?_ ?_
    · rw [mapOperandsM_eq, run_map, calls.mapM_eq]
      rfl
    · rw [mapOperandsM_eq, run_map, (calls.noting []).mapM_eq]
      rfl
  · refine .stopped before o after results s₁ s' e split calls failed ?_ ?_
    · rw [mapOperandsM_eq, split, run_map, calls.mapM_eq_error failed]
      rfl
    · rw [mapOperandsM_eq, split, run_map,
        (calls.noting []).mapM_eq_error (run_noting failed _)]
      rfl

end Calls

/-- Mapping calls a function on the operands as they are listed, once each and from left to right,
up to the first call that fails, whatever state the function keeps; then it fails with the error of
this call, and otherwise only the operands are replaced, by the results in order. Without a state it
fails exactly with the error of the first operand that the function refuses. Mapping by the identity
changes nothing, and the aggregate calls of a condition are those among its operands. -/
theorem mapOperandsM_traverses (p : Predicate) :
    (∀ {σ ε : Type} (f : Operand → ExceptT ε (StateM σ) Operand) (s : σ), Traversal f s p) ∧
    (∀ {ε : Type} (f : Operand → Except ε Operand),
      (∀ q, p.mapOperandsM f = .ok q ↔ Corresponds (fun o o' => f o = .ok o') p q) ∧
      ∀ e, p.mapOperandsM f = .error e ↔ ∃ before o after, p.operands = before ++ o :: after ∧
        (∀ b ∈ before, ∃ b', f b = .ok b') ∧ f o = .error e) ∧
    (∀ {σ ε : Type}, p.mapOperandsM (pure : Operand → ExceptT ε (StateM σ) Operand) = pure p) ∧
    p.aggregates.map Operand.aggregate = p.operands.filter fun o => o.aggregate?.isSome := by
  refine ⟨fun f s => traversal f s p, fun f => ⟨fun q => ?_, fun e => ?_⟩, ?_, ?_⟩
  · exact mapOperandsM_eq_ok fun _ _ => Iff.rfl
  · rw [mapOperandsM_eq, ← mapM_eq_error]
    cases p.operands.mapM f <;> simp
  · intro σ ε
    rw [mapOperandsM_eq, List.mapM_pure, List.map_id', map_pure, refill_operands]
  · rw [aggregates]
    induction p.operands with
    | nil => rfl
    | cons o os ih =>
      cases o with
      | aggregate call => exact congrArg (Operand.aggregate call :: ·) ih
      | _ => exact ih

end TablePlan.Predicate
