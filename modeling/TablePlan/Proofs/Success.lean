import TablePlan.Proofs.Lists

/-!
What a success says of the checks behind it. A sequence of checks succeeds exactly when each of
them does, and a traversal succeeds exactly with the results of its elements.
-/

namespace TablePlan.Success

variable {ε ε' α β : Type}

theorem bind_eq_ok {x : Except ε α} {f : α → Except ε β} {b : β} :
    (x >>= f) = .ok b ↔ ∃ a, x = .ok a ∧ f a = .ok b := by
  cases x <;> simp [bind, Except.bind]

theorem check_eq_ok {x : Except ε Unit} {f : Unit → Except ε β} {b : β} :
    (x >>= f) = .ok b ↔ x = .ok () ∧ f () = .ok b := by
  cases x <;> simp [bind, Except.bind]

theorem pure_eq_ok {a b : α} : (pure a : Except ε α) = .ok b ↔ a = b := by
  simp [pure, Except.pure]

theorem ok_bind (a : α) (f : α → Except ε β) : (Except.ok a >>= f) = f a :=
  rfl

theorem map_eq_ok {x : Except ε α} {f : α → β} {b : β} :
    x.map f = .ok b ↔ ∃ a, x = .ok a ∧ f a = b := by
  cases x <;> simp [Except.map]

theorem map_some_eq_ok_some {x : Except ε α} {a : α} : x.map some = .ok (some a) ↔ x = .ok a := by
  cases x <;> simp [Except.map]

theorem map_some_ne_ok_none {x : Except ε α} : x.map some ≠ .ok none := by
  cases x <;> simp [Except.map]

theorem mapError_eq_ok {x : Except ε α} {f : ε → ε'} {a : α} :
    x.mapError f = .ok a ↔ x = .ok a := by
  cases x <;> simp [Except.mapError]

theorem bind_eq_error {x : Except ε α} {f : α → Except ε β} {e : ε} :
    (x >>= f) = .error e ↔ x = .error e ∨ ∃ a, x = .ok a ∧ f a = .error e := by
  cases x <;> simp [bind, Except.bind]

theorem exists_of_any_toOption {x : Except ε α} {p : α → Bool} (passed : x.toOption.any p = true) :
    ∃ a, x = .ok a ∧ p a = true := by
  cases x with
  | ok a => exact ⟨a, rfl, passed⟩
  | error e => cases passed

theorem mapM_eq_ok {f : α → Except ε β} {as : List α} {bs : List β} :
    as.mapM f = .ok bs ↔ List.Forall₂ (fun a b => f a = .ok b) as bs := by
  induction as generalizing bs with
  | nil =>
    rw [List.mapM_nil, pure_eq_ok, List.forall₂_nil_left_iff]
    exact eq_comm
  | cons a as ih =>
    simp only [List.mapM_cons, bind_eq_ok, pure_eq_ok, ih, List.forall₂_cons_left_iff]
    constructor
    · rintro ⟨b, first, rest, others, rfl⟩
      exact ⟨b, rest, first, others, rfl⟩
    · rintro ⟨b, rest, first, others, rfl⟩
      exact ⟨b, first, rest, others, rfl⟩

theorem mapM_eq_mapM {γ : Type} {f : α → Except ε γ} {g : β → Except ε γ} {as : List α}
    {bs : List β} (same : List.Forall₂ (fun a b => f a = g b) as bs) : as.mapM f = bs.mapM g := by
  induction same with
  | nil => rfl
  | cons first _ ih => rw [List.mapM_cons, List.mapM_cons, first, ih]

theorem mapM_eq_ok_map {f : α → Except ε β} {g : α → β} {as : List α}
    (total : ∀ a ∈ as, f a = .ok (g a)) : as.mapM f = .ok (as.map g) := by
  rw [mapM_eq_ok, List.forall₂_map_right_iff, List.forall₂_same]
  exact total

theorem mapM_of_mapM {f g : α → Except ε β} {as : List α} {bs : List β} (ok : as.mapM f = .ok bs)
    (same : ∀ a, ∀ b ∈ bs, f a = .ok b → g a = .ok b) : as.mapM g = .ok bs := by
  rw [mapM_eq_ok] at ok ⊢
  induction ok with
  | nil => exact .nil
  | cons first _ ih =>
    refine .cons (same _ _ List.mem_cons_self first) (ih fun a b mem => ?_)
    exact same a b (List.mem_cons_of_mem _ mem)

theorem exists_mapM_eq_ok {f : α → Except ε β} {as : List α} :
    (∃ bs, as.mapM f = .ok bs) ↔ ∀ a ∈ as, ∃ b, f a = .ok b := by
  induction as with
  | nil => simp [pure_eq_ok]
  | cons a as ih =>
    simp only [List.mapM_cons, bind_eq_ok, pure_eq_ok, List.forall_mem_cons, ← ih]
    constructor
    · rintro ⟨_, b, first, bs, rest, _⟩
      exact ⟨⟨b, first⟩, bs, rest⟩
    · rintro ⟨⟨b, first⟩, bs, rest⟩
      exact ⟨b :: bs, b, first, bs, rest, rfl⟩

theorem mapM_eq_error {f : α → Except ε β} {as : List α} {e : ε} : as.mapM f = .error e ↔
    ∃ before a after, as = before ++ a :: after ∧ (∀ a' ∈ before, ∃ b, f a' = .ok b) ∧
      f a = .error e := by
  induction as with
  | nil => simp [pure, Except.pure]
  | cons first as ih =>
    rw [List.mapM_cons, bind_eq_error]
    constructor
    · rintro (failed | ⟨b, made, failed⟩)
      · exact ⟨[], first, as, rfl, List.forall_mem_nil _, failed⟩
      · have failed : as.mapM f = .error e := by
          obtain failed | ⟨bs, _, failed⟩ := bind_eq_error.1 failed
          · exact failed
          · cases failed
        obtain ⟨before, a, after, rfl, passed, failed⟩ := ih.1 failed
        exact ⟨first :: before, a, after, rfl, List.forall_mem_cons.2 ⟨⟨b, made⟩, passed⟩, failed⟩
    · rintro ⟨before, a, after, split, passed, failed⟩
      cases before with
      | nil =>
        obtain ⟨rfl, rfl⟩ := List.cons.inj split
        exact .inl failed
      | cons a' before =>
        obtain ⟨rfl, rfl⟩ := List.cons.inj split
        obtain ⟨⟨b, made⟩, passed⟩ := List.forall_mem_cons.1 passed
        have failed := ih.2 ⟨before, a, after, rfl, passed, failed⟩
        exact .inr ⟨b, made, bind_eq_error.2 (.inl failed)⟩

theorem exists_of_mapM_eq_error {f : α → Except ε β} {as : List α} {e : ε}
    (failed : as.mapM f = .error e) : ∃ a ∈ as, f a = .error e := by
  obtain ⟨before, a, after, rfl, _, failed⟩ := mapM_eq_error.1 failed
  exact ⟨a, List.mem_append_right _ List.mem_cons_self, failed⟩

theorem mapM_eq_error_of_mem {f g : α → Except ε β} {as : List α} {bs : List β} {a : α} {e : ε}
    (ok : as.mapM g = .ok bs) (mem : a ∈ as) (failed : f a = .error e)
    (same : ∀ a', a' ≠ a → f a' = g a') : as.mapM f = .error e := by
  induction as generalizing bs with
  | nil => cases mem
  | cons first as ih =>
    obtain ⟨b, made, ok⟩ := bind_eq_ok.1 (List.mapM_cons.symm.trans ok)
    obtain ⟨rest, traversed, _⟩ := bind_eq_ok.1 ok
    rw [List.mapM_cons, bind_eq_error]
    by_cases here : first = a
    · exact .inl (here ▸ failed)
    · have mem : a ∈ as := (List.mem_cons.1 mem).resolve_left (Ne.symm here)
      exact .inr ⟨b, (same first here).trans made, bind_eq_error.2 (.inl (ih traversed mem))⟩

theorem mapM_modify {f : α → Except ε β} {g : α → α} {h : β → β}
    (changes : ∀ a, f (g a) = (f a).map h) (as : List α) (i : Nat) :
    (as.modify i g).mapM f = (as.mapM f).map (List.modify · i h) := by
  induction as generalizing i with
  | nil => cases i <;> rfl
  | cons a as ih =>
    cases i with
    | zero =>
      rw [List.modify_zero_cons, List.mapM_cons, List.mapM_cons, changes]
      cases f a with
      | error e => rfl
      | ok b => cases as.mapM f <;> rfl
    | succ i =>
      rw [List.modify_succ_cons, List.mapM_cons, List.mapM_cons, ih]
      cases f a with
      | error e => rfl
      | ok b => cases as.mapM f <;> rfl

theorem exists_of_mem_mapM {f : α → Except ε β} {as : List α} {bs : List β}
    (ok : as.mapM f = .ok bs) {b : β} (mem : b ∈ bs) : ∃ a ∈ as, f a = .ok b :=
  exists_of_mem_forall₂ (mapM_eq_ok.1 ok) mem

theorem map_eq_map_of_mapM {γ : Type} {f : α → Except ε β} {as : List α} {bs : List β}
    {before : α → γ} {after : β → γ} (ok : as.mapM f = .ok bs)
    (keeps : ∀ a b, f a = .ok b → after b = before a) : bs.map after = as.map before := by
  rw [mapM_eq_ok] at ok
  induction ok with
  | nil => rfl
  | cons first _ ih => simp [keeps _ _ first, ih]

theorem forall₂_of_mapM {γ : Type} {f : α → Except ε β} {g : α → Except ε γ} {as : List α}
    {bs : List β} {cs : List γ} {related : β → γ → Prop} (ok : as.mapM f = .ok bs)
    (ok' : as.mapM g = .ok cs)
    (relates : ∀ a ∈ as, ∀ b c, f a = .ok b → g a = .ok c → related b c) :
    List.Forall₂ related bs cs := by
  rw [mapM_eq_ok] at ok ok'
  induction ok generalizing cs with
  | nil =>
    cases ok'
    exact .nil
  | cons first _ ih =>
    cases ok' with
    | cons first' rest' =>
      rw [List.forall_mem_cons] at relates
      exact .cons (relates.1 _ _ first first') (ih rest' relates.2)

theorem forall₂_of_mapM_zipIdx {f : α × Nat → Except ε β} {as : List α} {bs : List β}
    (ok : as.zipIdx.mapM f = .ok bs) : List.Forall₂ (fun a b => ∃ i, f (a, i) = .ok b) as bs := by
  have first : List.Forall₂ (fun a b => ∃ i, f (a, i) = .ok b) (as.zipIdx.map Prod.fst) bs :=
    List.forall₂_map_left_iff.2 ((mapM_eq_ok.1 ok).imp fun entry _ made => ⟨entry.2, made⟩)
  rwa [List.zipIdx_map_fst] at first

theorem mapM_zipIdx_eq_ok {f : α × Nat → Except ε β} {related : α → β → Prop} {as : List α}
    {bs : List β} (same : ∀ a i b, f (a, i) = .ok b ↔ related a b) :
    as.zipIdx.mapM f = .ok bs ↔ List.Forall₂ related as bs := by
  have unnumbered : (fun entry b => f entry = .ok b) =
      fun entry b => related (Prod.fst entry) b :=
    funext fun entry => funext fun b => propext (same entry.1 entry.2 b)
  rw [mapM_eq_ok, unnumbered, ← List.forall₂_map_left_iff, List.zipIdx_map_fst]

end TablePlan.Success
