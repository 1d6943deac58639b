import Mathlib.Data.List.Perm.Basic

/-!
Lists that correspond element by element, and lists of lists taken in another order.
-/

namespace TablePlan

theorem exists_of_mem_forall₂ {α β : Type} {related : α → β → Prop} {as : List α} {bs : List β}
    (all : List.Forall₂ related as bs) {b : β} (mem : b ∈ bs) : ∃ a ∈ as, related a b := by
  induction all with
  | nil => cases mem
  | cons first _ ih =>
    obtain rfl | mem := List.mem_cons.1 mem
    · exact ⟨_, List.mem_cons_self, first⟩
    · obtain ⟨a, mem, relates⟩ := ih mem
      exact ⟨a, List.mem_cons_of_mem _ mem, relates⟩

theorem forall₂_trans {α β γ : Type} {related : α → β → Prop} {related' : β → γ → Prop}
    {as : List α} {bs : List β} {cs : List γ} (first : List.Forall₂ related as bs)
    (second : List.Forall₂ related' bs cs) :
    List.Forall₂ (fun a c => ∃ b, related a b ∧ related' b c) as cs := by
  induction first generalizing cs with
  | nil =>
    cases second
    exact .nil
  | cons head _ ih =>
    cases second with
    | cons head' rest => exact .cons ⟨_, head, head'⟩ (ih rest)

theorem exists_getElem?_of_forall₂ {α β : Type} {related : α → β → Prop} {as : List α}
    {bs : List β} (all : List.Forall₂ related as bs) {i : Nat} {a : α} (at_i : as[i]? = some a) :
    ∃ b, bs[i]? = some b ∧ related a b := by
  induction all generalizing i with
  | nil => cases at_i
  | cons first _ ih =>
    cases i with
    | zero =>
      cases at_i
      exact ⟨_, rfl, first⟩
    | succ i => exact ih at_i

theorem map_modify_of_same {α β : Type} {f : α → α} {g : α → β} {as : List α} {i : Nat}
    (same : ∀ a, as[i]? = some a → g (f a) = g a) : (as.modify i f).map g = as.map g := by
  refine List.ext_getElem? fun j => ?_
  rw [List.getElem?_map, List.getElem?_map, List.getElem?_modify]
  cases at_j : as[j]? with
  | none => rfl
  | some a =>
    by_cases here : i = j
    · simp [here, same a (here ▸ at_j)]
    · simp [here]

theorem zipIdx_modify {α : Type} (f : α → α) (as : List α) (i : Nat) :
    (as.modify i f).zipIdx = as.zipIdx.modify i (Prod.map f id) := by
  refine List.ext_getElem? fun j => ?_
  rw [List.getElem?_zipIdx, List.getElem?_modify, List.getElem?_modify, List.getElem?_zipIdx]
  cases as[j]? with
  | none => rfl
  | some a => by_cases here : i = j <;> simp [here]

theorem any_eq_of_forall₂ {α β : Type} {p : α → Bool} {q : β → Bool} {as : List α} {bs : List β}
    (same : List.Forall₂ (fun a b => p a = q b) as bs) : as.any p = bs.any q := by
  induction same with
  | nil => rfl
  | cons first _ ih => rw [List.any_cons, List.any_cons, first, ih]

theorem pairwise_of_forall₂ {α β : Type} {related : α → β → Prop} {r : α → α → Prop}
    {s : β → β → Prop} {as : List α} {bs : List β} (all : List.Forall₂ related as bs)
    (keeps : ∀ a a' b b', related a b → related a' b' → s b b' → r a a') (pairs : bs.Pairwise s) :
    as.Pairwise r := by
  induction all with
  | nil => exact .nil
  | cons first rest ih =>
    obtain ⟨head, tail⟩ := List.pairwise_cons.1 pairs
    refine List.pairwise_cons.2 ⟨fun a mem => ?_, ih tail⟩
    obtain ⟨b, mem, relates⟩ := exists_of_mem_forall₂ rest.flip mem
    exact keeps _ _ _ _ first relates (head b mem)

theorem flatMap_filter {α β : Type} (p : α → Bool) (f : α → List β) (as : List α) :
    (as.filter p).flatMap f = as.flatMap fun a => if p a then f a else [] := by
  induction as with
  | nil => rfl
  | cons a as ih =>
    rw [List.filter_cons, List.flatMap_cons, ← ih]
    split <;> simp

theorem flatMap_flatMap_perm {α β γ : Type} (as : List α) (bs : List β) (f : α → β → List γ) :
    (as.flatMap fun a => bs.flatMap fun b => f a b).Perm
      (bs.flatMap fun b => as.flatMap fun a => f a b) := by
  induction as with
  | nil => simp
  | cons a as ih =>
    simp only [List.flatMap_cons]
    exact (ih.append_left _).trans (List.flatMap_append_perm bs (f a) _)

theorem intercalate_append {α : Type} {mark : α} {as bs : List (List α)} (nonempty : as ≠ [])
    (nonempty' : bs ≠ []) : [mark].intercalate (as ++ bs) =
      [mark].intercalate as ++ mark :: [mark].intercalate bs := by
  induction as with
  | nil => exact absurd rfl nonempty
  | cons a as ih =>
    cases as with
    | nil =>
      rw [List.singleton_append, List.intercalate_cons_of_ne_nil nonempty',
        List.intercalate_singleton, List.append_assoc]
      rfl
    | cons a' as =>
      have ih := ih (List.cons_ne_nil _ _)
      rw [List.cons_append, List.cons_append, List.intercalate_cons_cons,
        List.intercalate_cons_cons, ← List.cons_append, ih]
      simp

theorem intercalate_cons {α : Type} (mark a : List α) (as : List (List α)) :
    mark.intercalate (a :: as) = a ++ as.flatMap fun b => mark ++ b := by
  induction as generalizing a with
  | nil => simp
  | cons b as ih =>
    rw [List.intercalate_cons_cons, ih b, List.flatMap_cons, List.append_assoc,
      List.append_assoc mark]

theorem takeWhile_dropWhile_append {α : Type} {p : α → Bool} {before after : List α}
    (within : ∀ a ∈ before, p a = true) (stop : ∀ a ∈ after.head?, p a = false) :
    (before ++ after).takeWhile p = before ∧ (before ++ after).dropWhile p = after := by
  rw [List.takeWhile_append_of_pos within, List.dropWhile_append_of_pos within]
  cases after with
  | nil => exact ⟨List.append_nil _, rfl⟩
  | cons a after =>
    have fails : ¬ p a = true := by simp [stop a rfl]
    rw [List.takeWhile_cons_of_neg fails, List.dropWhile_cons_of_neg fails, List.append_nil]
    exact ⟨rfl, rfl⟩

theorem isEmpty_filter {α : Type} (p : α → Bool) (as : List α) :
    (as.filter p).isEmpty = !as.any p := by
  induction as with
  | nil => rfl
  | cons a as ih =>
    rw [List.filter_cons, List.any_cons]
    cases p a with
    | true => rfl
    | false => exact ih

theorem exists_map_perm {α β : Type} {f : α → β} {as : List α} {bs : List β}
    (perm : bs.Perm (as.map f)) : ∃ as' : List α, bs = as'.map f ∧ as'.Perm as := by
  have related : List.Forall₂ (fun b a => b = f a) (as.map f) as := by
    rw [List.forall₂_map_left_iff]
    exact List.forall₂_same.2 fun _ _ => rfl
  obtain ⟨as', related', perm'⟩ := List.perm_comp_forall₂ perm related
  refine ⟨as', ?_, perm'⟩
  rw [← List.forall₂_eq_eq_eq, List.forall₂_map_right_iff]
  exact related'

theorem eraseDups_concat {α : Type} [BEq α] [LawfulBEq α] (as : List α) (a : α)
    [Decidable (a ∈ as)] :
    (as ++ [a]).eraseDups = if a ∈ as then as.eraseDups else as.eraseDups ++ [a] := by
  rw [List.eraseDups_append, List.removeAll, List.filter_singleton, List.elem_eq_contains]
  by_cases old : a ∈ as
  · simp [old]
  · simp [old, List.eraseDups_cons]

end TablePlan
