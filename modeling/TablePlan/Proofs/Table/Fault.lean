import TablePlan.Proofs.Success
import TablePlan.Proofs.Table.Row

/-!
Why a table is not valid. The check reports the first column name that repeats an earlier one, and
if there is none the first row that is not as wide as the columns. A lookup of a column fails
exactly when no column has the name.
-/

namespace TablePlan.Table

open Success

theorem firstRepeat?_eq_some_iff {seen names : List String} {name : String} :
    firstRepeat? seen names = some name ↔ ∃ before after, names = before ++ name :: after ∧
      before.Nodup ∧ (∀ b ∈ before, b ∉ seen) ∧ (name ∈ seen ∨ name ∈ before) := by
  induction names generalizing seen with
  | nil => simp [firstRepeat?]
  | cons first names ih =>
    rw [firstRepeat?]
    split_ifs with old
    · constructor
      · intro found
        cases found
        exact ⟨[], names, rfl, List.nodup_nil, by simp, .inl old⟩
      · rintro ⟨_ | ⟨b, before⟩, after, same, _, fresh, _⟩
        · cases same
          rfl
        · cases same
          exact absurd old (fresh _ List.mem_cons_self)
    · rw [ih]
      constructor
      · rintro ⟨before, after, rfl, distinct, fresh, again⟩
        have apart (b : String) (mem : b ∈ before) : b ≠ first ∧ b ∉ seen := by
          simpa using fresh b mem
        refine ⟨first :: before, after, rfl, List.nodup_cons.2 ⟨?_, distinct⟩, ?_, ?_⟩
        · exact fun mem => (apart first mem).1 rfl
        · exact List.forall_mem_cons.2 ⟨old, fun b mem => (apart b mem).2⟩
        · rw [List.mem_cons] at again ⊢
          tauto
      · rintro ⟨_ | ⟨b, before⟩, after, same, distinct, fresh, again⟩
        · cases same
          exact absurd (again.resolve_right List.not_mem_nil) old
        · cases same
          obtain ⟨once, distinct⟩ := List.nodup_cons.1 distinct
          refine ⟨before, after, rfl, distinct, fun b mem => ?_, ?_⟩
          · rw [List.mem_cons, not_or]
            exact ⟨fun same => once (same ▸ mem), fresh b (List.mem_cons_of_mem _ mem)⟩
          · rw [List.mem_cons] at again ⊢
            tauto

theorem firstMisfit?_eq_some_iff {width start : Nat} {rows : List Row} {position found : Nat} :
    firstMisfit? width start rows = some (position, found) ↔
      ∃ before row after, rows = before ++ row :: after ∧ (∀ r ∈ before, r.length = width) ∧
        row.length ≠ width ∧ position = start + before.length ∧ found = row.length := by
  induction rows generalizing start with
  | nil => simp [firstMisfit?]
  | cons first rows ih =>
    rw [firstMisfit?]
    split_ifs with fits
    · rw [ih]
      constructor
      · rintro ⟨before, row, after, rfl, fit, misfit, rfl, rfl⟩
        refine ⟨first :: before, row, after, rfl, List.forall_mem_cons.2 ⟨fits, fit⟩, misfit, ?_,
          rfl⟩
        rw [List.length_cons]
        omega
      · rintro ⟨_ | ⟨r, before⟩, row, after, same, fit, misfit, rfl, rfl⟩
        · cases same
          exact absurd fits misfit
        · cases same
          refine ⟨before, row, after, rfl, (List.forall_mem_cons.1 fit).2, misfit, ?_, rfl⟩
          rw [List.length_cons]
          omega
    · constructor
      · intro misfit
        cases misfit
        exact ⟨[], first, rows, rfl, by simp, fits, rfl, rfl⟩
      · rintro ⟨_ | ⟨r, before⟩, row, after, same, fit, misfit, rfl, rfl⟩
        · cases same
          rfl
        · cases same
          exact absurd (fit _ List.mem_cons_self) fits

/-- The first fault of a table. -/
inductive Fault (t : Table) : TableError → Prop
  | repeated {before name after} (columns : t.columns = before ++ name :: after)
    (distinct : before.Nodup) (again : name ∈ before) : Fault t (.duplicateColumn name)
  | misfit (distinct : t.columns.Nodup) {before row after} (rows : t.rows = before ++ row :: after)
    (fit : ∀ r ∈ before, r.length = t.columns.length) (misfit : row.length ≠ t.columns.length) :
    Fault t (.rowWidth before.length row.length t.columns.length)

theorem Fault.eq_rowWidth {t : Table} {e : TableError} (fault : t.Fault e)
    (distinct : t.columns.Nodup) : ∃ row found expected, e = .rowWidth row found expected := by
  cases fault with
  | repeated columns _ again =>
    rw [columns, List.nodup_append] at distinct
    exact absurd rfl (distinct.2.2 _ again _ List.mem_cons_self)
  | misfit => exact ⟨_, _, _, rfl⟩

theorem validate_eq_error_iff {t : Table} {e : TableError} :
    t.validate = .error e ↔ t.Fault e := by
  unfold validate
  constructor
  · intro failed
    split at failed
    · rename_i name found
      cases failed
      obtain ⟨before, after, columns, distinct, _, again⟩ := firstRepeat?_eq_some_iff.1 found
      exact .repeated columns distinct (again.resolve_left List.not_mem_nil)
    · rename_i none
      split at failed
      · rename_i found
        cases failed
        obtain ⟨before, row, after, rows, fit, misfit, rfl, rfl⟩ :=
          firstMisfit?_eq_some_iff.1 found
        rw [Nat.zero_add]
        exact .misfit (firstRepeat?_eq_none_iff.1 none).1 rows fit misfit
      · cases failed
  · rintro (⟨columns, distinct, again⟩ | ⟨distinct, rows, fit, misfit⟩)
    · rw [firstRepeat?_eq_some_iff.2 ⟨_, _, columns, distinct, by simp, .inr again⟩]
    · rw [firstRepeat?_eq_none_iff.2 ⟨distinct, by simp⟩,
        firstMisfit?_eq_some_iff.2 ⟨_, _, _, rows, fit, misfit, (Nat.zero_add _).symm, rfl⟩]

theorem ofRows_eq_error_iff {columns : List String} {rows : List Row} {e : TableError} :
    ofRows columns rows = .error e ↔ Fault ⟨columns, rows⟩ e := by
  unfold ofRows
  rw [bind_eq_error, validate_eq_error_iff]
  simp [pure, Except.pure]

theorem valid_or_fault (t : Table) : t.Valid ∨ ∃ e, t.Fault e := by
  cases checked : t.validate with
  | ok _ => exact .inl (validate_eq_ok_iff.1 checked)
  | error e => exact .inr ⟨e, validate_eq_error_iff.1 checked⟩

theorem indexOf_eq_error_iff {t : Table} {name : String} {e : TableError} :
    t.indexOf name = .error e ↔ name ∉ t.columns ∧ e = .unknownColumn name := by
  rw [← exists_indexOf_eq_ok]
  unfold indexOf
  split
  · simp
  · simp [eq_comm]

end TablePlan.Table
