import TablePlan.Aggregate
import Mathlib.Data.List.Basic

/-!
Engine names of columns. Aliases without dots make qualified names injective; aliases without
parentheses keep them apart from the labels of aggregates, which are injective too.
-/

namespace TablePlan

theorem append_cons_inj_of_first {α : Type} {m : α → Prop} {xs zs ys ws : List α} {x z : α}
    (before : ∀ a ∈ xs, ¬ m a) (before' : ∀ a ∈ zs, ¬ m a) (at_x : m x) (at_z : m z) :
    xs ++ x :: ys = zs ++ z :: ws ↔ xs = zs ∧ x = z ∧ ys = ws := by
  constructor
  · intro equal
    induction xs generalizing zs with
    | nil =>
      cases zs with
      | nil => simpa using equal
      | cons c zs =>
        have same : x = c := by simpa using congrArg List.head? equal
        exact absurd (same ▸ at_x) (before' c List.mem_cons_self)
    | cons c xs ih =>
      cases zs with
      | nil =>
        have same : c = z := by simpa using congrArg List.head? equal
        exact absurd (same ▸ at_z) (before c List.mem_cons_self)
      | cons d zs =>
        simp only [List.cons_append, List.cons.injEq] at equal
        obtain ⟨rfl, equal⟩ := equal
        have pieces := ih (fun a mem => before a (List.mem_cons_of_mem _ mem))
          (fun a mem => before' a (List.mem_cons_of_mem _ mem)) equal
        simpa using pieces
  · rintro ⟨rfl, rfl, rfl⟩
    rfl

namespace ColumnRef

theorem text_qualified_inj {a b c d : String} (dotFree : '.' ∉ a.toList)
    (dotFree' : '.' ∉ b.toList) :
    (qualified a c).text = (qualified b d).text ↔ a = b ∧ c = d := by
  have pieces : a.toList ++ '.' :: c.toList = b.toList ++ '.' :: d.toList ↔ _ :=
    append_cons_inj_of_first (m := (· = '.')) (fun _ mem same => dotFree (same ▸ mem))
      (fun _ mem same => dotFree' (same ▸ mem)) rfl rfl
  rw [← String.toList_inj]
  simpa [text, qualified, String.toList_inj] using pieces

def IsPlain (ref : ColumnRef) : Prop :=
  ∃ aliasName, ref.aliasName = some aliasName ∧ '.' ∉ aliasName.toList

theorem IsPlain.exists_eq {ref : ColumnRef} (plain : ref.IsPlain) :
    ∃ a c, ref = qualified a c ∧ '.' ∉ a.toList := by
  obtain ⟨a, named, dotFree⟩ := plain
  exact ⟨a, ref.column, by rw [qualified, ← named], dotFree⟩

theorem text_inj {r s : ColumnRef} (plain : r.IsPlain) (plain' : s.IsPlain) :
    r.text = s.text ↔ r = s := by
  obtain ⟨a, c, rfl, dotFree⟩ := plain.exists_eq
  obtain ⟨b, d, rfl, dotFree'⟩ := plain'.exists_eq
  rw [text_qualified_inj dotFree dotFree']
  simp [qualified]

theorem dot_mem_text {ref : ColumnRef} (plain : ref.IsPlain) : '.' ∈ ref.text.toList := by
  obtain ⟨a, c, rfl, _⟩ := plain.exists_eq
  simp [text, qualified]

end ColumnRef

namespace AggregateFunction

theorem name_inj {f g : AggregateFunction} : f.name = g.name ↔ f = g := by
  cases f <;> cases g <;> decide

theorem notMem_name (f : AggregateFunction) : '.' ∉ f.name.toList ∧ '(' ∉ f.name.toList := by
  cases f <;> decide

end AggregateFunction

namespace AggregateCall

def argumentText (call : AggregateCall) : String :=
  match call.argument with
  | some column => column.text
  | none => "*"

theorem label_toList (call : AggregateCall) :
    call.label.toList =
      call.function.name.toList ++ '(' :: (call.argumentText.toList ++ [')']) := by
  have written : call.label = call.function.name ++ "(" ++ call.argumentText ++ ")" := rfl
  rw [written]
  simp only [String.toList_append, List.append_assoc]
  rfl

def IsPlain (call : AggregateCall) : Prop :=
  ∀ ref ∈ call.argument, ref.IsPlain

theorem argumentText_inj {call other : AggregateCall} (plain : call.IsPlain)
    (plain' : other.IsPlain) :
    call.argumentText = other.argumentText ↔ call.argument = other.argument := by
  have star {ref : ColumnRef} (plain : ref.IsPlain) : ref.text ≠ "*" := fun same => by
    have dot := ColumnRef.dot_mem_text plain
    rw [same] at dot
    exact absurd dot (by decide)
  unfold argumentText
  cases h : call.argument with
  | none => cases h' : other.argument with
    | none => simp
    | some ref => simpa using (star (plain' ref h')).symm
  | some ref => cases h' : other.argument with
    | none => simpa using star (plain ref h)
    | some ref' => simpa using ColumnRef.text_inj (plain ref h) (plain' ref' h')

theorem label_inj {call other : AggregateCall} (plain : call.IsPlain) (plain' : other.IsPlain) :
    call.label = other.label ↔ call = other := by
  have noMark (f : AggregateFunction) : ∀ c ∈ f.name.toList, c ≠ '(' :=
    fun c mem same => f.notMem_name.2 (same ▸ mem)
  rw [← String.toList_inj, label_toList, label_toList,
    append_cons_inj_of_first (m := (· = '(')) (noMark _) (noMark _) rfl rfl,
    List.append_left_inj, String.toList_inj, String.toList_inj, AggregateFunction.name_inj,
    argumentText_inj plain plain']
  cases call
  cases other
  simp

/-- The first mark of a label is a parenthesis, that of a qualified name a dot. -/
theorem label_ne_text (call : AggregateCall) {a c : String}
    (plain : '.' ∉ a.toList ∧ '(' ∉ a.toList) : call.label ≠ (ColumnRef.qualified a c).text := by
  intro same
  have noMark := call.function.notMem_name
  have pieces := congrArg String.toList same
  rw [label_toList] at pieces
  simp only [ColumnRef.text, ColumnRef.qualified, String.toList_append] at pieces
  have cut : call.function.name.toList ++ '(' :: (call.argumentText.toList ++ [')']) =
      a.toList ++ '.' :: c.toList := by simpa using pieces
  rw [append_cons_inj_of_first (m := fun c => c = '.' ∨ c = '(')
    (fun c mem mark => mark.elim (fun h => noMark.1 (h ▸ mem)) (fun h => noMark.2 (h ▸ mem)))
    (fun c mem mark => mark.elim (fun h => plain.1 (h ▸ mem)) (fun h => plain.2 (h ▸ mem)))
    (.inr rfl) (.inl rfl)] at cut
  exact absurd cut.2.1 (by decide)

/-- With a parenthesis in the alias they can be the same. -/
example : label ⟨.count, some (.qualified "x" "y")⟩ = (ColumnRef.qualified "count(x" "y)").text :=
  rfl

end AggregateCall

end TablePlan
