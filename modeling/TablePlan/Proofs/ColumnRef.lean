import TablePlan.ColumnRef
import Mathlib.Data.List.TakeWhile

/-!
Column references and the texts they are read from. Blanks around a text and around its first point
make no difference, and apart from blanks a reference has the characters it was read from.
-/

namespace TablePlan

namespace Text

def visible (cs : List Char) : List Char :=
  cs.filter fun c => !isBlank c

theorem visible_append (cs cs' : List Char) : visible (cs ++ cs') = visible cs ++ visible cs' :=
  List.filter_append ..

def Blank (cs : List Char) : Prop :=
  ∀ c ∈ cs, isBlank c = true

theorem blank_nil : Blank [] :=
  nofun

theorem visible_of_blank {cs : List Char} (blank : Blank cs) : visible cs = [] :=
  List.filter_eq_nil_iff.2 fun c mem => by simp [blank c mem]

theorem Blank.reverse {cs : List Char} (blank : Blank cs) : Blank cs.reverse :=
  fun c mem => blank c (List.mem_reverse.1 mem)

theorem exists_dropBlanks (cs : List Char) :
    ∃ before, Blank before ∧ cs = before ++ dropBlanks cs :=
  ⟨cs.takeWhile isBlank, fun _ mem => List.mem_takeWhile_imp mem,
    (List.takeWhile_append_dropWhile ..).symm⟩

theorem exists_dropEndBlanks (cs : List Char) :
    ∃ after, Blank after ∧ cs = dropEndBlanks cs ++ after := by
  obtain ⟨before, blank, same⟩ := exists_dropBlanks cs.reverse
  refine ⟨before.reverse, blank.reverse, ?_⟩
  rw [dropEndBlanks, ← List.reverse_append, ← same, List.reverse_reverse]

theorem exists_trim (s : String) : ∃ before after, Blank before ∧ Blank after ∧
    s.toList = before ++ (trim s).toList ++ after := by
  obtain ⟨before, blank, first⟩ := exists_dropBlanks s.toList
  obtain ⟨after, blank', last⟩ := exists_dropEndBlanks (dropBlanks s.toList)
  refine ⟨before, after, blank, blank', ?_⟩
  rw [trim, String.toList_ofList, List.append_assoc, ← last]
  exact first

theorem dropEndBlanks_append {cs after : List Char} (blank : Blank after) :
    dropEndBlanks (cs ++ after) = dropEndBlanks cs := by
  rw [dropEndBlanks, List.reverse_append, dropBlanks, List.dropWhile_append_of_pos blank.reverse]
  rfl

theorem trim_append {before cs after : List Char} (blank : Blank before) (blank' : Blank after) :
    trim (String.ofList (before ++ cs ++ after)) = trim (String.ofList cs) := by
  rw [trim, trim, String.toList_ofList, String.toList_ofList, List.append_assoc, dropBlanks,
    List.dropWhile_append_of_pos blank, List.dropWhile_append]
  split
  · rename_i none
    rw [List.isEmpty_iff] at none
    rw [dropBlanks, none, List.dropWhile_eq_nil_iff.2 blank']
  · rw [dropEndBlanks_append blank']
    rfl

theorem visible_trim (s : String) : visible (trim s).toList = visible s.toList := by
  obtain ⟨before, after, blank, blank', same⟩ := exists_trim s
  rw [same, visible_append, visible_append, visible_of_blank blank, visible_of_blank blank',
    List.nil_append, List.append_nil]

theorem mem_of_mem_trim {s : String} {c : Char} (mem : c ∈ (trim s).toList) : c ∈ s.toList := by
  obtain ⟨before, after, _, _, same⟩ := exists_trim s
  rw [same]
  exact List.mem_append_left _ (List.mem_append_right _ mem)

theorem splitAtFirst?_eq_some {mark : Char} {cs before after : List Char} :
    splitAtFirst? mark cs = some (before, after) ↔
      cs = before ++ mark :: after ∧ mark ∉ before := by
  constructor
  · intro split
    induction cs generalizing before with
    | nil => cases split
    | cons c cs ih =>
      rw [splitAtFirst?] at split
      split at split
      · rename_i same
        cases split
        exact ⟨by rw [same]; rfl, List.not_mem_nil⟩
      · rename_i other
        obtain ⟨⟨before', _⟩, split, same⟩ := Option.map_eq_some_iff.1 split
        cases same
        obtain ⟨rfl, free⟩ := ih split
        exact ⟨rfl, List.not_mem_cons_of_ne_of_not_mem (Ne.symm other) free⟩
  · rintro ⟨rfl, free⟩
    exact splitAtFirst?_append free after

theorem splitAtFirst?_eq_none {mark : Char} {cs : List Char} :
    splitAtFirst? mark cs = none ↔ mark ∉ cs := by
  constructor
  · intro none mem
    obtain ⟨before, after, rfl, free⟩ := List.eq_append_cons_of_mem mem
    rw [splitAtFirst?_append free] at none
    cases none
  · intro free
    cases split : splitAtFirst? mark cs with
    | none => rfl
    | some parts =>
      obtain ⟨rfl, _⟩ := splitAtFirst?_eq_some.1 split
      exact absurd (List.mem_append_right _ List.mem_cons_self) free

end Text

namespace ColumnRef

open Text

theorem notMem_of_blank {cs : List Char} (blank : Blank cs) : '.' ∉ cs :=
  fun mem => absurd (blank _ mem) (by decide)

theorem parse_of_notMem {cs : List Char} (free : '.' ∉ cs) :
    parse (String.ofList cs) = bare (trim (String.ofList cs)) := by
  rw [parse, String.toList_ofList, splitAtFirst?_eq_none.2 free]

theorem parse_append {before : List Char} (free : '.' ∉ before) (after : List Char) :
    parse (String.ofList (before ++ '.' :: after)) =
      qualified (trim (String.ofList before)) (trim (String.ofList after)) := by
  rw [parse, String.toList_ofList, splitAtFirst?_append free]

theorem parse_blanks {before cs after : List Char} (blank : Blank before) (blank' : Blank after) :
    parse (String.ofList (before ++ cs ++ after)) = parse (String.ofList cs) := by
  by_cases point : '.' ∈ cs
  · obtain ⟨left, right, rfl, free⟩ := List.eq_append_cons_of_mem point
    have free' : '.' ∉ before ++ left := fun mem =>
      (List.mem_append.1 mem).elim (notMem_of_blank blank) free
    have regroup : before ++ (left ++ '.' :: right) ++ after =
        (before ++ left) ++ '.' :: (right ++ after) := by simp
    have left_eq : trim (String.ofList (before ++ left ++ [])) = trim (String.ofList left) :=
      trim_append blank blank_nil
    have right_eq : trim (String.ofList ([] ++ right ++ after)) = trim (String.ofList right) :=
      trim_append blank_nil blank'
    rw [List.append_nil] at left_eq
    rw [regroup, parse_append free', parse_append free, left_eq]
    exact congrArg _ right_eq
  · have free : '.' ∉ before ++ cs ++ after := by
      simp [point, notMem_of_blank blank, notMem_of_blank blank']
    rw [parse_of_notMem free, parse_of_notMem point, trim_append blank blank']

theorem parse_trim (text : String) : parse (trim text) = parse text := by
  obtain ⟨before, after, blank, blank', same⟩ := exists_trim text
  have blanks : parse (String.ofList (before ++ (trim text).toList ++ after)) =
      parse (String.ofList (trim text).toList) := parse_blanks blank blank'
  rw [← same, String.ofList_toList, String.ofList_toList] at blanks
  exact blanks.symm

theorem of_parse (text : String) : visible (parse text).text.toList = visible text.toList ∧
    parse (parse text).text = parse text := by
  cases split : splitAtFirst? '.' text.toList with
  | none =>
    have read : parse text = bare (trim text) := by rw [parse, split]
    rw [read]
    exact ⟨visible_trim text, (parse_trim text).trans read⟩
  | some parts =>
    obtain ⟨before, after⟩ := parts
    obtain ⟨same, free⟩ := splitAtFirst?_eq_some.1 split
    have read : parse text = qualified (trim (String.ofList before)) (trim (String.ofList after)) :=
      by rw [parse, split]
    rw [read]
    constructor
    · have point : (".".toList : List Char) = ['.'] := rfl
      rw [same, ← List.singleton_append, visible_append, visible_append]
      simp only [ColumnRef.text, qualified, String.toList_append, visible_append, visible_trim,
        String.toList_ofList, point, List.append_assoc]
    · exact parse_text_qualified (fun mem => free (by simpa using mem_of_mem_trim mem))
        ⟨trim_trim _, trim_trim _⟩

theorem of_parse_text_qualified {aliasName column : String}
    (back : parse (qualified aliasName column).text = qualified aliasName column) :
    '.' ∉ aliasName.toList ∧ trim aliasName = aliasName ∧ trim column = column := by
  have chars : (qualified aliasName column).text.toList =
      aliasName.toList ++ '.' :: column.toList := by simp [text, qualified]
  have point : '.' ∈ (qualified aliasName column).text.toList := by simp [chars]
  obtain ⟨before, after, same, free⟩ := List.eq_append_cons_of_mem point
  rw [← String.ofList_toList (s := (qualified aliasName column).text), same,
    parse_append free] at back
  injection back with first second
  injection first with first
  have free' : '.' ∉ aliasName.toList := fun mem => by
    rw [← first] at mem
    exact free (by simpa using mem_of_mem_trim mem)
  have split := splitAtFirst?_append free' column.toList
  rw [← chars, same, splitAtFirst?_append free] at split
  obtain ⟨rfl, rfl⟩ := Prod.mk.inj (Option.some.inj split)
  rw [String.ofList_toList] at first second
  exact ⟨free', first, second⟩

end ColumnRef

end TablePlan
