import TablePlan.Proofs.Condition.ColumnTokens
import TablePlan.Proofs.Condition.Spelling

/-!
Texts that are columns as select keys, and the references that the same texts are elsewhere. Both
readings agree on texts of plain names; a select key may also have quotes, comments and parentheses,
which are no part of its column.
-/

namespace TablePlan

open Text

namespace Condition

open Token

theorem Token.chars_of_name? {t : Token} {name : String} (named : t.name? = some name) :
    t.chars = name.toList ∧ t.inColumn = true := by
  unfold Token.name? at named
  split at named <;> cases named <;> exact ⟨rfl, rfl⟩

namespace WritesColumn

variable {tokens : List Token} {ref : ColumnRef}

theorem inColumn (writes : WritesColumn tokens ref) : ∀ t ∈ tokens, t.inColumn = true := by
  induction writes with
  | bare value => exact List.forall_mem_cons.2 ⟨rfl, nofun⟩
  | qualified aliasName quote named =>
    refine List.forall_mem_cons.2 ⟨rfl, List.forall_mem_cons.2 ⟨rfl, ?_⟩⟩
    exact List.forall_mem_cons.2 ⟨(chars_of_name? named).2, nofun⟩
  | nested _ ih =>
    refine List.forall_mem_cons.2 ⟨rfl, List.forall_mem_append.2 ⟨ih, ?_⟩⟩
    exact List.forall_mem_cons.2 ⟨rfl, nofun⟩

theorem size_le (writes : WritesColumn tokens ref) : size ref.text.toList ≤ sizes tokens ∧
    (.symbol "(" ∈ tokens → size ref.text.toList < sizes tokens) := by
  induction writes with
  | bare value =>
    rw [sizes_cons]
    exact ⟨Nat.le_add_right _ _, by simp⟩
  | @qualified aliasName quote part column named =>
    have text : (ColumnRef.qualified aliasName column).text.toList =
        aliasName.toList ++ ".".toList ++ column.toList := by
      simp [ColumnRef.text, ColumnRef.qualified]
    have noParenthesis : part ≠ .symbol "(" := by
      rintro rfl
      cases named
    rw [sizes_cons, sizes_cons, sizes_cons, (chars_of_name? named).1, text, size_append,
      size_append]
    exact ⟨(Nat.add_assoc _ _ _).le, by simp [noParenthesis.symm]⟩
  | @nested tokens ref _ ih =>
    have opening : 0 < size (Token.symbol "(").chars := by decide
    have more : size ref.text.toList < sizes (.symbol "(" :: tokens ++ [.symbol ")"]) := by
      rw [List.cons_append, sizes_cons, sizes_append]
      omega
    exact ⟨more.le, fun _ => more⟩

theorem parse_eq {cs : List Char} (writes : WritesColumn tokens ref) (spells : Spells tokens cs)
    (noParenthesis : .symbol "(" ∉ tokens) (back : ColumnRef.parse ref.text = ref) :
    ColumnRef.parse (String.ofList cs) = ref := by
  cases writes with
  | bare value =>
    obtain _ | ⟨blank, bare, tail⟩ := spells
    obtain ⟨blank'⟩ := tail
    rw [ColumnRef.parse_blanks blank blank', chars, String.ofList_toList]
    exact back
  | @qualified aliasName quote part column named =>
    obtain ⟨free, trimmed, trimmed'⟩ := ColumnRef.of_parse_text_qualified back
    obtain _ | @⟨_, _, b₁, _, blank₁, _, spells⟩ := spells
    obtain _ | @⟨_, _, b₂, _, blank₂, _, spells⟩ := spells
    obtain _ | @⟨_, _, b₃, b₄, blank₃, _, ⟨blank₄⟩⟩ := spells
    have regroup : b₁ ++ (Token.word aliasName quote).chars ++
        (b₂ ++ (Token.symbol ".").chars ++ (b₃ ++ part.chars ++ b₄)) =
          (b₁ ++ aliasName.toList ++ b₂) ++ '.' :: (b₃ ++ column.toList ++ b₄) := by
      rw [(chars_of_name? named).1]
      simp [chars]
    have free' : '.' ∉ b₁ ++ aliasName.toList ++ b₂ := by
      simp [free, ColumnRef.notMem_of_blank blank₁, ColumnRef.notMem_of_blank blank₂]
    rw [regroup, ColumnRef.parse_append free', trim_append blank₁ blank₂,
      trim_append blank₃ blank₄, String.ofList_toList, String.ofList_toList, trimmed, trimmed']
  | nested inner => exact absurd List.mem_cons_self noParenthesis

end WritesColumn

/-- Whether a text has words, points and blanks alone. The signs may stand in words, too, but a word
that starts with one may go on with a point or a blank. -/
def isPlainKey (text : String) : Bool :=
  text.toList.all fun c => isBlank c || c == '.' || (continuesWord c && c != '#' && c != '@')

theorem free_of_isPlainKey {text : String} (plain : isPlainKey text = true) {c : Char}
    (mem : c ∈ text.toList) : c ∉ '(' :: '#' :: '@' :: marks := by
  have none : ∀ c ∈ '(' :: '#' :: '@' :: marks,
      (isBlank c || c == '.' || (continuesWord c && c != '#' && c != '@')) = false :=
    List.forall_iff_forall_mem.1 (by decide +kernel)
  intro listed
  exact Bool.false_ne_true ((none c listed).symm.trans (List.all_eq_true.1 plain c mem))

theorem word_of_isPlainKey {text : String} (plain : isPlainKey text = true) {value : String}
    (bare : Bare (.word value none)) (inside : ∀ c ∈ value.toList, c ∈ text.toList) :
    '.' ∉ value.toList ∧ trim value = value := by
  have word : ∀ c ∈ value.toList, continuesWord c = true := by
    cases bare with
    | word shape =>
      obtain word | sign | sign := shape
      · exact word
      · exact absurd (by simp) (free_of_isPlainKey plain (inside _ sign))
      · exact absurd (by simp) (free_of_isPlainKey plain (inside _ sign))
  have visible : ∀ c ∈ value.toList, isBlank c = false := by
    intro c mem
    cases blank : isBlank c with
    | false => rfl
    | true => exact (word c mem).symm.trans (continuesWord_of_isBlank blank)
  refine ⟨fun mem => absurd (word _ mem) (by decide +kernel), trim_eq_self ?_ ?_⟩
  · exact fun c head => visible c (List.mem_of_head? head)
  · exact fun c last => visible c (List.mem_of_getLast? last)

theorem WritesColumn.parse_text {tokens : List Token} {ref : ColumnRef} {text : String}
    {cs : List Char} (writes : WritesColumn tokens ref) (spells : Spells tokens cs)
    (plain : isPlainKey text = true) (inside : ∀ c ∈ cs, c ∈ text.toList) :
    .symbol "(" ∉ tokens ∧ ColumnRef.parse ref.text = ref := by
  have noParenthesis : .symbol "(" ∉ tokens := fun mem =>
    free_of_isPlainKey plain (inside '(' (spells.mem_of_mem mem List.mem_cons_self))
      List.mem_cons_self
  have word {value : String} (mem : .word value none ∈ tokens) (bare : Bare (.word value none)) :
      '.' ∉ value.toList ∧ trim value = value :=
    word_of_isPlainKey plain bare fun c char =>
      inside c (spells.mem_of_mem (t := .word value none) mem char)
  refine ⟨noParenthesis, ?_⟩
  cases writes with
  | bare value =>
    obtain _ | ⟨_, bare, _⟩ := spells
    cases bare with
    | word shape =>
      obtain ⟨free, trimmed⟩ := word List.mem_cons_self (.word shape)
      rw [ColumnRef.bare, ColumnRef.text, ← String.ofList_toList (s := value),
        ColumnRef.parse_of_notMem free, String.ofList_toList, trimmed]
      rfl
  | @qualified aliasName quote part column named =>
    obtain _ | ⟨_, bare, spells'⟩ := spells
    obtain _ | ⟨_, _, spells'⟩ := spells'
    obtain _ | ⟨_, bare', _⟩ := spells'
    cases bare with
    | word shape =>
      cases bare' with
      | symbol s => cases named
      | word shape' =>
        cases named
        obtain ⟨free, trimmed⟩ := word List.mem_cons_self (.word shape)
        obtain ⟨_, trimmed'⟩ := word (by simp) (.word shape')
        exact ColumnRef.parse_text_qualified free ⟨trimmed, trimmed'⟩
  | nested inner => exact absurd List.mem_cons_self noParenthesis

end Condition

open Condition Token

variable {key : String} {ref : ColumnRef}

theorem ColumnSource.of_read_column (read : ColumnSource.read key = .ok (.column ref)) :
    ColumnRef.parse key = ref ∨
      ∃ tokens, Token.scan? (trim key) = some tokens ∧ WritesColumn tokens ref := by
  unfold ColumnSource.read at read
  dsimp only at read
  split at read
  · injection read with read
    injection read with read
    exact .inl ((ColumnRef.parse_trim key).symm.trans read)
  · obtain ⟨e, parsed, read⟩ := Success.bind_eq_ok.1 read
    obtain ⟨operand, column, read⟩ := Success.bind_eq_ok.1 read
    split at read <;> cases read
    exact .inr (writesColumn_of_expression parsed column)

theorem ColumnSource.parse_eq_iff (read : ColumnSource.read key = .ok (.column ref)) :
    ColumnRef.parse key = ref ↔
      visible key.toList = visible ref.text.toList ∧ ColumnRef.parse ref.text = ref := by
  constructor
  · rintro rfl
    obtain ⟨same, back⟩ := ColumnRef.of_parse key
    exact ⟨same.symm, back⟩
  · rintro ⟨same, back⟩
    obtain agree | ⟨tokens, scanned, writes⟩ := of_read_column read
    · exact agree
    · obtain ⟨atLeast, more⟩ := writes.size_le
      have total : size (trim key).toList = size ref.text.toList := by
        rw [size, visible_trim, same]
        rfl
      obtain spells | ⟨fewer, _⟩ := spells_of_scanUpTo scanned writes.inColumn
      · have noParenthesis : .symbol "(" ∉ tokens := fun mem =>
          (more mem).ne (total.symm.trans spells.size_eq)
        have agree := writes.parse_eq spells noParenthesis back
        rwa [String.ofList_toList, ColumnRef.parse_trim] at agree
      · exact absurd total (atLeast.trans_lt fewer).ne'

theorem ColumnSource.parse_of_isPlainKey (read : ColumnSource.read key = .ok (.column ref))
    (plain : isPlainKey key = true) : ColumnRef.parse key = ref := by
  obtain agree | ⟨tokens, scanned, writes⟩ := of_read_column read
  · exact agree
  · obtain spells | ⟨_, c, mem, mark⟩ := spells_of_scanUpTo scanned writes.inColumn
    · obtain ⟨noParenthesis, back⟩ := writes.parse_text spells plain fun c => mem_of_mem_trim
      have agree := writes.parse_eq spells noParenthesis back
      rwa [String.ofList_toList, ColumnRef.parse_trim] at agree
    · exact absurd (by simp [mark]) (free_of_isPlainKey plain (mem_of_mem_trim mem))

end TablePlan
