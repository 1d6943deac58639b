import TablePlan.Condition.Scanner
import TablePlan.Proofs.ColumnRef
import Mathlib.Data.List.Basic

/-!
Texts scanned into the tokens of columns, seen from the tokens. Such a text is its words and symbols
with blanks between them, or else it has quotes or comments, and then more characters than its
tokens have.
-/

namespace TablePlan.Condition

open Text

namespace Token

/-- The characters that a token is about: its value, without the quotes around it. -/
def chars : Token → List Char
  | .word value _ => value.toList
  | .string .plain value => value.toList
  | .symbol s => s.toList
  | _ => []

def inColumn : Token → Bool
  | .word _ _ | .string .plain _ => true
  | .symbol s => [".", "(", ")"].contains s
  | _ => false

def marks : List Char := ['\'', '"', '`', '-', '/']

/-- A token that is written by its own characters. A word that starts with a sign may have any
character after it, and other words have the characters of words. -/
inductive Bare : Token → Prop
  | word {value : String} (plain : (∀ c ∈ value.toList, continuesWord c = true) ∨
      '#' ∈ value.toList ∨ '@' ∈ value.toList) : Bare (.word value none)
  | symbol (s : String) : Bare (.symbol s)

def size (cs : List Char) : Nat :=
  (visible cs).length

theorem size_append (cs cs' : List Char) : size (cs ++ cs') = size cs + size cs' := by
  rw [size, visible_append, List.length_append]
  rfl

theorem size_cons_of_mark {c : Char} {cs : List Char} (mark : c ∈ marks) :
    size (c :: cs) = size cs + 1 := by
  have visible : ∀ c ∈ marks, isBlank c = false := List.forall_iff_forall_mem.1 (by decide)
  simp [size, Text.visible, visible c mark]

theorem size_cons_le (c : Char) (cs : List Char) : size cs ≤ size (c :: cs) := by
  rw [← List.singleton_append, size_append]
  exact Nat.le_add_left _ _

theorem continuesWord_of_startsWord {c : Char} (starts : startsWord c = true) :
    continuesWord c = true := by
  simp only [startsWord, Bool.or_eq_true] at starts
  obtain letter | underscore := starts
  · simp [continuesWord, letter]
  · simp [continuesWord, underscore]

/-- How a token in front stands in a text: by its own characters, or among marks. -/
def Stands (t : Token) (cs rest : List Char) : Prop :=
  (t.Bare ∧ cs = t.chars ++ rest) ∨
    (size t.chars + size rest < size cs ∧ ∃ c ∈ cs, c ∈ marks)

theorem size_upToQuote? {quote : Char} (mark : quote ∈ marks) {cs body rest : List Char}
    (read : upToQuote? quote cs = some (body, rest)) : size body + size rest < size cs := by
  fun_induction upToQuote? quote cs generalizing body with
  | case1 => cases read
  | case2 =>
    cases read
    rw [size_cons_of_mark mark]
    exact Nat.lt_succ_self _
  | case3 => cases read
  | case4 c d cs other ih =>
    obtain ⟨⟨body', _⟩, read, same⟩ := Option.map_eq_some_iff.1 read
    cases same
    have fewer := ih read
    rw [← List.singleton_append, size_append, ← List.singleton_append (l := d :: cs),
      size_append [c] (d :: cs)]
    omega
  | case5 c cs same ih =>
    obtain rfl := not_not.1 same
    obtain ⟨⟨body', _⟩, read, same⟩ := Option.map_eq_some_iff.1 read
    cases same
    have fewer := ih read
    rw [size_cons_of_mark mark, size_cons_of_mark mark, size_cons_of_mark mark]
    omega
  | case6 c d cs same =>
    obtain rfl := not_not.1 same
    cases read
    rw [size_cons_of_mark mark]
    exact Nat.lt_succ_of_le (Nat.zero_add _).le

theorem stands_wordFrom {start rest : List Char} {cs : List Char}
    (sign : (∀ c ∈ start, continuesWord c = true) ∨ '#' ∈ start ∨ '@' ∈ start)
    (shape : cs = start ++ rest) :
    Stands (wordFrom start rest).1 cs (wordFrom start rest).2 := by
  refine .inl ⟨.word ?_, ?_⟩
  · rw [String.toList_ofList]
    obtain plain | sign | sign := sign
    · refine .inl fun c mem => ?_
      obtain mem | mem := List.mem_append.1 mem
      · exact plain c mem
      · exact List.mem_takeWhile_imp mem
    · exact .inr (.inl (List.mem_append_left _ sign))
    · exact .inr (.inr (List.mem_append_left _ sign))
  · rw [shape, wordFrom, chars, String.toList_ofList, List.append_assoc,
      List.takeWhile_append_dropWhile]

theorem stands_symbolOf {cs rest : List Char} {t : Token} (read : symbolOf cs = (t, rest))
    (inColumn : t.inColumn = true) : Stands t cs rest := by
  unfold symbolOf at read
  split at read
  · rename_i written known found
    cases read
    have own : ∀ s ∈ symbols, (Token.symbol s.2).inColumn = true → s.1 = s.2 := by decide +kernel
    have same : written = known := own _ (List.mem_of_find?_eq_some found) inColumn
    have front := List.find?_some found
    obtain ⟨rest, rfl⟩ := List.isPrefixOf_iff_prefix.1 front
    refine .inl ⟨.symbol known, ?_⟩
    rw [← String.length_toList, List.drop_left, chars, same]
  · cases read
    refine .inl ⟨.symbol _, ?_⟩
    rw [chars, String.toList_ofList, List.take_append_drop]

theorem stands_numeric {cs rest : List Char} {t : Token} (read : numeric cs = (t, rest))
    (inColumn : t.inColumn = true) : Stands t cs rest := by
  unfold numeric at read
  dsimp only at read
  split at read
  · cases read
    cases inColumn
  · obtain ⟨point, same⟩ | ⟨_, read⟩ := ite_eq_iff.1 read
    · cases same
      have noDigit : cs.takeWhile Char.isDigit = [] := by
        cases whole : cs.takeWhile Char.isDigit with
        | nil => rfl
        | cons d whole' =>
          rw [whole, List.cons_append] at point
          have digit : d.isDigit = true :=
            List.mem_takeWhile_imp (whole ▸ List.mem_cons_self : d ∈ cs.takeWhile Char.isDigit)
          rw [(List.cons.inj point).1] at digit
          cases digit
      rw [noDigit, List.length_nil, List.drop_zero, List.nil_append] at point
      split at point
      · exact .inl ⟨.symbol ".", rfl⟩
      · cases point
    · repeat' split at read
      all_goals
        cases read
        cases inColumn

theorem stands_plainNext {c : Char} {cs rest : List Char} {t : Token}
    (read : next?.plainNext c cs = (t, rest)) (inColumn : t.inColumn = true) :
    Stands t (c :: cs) rest := by
  unfold next?.plainNext at read
  split at read
  · exact stands_numeric read inColumn
  · split at read
    · rename_i starts
      cases read
      have continues := continuesWord_of_startsWord starts
      exact stands_wordFrom (.inl fun d mem => List.mem_singleton.1 mem ▸ continues) rfl
    · exact stands_symbolOf read inColumn

theorem string_of_stringToken {form : StringForm} {found : Option (List Char × List Char)}
    {t : Token} {rest : List Char} (read : stringToken form found = some (t, rest)) :
    ∃ value, t = .string form value := by
  obtain ⟨_, _, same⟩ := Option.map_eq_some_iff.1 read
  cases same
  exact ⟨_, rfl⟩

theorem inColumn_stringToken {form : StringForm} {found : Option (List Char × List Char)}
    {t : Token} {rest : List Char} (read : stringToken form found = some (t, rest))
    (inColumn : t.inColumn = true) : form = .plain := by
  obtain ⟨value, rfl⟩ := string_of_stringToken read
  cases form <;> first | rfl | cases inColumn

theorem inColumn_raw? {quote : Char} {cs rest : List Char} {t : Token}
    (read : raw? quote cs = some (t, rest)) : t.inColumn = false := by
  unfold raw? at read
  split at read
  · obtain ⟨value, rfl⟩ := string_of_stringToken read
    rfl
  · split at read
    · cases read
      rfl
    · obtain ⟨value, rfl⟩ := string_of_stringToken read
      rfl

theorem inColumn_dollar? {cs rest : List Char} {t : Token} (read : dollar? cs = some (t, rest)) :
    t.inColumn = false := by
  unfold dollar? at read
  split at read
  · obtain ⟨value, rfl⟩ := string_of_stringToken read
    rfl
  · dsimp only at read
    split at read
    · obtain ⟨value, rfl⟩ := string_of_stringToken read
      rfl
    · cases read
      rfl

theorem stands_quoted {quote : Char} (mark : quote ∈ marks) {cs body rest : List Char} {t : Token}
    (read : upToQuote? quote cs = some (body, rest)) (chars : t.chars = body) :
    Stands t (quote :: cs) rest := by
  refine .inr ⟨?_, quote, List.mem_cons_self, mark⟩
  rw [chars, size_cons_of_mark mark]
  exact Nat.lt_succ_of_lt (size_upToQuote? mark read)

theorem stands_next? {cs rest : List Char} {t : Token} (read : next? cs = some (t, rest))
    (inColumn : t.inColumn = true) : Stands t cs rest := by
  have noString {form : StringForm} {found : Option (List Char × List Char)}
      (read : stringToken form found = some (t, rest)) (other : form ≠ .plain) : False :=
    other (inColumn_stringToken read inColumn)
  unfold next? at read
  split at read
  case h_1 => cases read
  case h_2 =>
    obtain ⟨⟨body, _⟩, read, same⟩ := Option.map_eq_some_iff.1 read
    cases same
    exact stands_quoted (by decide) read (String.toList_ofList)
  case h_3 | h_4 =>
    obtain ⟨⟨body, _⟩, read, same⟩ := Option.map_eq_some_iff.1 read
    cases same
    exact stands_quoted (by decide) read (String.toList_ofList)
  case h_5 => exact absurd inColumn (by rw [inColumn_dollar? read]; decide)
  case h_6 =>
    cases read
    cases inColumn
  case h_7 | h_8 | h_9 =>
    split at read
    · exact stands_symbolOf (Option.some.inj read) inColumn
    · cases read
      exact stands_wordFrom (.inr (by simp)) rfl
  case h_10 =>
    split at read
    · exact (noString read nofun).elim
    · exact stands_plainNext (Option.some.inj read) inColumn
  case h_11 | h_12 =>
    repeat' split at read
    all_goals first
      | exact (noString read nofun).elim
      | exact absurd inColumn (by rw [inColumn_raw? read]; decide)
      | exact stands_plainNext (Option.some.inj read) inColumn
  case h_13 => exact stands_plainNext (Option.some.inj read) inColumn

inductive Spells : List Token → List Char → Prop
  | nil {cs : List Char} (blank : Blank cs) : Spells [] cs
  | cons {t : Token} {ts : List Token} {before cs : List Char} (blank : Blank before)
    (bare : t.Bare) (tail : Spells ts cs) : Spells (t :: ts) (before ++ t.chars ++ cs)

theorem Spells.blank {ts : List Token} {c : Char} {cs : List Char} (blank : isBlank c = true)
    (spells : Spells ts cs) : Spells ts (c :: cs) := by
  have more {before : List Char} (rest : Blank before) : Blank (c :: before) :=
    List.forall_mem_cons.2 ⟨blank, rest⟩
  cases spells with
  | nil rest => exact .nil (more rest)
  | cons rest bare tail => exact .cons (more rest) bare tail

def sizes (ts : List Token) : Nat :=
  size (ts.flatMap chars)

theorem sizes_cons (t : Token) (ts : List Token) : sizes (t :: ts) = size t.chars + sizes ts := by
  rw [sizes, List.flatMap_cons, size_append]
  rfl

theorem sizes_append (ts ts' : List Token) : sizes (ts ++ ts') = sizes ts + sizes ts' := by
  rw [sizes, List.flatMap_append, size_append]
  rfl

theorem Spells.size_eq {ts : List Token} {cs : List Char} (spells : Spells ts cs) :
    size cs = sizes ts := by
  induction spells with
  | nil blank =>
    rw [size, visible_of_blank blank]
    rfl
  | cons blank _ _ ih =>
    rw [size_append, size_append, size, visible_of_blank blank, ih, sizes_cons, List.length_nil,
      Nat.zero_add]

theorem size_of_suffix {cs rest : List Char} (suffix : rest <:+ cs) : size rest ≤ size cs := by
  obtain ⟨before, rfl⟩ := suffix
  rw [size_append]
  exact Nat.le_add_left _ _

theorem afterComment?_suffix {depth : Nat} {last : Char} {cs rest : List Char}
    (read : afterComment? depth last cs = some rest) : rest <:+ cs := by
  fun_induction afterComment? depth last cs with
  | case1 => cases read
  | case3 =>
    cases read
    exact List.suffix_cons _ _
  | case2 _ _ _ _ _ ih | case4 _ _ _ _ _ _ _ ih | case5 _ _ _ _ _ _ ih =>
    exact (ih read).trans (List.suffix_cons _ _)

theorem spells_of_scanUpTo {bound : Nat} {cs : List Char} {ts : List Token}
    (scanned : scanUpTo bound cs = some ts) (inColumn : ∀ t ∈ ts, t.inColumn = true) :
    Spells ts cs ∨ (sizes ts < size cs ∧ ∃ c ∈ cs, c ∈ marks) := by
  have le {ts : List Token} {cs : List Char}
      (found : Spells ts cs ∨ (sizes ts < size cs ∧ ∃ c ∈ cs, c ∈ marks)) : sizes ts ≤ size cs :=
    found.elim (fun spells => spells.size_eq.ge) fun more => more.1.le
  fun_induction scanUpTo bound cs generalizing ts with
  | case1 =>
    cases scanned
    exact .inl (.nil nofun)
  | case2 => cases scanned
  | case3 bound rest ih =>
    have line : (rest.dropWhile (· != '\n')).drop 1 <:+ '-' :: rest :=
      ((List.drop_suffix _ _).trans (List.dropWhile_suffix _)).trans (List.suffix_cons _ _)
    refine .inr ⟨?_, '-', List.mem_cons_self, by decide⟩
    rw [size_cons_of_mark (by decide)]
    exact Nat.lt_succ_of_le ((le (ih scanned inColumn)).trans (size_of_suffix line))
  | case4 bound rest ih =>
    obtain ⟨after, comment, scanned⟩ := Option.bind_eq_some_iff.1 scanned
    have inside : after <:+ '*' :: rest :=
      (afterComment?_suffix comment).trans (List.suffix_cons _ _)
    refine .inr ⟨?_, '/', List.mem_cons_self, by decide⟩
    rw [size_cons_of_mark (by decide)]
    exact Nat.lt_succ_of_le ((le (ih _ scanned inColumn)).trans (size_of_suffix inside))
  | case5 bound c rest _ _ blank ih =>
    obtain spells | ⟨more, d, mem, mark⟩ := ih scanned inColumn
    · exact .inl (spells.blank blank)
    · exact .inr ⟨more.trans_le (size_cons_le c rest), d, List.mem_cons_of_mem _ mem, mark⟩
  | case6 bound c rest _ _ _ ih =>
    obtain ⟨⟨t, left⟩, first, scanned⟩ := Option.bind_eq_some_iff.1 scanned
    obtain ⟨ts, others, same⟩ := Option.bind_eq_some_iff.1 scanned
    cases same
    obtain ⟨inFront, inColumn⟩ := List.forall_mem_cons.1 inColumn
    have tail := ih left others inColumn
    obtain ⟨bare, shape⟩ | ⟨more, marked⟩ := stands_next? first inFront
    · obtain spells | ⟨more, d, mem, mark⟩ := tail
      · rw [shape]
        exact .inl (.cons blank_nil bare spells)
      · rw [shape, size_append, sizes_cons]
        exact .inr ⟨Nat.add_lt_add_left more _, d, List.mem_append_right _ mem, mark⟩
    · refine .inr ⟨?_, marked⟩
      rw [sizes_cons]
      exact Nat.lt_of_le_of_lt (Nat.add_le_add_left (le tail) _) more

theorem Spells.mem_of_mem {ts : List Token} {cs : List Char} (spells : Spells ts cs) {t : Token}
    (mem : t ∈ ts) {c : Char} (char : c ∈ t.chars) : c ∈ cs := by
  induction spells with
  | nil => cases mem
  | cons _ _ _ ih =>
    obtain rfl | mem := List.mem_cons.1 mem
    · exact List.mem_append_left _ (List.mem_append_right _ char)
    · exact List.mem_append_right _ (ih mem)

theorem continuesWord_of_isBlank {c : Char} (blank : isBlank c = true) :
    continuesWord c = false := by
  have checked : ∀ r ∈ blankRanges, ∀ n ∈ List.range' r.1 (r.2 + 1 - r.1),
      continuesWord (Char.ofNat n) = false := by decide +kernel
  obtain ⟨r, mem, inside⟩ := List.any_eq_true.1 blank
  rw [Bool.and_eq_true, decide_eq_true_iff, decide_eq_true_iff] at inside
  have listed : c.toNat ∈ List.range' r.1 (r.2 + 1 - r.1) :=
    List.mem_range'_1.2 ⟨inside.1, by omega⟩
  have word := checked r mem _ listed
  rwa [Char.ofNat_toNat] at word

end Token

end TablePlan.Condition
