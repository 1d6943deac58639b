import TablePlan.Proofs.Calendar.Text
import TablePlan.Proofs.Condition.Scanning

/-!
Conditions written as text. The conditions that have a text of their own, the tokens of this text,
and that scanning it finds these tokens.
-/

namespace TablePlan

open Condition Condition.Token

def IsName (s : String) : Prop :=
  isIdentifier s.toList = true ∧ isKeyword s = false

instance (s : String) : Decidable (IsName s) := inferInstanceAs (Decidable (_ ∧ _))

def EndsOperand (cs : List Char) : Prop :=
  ∀ c ∈ cs.head?, c ∈ [' ', ')']

variable {rest : List Char} {ts : List Token}

theorem EndsOperand.word (ends : EndsOperand rest) :
    ∀ c ∈ rest.head?, c ∈ [' ', '(', ')', '.'] := by
  have marks : ∀ c ∈ [' ', ')'], c ∈ [' ', '(', ')', '.'] :=
    List.forall_iff_forall_mem.1 (by decide)
  exact fun c head => marks c (ends c head)

theorem endsOperand_blank : EndsOperand (' ' :: rest) := by
  simp [EndsOperand]

theorem endsOperand_close : EndsOperand (')' :: rest) := by
  simp [EndsOperand]

namespace ColumnRef

def Expressible : ColumnRef → Prop
  | ⟨some aliasName, column⟩ => IsName aliasName ∧ IsName column
  | ⟨none, column⟩ => IsName column

instance : DecidablePred Expressible
  | ⟨some _, _⟩ => inferInstanceAs (Decidable (_ ∧ _))
  | ⟨none, column⟩ => inferInstanceAs (Decidable (IsName column))

def tokens : ColumnRef → List Token
  | ⟨some aliasName, column⟩ => [.word aliasName none, .symbol ".", .word column none]
  | ⟨none, column⟩ => [.word column none]

theorem scans {c : ColumnRef} (expressible : c.Expressible) (ends : EndsOperand rest)
    (tail : Scans rest ts) : Scans (c.text.toList ++ rest) (c.tokens ++ ts) := by
  obtain ⟨_ | aliasName, column⟩ := c
  · exact tail.word expressible.1 ends.word
  · obtain ⟨first, identifier, _⟩ := expressible
    have noDigit : ∀ d ∈ (column.toList ++ rest).head?, d.isDigit = false := by
      cases chars : column.toList with
      | nil => simp [chars, isIdentifier] at identifier
      | cons c cs =>
        rw [chars, isIdentifier, Bool.and_eq_true] at identifier
        simpa using (startsWord_of_startsPlainName identifier.1).2.2.1
    have name := tail.word identifier ends.word
    simpa [text, tokens] using (name.point noDigit).word first.1 (by simp)

end ColumnRef

namespace AggregateCall

def Expressible : AggregateCall → Prop
  | ⟨_, some column⟩ => column.Expressible
  | ⟨function, none⟩ => function = .count

instance : DecidablePred Expressible
  | ⟨_, some column⟩ => inferInstanceAs (Decidable column.Expressible)
  | ⟨function, none⟩ => inferInstanceAs (Decidable (function = .count))

def argumentTokens (call : AggregateCall) : List Token :=
  match call.argument with
  | some column => column.tokens
  | none => [.symbol "*"]

def tokens (call : AggregateCall) : List Token :=
  .word call.function.name none :: .symbol "(" :: (call.argumentTokens ++ [.symbol ")"])

theorem scans {call : AggregateCall} (expressible : call.Expressible) (tail : Scans rest ts) :
    Scans (call.label.toList ++ rest) (call.tokens ++ ts) := by
  have closed : Scans (')' :: rest) (.symbol ")" :: ts) :=
    tail.sign rfl (by decide) le_rfl (by simp)
  have named : isIdentifier call.function.name.toList = true := by
    cases call.function <;> decide
  obtain ⟨function, _ | column⟩ := call
  · have rows : Scans ('*' :: ')' :: rest) (.symbol "*" :: .symbol ")" :: ts) :=
      closed.sign rfl (by decide) le_rfl (by simp)
    have opened : Scans ('(' :: '*' :: ')' :: rest)
        (.symbol "(" :: .symbol "*" :: .symbol ")" :: ts) :=
      rows.sign rfl (by decide) le_rfl (by simp)
    simpa [label, tokens, argumentTokens] using opened.word named (by simp)
  · have argument : Scans (column.text.toList ++ ')' :: rest)
        (column.tokens ++ .symbol ")" :: ts) :=
      ColumnRef.scans expressible endsOperand_close closed
    have opened : Scans ('(' :: (column.text.toList ++ ')' :: rest))
        (.symbol "(" :: (column.tokens ++ .symbol ")" :: ts)) :=
      argument.sign rfl (by decide) le_rfl (by simp)
    simpa [label, tokens, argumentTokens] using opened.word named (by simp)

end AggregateCall

namespace Literal

/-- A literal that its text tells apart: a text is no date, a date has four digits for the year and
a number is finite. -/
def Expressible : Literal → Prop
  | .text value => Calendar.Date.ofFixed? value = none
  | .number value => value.isFinite = true
  | .date value => 0 ≤ value.year ∧ value.year ≤ 9999
  | .bool _ | .null => True

instance : DecidablePred Expressible
  | .text value => inferInstanceAs (Decidable (Calendar.Date.ofFixed? value = none))
  | .number value => inferInstanceAs (Decidable (value.isFinite = true))
  | .date _ => inferInstanceAs (Decidable (_ ∧ _))
  | .bool _ | .null => .isTrue trivial

theorem quoted_of_notMem {s : String} (noQuote : '\'' ∉ s.toList) :
    quoted s = "'" ++ s ++ "'" := by
  have same : (s.toList.flatMap fun c => if c = '\'' then ['\'', '\''] else [c]) = s.toList := by
    generalize s.toList = cs at noQuote ⊢
    induction cs with
    | nil => rfl
    | cons c cs ih =>
      rw [List.mem_cons, not_or] at noQuote
      rw [List.flatMap_cons, ih noQuote.2, if_neg (Ne.symm noQuote.1)]
      rfl
  rw [quoted, same, String.ofList_toList]

theorem toText_date {d : Calendar.Date} (four : 0 ≤ d.year ∧ d.year ≤ 9999) :
    (Literal.date d).toText = quoted d.text := by
  obtain ⟨year, month, day, chars, years, months, days⟩ := d.exists_padded four
  refine (quoted_of_notMem fun mem => ?_).symm
  have noQuote {cs : List Char} (digits : ∀ c ∈ cs, c.isDigit = true) : '\'' ∉ cs := fun mem =>
    absurd (digits _ mem) (by decide)
  rw [chars] at mem
  simp [noQuote years.digits, noQuote months.digits, noQuote days.digits] at mem

def numberTokens (value : Float) : List Token :=
  let (negative, digits) := Decimal.signedText value
  (if negative then [.symbol "-"] else []) ++ [.number digits false]

theorem exists_numberTokens (value : Float) : ∃ digits,
    numberTokens value = [.number digits false] ∨
      numberTokens value = [.symbol "-", .number digits false] := by
  unfold numberTokens
  obtain ⟨_ | _, digits⟩ := Decimal.signedText value
  · exact ⟨digits, .inl rfl⟩
  · exact ⟨digits, .inr rfl⟩

def tokens : Literal → List Token
  | .text value => [.string .plain value]
  | .number value => numberTokens value
  | .date value => [.string .plain value.text]
  | .bool value => [.word (toString value) none]
  | .null => [.word "NULL" none]

theorem scans_signed (negative : Bool) (d : Decimal.Digits) (ends : EndsOperand rest)
    (tail : Scans rest ts) : Scans ((if negative then ['-'] else []) ++ d.chars ++ rest)
      ((if negative then [.symbol "-"] else []) ++ [.number (String.ofList d.chars) false] ++
        ts) := by
  have number := tail.number d ends
  cases negative with
  | false => exact number
  | true =>
    obtain ⟨c, cs, start, digit⟩ := d.exists_chars
    have minus : symbolOf ('-' :: (d.chars ++ rest)) = (.symbol "-", d.chars ++ rest) := by
      rw [start]
      exact symbolOf_minus digit
    have noComment : (d.chars ++ rest).head? ≠ some '-' := by
      rw [start]
      rintro same
      rw [Option.some.inj same] at digit
      cases digit
    exact number.sign minus (by decide) le_rfl fun _ => noComment

theorem scans_number {value : Float} (finite : value.isFinite = true) (ends : EndsOperand rest)
    (tail : Scans rest ts) :
    Scans ((Decimal.Layout.plain.text value).toList ++ rest) (numberTokens value ++ ts) := by
  obtain ⟨negative, d, _, parts, chars, _⟩ := Decimal.exists_signedText finite
  rw [chars, numberTokens, parts]
  exact scans_signed negative d ends tail

theorem scans {l : Literal} (expressible : l.Expressible) (ends : EndsOperand rest)
    (tail : Scans rest ts) : Scans (l.toText.toList ++ rest) (l.tokens ++ ts) := by
  have noQuote : rest.head? ≠ some '\'' := fun head => by
    have := ends _ head
    simp at this
  cases l with
  | text value => exact tail.quoted value noQuote
  | number value => exact scans_number expressible ends tail
  | date value =>
    rw [toText_date expressible]
    exact tail.quoted value.text noQuote
  | bool value =>
    have named : isIdentifier (toString value).toList = true := by
      cases value <;> decide
    exact tail.word named ends.word
  | null => exact tail.word (by decide) ends.word

end Literal

namespace Operand

def Expressible : Operand → Prop
  | .column ref => ref.Expressible
  | .literal value => value.Expressible
  | .aggregate call => call.Expressible

instance : DecidablePred Expressible
  | .column ref => inferInstanceAs (Decidable ref.Expressible)
  | .literal value => inferInstanceAs (Decidable value.Expressible)
  | .aggregate call => inferInstanceAs (Decidable call.Expressible)

def tokens : Operand → List Token
  | .column ref => ref.tokens
  | .literal value => value.tokens
  | .aggregate call => call.tokens

theorem scans {o : Operand} (expressible : o.Expressible) (ends : EndsOperand rest)
    (tail : Scans rest ts) : Scans (o.text.toList ++ rest) (o.tokens ++ ts) := by
  cases o with
  | column ref => exact ColumnRef.scans expressible ends tail
  | literal value => exact Literal.scans expressible ends tail
  | aggregate call => exact AggregateCall.scans expressible tail

end Operand

def Comparison.token (op : Comparison) : Token :=
  .symbol (match op with
    | .notEq => "<>"
    | op => op.symbol)

theorem Comparison.scans (op : Comparison) (tail : Scans rest ts) :
    Scans (op.symbol.toList ++ ' ' :: rest) (op.token :: ts) := by
  obtain ⟨c, cs, chars, sign, noMinus, read⟩ : ∃ c cs, op.symbol.toList = c :: cs ∧
      c ∈ ['(', ')', '*', '-', '=', '!', '<', '>'] ∧ c ≠ '-' ∧
      symbolOf (c :: (cs ++ ' ' :: rest)) = (op.token, ' ' :: rest) := by
    cases op
    · exact ⟨'=', ['='], rfl, by decide, by decide, rfl⟩
    · exact ⟨'!', ['='], rfl, by decide, by decide, rfl⟩
    · exact ⟨'<', [], rfl, by decide, by decide, rfl⟩
    · exact ⟨'<', ['='], rfl, by decide, by decide, rfl⟩
    · exact ⟨'>', [], rfl, by decide, by decide, rfl⟩
    · exact ⟨'>', ['='], rfl, by decide, by decide, rfl⟩
  rw [chars]
  exact tail.blank.sign read sign (length_le_append cs _) fun same => absurd same noMinus

namespace Predicate

theorem inductionOnMembers {motive : Predicate → Prop}
    (and : ∀ items, (∀ p ∈ items, motive p) → motive (.and items))
    (or : ∀ items, (∀ p ∈ items, motive p) → motive (.or items))
    (not : ∀ inner, motive inner → motive (.not inner))
    (compare : ∀ left op right, motive (.compare left op right))
    (isNull : ∀ operand negated, motive (.isNull operand negated)) (p : Predicate) : motive p :=
  @Predicate.rec motive (fun ps => ∀ p ∈ ps, motive p) and or not compare isNull
    (fun _ mem => absurd mem List.not_mem_nil)
    (fun _ _ first rest => List.forall_mem_cons.2 ⟨first, rest⟩) p

mutual

/-- A condition that its text tells apart: each connective has two members or more. -/
def Expressible : Predicate → Prop
  | .and items => 2 ≤ items.length ∧ AllExpressible items
  | .or items => 2 ≤ items.length ∧ AllExpressible items
  | .not inner => inner.Expressible
  | .compare left _ right => left.Expressible ∧ right.Expressible
  | .isNull operand _ => operand.Expressible

def AllExpressible : List Predicate → Prop
  | [] => True
  | p :: ps => p.Expressible ∧ AllExpressible ps

end

mutual

def decidableExpressible : (p : Predicate) → Decidable p.Expressible
  | .and items | .or items =>
    have := decidableAllExpressible items
    inferInstanceAs (Decidable (2 ≤ items.length ∧ AllExpressible items))
  | .not inner => decidableExpressible inner
  | .compare left _ right =>
    inferInstanceAs (Decidable (left.Expressible ∧ right.Expressible))
  | .isNull operand _ => inferInstanceAs (Decidable operand.Expressible)

def decidableAllExpressible : (ps : List Predicate) → Decidable (AllExpressible ps)
  | [] => .isTrue trivial
  | p :: ps =>
    have := decidableExpressible p
    have := decidableAllExpressible ps
    inferInstanceAs (Decidable (p.Expressible ∧ AllExpressible ps))

end

instance : DecidablePred Expressible := decidableExpressible

theorem AllExpressible.of_mem {ps : List Predicate} (all : AllExpressible ps) :
    ∀ p ∈ ps, p.Expressible := by
  induction ps with
  | nil => simp
  | cons p ps ih => exact List.forall_mem_cons.2 ⟨all.1, ih all.2⟩

mutual

def tokens : Predicate → List Token
  | .and items => .symbol "(" :: ([.word "AND" none].intercalate (tokensOfAll items) ++
      [.symbol ")"])
  | .or items => .symbol "(" :: ([.word "OR" none].intercalate (tokensOfAll items) ++
      [.symbol ")"])
  | .not inner => .word "NOT" none :: inner.tokens
  | .compare left op right => left.tokens ++ op.token :: right.tokens
  | .isNull operand negated => operand.tokens ++ .word "IS" none ::
      ((if negated then [.word "NOT" none] else []) ++ [.word "NULL" none])

def tokensOfAll : List Predicate → List (List Token)
  | [] => []
  | p :: ps => p.tokens :: tokensOfAll ps

end

theorem scans_group {word mark : String} (named : isIdentifier word.toList = true)
    (spaced : mark.toList = ' ' :: (word.toList ++ [' '])) {ps : List Predicate} (some : ps ≠ [])
    (members : ∀ p ∈ ps, ∀ {rest ts}, EndsOperand rest → Scans rest ts →
      Scans (p.text.toList ++ rest) (p.tokens ++ ts)) (tail : Scans rest ts) :
    Scans (("(" ++ Text.joined mark (textOfAll ps) ++ ")").toList ++ rest)
      ((.symbol "(" :: ([.word word none].intercalate (tokensOfAll ps) ++ [.symbol ")"])) ++
        ts) := by
  have closed : Scans (')' :: rest) (.symbol ")" :: ts) :=
    tail.sign rfl (by decide) le_rfl (by simp)
  have list : Scans (mark.toList.intercalate ((textOfAll ps).map String.toList) ++ ')' :: rest)
      ([.word word none].intercalate (tokensOfAll ps) ++ .symbol ")" :: ts) := by
    induction ps with
    | nil => exact absurd rfl some
    | cons p ps ih =>
      have first : ∀ {rest ts}, EndsOperand rest → Scans rest ts →
          Scans (p.text.toList ++ rest) (p.tokens ++ ts) := members p List.mem_cons_self
      cases ps with
      | nil => simpa [textOfAll, tokensOfAll] using first endsOperand_close closed
      | cons q ps =>
        have others := ih (List.cons_ne_nil _ _) fun p mem =>
          members p (List.mem_cons_of_mem _ mem)
        have between := (others.blank.word named (by simp)).blank
        simpa [textOfAll, tokensOfAll, spaced] using first endsOperand_blank between
  have opened := list.sign (c := '(') rfl (by decide) le_rfl (by simp)
  simpa [Text.joined] using opened

theorem scans {p : Predicate} (expressible : p.Expressible) (ends : EndsOperand rest)
    (tail : Scans rest ts) : Scans (p.text.toList ++ rest) (p.tokens ++ ts) := by
  induction p using inductionOnMembers generalizing rest ts with
  | and items ih =>
    have named : isIdentifier "AND".toList = true := by decide
    exact scans_group named rfl (List.ne_nil_of_length_pos (by have := expressible.1; omega))
      (fun p mem => ih p mem (expressible.2.of_mem p mem)) tail
  | or items ih =>
    have named : isIdentifier "OR".toList = true := by decide
    exact scans_group named rfl (List.ne_nil_of_length_pos (by have := expressible.1; omega))
      (fun p mem => ih p mem (expressible.2.of_mem p mem)) tail
  | not inner ih =>
    have named : isIdentifier "NOT".toList = true := by decide
    simpa [text, tokens] using (ih expressible ends tail).blank.word named (by simp)
  | compare left op right =>
    have after := right.scans expressible.2 ends tail
    have both := left.scans expressible.1 endsOperand_blank (op.scans after).blank
    simpa [text, tokens] using both
  | isNull operand negated =>
    have is : isIdentifier "IS".toList = true := by decide
    have not : isIdentifier "NOT".toList = true := by decide
    have null : isIdentifier "NULL".toList = true := by decide
    have last := (tail.word null ends.word).blank
    cases negated with
    | false =>
      have test := (last.word is (by simp)).blank
      simpa [text, tokens] using operand.scans expressible endsOperand_blank test
    | true =>
      have test := ((last.word not (by simp)).blank.word is (by simp)).blank
      simpa [text, tokens] using operand.scans expressible endsOperand_blank test

end Predicate

end TablePlan
