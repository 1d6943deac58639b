import TablePlan.Proofs.Condition.Parsing
import TablePlan.Proofs.Success
import TablePlan.Condition.Meaning

/-!
The tokens of expressions that are columns. Only a name, with its alias or without, stands for a
column, and parentheses may stand around it; every other form is an operand of another kind.
-/

namespace TablePlan.Condition

def Token.name? : Token → Option String
  | .word value _ => some value
  | .string .plain value => some value
  | _ => none

/-- The tokens that write a column, in any number of parentheses. A lone word in double quotes is a
text and no column. -/
inductive WritesColumn : List Token → ColumnRef → Prop
  | bare (value : String) {quote : Option Char} (noText : quote ≠ some '"') :
    WritesColumn [.word value quote] (.bare value)
  | qualified (aliasName : String) (quote : Option Char) {part : Token} {column : String}
    (named : part.name? = some column) :
    WritesColumn [.word aliasName quote, .symbol ".", part] (.qualified aliasName column)
  | nested {tokens : List Token} {ref : ColumnRef} (inner : WritesColumn tokens ref) :
    WritesColumn (.symbol "(" :: tokens ++ [.symbol ")"]) ref

def StartsWithColumn (ts rest : List Token) (ref : ColumnRef) : Prop :=
  ∃ used, ts = used ++ rest ∧ WritesColumn used ref

namespace Expr

/-- Whether an expression is a name, possibly in parentheses. -/
def isName : Expr → Bool
  | .name _ _ => true
  | .nested inner => inner.isName
  | _ => false

theorem isName_of_operand {clause : String} {ref : ColumnRef} : ∀ {e : Expr},
    e.operand clause = .ok (.column ref) → e.isName = true
  | .name _ _, _ => rfl
  | .nested inner, ok => isName_of_operand (e := inner) ok
  | .value _, ok | .call _ _ _, ok | .callOver _ _ _, ok => by
    obtain ⟨_, _, same⟩ := Success.bind_eq_ok.1 ok
    cases same
  | .signed _ _, ok => by
    obtain ⟨operand, _, signed⟩ := Success.bind_eq_ok.1 ok
    unfold Literal.withSign at signed
    split at signed <;> cases signed
  | .not _, ok | .binary _ _ _, ok | .isNull _ _, ok | .subquery _, ok | .special _, ok => by
    cases ok

end Expr

namespace TokenParser

variable {α β : Type} {ts rest : List Token}

section Inversion

theorem bind_eq_ok {p : TokenParser α} {f : α → TokenParser β} {b : β} :
    (p >>= f) ts = .ok (b, rest) ↔ ∃ a left, p ts = .ok (a, left) ∧ f a left = .ok (b, rest) := by
  constructor
  · intro ok
    cases first : p ts with
    | error failure =>
      rw [bind_of_error first] at ok
      cases ok
    | ok found =>
      rw [bind_of_ok first] at ok
      exact ⟨found.1, found.2, rfl, ok⟩
  · rintro ⟨a, left, first, ok⟩
    rw [bind_of_ok first, ok]

theorem symbol?_eq_ok {text : String} {found : Bool} (ok : symbol? text ts = .ok (found, rest)) :
    if found then ts = .symbol text :: rest else ts = rest := by
  by_cases here : ts.head? = some (.symbol text)
  · obtain ⟨after, rfl⟩ := List.head?_eq_some_iff.1 here
    rw [symbol?_self] at ok
    cases ok
    rfl
  · rw [symbol?_of_head here] at ok
    cases ok
    rfl

theorem symbol_eq_ok {text : String} {u : Unit} (ok : symbol text ts = .ok (u, rest)) :
    ts = .symbol text :: rest := by
  obtain ⟨found, left, read, ok⟩ := bind_eq_ok.1 ok
  have shape := symbol?_eq_ok read
  cases found
  · cases ok
  · cases ok
    exact shape

theorem keywords?_eq_false {words : List String} (ok : keywords? words ts = .ok (false, rest)) :
    ts = rest := by
  obtain ⟨_, _, read, ok⟩ := bind_eq_ok.1 ok
  cases read
  split at ok <;> cases ok
  rfl

theorem attempt_eq_ok {p : TokenParser α} {found : Option α}
    (ok : attempt p ts = .ok (found, rest)) :
    match found with
    | some a => p ts = .ok (a, rest)
    | none => ts = rest := by
  unfold attempt at ok
  split at ok
  · rename_i read
    cases ok
    exact read
  · cases ok
    rfl
  · cases ok

theorem ident_eq_ok {name : Ident} (ok : ident ts = .ok (name, rest)) :
    ∃ t : Token, ts = t :: rest ∧ t.name? = some name.value := by
  obtain ⟨t, left, read, ok⟩ := bind_eq_ok.1 ok
  cases ts with
  | nil => cases read
  | cons first after =>
    cases read
    cases t with
    | word value quote =>
      cases ok
      exact ⟨_, rfl, rfl⟩
    | string form value =>
      cases form with
      | plain =>
        cases ok
        exact ⟨_, rfl, rfl⟩
      | _ => cases ok
    | _ => cases ok

theorem furtherParts_eq_ok {bound : Nat} {parts : List Ident}
    (ok : furtherParts (bound + 1) ts = .ok (parts, rest)) : (parts = [] ∧ ts = rest) ∨
      ∃ part others, ∃ t : Token, ∃ after, parts = part :: others ∧
        ts = .symbol "." :: t :: after ∧ t.name? = some part.value ∧
        furtherParts bound after = .ok (others, rest) := by
  obtain ⟨point, left, read, ok⟩ := bind_eq_ok.1 ok
  have shape := symbol?_eq_ok read
  cases point
  · cases ok
    exact .inl ⟨rfl, shape⟩
  · obtain ⟨part, after, read, ok⟩ := bind_eq_ok.1 ok
    obtain ⟨others, last, more, ok⟩ := bind_eq_ok.1 ok
    cases ok
    obtain ⟨t, rfl, named⟩ := ident_eq_ok read
    exact .inr ⟨part, others, t, after, rfl, shape, named, more⟩

theorem furtherParts_eq_nil {bound : Nat} (ok : furtherParts bound ts = .ok ([], rest)) :
    ts = rest := by
  cases bound with
  | zero =>
    cases ok
    rfl
  | succ bound =>
    obtain ⟨_, same⟩ | ⟨_, _, _, _, some, _⟩ := furtherParts_eq_ok ok
    · exact same
    · cases some

theorem furtherParts_eq_singleton {bound : Nat} {name : Ident}
    (ok : furtherParts bound ts = .ok ([name], rest)) :
    ∃ t : Token, ts = .symbol "." :: t :: rest ∧ t.name? = some name.value := by
  cases bound with
  | zero => cases ok
  | succ bound =>
    obtain ⟨none, _⟩ | ⟨_, _, t, _, same, shape, named, more⟩ := furtherParts_eq_ok ok
    · cases none
    · cases same
      cases furtherParts_eq_nil more
      exact ⟨t, shape, named⟩

theorem separatedUpTo_ne_nil {p : TokenParser α} {bound : Nat} {as : List α}
    (ok : separatedUpTo p bound ts = .ok (as, rest)) : as ≠ [] := by
  cases bound with
  | zero =>
    obtain ⟨_, _, _, ok⟩ := bind_eq_ok.1 ok
    cases ok
    exact List.cons_ne_nil _ _
  | succ bound =>
    obtain ⟨_, _, _, ok⟩ := bind_eq_ok.1 ok
    obtain ⟨comma, _, _, ok⟩ := bind_eq_ok.1 ok
    cases comma
    · cases ok
      exact List.cons_ne_nil _ _
    · obtain ⟨_, _, _, ok⟩ := bind_eq_ok.1 ok
      cases ok
      exact List.cons_ne_nil _ _

theorem separated_eq_singleton {p : TokenParser α} {a : α}
    (ok : separated p ts = .ok ([a], rest)) : p ts = .ok (a, rest) := by
  obtain ⟨_, _, read, ok⟩ := bind_eq_ok.1 ok
  cases read
  generalize ts.length = bound at ok
  cases bound with
  | zero =>
    obtain ⟨_, _, first, ok⟩ := bind_eq_ok.1 ok
    cases ok
    exact first
  | succ bound =>
    obtain ⟨_, left, first, ok⟩ := bind_eq_ok.1 ok
    obtain ⟨comma, _, read, ok⟩ := bind_eq_ok.1 ok
    have shape := symbol?_eq_ok read
    cases comma
    · cases ok
      cases shape
      exact first
    · obtain ⟨_, _, more, ok⟩ := bind_eq_ok.1 ok
      cases ok
      exact absurd rfl (separatedUpTo_ne_nil more)

end Inversion

section Yields

def Yields (good : α → Prop) (p : TokenParser α) : Prop :=
  ∀ ts a rest, p ts = .ok (a, rest) → good a

variable {good : α → Prop} {good' : β → Prop}

theorem yields_pure {a : α} (ok : good a) : Yields good (pure a) := by
  intro ts b rest read
  cases read
  exact ok

theorem yields_fail : Yields good (fail : TokenParser α) := by
  intro ts b rest read
  cases read

theorem yields_bind {p : TokenParser α} {f : α → TokenParser β} (next : ∀ a, Yields good' (f a)) :
    Yields good' (p >>= f) := by
  intro ts b rest read
  obtain ⟨a, left, _, read⟩ := bind_eq_ok.1 read
  exact next a left b rest read

theorem Yields.bind {p : TokenParser α} {f : α → TokenParser β} (first : Yields good p)
    (next : ∀ a, good a → Yields good' (f a)) : Yields good' (p >>= f) := by
  intro ts b rest read
  obtain ⟨a, left, found, read⟩ := bind_eq_ok.1 read
  exact next a (first ts a left found) left b rest read

theorem yields_ite {c : Prop} [Decidable c] {p q : TokenParser α} (yes : Yields good p)
    (no : Yields good q) : Yields good (if c then p else q) := by
  split
  · exact yes
  · exact no

theorem yields_join {c : Prop} [Decidable c] {p q : TokenParser α} {f : α → TokenParser β}
    (next : ∀ a, Yields good' (f a)) : Yields good' (if c then p >>= f else q >>= f) :=
  yields_ite (yields_bind next) (yields_bind next)

end Yields

variable (sub : ExprParser)

abbrev ReadsNoName (p : TokenParser Expr) : Prop :=
  Yields (fun e => e.isName = false) p

theorem ReadsNoName.false {p : TokenParser Expr} {e : Expr} (none : ReadsNoName p)
    (ok : p ts = .ok (e, rest)) (name : e.isName = true) : False :=
  Bool.false_ne_true ((none ts e rest ok).symm.trans name)

theorem readsNoName_call (name : List Ident) : ReadsNoName (call sub name) := by
  unfold call
  refine yields_bind fun _ => yields_bind fun _ => yields_bind fun _ => yields_ite ?_ ?_
  · refine yields_bind fun _ => yields_bind fun _ => yields_bind fun _ => ?_
    refine yields_join fun _ => yields_bind fun _ => ?_
    split <;> exact yields_pure rfl
  · refine yields_bind fun _ => yields_bind fun _ => yields_join fun _ => yields_bind fun _ => ?_
    split <;> exact yields_pure rfl

theorem readsNoName_bareCall (name : Ident) : ReadsNoName (bareCall sub name) := by
  refine yields_bind fun _ => yields_ite ?_ (yields_pure rfl)
  exact yields_bind fun _ => yields_pure rfl

theorem readsNoName_negation : ReadsNoName (negation sub) := by
  refine yields_bind fun _ => yields_ite ?_ ?_
  · exact yields_bind fun _ => yields_pure rfl
  · exact yields_bind fun _ => yields_pure rfl

theorem readsNoName_position (name : Ident) : ReadsNoName (position sub name) := by
  refine yields_bind fun found => ?_
  cases found with
  | some text => exact yields_pure rfl
  | none => exact readsNoName_call sub [name]

theorem yields_form (name : Ident) (w : String) :
    Yields (fun found => ∀ e ∈ found, e.isName = false) (form sub name w) := by
  have other {e : Expr} (noName : e.isName = false) :
      Yields (fun found => ∀ e ∈ found, e.isName = false) (pure (some e)) :=
    yields_pure fun _ same => Option.some.inj same ▸ noName
  have missing : Yields (fun found : Option Expr => ∀ e ∈ found, e.isName = false) (pure none) :=
    yields_pure nofun
  unfold form
  split
  -- truth values, `NULL` and the calls that have no parentheses
  case h_1 | h_2 | h_3 | h_5 | h_6 | h_7 | h_8 => exact other rfl
  -- `NOT`
  case h_4 => exact (readsNoName_negation sub).bind fun _ => other
  -- the times, with a list after them or without
  case h_9 | h_10 | h_11 | h_12 | h_13 => exact (readsNoName_bareCall sub name).bind fun _ => other
  -- `POSITION`
  case h_24 =>
    refine yields_bind fun _ => ?_
    split
    · exact (readsNoName_position sub name).bind fun _ => other
    · exact missing
  -- `ARRAY`
  case h_28 =>
    refine yields_bind fun _ => yields_ite (yields_bind fun _ => other rfl) ?_
    refine yields_bind fun _ => yields_ite ?_ missing
    exact yields_bind fun _ => yields_bind fun _ => other rfl
  -- `MAP`
  case h_31 => exact yields_bind fun _ => yields_ite (yields_bind fun _ => other rfl) missing
  -- no keyword
  case h_32 => exact missing
  -- the forms that are kept by their text
  all_goals exact yields_bind fun _ => other rfl

theorem readsNoName_rightSide (precedence : Nat) (left : Expr) (op : Operator) :
    ReadsNoName (rightSide sub precedence left op) := by
  refine yields_bind fun found => ?_
  cases found with
  | none => exact yields_bind fun _ => yields_pure rfl
  | some w =>
    refine yields_bind fun _ => yields_bind fun _ => yields_bind fun _ => ?_
    cases op with
    | compare _ =>
      refine yields_ite (yields_bind fun _ => yields_bind fun _ => ?_) ?_
      · split <;> exact yields_bind fun _ => yields_pure rfl
      · exact yields_bind fun _ => yields_bind fun _ => yields_bind fun _ => yields_pure rfl
    | _ =>
      refine yields_ite (yields_bind fun _ => yields_bind fun _ => ?_) ?_
      · split <;> exact yields_bind fun _ => yields_fail
      · exact yields_bind fun _ => yields_bind fun _ => yields_bind fun _ => yields_fail

theorem readsNoName_isTest (left : Expr) : ReadsNoName (isTest sub left) := by
  refine yields_bind fun _ => yields_ite (yields_pure rfl) ?_
  refine yields_bind fun _ => yields_ite (yields_pure rfl) ?_
  refine yields_bind fun _ => yields_join fun _ => yields_bind fun found => ?_
  cases found with
  | some w => exact yields_pure rfl
  | none => exact yields_bind fun _ => yields_bind fun _ => yields_pure rfl

theorem readsNoName_wordTest (left : Expr) : ReadsNoName (wordTest sub left) := by
  refine yields_bind fun _ => yields_join fun _ => yields_bind fun found => ?_
  split
  case h_7 => exact yields_fail
  all_goals exact yields_bind fun _ => yields_pure rfl

theorem readsNoName_operated (p : Nat) (left : Expr) : ReadsNoName (operated sub p left) := by
  have right := readsNoName_rightSide sub p left
  unfold operated
  refine yields_bind fun ts => ?_
  split
  case h_1 | h_2 => exact yields_bind fun _ => yields_bind fun _ => yields_pure rfl
  case h_3 =>
    refine yields_bind fun _ => ?_
    split
    · exact right _
    · exact yields_fail
  case h_4 =>
    split
    -- `AND`, `OR` and `XOR`
    case h_1 | h_2 | h_3 => exact yields_bind fun _ => right _
    -- `OPERATOR`
    case h_4 => exact yields_bind fun _ => yields_bind fun _ => right _
    -- `IS`
    case h_5 => exact yields_bind fun _ => readsNoName_isTest sub left
    -- `AT TIME ZONE`
    case h_6 => exact yields_bind fun _ => yields_bind fun _ => yields_bind fun _ => yields_pure rfl
    case h_7 => exact yields_fail
    case h_8 => exact readsNoName_wordTest sub left
  case h_5 => exact yields_fail

theorem readsNoName_continued (precedence bound : Nat) {left : Expr} (other : left.isName = false) :
    ReadsNoName (continued sub precedence bound left) := by
  induction bound generalizing left with
  | zero => exact yields_pure other
  | succ bound ih =>
    refine yields_bind fun _ => yields_ite (yields_pure other) ?_
    exact (readsNoName_operated sub _ left).bind fun _ => ih

variable {sub} {e left : Expr}

theorem continued_eq_ok {precedence bound : Nat}
    (ok : continued sub precedence bound left ts = .ok (e, rest)) (name : e.isName = true) :
    e = left ∧ rest = ts := by
  cases bound with
  | zero =>
    cases ok
    exact ⟨rfl, rfl⟩
  | succ bound =>
    obtain ⟨_, _, read, ok⟩ := bind_eq_ok.1 ok
    cases read
    split at ok
    · cases ok
      exact ⟨rfl, rfl⟩
    · have none := (readsNoName_operated sub (nextPrecedence ts) left).bind fun _ =>
        readsNoName_continued sub precedence bound
      exact (ReadsNoName.false none ok name).elim

theorem collated_eq_ok (ok : collated left ts = .ok (e, rest)) (name : e.isName = true) :
    e = left ∧ rest = ts := by
  obtain ⟨found, _, read, ok⟩ := bind_eq_ok.1 ok
  cases found
  · cases keywords?_eq_false read
    cases ok
    exact ⟨rfl, rfl⟩
  · obtain ⟨_, _, _, ok⟩ := bind_eq_ok.1 ok
    cases ok
    cases name

variable {clause : String} {ref : ColumnRef}

theorem operand_lone {first : Ident} (column : (Expr.name first []).operand clause =
    .ok (.column ref)) : first.quote ≠ some '"' ∧ ref = .bare first.value := by
  unfold Expr.operand at column
  split at column <;> cases column
  rename_i noText
  exact ⟨noText, rfl⟩

theorem nameOrCall_eq_ok {first : Ident} (ok : nameOrCall sub first ts = .ok (e, rest))
    (column : e.operand clause = .ok (.column ref)) :
    StartsWithColumn (.word first.value first.quote :: ts) rest ref := by
  have name := Expr.isName_of_operand column
  have lone (same : (Expr.name first [], ts) = (e, rest)) :
      StartsWithColumn (.word first.value first.quote :: ts) rest ref := by
    cases same
    obtain ⟨noText, rfl⟩ := operand_lone column
    exact ⟨_, rfl, .bare _ noText⟩
  obtain ⟨_, _, read, ok⟩ := bind_eq_ok.1 ok
  cases read
  split at ok
  -- a call
  · exact ((readsNoName_call sub _).false ok name).elim
  -- a name with points in it, or a call of such
  · obtain ⟨_, _, read, ok⟩ := bind_eq_ok.1 ok
    cases read
    obtain ⟨parts, left, further, ok⟩ := bind_eq_ok.1 ok
    obtain ⟨_, _, read, ok⟩ := bind_eq_ok.1 ok
    cases read
    split at ok
    · exact ((readsNoName_call sub _).false ok name).elim
    · cases ok
      cases parts with
      | nil =>
        cases furtherParts_eq_nil further
        exact lone rfl
      | cons part parts =>
        cases parts with
        | nil =>
          obtain ⟨t, shape, named⟩ := furtherParts_eq_singleton further
          rw [shape]
          cases column
          exact ⟨_, rfl, .qualified first.value first.quote named⟩
        | cons _ _ => cases column
  -- a word before a string
  · split at ok
    · cases ok
      cases name
    · cases ok
      exact lone rfl
  · cases ok
    exact lone rfl

theorem wordOperand_eq_ok {first : Ident} {word : String}
    (ok : wordOperand sub first word ts = .ok (e, rest))
    (column : e.operand clause = .ok (.column ref)) :
    StartsWithColumn (.word first.value first.quote :: ts) rest ref := by
  have name := Expr.isName_of_operand column
  unfold wordOperand at ok
  split at ok
  · rename_i found
    obtain ⟨rfl, rfl⟩ := collated_eq_ok ok name
    have other := yields_form sub first word _ _ _ found e rfl
    rw [name] at other
    cases other
  · split at ok
    · rename_i read
      obtain ⟨rfl, rfl⟩ := collated_eq_ok ok name
      exact nameOrCall_eq_ok read column
    · cases ok
  · split at ok
    · cases ok
    · split at ok
      · rename_i read
        cases ok
        exact nameOrCall_eq_ok read column
      · cases ok

theorem readsNoName_typedLiteral : ReadsNoName typedLiteral := by
  refine yields_bind fun _ => yields_ite ?_ yields_fail
  exact yields_bind fun _ => yields_pure rfl

def ReadsColumns (clause : String) (p : TokenParser Expr) : Prop :=
  ∀ ⦃ts rest e ref⦄, p ts = .ok (e, rest) → e.operand clause = .ok (.column ref) →
    StartsWithColumn ts rest ref

theorem closed_eq_ok {q : TokenParser Expr} (ok : (do
      symbol ")"
      if ← symbol? "." then q else return left : TokenParser Expr) ts = .ok (e, rest))
    (name : e.isName = true) (noName : ReadsNoName q) : e = left ∧ ts = .symbol ")" :: rest := by
  obtain ⟨_, _, closed, ok⟩ := bind_eq_ok.1 ok
  obtain ⟨point, _, read, ok⟩ := bind_eq_ok.1 ok
  have shape := symbol?_eq_ok read
  cases point
  · cases ok
    cases shape
    exact ⟨rfl, symbol_eq_ok closed⟩
  · exact (noName.false ok name).elim

theorem grouped_eq_ok (inside : ReadsColumns clause (sub 0))
    (ok : grouped sub ts = .ok (e, rest)) (column : e.operand clause = .ok (.column ref)) :
    StartsWithColumn (.symbol "(" :: ts) rest ref := by
  have name := Expr.isName_of_operand column
  obtain ⟨_, _, read, ok⟩ := bind_eq_ok.1 ok
  cases read
  split at ok
  · obtain ⟨_, _, _, ok⟩ := bind_eq_ok.1 ok
    obtain ⟨rfl, _⟩ := closed_eq_ok ok name (yields_bind fun _ => by
      split <;> first | exact yields_pure rfl | exact yields_fail)
    cases name
  · obtain ⟨_, left, listed, ok⟩ := bind_eq_ok.1 ok
    split at ok
    · obtain ⟨rfl, closed⟩ := closed_eq_ok ok name (yields_bind fun _ => by
        split <;> first | exact yields_pure rfl | exact yields_fail)
      obtain ⟨used, rfl, writes⟩ := inside (separated_eq_singleton listed) column
      refine ⟨.symbol "(" :: used ++ [.symbol ")"], ?_, .nested writes⟩
      rw [closed, List.cons_append, List.cons_append, List.append_assoc, List.singleton_append]
    · obtain ⟨rfl, _⟩ := closed_eq_ok ok name (yields_bind fun _ => by
        split <;> first | exact yields_pure rfl | exact yields_fail)
      cases name

theorem symbolOperand_eq_ok (inside : ReadsColumns clause (sub 0)) {s : String}
    (ok : symbolOperand sub s ts = .ok (e, rest))
    (column : e.operand clause = .ok (.column ref)) :
    StartsWithColumn (.symbol s :: ts) rest ref := by
  have name := Expr.isName_of_operand column
  unfold symbolOperand at ok
  split at ok
  · obtain ⟨_, _, read, ok⟩ := bind_eq_ok.1 ok
    obtain ⟨rfl, rfl⟩ := collated_eq_ok ok name
    exact grouped_eq_ok inside read column
  case h_6 => cases ok
  all_goals
    obtain ⟨_, _, _, ok⟩ := bind_eq_ok.1 ok
    obtain ⟨rfl, _⟩ := collated_eq_ok ok name
    cases name

theorem readsColumns_operandUpTo (inside : ReadsColumns clause (sub 0)) (bound : Nat) :
    ReadsColumns clause (operandUpTo sub bound) := by
  intro ts rest e ref ok column
  have name := Expr.isName_of_operand column
  have noValue {ts : List Token} (ok : (do collated (.value (← literal))) ts = .ok (e, rest)) :
      False := by
    obtain ⟨_, _, _, ok⟩ := bind_eq_ok.1 ok
    obtain ⟨rfl, _⟩ := collated_eq_ok ok name
    cases name
  cases bound with
  | zero => cases ok
  | succ bound =>
    obtain ⟨_, _, read, ok⟩ := bind_eq_ok.1 ok
    cases read
    cases ts with
    | nil => cases ok
    | cons token after =>
      dsimp only at ok
      split at ok
      -- a span of time
      · obtain ⟨_, _, _, ok⟩ := bind_eq_ok.1 ok
        obtain ⟨_, _, _, ok⟩ := bind_eq_ok.1 ok
        cases ok
        cases name
      · obtain ⟨typed, left, read, ok⟩ := bind_eq_ok.1 ok
        have shape := attempt_eq_ok read
        cases typed with
        | some typed =>
          cases ok
          exact (readsNoName_typedLiteral.false shape name).elim
        | none =>
          cases shape
          cases token with
          | word value quote => exact wordOperand_eq_ok ok column
          | symbol s =>
            dsimp only at ok
            split at ok
            · exact (noValue ok).elim
            · exact symbolOperand_eq_ok inside ok column
          | _ => exact (noValue ok).elim

/-- An expression is a column only by the tokens that write one. Columns nest in parentheses alone,
so the induction is on how deeply expressions may nest. -/
theorem readsColumns_expression (clause : String) : ∀ depth precedence,
    ReadsColumns clause (expression depth precedence)
  | 0, _ => nofun
  | depth + 1, precedence => by
    intro ts rest e ref ok column
    obtain ⟨_, _, read, ok⟩ := bind_eq_ok.1 ok
    cases read
    obtain ⟨left, after, read, ok⟩ := bind_eq_ok.1 ok
    obtain ⟨rfl, rfl⟩ := continued_eq_ok ok (Expr.isName_of_operand column)
    obtain ⟨_, _, same, read⟩ := bind_eq_ok.1 read
    cases same
    exact readsColumns_operandUpTo (readsColumns_expression clause depth 0) _ read column

end TokenParser

theorem writesColumn_of_expression {text clause : String} {e : Expr} {ref : ColumnRef}
    (parsed : expression text = .ok e) (column : e.operand clause = .ok (.column ref)) :
    ∃ tokens, Token.scan? text = some tokens ∧ WritesColumn tokens ref := by
  unfold expression at parsed
  split at parsed
  · rename_i read
    cases parsed
    unfold Expr.parse at read
    split at read
    · cases read
    · rename_i tokens scanned
      split at read
      · rename_i read'
        cases read
        obtain ⟨used, rfl, writes⟩ := TokenParser.readsColumns_expression clause _ _ read' column
        rw [List.append_nil] at scanned
        exact ⟨used, scanned, writes⟩
      · cases read
      · cases read
  · cases parsed

end TablePlan.Condition
