import TablePlan.Condition.Grammar.Expr

/-!
Parsers over tokens, seen from the tokens that they get. A parser of one form either goes on after
it or leaves the tokens alone; a name that is no keyword starts no form but its own.
-/

namespace TablePlan.Condition

def reservedWords : List String :=
  ["ALL", "ANY", "ARRAY", "BIGDECIMAL", "BIGINT", "BIGNUMERIC", "BINARY", "BIT", "BLOB", "BOOL",
    "BOOLEAN", "BYTEA", "BYTES", "CASE", "CAST", "CEIL", "CHAR", "CHARACTER", "CLOB", "CONVERT",
    "CURRENT_CATALOG", "CURRENT_DATE", "CURRENT_TIME", "CURRENT_TIMESTAMP", "CURRENT_USER",
    "DATE", "DATE32", "DATETIME", "DEC", "DECIMAL", "DISTINCT", "DOUBLE", "ENUM", "EXISTS",
    "EXTRACT", "FALSE", "FIXEDSTRING", "FLOAT", "FLOAT32", "FLOAT4", "FLOAT64", "FLOAT8",
    "FLOOR", "INT", "INT128", "INT16", "INT2", "INT256", "INT32", "INT4", "INT64", "INT8",
    "INTEGER", "INTERVAL", "JSON", "JSONB", "LOCALTIME", "LOCALTIMESTAMP", "LONGBLOB",
    "LONGTEXT", "LOWCARDINALITY", "MAP", "MATCH", "MEDIUMBLOB", "MEDIUMINT", "MEDIUMTEXT", "NOT",
    "NULL", "NULLABLE", "NUMERIC", "NVARCHAR", "OVERLAY", "POSITION", "REAL", "REGCLASS",
    "SAFE_CAST", "SELECT", "SESSION_USER", "SET", "SMALLINT", "SOME", "STRING", "STRUCT",
    "SUBSTRING", "TEXT", "TIME", "TIMESTAMP", "TIMESTAMPTZ", "TIMETZ", "TINYBLOB", "TINYINT",
    "TINYTEXT", "TRIGGER", "TRIM", "TRUE", "TRY_CAST", "TRY_CONVERT", "UINT128", "UINT16",
    "UINT256", "UINT32", "UINT64", "UINT8", "USER", "UUID", "VARBINARY", "VARCHAR", "WITH"]

theorem reservedWords_sublist : reservedWords.Sublist Keyword.all :=
  List.isSublist_iff_sublist.1 (by decide +kernel)

def typeWords : List String :=
  ["DOUBLE", "CHARACTER", "CHAR", "BIT", "INTERVAL", "FIXEDSTRING", "ARRAY", "NULLABLE",
    "LOWCARDINALITY"] ++ TypeName.table.map Prod.fst

def formWords : List String :=
  ["TRUE", "FALSE", "NULL", "NOT", "CURRENT_CATALOG", "CURRENT_USER", "SESSION_USER", "USER",
    "CURRENT_TIMESTAMP", "CURRENT_TIME", "CURRENT_DATE", "LOCALTIME", "LOCALTIMESTAMP", "CASE",
    "CONVERT", "TRY_CONVERT", "CAST", "TRY_CAST", "SAFE_CAST", "EXISTS", "EXTRACT", "CEIL",
    "FLOOR", "POSITION", "SUBSTRING", "OVERLAY", "TRIM", "ARRAY", "MATCH", "STRUCT", "MAP"]

def openingWords : List String :=
  ["ALL", "ANY", "SOME", "DISTINCT", "EXISTS", "SELECT", "WITH"]

theorem subset_reservedWords :
    ∀ w ∈ typeWords ++ formWords ++ openingWords, w ∈ reservedWords := by
  decide +kernel

theorem notMem_of_isKeyword {value : String} (name : isKeyword value = false) :
    Text.capitals value ∉ typeWords ∧ Text.capitals value ∉ formWords ∧
      Text.capitals value ∉ openingWords := by
  have noKeyword : Text.capitals value ∉ Keyword.all := by
    simpa [isKeyword] using name
  have none : Text.capitals value ∉ typeWords ++ formWords ++ openingWords := fun mem =>
    noKeyword (reservedWords_sublist.subset (subset_reservedWords _ mem))
  simpa [and_assoc] using none

namespace TokenParser

variable {α β : Type} {ts rest : List Token}

section Steps

theorem bind_of_ok {p : TokenParser α} {f : α → TokenParser β} {a : α} (ok : p ts = .ok (a, rest)) :
    (p >>= f) ts = f a rest := by
  change (p ts >>= fun found => f found.1 found.2) = _
  rw [ok]
  rfl

theorem bind_of_error {p : TokenParser α} {f : α → TokenParser β} {failure : Failure}
    (error : p ts = .error failure) : (p >>= f) ts = .error failure := by
  change (p ts >>= fun found => f found.1 found.2) = _
  rw [error]
  rfl

theorem get_bind (f : List Token → TokenParser β) : (get >>= f) ts = f ts ts :=
  rfl

theorem ident_word (value : String) : ident (.word value none :: ts) = .ok (⟨value, none⟩, ts) :=
  rfl

theorem symbol?_self (text : String) : symbol? text (.symbol text :: rest) = .ok (true, rest) := by
  change (if text = text then _ else _ : TokenParser Bool) _ = _
  rw [if_pos rfl]
  rfl

theorem symbol?_of_head {text : String} (other : ts.head? ≠ some (.symbol text)) :
    symbol? text ts = .ok (false, ts) := by
  cases ts with
  | nil => rfl
  | cons t ts =>
    cases t with
    | symbol s =>
      have different : s ≠ text := fun same => other (by rw [same]; rfl)
      change (if s = text then _ else _ : TokenParser Bool) _ = _
      rw [if_neg different]
      rfl
    | _ => rfl

theorem startWith_of_head {word : String} {words : List String}
    (other : ts.head?.bind Token.keyword? ≠ some word) : startWith (word :: words) ts = false := by
  cases ts with
  | nil => rfl
  | cons t ts =>
    have different : (t.keyword? == some word) = false := beq_eq_false_iff_ne.2 other
    rw [startWith, different, Bool.false_and]

theorem keywords?_of_head {word : String} {words : List String}
    (other : ts.head?.bind Token.keyword? ≠ some word) :
    keywords? (word :: words) ts = .ok (false, ts) := by
  change (if startWith (word :: words) ts then _ else _ : TokenParser Bool) _ = _
  rw [startWith_of_head other]
  rfl

theorem oneOf?_of_head {words : List String}
    (other : ∀ w ∈ words, ts.head?.bind Token.keyword? ≠ some w) :
    oneOf? words ts = .ok (none, ts) := by
  cases ts with
  | nil => rfl
  | cons t ts =>
    have nothing : (words.find? fun w => t.keyword? == some w) = none :=
      List.find?_eq_none.2 fun w mem => by simpa using other w mem
    unfold oneOf?
    rw [get_bind]
    dsimp only
    rw [nothing]
    rfl

theorem atKeyword_of_head {word : String} (other : ts.head?.bind Token.keyword? ≠ some word) :
    atKeyword word ts = .ok (false, ts) := by
  change Except.ok (startWith [word] ts, ts) = _
  rw [startWith_of_head other]

end Steps

section Reach

/-- A parser that fails only where its form does not stand, and otherwise leaves some of the tokens
that it got. -/
def Within (good : α → Prop) (p : TokenParser α) : Prop :=
  ∀ ts, match p ts with
    | .ok (a, rest) => good a ∧ rest ⊆ ts
    | .error failure => failure = .unexpected

variable {good : α → Prop} {good' : β → Prop}

theorem within_pure {a : α} (ok : good a) : Within good (pure a) :=
  fun ts => ⟨ok, List.Subset.refl ts⟩

theorem within_fail : Within good (fail : TokenParser α) :=
  fun _ => rfl

theorem Within.bind {p : TokenParser α} {f : α → TokenParser β} (first : Within good p)
    (next : ∀ a, good a → Within good' (f a)) : Within good' (p >>= f) := fun ts => by
  have one := first ts
  cases found : p ts with
  | error failure =>
    rw [found] at one
    rw [bind_of_error found]
    exact one
  | ok result =>
    obtain ⟨a, rest⟩ := result
    rw [found] at one
    obtain ⟨ok, fewer⟩ := one
    have two := next a ok rest
    rw [bind_of_ok found]
    cases after : f a rest with
    | error failure =>
      rw [after] at two
      exact two
    | ok result =>
      rw [after] at two
      exact ⟨two.1, List.Subset.trans two.2 fewer⟩

theorem within_get {f : List Token → TokenParser β} (all : ∀ ts, Within good' (f ts)) :
    Within good' (get >>= f) := fun ts => all ts ts

theorem within_next : Within (fun _ => True) next
  | [] => rfl
  | t :: ts => ⟨trivial, List.subset_cons_self t ts⟩

theorem within_symbol? (text : String) : Within (fun _ => True) (symbol? text) := fun ts => by
  cases ts with
  | nil => exact ⟨trivial, List.Subset.refl _⟩
  | cons t ts =>
    by_cases same : t = .symbol text
    · rw [same, symbol?_self]
      exact ⟨trivial, List.subset_cons_self _ _⟩
    · have other : (t :: ts).head? ≠ some (.symbol text) := fun head =>
        same (Option.some.inj head)
      rw [symbol?_of_head other]
      exact ⟨trivial, List.Subset.refl _⟩

theorem within_ident : Within (fun _ => True) ident :=
  within_next.bind fun t _ => by
    split
    · exact within_pure trivial
    · exact within_pure trivial
    · exact within_fail

theorem within_furtherParts : ∀ bound, Within (fun _ => True) (furtherParts bound)
  | 0 => within_pure trivial
  | bound + 1 => (within_symbol? ".").bind fun point _ => by
    split
    · exact within_ident.bind fun _ _ => (within_furtherParts bound).bind fun _ _ =>
        within_pure trivial
    · exact within_pure trivial

theorem within_path : Within (fun _ => True) path :=
  within_ident.bind fun _ _ => within_get fun ts => (within_furtherParts ts.length).bind
    fun _ _ => within_pure trivial

theorem within_customModifiers : ∀ bound, Within (fun _ => True) (TypeName.customModifiers bound)
  | 0 => within_fail
  | bound + 1 => within_next.bind fun t _ => by
    have more := within_customModifiers bound
    split
    · exact more.bind fun _ _ => within_pure trivial
    · exact more.bind fun _ _ => within_pure trivial
    · exact more.bind fun _ _ => within_pure trivial
    · exact more
    · exact within_pure trivial
    · exact within_fail

theorem within_custom : Within (fun type => type.known = false) TypeName.custom :=
  within_path.bind fun _ _ => (within_symbol? "(").bind fun opened _ => by
    split
    · refine within_get fun ts => (within_customModifiers ts.length).bind fun parts _ => ?_
      split
      · exact within_pure rfl
      · exact within_pure rfl
    · exact within_pure rfl

theorem lookup_of_notMem {word : String} (noType : word ∉ typeWords) :
    TypeName.table.lookup word = none := by
  rw [List.lookup_eq_none_iff]
  intro entry mem
  have different : word ≠ entry.1 := fun same => noType (by
    rw [same, typeWords]
    exact List.mem_append_right _ (List.mem_map_of_mem mem))
  simpa using different

theorem nestedType_of_word {value : String} (noType : Text.capitals value ∉ typeWords)
    (bound : Nat) (ts : List Token) :
    TypeName.nestedType (bound + 1) (.word value none :: ts) =
      (do
        let type ← TypeName.custom
        return (← TypeName.suffixed (ts.length + 1) type, false)) (.word value none :: ts) := by
  have read : next (.word value none :: ts) = .ok (.word value none, ts) := rfl
  unfold TypeName.nestedType
  rw [get_bind, bind_of_ok read]
  dsimp only [Token.keyword?, Option.getD]
  rw [lookup_of_notMem noType]
  generalize Text.capitals value = word at noType ⊢
  dsimp only
  split
  case h_10 => rfl
  all_goals exact absurd (by decide) noType

theorem suffixed_of_notMem {type : TypeName} (noBracket : Token.symbol "[" ∉ ts) (bound : Nat) :
    TypeName.suffixed bound type ts = .ok (type, ts) := by
  cases bound with
  | zero => rfl
  | succ bound =>
    have other : ts.head? ≠ some (.symbol "[") := fun head => noBracket (List.mem_of_head? head)
    unfold TypeName.suffixed
    rw [bind_of_ok (symbol?_of_head other)]
    rfl

theorem attempt_typedLiteral {t : Token} (noType : ∀ w ∈ t.keyword?, w ∉ typeWords)
    (noQuote : ∀ value quote, t ≠ .word value (some quote))
    (noBracket : Token.symbol "[" ∉ t :: ts) :
    attempt typedLiteral (t :: ts) = .ok (none, t :: ts) := by
  have failed : TypeName.parser (t :: ts) = .error .unexpected ∨
      ∃ text rest, TypeName.parser (t :: ts) = .ok (⟨text, false⟩, rest) := by
    unfold TypeName.parser
    rw [get_bind]
    cases t with
    | word value quote =>
      cases quote with
      | some quote => exact absurd rfl (noQuote value quote)
      | none =>
        have nested := nestedType_of_word (noType _ rfl) ts.length ts
        have reached := within_custom (.word value none :: ts)
        cases read : TypeName.custom (.word value none :: ts) with
        | error failure =>
          rw [read] at reached
          rw [bind_of_error read, reached] at nested
          exact .inl (bind_of_error nested)
        | ok result =>
          obtain ⟨⟨text, known⟩, rest⟩ := result
          rw [read] at reached
          obtain ⟨rfl, fewer⟩ := reached
          have plain : TypeName.suffixed (ts.length + 1) ⟨text, false⟩ rest =
              .ok (⟨text, false⟩, rest) :=
            suffixed_of_notMem (fun mem => noBracket (fewer mem)) _
          rw [bind_of_ok read, bind_of_ok plain] at nested
          exact .inr ⟨text, rest, bind_of_ok nested⟩
    | _ => exact .inl rfl
  have refused : typedLiteral (t :: ts) = .error .unexpected := by
    obtain error | ⟨text, rest, ok⟩ := failed
    · exact bind_of_error error
    · exact bind_of_ok ok
  rw [attempt, refused]

end Reach

def followers : List Token :=
  [.symbol ")", .word "AND" none, .word "OR" none, .word "IS" none, .symbol "==", .symbol "<>",
    .symbol "<", .symbol "<=", .symbol ">", .symbol ">="]

/-- The operand before these tokens ends there. -/
def Follows (ts : List Token) : Prop :=
  ∀ t ∈ ts.head?, t ∈ followers

namespace Follows

variable (follows : Follows ts)

include follows

theorem symbol? {text : String} (other : .symbol text ∉ followers) :
    TokenParser.symbol? text ts = .ok (false, ts) :=
  symbol?_of_head fun head => other (follows _ head)

theorem head_keyword {word : String} (other : ∀ t ∈ followers, t.keyword? ≠ some word) :
    ts.head?.bind Token.keyword? ≠ some word := fun same => by
  obtain ⟨t, head, keyword⟩ := Option.bind_eq_some_iff.1 same
  exact other t (follows t head) keyword

theorem keywords? {word : String} (other : ∀ t ∈ followers, t.keyword? ≠ some word)
    (words : List String) : TokenParser.keywords? (word :: words) ts = .ok (false, ts) :=
  keywords?_of_head (follows.head_keyword other)

theorem oneOf? {words : List String} (other : ∀ w ∈ words, ∀ t ∈ followers, t.keyword? ≠ some w) :
    TokenParser.oneOf? words ts = .ok (none, ts) :=
  oneOf?_of_head fun w mem => follows.head_keyword (other w mem)

theorem nameOrCall (sub : ExprParser) (first : Ident) :
    TokenParser.nameOrCall sub first ts = .ok (.name first [], ts) := by
  cases ts with
  | nil => rfl
  | cons t ts =>
    have mem : t ∈ followers := follows t rfl
    simp only [followers, List.mem_cons, List.not_mem_nil, or_false] at mem
    obtain rfl | rfl | rfl | rfl | rfl | rfl | rfl | rfl | rfl | rfl := mem <;> rfl

theorem collated (e : Expr) : TokenParser.collated e ts = .ok (e, ts) := by
  unfold TokenParser.collated
  rw [keyword?, bind_of_ok (follows.keywords? (by decide) [])]
  rfl

theorem optionalNulls : TokenParser.optionalNulls ts = .ok (none, ts) := by
  rw [TokenParser.optionalNulls, bind_of_ok (follows.oneOf? (by decide))]
  rfl

theorem optionalSeparator : TokenParser.optionalSeparator ts = .ok (none, ts) := by
  rw [TokenParser.optionalSeparator, keyword?, bind_of_ok (follows.keywords? (by decide) [])]
  rfl

variable (sub : ExprParser)

theorem optionalOrder : TokenParser.optionalOrder sub ts = .ok (none, ts) := by
  rw [TokenParser.optionalOrder, bind_of_ok (follows.keywords? (by decide) _)]
  rfl

theorem optionalLimit : TokenParser.optionalLimit sub ts = .ok (none, ts) := by
  rw [TokenParser.optionalLimit, keyword?, bind_of_ok (follows.keywords? (by decide) [])]
  rfl

theorem optionalBound : TokenParser.optionalBound sub ts = .ok (none, ts) := by
  rw [TokenParser.optionalBound, keyword?, bind_of_ok (follows.keywords? (by decide) [])]
  rfl

theorem optionalOverflow : TokenParser.optionalOverflow sub ts = .ok (none, ts) := by
  rw [TokenParser.optionalOverflow, bind_of_ok (follows.keywords? (by decide) _)]
  rfl

theorem optionalWithin : TokenParser.optionalWithin sub ts = .ok (none, ts) := by
  rw [TokenParser.optionalWithin, bind_of_ok (follows.keywords? (by decide) _)]
  rfl

theorem optionalOver : TokenParser.optionalOver sub ts = .ok (none, ts) := by
  rw [TokenParser.optionalOver, keyword?, bind_of_ok (follows.keywords? (by decide) [])]
  rfl

end Follows

theorem follows_close : Follows (.symbol ")" :: rest) := by
  simp [Follows, followers]

theorem separated_of_follows {p : TokenParser α} {a : α} (read : p ts = .ok (a, rest))
    (follows : Follows rest) : separated p ts = .ok ([a], rest) := by
  rw [separated, get_bind]
  cases ts.length with
  | zero => exact bind_of_ok read
  | succ bound =>
    rw [separatedUpTo, bind_of_ok read, bind_of_ok (follows.symbol? (by decide))]
    rfl

section Operands

variable {sub : ExprParser} {e : Expr}

theorem form_of_notMem (name : Ident) {word : String} (noForm : word ∉ formWords) :
    form sub name word = pure none := by
  unfold form
  split
  all_goals first
    | exact absurd (by decide) noForm
    | rfl

theorem wordOperand_of_form {first : Ident} {word : String}
    (read : form sub first word ts = .ok (some e, rest)) (follows : Follows rest) :
    wordOperand sub first word ts = .ok (e, rest) := by
  unfold wordOperand
  rw [read]
  exact follows.collated e

theorem wordOperand_of_name {first : Ident} {word : String} (noForm : word ∉ formWords)
    (read : nameOrCall sub first ts = .ok (e, rest)) (follows : Follows rest) :
    wordOperand sub first word ts = .ok (e, rest) := by
  have nothing : form sub first word ts = .ok (none, ts) := by
    rw [form_of_notMem first noForm]
    rfl
  unfold wordOperand
  rw [nothing]
  dsimp only
  rw [read]
  exact follows.collated e

theorem operand_eq {t : Token} (noType : ∀ w ∈ t.keyword?, w ∉ typeWords)
    (noQuote : ∀ value quote, t ≠ .word value (some quote))
    (noBracket : Token.symbol "[" ∉ t :: ts) :
    operand sub (t :: ts) = match t with
      | .word value quote => wordOperand sub ⟨value, quote⟩ (t.keyword?.getD "") ts
      | .symbol s =>
        if s = ":" ∨ s = "@" then (literal >>= fun v => collated (.value v)) (t :: ts)
        else symbolOperand sub s ts
      | _ => (literal >>= fun v => collated (.value v)) (t :: ts) := by
  have noInterval : t.keyword? ≠ some "INTERVAL" := fun same =>
    absurd (by decide) (noType "INTERVAL" same)
  unfold operand
  rw [get_bind, List.length_cons, operandUpTo, get_bind]
  dsimp only
  rw [if_neg noInterval, bind_of_ok (attempt_typedLiteral noType noQuote noBracket)]
  cases t with
  | symbol s =>
    by_cases own : s = ":" ∨ s = "@"
    · dsimp only
      rw [if_pos own, if_pos own]
    · dsimp only
      rw [if_neg own, if_neg own]
      rfl
  | _ => rfl

theorem operand_word {value : String} (noType : Text.capitals value ∉ typeWords)
    (noBracket : Token.symbol "[" ∉ ts) : operand sub (.word value none :: ts) =
      wordOperand sub ⟨value, none⟩ (Text.capitals value) ts := by
  refine operand_eq (fun w same => ?_) (by simp) (by simpa using noBracket)
  obtain rfl : Text.capitals value = w := Option.some.inj same
  exact noType

theorem operand_symbol {s : String} (noBracket : Token.symbol "[" ∉ .symbol s :: ts)
    (own : ¬ (s = ":" ∨ s = "@")) : operand sub (.symbol s :: ts) = symbolOperand sub s ts :=
  (operand_eq (by simp [Token.keyword?]) (by simp) noBracket).trans (if_neg own)

theorem operand_number {digits : String} (noBracket : Token.symbol "[" ∉ ts)
    (follows : Follows ts) : operand sub (.number digits false :: ts) =
      .ok (.value (.number digits false), ts) :=
  (operand_eq (by simp [Token.keyword?]) (by simp) (by simpa using noBracket)).trans
    (follows.collated _)

theorem operand_text {value : String} (noBracket : Token.symbol "[" ∉ ts)
    (follows : Follows ts) : operand sub (.string .plain value :: ts) =
      .ok (.value (.text value), ts) :=
  (operand_eq (by simp [Token.keyword?]) (by simp) (by simpa using noBracket)).trans
    (follows.collated _)

theorem nameOrCall_qualified (first : Ident) {column : String} (follows : Follows ts) :
    nameOrCall sub first (.symbol "." :: .word column none :: ts) =
      .ok (.name first [⟨column, none⟩], ts) := by
  have parts : furtherParts (ts.length + 2) (.symbol "." :: .word column none :: ts) =
      .ok ([⟨column, none⟩], ts) := by
    have none : furtherParts (ts.length + 1) ts = .ok ([], ts) := by
      rw [furtherParts, bind_of_ok (follows.symbol? (by decide))]
      rfl
    rw [furtherParts, bind_of_ok (symbol?_self "."), if_pos rfl, bind_of_ok (ident_word column),
      bind_of_ok none]
    rfl
  rw [nameOrCall, get_bind]
  change (get >>= fun (ts : List Token) => furtherParts ts.length >>= _) _ = _
  rw [get_bind, List.length_cons, List.length_cons, bind_of_ok parts, get_bind]
  cases ts with
  | nil => rfl
  | cons t ts =>
    have mem : t ∈ followers := follows t rfl
    simp only [followers, List.mem_cons, List.not_mem_nil, or_false] at mem
    obtain rfl | rfl | rfl | rfl | rfl | rfl | rfl | rfl | rfl | rfl := mem <;> rfl

theorem argument_rows :
    argument sub (.symbol "*" :: .symbol ")" :: rest) = .ok (.rows, .symbol ")" :: rest) :=
  rfl

theorem attempt_namedArgument {value : String}
    (noSign : ∀ s ∈ ["=>", ":="], ts.head? ≠ some (.symbol s)) :
    attempt (namedArgument sub) (.word value none :: ts) = .ok (none, .word value none :: ts) := by
  have arrow := symbol?_of_head (noSign "=>" (by decide))
  have assign : symbol ":=" ts = .error .unexpected :=
    bind_of_ok (symbol?_of_head (noSign ":=" (by decide)))
  have refused : namedArgument sub (.word value none :: ts) = .error .unexpected := by
    rw [namedArgument, bind_of_ok (ident_word value), bind_of_ok arrow, if_neg Bool.false_ne_true]
    exact bind_of_error assign
  rw [attempt, refused]

theorem argument_bare {column : String}
    (read : sub 0 (.word column none :: .symbol ")" :: rest) = .ok (e, .symbol ")" :: rest)) :
    argument sub (.word column none :: .symbol ")" :: rest) =
      .ok (.one e, .symbol ")" :: rest) := by
  rw [argument, bind_of_ok (attempt_namedArgument (by simp))]
  dsimp only
  rw [argumentValue, get_bind, bind_of_ok (symbol?_of_head (by simp)), if_neg Bool.false_ne_true]
  exact bind_of_ok read

theorem argument_qualified {aliasName column : String} {after : List Token}
    (named : after = .symbol "." :: .word column none :: .symbol ")" :: rest)
    (read : sub 0 (.word aliasName none :: after) = .ok (e, .symbol ")" :: rest)) :
    argument sub (.word aliasName none :: after) = .ok (.one e, .symbol ")" :: rest) := by
  subst named
  have noRows : rowsOfPath (rest.length + 4) (.symbol "." :: .word column none :: .symbol ")" ::
      rest) = .ok (none, .symbol ")" :: rest) := rfl
  rw [argument, bind_of_ok (attempt_namedArgument (by simp))]
  dsimp only
  rw [argumentValue, get_bind, bind_of_ok (symbol?_of_head (by simp)), if_neg Bool.false_ne_true]
  change (ident >>= _) _ = _
  rw [bind_of_ok (ident_word aliasName)]
  change (rowsOfPath (rest.length + 4) >>= _) _ = _
  rw [bind_of_ok noRows]
  exact (bind_of_ok read : (sub 0 >>= fun e => pure (Argument.one e)) _ = _)

theorem argumentList_of_argument {a : Argument} (noClose : ts.head? ≠ some (.symbol ")"))
    (noWord : ∀ w ∈ ["ALL", "DISTINCT"], ts.head?.bind Token.keyword? ≠ some w)
    (read : argument sub ts = .ok (a, .symbol ")" :: rest)) :
    argumentList sub ts = .ok ((⟨none, [a], []⟩, false), rest) := by
  have close : Follows (.symbol ")" :: rest) := follows_close
  have closed : symbol ")" (.symbol ")" :: rest) = .ok ((), rest) :=
    bind_of_ok (symbol?_self ")")
  unfold argumentList
  rw [bind_of_ok (symbol?_of_head noClose), if_neg Bool.false_ne_true,
    bind_of_ok (oneOf?_of_head noWord), if_neg (by simp)]
  dsimp only
  rw [bind_of_ok (separated_of_follows read close), bind_of_ok close.optionalNulls,
    bind_of_ok (close.optionalOrder sub), bind_of_ok (close.optionalLimit sub),
    bind_of_ok (close.optionalBound sub), bind_of_ok close.optionalSeparator,
    bind_of_ok (close.optionalOverflow sub), bind_of_ok closed]
  rfl

def callOf (name : List Ident) : Argument → Expr
  | .rows => .callOver name .rows CallModifiers.none
  | .one e => .call name e CallModifiers.none
  | .other written => .callOver name (.listed (Text.joined ", " [written])) CallModifiers.none

theorem call_of_argument {name : List Ident} {a : Argument}
    (list : argumentList sub ts = .ok ((⟨none, [a], []⟩, false), rest)) (follows : Follows rest) :
    call sub name (.symbol "(" :: ts) = .ok (callOf name a, rest) := by
  have opened : symbol "(" (.symbol "(" :: ts) = .ok ((), ts) := bind_of_ok (symbol?_self "(")
  unfold call
  rw [bind_of_ok opened, bind_of_ok list]
  change (symbol? "(" >>= _) rest = _
  rw [bind_of_ok (follows.symbol? (by decide)), if_neg Bool.false_ne_true, pure_bind]
  change (optionalWithin sub >>= _) rest = _
  rw [bind_of_ok (follows.optionalWithin sub), if_neg Bool.false_ne_true,
    bind_of_ok follows.optionalNulls]
  change (optionalOver sub >>= _) rest = _
  rw [bind_of_ok (follows.optionalOver sub)]
  cases a <;> rfl

theorem symbolOperand_group
    (noWord : ∀ w ∈ ["SELECT", "WITH"], ts.head?.bind Token.keyword? ≠ some w)
    (read : sub 0 ts = .ok (e, .symbol ")" :: rest)) (follows : Follows rest) :
    symbolOperand sub "(" ts = .ok (.nested e, rest) := by
  have noQuery : atQuery ts = .ok (false, ts) := by
    rw [atQuery, bind_of_ok (atKeyword_of_head (noWord "SELECT" (by decide))),
      bind_of_ok (atKeyword_of_head (noWord "WITH" (by decide)))]
    rfl
  have closed : symbol ")" (.symbol ")" :: rest) = .ok ((), rest) :=
    bind_of_ok (symbol?_self ")")
  have group : grouped sub ts = .ok (.nested e, rest) := by
    rw [grouped, bind_of_ok noQuery, if_neg Bool.false_ne_true,
      bind_of_ok (separated_of_follows read follows_close)]
    simp only [pure_bind]
    rw [bind_of_ok closed, bind_of_ok (follows.symbol? (by decide))]
    rfl
  exact (bind_of_ok group).trans (follows.collated _)

theorem form_not (name : Ident) (noWord : ts.head?.bind Token.keyword? ≠ some "EXISTS")
    (read : sub 15 ts = .ok (e, rest)) : form sub name "NOT" ts = .ok (some (.not e), rest) := by
  have negated : negation sub ts = .ok (.not e, rest) := by
    rw [negation, keyword?, bind_of_ok (keywords?_of_head noWord), if_neg Bool.false_ne_true]
    exact bind_of_ok read
  exact bind_of_ok negated

theorem symbolOperand_minus (read : sub 40 ts = .ok (e, rest)) (follows : Follows rest) :
    symbolOperand sub "-" ts = .ok (.signed true e, rest) :=
  (bind_of_ok read).trans (follows.collated _)

end Operands

section Operators

variable {sub : ExprParser} {left e : Expr} {precedence bound depth : Nat}

theorem continued_of_le (stop : nextPrecedence ts ≤ precedence) :
    continued sub precedence bound left ts = .ok (left, ts) := by
  cases bound with
  | zero => rfl
  | succ bound =>
    unfold continued
    rw [get_bind, if_pos stop]
    rfl

theorem continued_of_lt (more : precedence < nextPrecedence ts)
    (read : operated sub (nextPrecedence ts) left ts = .ok (e, rest)) :
    continued sub precedence (bound + 1) left ts = continued sub precedence bound e rest := by
  rw [continued, get_bind]
  rw [if_neg (by omega), bind_of_ok read]

theorem expression_of_operand (read : operand (expression depth) ts = .ok (e, rest)) :
    expression (depth + 1) precedence ts =
      continued (expression depth) precedence ts.length e rest := by
  rw [expression, get_bind, bind_of_ok read]

theorem rightSide_of_head {op : Operator}
    (noWord : ∀ w ∈ ["ANY", "ALL", "SOME"], ts.head?.bind Token.keyword? ≠ some w)
    (read : sub precedence ts = .ok (e, rest)) :
    rightSide sub precedence left op ts = .ok (.binary left op e, rest) := by
  rw [rightSide, bind_of_ok (oneOf?_of_head noWord)]
  exact bind_of_ok read

theorem operated_isNull (negated : Bool) : operated sub precedence left
    (.word "IS" none :: ((if negated then [.word "NOT" none] else []) ++ .word "NULL" none :: ts)) =
      .ok (.isNull left negated, ts) := by
  cases negated <;> rfl

theorem operated_connective (c : Connective)
    (noWord : ∀ w ∈ ["ANY", "ALL", "SOME"], ts.head?.bind Token.keyword? ≠ some w)
    (read : sub precedence ts = .ok (e, rest)) :
    operated sub precedence left (.word (Operator.connective c).text none :: ts) =
      .ok (.binary left (.connective c) e, rest) := by
  have right : rightSide sub precedence left (.connective c) ts =
      .ok (.binary left (.connective c) e, rest) := rightSide_of_head noWord read
  cases c <;> exact right

end Operators

end TokenParser

end TablePlan.Condition
