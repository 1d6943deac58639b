import TablePlan.Condition.Meaning
import TablePlan.Proofs.Decimal.Text

/-!
Texts scanned piece by piece. `Scans` says which tokens a text has, and each kind of token has a
lemma for the texts that start with it.
-/

namespace TablePlan.Condition

open Text

def continuesName (c : Char) : Bool :=
  startsPlainName c || c.isDigit || c == '@' || c == '$' || c == '#'

def isIdentifier : List Char → Bool
  | [] => false
  | c :: cs => startsPlainName c && cs.all continuesName

namespace Token

section Characters

variable {c : Char}

theorem of_ascii {p : Char → Bool} (all : ∀ n < 128, p (Char.ofNat n) = true)
    (ascii : c.toNat < 128) : p c = true := by
  rw [← Char.ofNat_toNat c]
  exact all _ ascii

theorem ascii_of_continuesName (continues : continuesName c = true) : c.toNat < 128 := by
  have letter (alpha : c.isAlpha = true) : c.toNat < 128 := by
    obtain upper | lower := (Bool.or_eq_true _ _).mp alpha
    · exact Nat.lt_of_le_of_lt (of_decide_eq_true upper).2 (by decide)
    · exact Nat.lt_of_le_of_lt (of_decide_eq_true ((Bool.and_eq_true _ _).mp lower).2) (by decide)
  have figure (digit : c.isDigit = true) : c.toNat < 128 :=
    Nat.lt_of_le_of_lt (of_decide_eq_true ((Bool.and_eq_true _ _).mp digit).2) (by decide)
  simp only [continuesName, startsPlainName, Bool.or_eq_true, beq_iff_eq] at continues
  obtain ((((alpha | rfl) | digit) | rfl) | rfl) | rfl := continues
  · exact letter alpha
  · decide
  · exact figure digit
  all_goals decide

theorem continuesName_of_startsPlainName (starts : startsPlainName c = true) :
    continuesName c = true := by
  rw [continuesName, starts]
  rfl

theorem continuesName_of_isDigit (digit : c.isDigit = true) : continuesName c = true := by
  simp [continuesName, digit]

theorem continuesWord_of_continuesName (continues : continuesName c = true) :
    continuesWord c = true ∧ c ∉ ['&', '\'', '"'] := by
  have checked := of_ascii
    (p := fun c => !continuesName c || (continuesWord c && decide (c ∉ ['&', '\'', '"'])))
    (by decide +kernel) (ascii_of_continuesName continues)
  simpa [continues] using checked

theorem startsWord_of_startsPlainName (starts : startsPlainName c = true) :
    startsWord c = true ∧ isBlank c = false ∧ c.isDigit = false ∧
      c ∉ ['.', '-', '/', '\'', '"', '`', '$', '?', '#', '@'] := by
  have checked := of_ascii
    (p := fun c => !startsPlainName c || (startsWord c && !isBlank c && !c.isDigit &&
      decide (c ∉ ['.', '-', '/', '\'', '"', '`', '$', '?', '#', '@'])))
    (by decide +kernel) (ascii_of_continuesName (continuesName_of_startsPlainName starts))
  simpa [starts, and_assoc] using checked

end Characters

/-- The tokens of a text, under every bound that is long enough for it. -/
def Scans (cs : List Char) (tokens : List Token) : Prop :=
  ∀ bound, cs.length ≤ bound → scanUpTo bound cs = some tokens

theorem Scans.scan? {text : String} {tokens : List Token} (scans : Scans text.toList tokens) :
    scan? text = some tokens :=
  scans _ le_rfl

theorem scans_nil : Scans [] [] := fun bound _ => by
  cases bound <;> rfl

variable {cs rest : List Char} {tokens : List Token} (tail : Scans rest tokens)

include tail

theorem Scans.blank : Scans (' ' :: rest) tokens := by
  rintro (_ | bound) short
  · exact absurd short (Nat.not_succ_le_zero _)
  · exact tail bound (Nat.le_of_succ_le_succ short)

theorem Scans.token {c : Char} {t : Token} (first : next? (c :: cs) = some (t, rest))
    (shorter : rest.length ≤ cs.length) (noBlank : isBlank c = false)
    (noComment : c = '-' → cs.head? ≠ some '-') (noSlash : c ≠ '/') :
    Scans (c :: cs) (t :: tokens) := by
  rintro (_ | bound) short
  · exact absurd short (Nat.not_succ_le_zero _)
  · have read : scanUpTo bound rest = some tokens :=
      tail bound (shorter.trans (Nat.le_of_succ_le_succ short))
    rw [scanUpTo, noBlank, first]
    · simp [read]
    · rintro after rfl rfl
      exact noComment rfl rfl
    · rintro after rfl rfl
      exact noSlash rfl

omit tail in
theorem next?_eq_plainNext {c : Char} (own : c ∉ ['\'', '"', '`', '$', '?', '#', '@'])
    (free : c ∈ ['u', 'U', 'b', 'B', 'n', 'N', 'e', 'E', 'x', 'X', 'r', 'R'] →
      ∀ d ∈ cs.head?, d ∉ ['&', '\'', '"']) :
    next? (c :: cs) = some (next?.plainNext c cs) := by
  unfold next?
  split <;> simp_all

omit tail in
theorem length_le_append (cs rest : List Char) : rest.length ≤ (cs ++ rest).length := by
  rw [List.length_append]
  exact Nat.le_add_left _ _

theorem Scans.word {name : String} (identifier : isIdentifier name.toList = true)
    (ends : ∀ c ∈ rest.head?, c ∈ [' ', '(', ')', '.']) :
    Scans (name.toList ++ rest) (.word name none :: tokens) := by
  obtain ⟨c, cs, chars⟩ : ∃ c cs, name.toList = c :: cs := by
    cases shape : name.toList with
    | nil => simp [shape, isIdentifier] at identifier
    | cons c cs => exact ⟨c, cs, rfl⟩
  rw [chars] at identifier ⊢
  rw [isIdentifier, Bool.and_eq_true, List.all_eq_true] at identifier
  obtain ⟨starts, continues⟩ := identifier
  obtain ⟨word, noBlank, noDigit, own⟩ := startsWord_of_startsPlainName starts
  have taken : (cs ++ rest).takeWhile continuesWord = cs ∧
      (cs ++ rest).dropWhile continuesWord = rest := by
    have stops : ∀ d ∈ [' ', '(', ')', '.'], continuesWord d = false :=
      List.forall_iff_forall_mem.1 (by decide)
    exact takeWhile_dropWhile_append
      (fun d mem => (continuesWord_of_continuesName (continues d mem)).1)
      fun d head => stops d (ends d head)
  have free : ∀ d ∈ (cs ++ rest).head?, d ∉ ['&', '\'', '"'] := by
    cases cs with
    | nil =>
      have stops : ∀ d ∈ [' ', '(', ')', '.'], d ∉ ['&', '\'', '"'] :=
        List.forall_iff_forall_mem.1 (by decide)
      exact fun d head => stops d (ends d head)
    | cons e cs =>
      rintro d head
      obtain rfl : e = d := Option.some.inj head
      exact (continuesWord_of_continuesName (continues e List.mem_cons_self)).2
  have first : next? (c :: (cs ++ rest)) = some (.word name none, rest) := by
    rw [next?_eq_plainNext (fun mem => own (by simp_all)) fun _ => free, next?.plainNext,
      if_neg (by simp_all), if_pos word, wordFrom, taken.1, taken.2]
    rw [← String.ofList_toList (s := name), chars]
    rfl
  exact tail.token first (length_le_append cs rest) noBlank (by simp_all) (by simp_all)

theorem Scans.point (noDigit : ∀ c ∈ rest.head?, c.isDigit = false) :
    Scans ('.' :: rest) (.symbol "." :: tokens) := by
  have none : rest.takeWhile Char.isDigit = [] := by
    cases rest with
    | nil => rfl
    | cons c rest => exact List.takeWhile_cons_of_neg (by simp [noDigit c rfl])
  have first : next? ('.' :: rest) = some (.symbol ".", rest) := by
    rw [next?_eq_plainNext (by decide) (fun mem => absurd mem (by decide)), next?.plainNext,
      if_pos (by decide)]
    simp [numeric, none]
  exact tail.token first le_rfl rfl (fun same => absurd same (by decide)) (by decide)

theorem Scans.sign {c : Char} {s : String} (read : symbolOf (c :: cs) = (.symbol s, rest))
    (sign : c ∈ ['(', ')', '*', '-', '=', '!', '<', '>']) (shorter : rest.length ≤ cs.length)
    (noComment : c = '-' → cs.head? ≠ some '-') : Scans (c :: cs) (.symbol s :: tokens) := by
  have signs : ∀ c ∈ ['(', ')', '*', '-', '=', '!', '<', '>'],
      c ∉ ['\'', '"', '`', '$', '?', '#', '@'] ∧ isBlank c = false ∧ c ≠ '/' ∧
        ¬ (c.isDigit || c = '.') = true ∧ ¬ startsWord c = true ∧
        c ∉ ['u', 'U', 'b', 'B', 'n', 'N', 'e', 'E', 'x', 'X', 'r', 'R'] :=
    List.forall_iff_forall_mem.1 (by decide)
  obtain ⟨own, noBlank, noSlash, noNumber, noWord, noLetter⟩ := signs c sign
  have first : next? (c :: cs) = some (.symbol s, rest) := by
    rw [next?_eq_plainNext own fun mem => absurd mem noLetter, next?.plainNext,
      if_neg noNumber, if_neg noWord, read]
  exact tail.token first shorter noBlank noComment noSlash

omit tail in
theorem symbolOf_minus {c : Char} (digit : c.isDigit = true) :
    symbolOf ('-' :: c :: cs) = (.symbol "-", c :: cs) := by
  have digits : c ∈ ['0', '1', '2', '3', '4', '5', '6', '7', '8', '9'] := by
    have checked := of_ascii (p := fun c => !c.isDigit ||
      decide (c ∈ ['0', '1', '2', '3', '4', '5', '6', '7', '8', '9'])) (by decide +kernel)
      (ascii_of_continuesName (continuesName_of_isDigit digit))
    simpa [digit] using checked
  simp only [List.mem_cons, List.not_mem_nil, or_false] at digits
  obtain rfl | rfl | rfl | rfl | rfl | rfl | rfl | rfl | rfl | rfl := digits <;> rfl

omit tail in
theorem upToQuote?_doubled (noQuote : rest.head? ≠ some '\'') (body : List Char) :
    upToQuote? '\'' ((body.flatMap fun c => if c = '\'' then ['\'', '\''] else [c]) ++
      '\'' :: rest) = some (body, rest) := by
  induction body with
  | nil =>
    cases rest with
    | nil => rfl
    | cons d rest =>
      have other : d ≠ '\'' := fun same => noQuote (congrArg some same)
      simp [upToQuote?, other]
  | cons c body ih =>
    rw [List.flatMap_cons, List.append_assoc]
    by_cases same : c = '\''
    · subst same
      rw [if_pos rfl, List.cons_append, List.cons_append, List.nil_append, upToQuote?,
        if_neg (by simp), if_pos rfl, ih]
      rfl
    · rw [if_neg same, List.cons_append, List.nil_append]
      generalize after : (body.flatMap _ ++ '\'' :: rest) = left at ih ⊢
      cases left with
      | nil => exact absurd after (List.append_ne_nil_of_right_ne_nil _ (List.cons_ne_nil _ _))
      | cons d left =>
        rw [upToQuote?, if_pos same, ih]
        rfl

theorem Scans.quoted (body : String) (noQuote : rest.head? ≠ some '\'') :
    Scans ((Literal.quoted body).toList ++ rest) (.string .plain body :: tokens) := by
  have chars : (Literal.quoted body).toList ++ rest =
      '\'' :: ((body.toList.flatMap fun c => if c = '\'' then ['\'', '\''] else [c]) ++
        '\'' :: rest) := by
    simp [Literal.quoted]
  have first : next? ('\'' :: ((body.toList.flatMap fun c =>
      if c = '\'' then ['\'', '\''] else [c]) ++ '\'' :: rest)) =
      some (.string .plain body, rest) := by
    change stringToken .plain (upToQuote? '\'' _) = _
    simp [upToQuote?_doubled noQuote, stringToken]
  rw [chars]
  refine tail.token first ?_ rfl (fun same => absurd same (by decide)) (by decide)
  exact (Nat.le_succ _).trans (length_le_append _ ('\'' :: rest))

omit tail in
theorem exponent_of_ends (ends : ∀ c ∈ rest.head?, c ∈ [' ', ')']) : exponent rest = [] := by
  unfold exponent
  split
  · rename_i e sign after
    have noLetter : ∀ c ∈ [' ', ')'], (c != 'e' && c != 'E') = true :=
      List.forall_iff_forall_mem.1 (by decide)
    rw [if_pos (noLetter e (ends e rfl))]
  · rfl

omit tail in
theorem long_eq (noLong : ∀ after, rest ≠ 'L' :: after) (digits : String) :
    (match rest with
      | 'L' :: rest => (Token.number digits true, rest)
      | rest => (Token.number digits false, rest)) = (.number digits false, rest) := by
  split
  · exact absurd rfl (noLong _)
  · rfl

omit tail in
theorem numeric_eq {whole point : List Char}
    (taken : (whole ++ (point ++ rest)).takeWhile Char.isDigit = whole)
    (fraction : point = [] ∧ (∀ after, rest ≠ '.' :: after) ∨
      ∃ digits, point = '.' :: digits ∧ (digits ++ rest).takeWhile Char.isDigit = digits)
    (noPoint : whole ++ point ≠ ['.']) (noPower : exponent rest = [])
    (noHex : ∀ after, point ++ rest ≠ 'x' :: after) (noLong : ∀ after, rest ≠ 'L' :: after) :
    numeric (whole ++ (point ++ rest)) =
      (.number (String.ofList (whole ++ point)) false, rest) := by
  have cut : (whole ++ (point ++ rest)).drop (whole ++ point).length = rest := by
    rw [← List.append_assoc, List.drop_left]
  unfold numeric
  dsimp only
  rw [taken, List.drop_left]
  split
  · rename_i head
    exact absurd head (noHex _)
  · obtain ⟨rfl, other⟩ | ⟨digits, rfl, fraction⟩ := fraction
    · rw [List.nil_append] at cut ⊢
      split
      · exact absurd rfl (other _)
      · rw [if_neg noPoint, cut, noPower, List.length_nil, Nat.add_zero, cut, List.append_nil]
        exact long_eq noLong _
    · rw [List.cons_append] at cut ⊢
      simp only [fraction]
      rw [if_neg noPoint, cut, noPower, List.length_nil, Nat.add_zero, cut,
        List.append_nil]
      exact long_eq noLong _

omit tail in
theorem numeric_digits (d : Decimal.Digits) (ends : ∀ c ∈ rest.head?, c ∈ [' ', ')']) :
    numeric (d.chars ++ rest) = (.number (String.ofList d.chars) false, rest) := by
  have ending : ∀ c ∈ [' ', ')'], c.isDigit = false ∧ c ∉ ['.', 'x', 'L'] :=
    List.forall_iff_forall_mem.1 (by decide)
  have other (c : Char) (mem : c ∈ ['.', 'x', 'L']) (after : List Char) : rest ≠ c :: after :=
    fun same => (ending c (ends c (by rw [same]; rfl))).2 mem
  have stop : ∀ c ∈ rest.head?, c.isDigit = false := fun c head => (ending c (ends c head)).1
  have noPoint (cs : List Char) : d.whole ++ cs ≠ ['.'] := by
    obtain ⟨c, whole, chars⟩ := List.exists_cons_of_ne_nil d.written
    have digit := d.whole_digits c (by rw [chars]; exact List.mem_cons_self)
    rw [chars]
    rintro same
    rw [(List.cons.inj same).1] at digit
    cases digit
  have noPower := exponent_of_ends ends
  rw [Decimal.Digits.chars, List.append_assoc]
  by_cases none : d.fraction = []
  · rw [if_pos none]
    exact numeric_eq (takeWhile_dropWhile_append d.whole_digits stop).1
      (.inl ⟨rfl, other '.' (by decide)⟩) (noPoint _) noPower (other 'x' (by decide))
      (other 'L' (by decide))
  · rw [if_neg none]
    exact numeric_eq (takeWhile_dropWhile_append d.whole_digits (by simp)).1
      (.inr ⟨_, rfl, (takeWhile_dropWhile_append d.fraction_digits stop).1⟩) (noPoint _) noPower
      (by simp) (other 'L' (by decide))

theorem Scans.number (d : Decimal.Digits) (ends : ∀ c ∈ rest.head?, c ∈ [' ', ')']) :
    Scans (d.chars ++ rest) (.number (String.ofList d.chars) false :: tokens) := by
  obtain ⟨c, cs, chars, digit⟩ := d.exists_chars
  have checked := of_ascii
    (p := fun c => !c.isDigit || (!isBlank c && decide (c ∉ ['-', '/', '\'', '"', '`', '$', '?',
      '#', '@', 'u', 'U', 'b', 'B', 'n', 'N', 'e', 'E', 'x', 'X', 'r', 'R'])))
    (by decide +kernel) (ascii_of_continuesName (continuesName_of_isDigit digit))
  obtain ⟨noBlank, own⟩ : isBlank c = false ∧ c ∉ ['-', '/', '\'', '"', '`', '$', '?',
      '#', '@', 'u', 'U', 'b', 'B', 'n', 'N', 'e', 'E', 'x', 'X', 'r', 'R'] := by
    simpa [digit] using checked
  have first : next? (c :: (cs ++ rest)) =
      some (.number (String.ofList d.chars) false, rest) := by
    rw [next?_eq_plainNext (fun mem => own (by simp_all)) (fun mem => absurd mem (by simp_all)),
      next?.plainNext, if_pos (by simp [digit]), ← List.cons_append, ← chars,
      numeric_digits d ends]
  rw [chars, List.cons_append, ← chars]
  exact tail.token first (length_le_append cs rest) noBlank (by simp_all) (by simp_all)

end Token

end TablePlan.Condition
