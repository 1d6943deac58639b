/-!
White space of text, by the Unicode property `White_Space`, and trimming by it. The main facts are
that every blank of the core class is a blank here and that trimming a text without blanks at its
ends changes nothing.
-/

namespace TablePlan.Text

/-- The ranges of the Unicode property `White_Space`. -/
def blankRanges : List (Nat × Nat) :=
  [(0x9, 0xd), (0x20, 0x20), (0x85, 0x85), (0xa0, 0xa0), (0x1680, 0x1680), (0x2000, 0x200a),
    (0x2028, 0x2029), (0x202f, 0x202f), (0x205f, 0x205f), (0x3000, 0x3000)]

def isBlank (c : Char) : Bool :=
  blankRanges.any fun r => r.1 ≤ c.toNat && c.toNat ≤ r.2

theorem isBlank_of_isWhitespace {c : Char} (h : c.isWhitespace = true) : isBlank c = true := by
  simp only [Char.isWhitespace, Bool.or_eq_true, decide_eq_true_eq] at h
  rcases h with ((h | h) | h) | h <;> subst h <;> decide

def dropBlanks (cs : List Char) : List Char :=
  cs.dropWhile isBlank

def dropEndBlanks (cs : List Char) : List Char :=
  (dropBlanks cs.reverse).reverse

def trim (s : String) : String :=
  String.ofList (dropEndBlanks (dropBlanks s.toList))

def trimEnd (s : String) : String :=
  String.ofList (dropEndBlanks s.toList)

theorem dropBlanks_of_head {cs : List Char} (h : ∀ c ∈ cs.head?, isBlank c = false) :
    dropBlanks cs = cs := by
  cases cs with
  | nil => rfl
  | cons c cs => simp [dropBlanks, h c (by simp)]

theorem dropEndBlanks_of_last {cs : List Char} (h : ∀ c ∈ cs.getLast?, isBlank c = false) :
    dropEndBlanks cs = cs := by
  rw [dropEndBlanks, dropBlanks_of_head (by simpa using h), List.reverse_reverse]

theorem trim_eq_self {s : String} (head : ∀ c ∈ s.toList.head?, isBlank c = false)
    (last : ∀ c ∈ s.toList.getLast?, isBlank c = false) : trim s = s := by
  rw [trim, dropBlanks_of_head head, dropEndBlanks_of_last last, String.ofList_toList]

theorem isBlank_of_head_dropBlanks {cs : List Char} :
    ∀ c ∈ (dropBlanks cs).head?, isBlank c = false := by
  intro c mem
  have stop := List.head?_dropWhile_not isBlank cs
  rw [dropBlanks] at mem
  rwa [Option.mem_def.1 mem] at stop

theorem head?_dropEndBlanks {cs : List Char} : ∀ c ∈ (dropEndBlanks cs).head?, c ∈ cs.head? := by
  have suffix : dropBlanks cs.reverse <:+ cs.reverse := List.dropWhile_suffix _
  obtain ⟨rest, same⟩ : dropEndBlanks cs <+: cs := by
    simpa [dropEndBlanks] using List.reverse_prefix.2 suffix
  intro c mem
  rw [← same, List.head?_append, Option.mem_def.1 mem]
  rfl

theorem trim_trim (s : String) : trim (trim s) = trim s := by
  apply trim_eq_self
  · intro c mem
    rw [trim, String.toList_ofList] at mem
    exact isBlank_of_head_dropBlanks c (head?_dropEndBlanks c mem)
  · intro c mem
    rw [trim, String.toList_ofList, dropEndBlanks, List.getLast?_reverse] at mem
    exact isBlank_of_head_dropBlanks c mem

def splitAtFirst? (mark : Char) : List Char → Option (List Char × List Char)
  | [] => none
  | c :: cs => if c = mark then some ([], cs)
      else (splitAtFirst? mark cs).map fun (before, after) => (c :: before, after)

theorem splitAtFirst?_append {mark : Char} {before : List Char} (h : mark ∉ before)
    (after : List Char) :
    splitAtFirst? mark (before ++ mark :: after) = some (before, after) := by
  induction before with
  | nil => simp [splitAtFirst?]
  | cons c cs ih =>
    simp only [List.mem_cons, not_or] at h
    simp [splitAtFirst?, Ne.symm h.1, ih h.2]

def joined (separator : String) (parts : List String) : String :=
  separator.intercalate parts

end TablePlan.Text
