import TablePlan.Yaml.Cursor

/-!
Scalars as they are written in a YAML text: plain, in quotes, or as a block of lines. Each reader
gives the value and the place after it, or nothing if the scalar is not well formed. Line breaks
inside plain and quoted scalars and in folded blocks become spaces.
-/

namespace TablePlan.Yaml

/-- A value read so far, with the spaces or breaks after it that may yet belong to it. -/
structure Partial where
  text : List Char
  spaces : List Char
  firstBreak : List Char
  breaks : List Char
  broken : Bool
  deriving DecidableEq, Repr

namespace Partial

def empty : Partial := ⟨[], [], [], [], false⟩

/-- Appends what stands between two words: one break becomes a space, and of several all but the
first stay. -/
def joinWords (p : Partial) : Partial :=
  if p.broken then
    let between :=
      if p.firstBreak = ['\n'] then (if p.breaks.isEmpty then [' '] else p.breaks)
      else p.firstBreak ++ p.breaks
    ⟨p.text ++ between, [], [], [], false⟩
  else ⟨p.text ++ p.spaces, [], [], [], false⟩

def append (p : Partial) (cs : List Char) : Partial := { p with text := p.text ++ cs }

def addBreak (p : Partial) (b : List Char) : Partial :=
  if p.broken then { p with breaks := p.breaks ++ b }
  else { p with spaces := [], firstBreak := b, broken := true }

end Partial

/-- Reads blanks and breaks. Before `indent`, a tab at the start of a line is refused. -/
def readSpace : (bound : Nat) → (indent : Nat) → Partial → Cursor → Option (Partial × Cursor)
  | 0, _, p, c => some (p, c)
  | bound + 1, indent, p, c =>
    match c.peek? with
    | none => some (p, c)
    | some d =>
      if isBlank d then
        if p.broken then
          if c.column < indent ∧ d = '\t' then none else readSpace bound indent p c.skip
        else readSpace bound indent { p with spaces := p.spaces ++ [d] } c.skip
      else if isBreak d then
        let (b, after) := c.readBreak
        readSpace bound indent (p.addBreak b) after
      else some (p, c)

namespace Plain

def isFlowMark (c : Char) : Bool :=
  c == ',' || c == '[' || c == ']' || c == '\x7b' || c == '\x7d'

/-- The characters up to the next space or mark that ends a plain scalar; none if a colon in a flow
collection stands before a mark. -/
def word? (inFlow : Bool) : List Char → Option (List Char)
  | [] => some []
  | c :: rest =>
    if isBlank c || isBreak c then some []
    else if inFlow && c == ':' &&
        (rest.head?.map fun d => isFlowMark d || d == '?').getD false then none
    else if (c == ':' && Cursor.endsWord rest) || (inFlow && isFlowMark c) then some []
    else (word? inFlow rest).map (c :: ·)

/-- Reads word after word; inside the block structure all lines but the first must be indented. -/
def readUpTo (inFlow : Bool) (indent : Nat) :
    (bound : Nat) → Partial → Cursor → Option (Partial × Cursor)
  | 0, p, c => some (p, c)
  | bound + 1, p, c =>
    if c.atAnyDocumentMark || c.isNext (· == '#') then some (p, c)
    else do
      let word ← word? inFlow c.rest
      let (p, c) := if word.isEmpty then (p, c)
        else (p.joinWords.append word, c.skipMany word.length)
      if !(c.atBlank || c.atBreak) then return (p, c)
      let (p, c) ← readSpace (c.rest.length + 1) indent p c
      if !inFlow && c.column < indent then return (p, c)
      readUpTo inFlow indent bound p c

def read (inFlow : Bool) (indent : Nat) (c : Cursor) : Option (List Char × Bool × Cursor) := do
  let (p, c) ← readUpTo inFlow indent (c.rest.length + 1) Partial.empty c
  return (p.text, p.broken, c)

end Plain

namespace Quoted

def isHexDigit (c : Char) : Bool :=
  c.isDigit || ('a' ≤ c && c ≤ 'f') || ('A' ≤ c && c ≤ 'F')

def hexValue (digits : List Char) : Nat :=
  digits.foldl (fun n c =>
    16 * n + if c.isDigit then c.toNat - '0'.toNat else c.toLower.toNat - 'a'.toNat + 10) 0

def escaped? : Char → Option Char
  | '0' => some '\x00'
  | 'a' => some '\x07'
  | 'b' => some '\x08'
  | 't' | '\t' => some '\t'
  | 'n' => some '\n'
  | 'v' => some '\x0b'
  | 'f' => some '\x0c'
  | 'r' => some '\r'
  | 'e' => some '\x1b'
  | ' ' => some ' '
  | '"' => some '"'
  | '/' => some '/'
  | '\\' => some '\\'
  | 'N' => some '\x85'
  | '_' => some '\xa0'
  | 'L' => some '\u2028'
  | 'P' => some '\u2029'
  | _ => none

def numberedWidth? : Char → Option Nat
  | 'x' => some 2
  | 'u' => some 4
  | 'U' => some 8
  | _ => none

def escape? (rest : List Char) : Option (Char × Nat) := do
  let letter ← rest.head?
  match numberedWidth? letter with
  | some width =>
    let digits := (rest.drop 1).take width
    if digits.length < width || !digits.all isHexDigit then none
    else
      let n := hexValue digits
      if (0xd800 ≤ n ∧ n < 0xe000) ∨ 0x110000 ≤ n then none else some (Char.ofNat n, width + 1)
  | none => (escaped? letter).map (·, 1)

/-- Whether a character between these quotes is neither a space nor a mark. -/
def standsForItself (quote c : Char) : Bool :=
  !(isBlank c || isBreak c || c == quote || (quote == '"' && c == '\\'))

/-- Reads up to the next space, the closing quote or an escaped break, which is read too. -/
def readWord (quote : Char) : (bound : Nat) → Partial → Cursor → Option (Partial × Cursor)
  | 0, p, c => some (p, c)
  | bound + 1, p, c =>
    match c.rest with
    | [] => some (p, c)
    | d :: rest =>
      if isBlank d || isBreak d then some (p, c)
      else if d = quote then
        if quote = '\'' ∧ rest.head? = some '\'' then
          readWord quote bound (p.append ['\'']) (c.skipMany 2)
        else some (p, c)
      else if quote = '"' ∧ d = '\\' then
        if (rest.head?.map isBreak).getD false then
          some ({ p with broken := true }, c.skip.skipBreak)
        else do
          let (character, width) ← escape? rest
          readWord quote bound (p.append [character]) (c.skipMany (width + 1))
      else
        let run := c.rest.takeWhile (standsForItself quote)
        readWord quote bound (p.append run) (c.skipMany run.length)

def readUpTo (quote : Char) : (bound : Nat) → Partial → Cursor → Option (List Char × Cursor)
  | 0, _, _ => none
  | bound + 1, p, c =>
    if c.atAnyDocumentMark || c.atEnd then none
    else do
      let (p, c) ← readWord quote (c.rest.length + 1) p c
      if c.isNext (· == quote) then return (p.text, c.skip)
      let (p, c) ← readSpace (c.rest.length + 1) 0 p c
      readUpTo quote bound p.joinWords c

def read (quote : Char) (c : Cursor) : Option (List Char × Cursor) :=
  readUpTo quote (c.rest.length + 1) Partial.empty c.skip

end Quoted

namespace Block

inductive Chomping where
  | strip | clip | keep
  deriving DecidableEq, Repr

structure Header where
  chomping : Chomping
  /-- The columns of indentation that are given. -/
  increment : Option Nat
  deriving DecidableEq, Repr

def chomping? : Char → Option Chomping
  | '+' => some .keep
  | '-' => some .strip
  | _ => none

def readChomping (c : Cursor) : Option Chomping × Cursor :=
  match c.peek?.bind chomping? with
  | some chomping => (some chomping, c.skip)
  | none => (none, c)

def readIncrement (c : Cursor) : Option (Option Nat × Cursor) :=
  match c.peek? with
  | some d =>
    if d = '0' then none
    else if d.isDigit then some (some (d.toNat - '0'.toNat), c.skip)
    else some (none, c)
  | none => some (none, c)

def readHeader (c : Cursor) : Option (Header × Cursor) := do
  let (first, c) := readChomping c
  let (increment, c) ← readIncrement c
  let (chomping, c) := if first.isNone && increment.isSome then readChomping c else (first, c)
  return (⟨chomping.getD .clip, increment⟩, c)

/-- Reads empty lines. Without an indentation to look for, the widest line counts; a tab in the
place of indentation is refused. -/
def readBreaks (indent : Option Nat) :
    (bound : Nat) → (breaks : List Char) → (widest : Nat) → Cursor →
      Option (List Char × Nat × Cursor)
  | 0, breaks, widest, c => some (breaks, widest, c)
  | bound + 1, breaks, widest, c =>
    let spaces := c.rest.takeWhile (· == ' ')
    let count := match indent with
      | some n => Nat.min spaces.length (n - c.column)
      | none => spaces.length
    let c := c.skipMany count
    let widest := Nat.max widest c.column
    let outside := match indent with
      | some n => c.column < n
      | none => true
    if outside && c.isNext (· == '\t') then none
    else if c.atBreak then
      let (b, c) := c.readBreak
      readBreaks indent bound (breaks ++ b) widest c
    else some (breaks, widest, c)

/-- Reads line after line of a block. A folded block joins two lines unless one of them starts with
a blank. -/
def readLines (literal : Bool) (indent : Nat) :
    (bound : Nat) → (text leading trailing : List Char) → (blank : Bool) → Cursor →
      Option (List Char × List Char × List Char × Cursor)
  | 0, text, leading, trailing, _, c => some (text, leading, trailing, c)
  | bound + 1, text, leading, trailing, blank, c =>
    if c.column ≠ indent || c.atEnd then some (text, leading, trailing, c)
    else do
      let nowBlank := c.atBlank
      let between :=
        if !literal && leading == ['\n'] && !blank && !nowBlank then
          (if trailing.isEmpty then [' '] else [])
        else leading
      let (line, c) := c.readWhile fun _ => true
      let (b, c) := c.readBreak
      let (trailing', _, c) ← readBreaks (some indent) (c.rest.length + 1) [] 0 c
      readLines literal indent bound (text ++ between ++ trailing ++ line) b trailing' nowBlank c

/-- A block, from its first mark on. `parent` is the column of the block around it, if any. -/
def read (literal : Bool) (parent : Int) (c : Cursor) : Option (List Char × Cursor) := do
  let (header, c) ← readHeader c.skip
  let c := c.skipWhile isBlank
  let c := if c.isNext (· == '#') then c.skipWhile fun _ => true else c
  if !c.atBreakOrEnd then none
  else
    let c := c.skipBreak
    let given := header.increment.map fun n => if 0 ≤ parent then parent.toNat + n else n
    let (breaks, widest, c) ← readBreaks given (c.rest.length + 1) [] 0 c
    let indent := given.getD (Nat.max widest (Nat.max (parent + 1).toNat 1))
    let (text, leading, trailing, c) ←
      readLines literal indent (c.rest.length + 1) [] [] breaks false c
    let tail := match header.chomping with
      | .strip => []
      | .clip => leading
      | .keep => leading ++ trailing
    return (text ++ tail, c)

end Block

end TablePlan.Yaml
