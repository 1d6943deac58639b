import TablePlan.Yaml.Scalar

/-!
Tokens of a YAML text. Scanning turns indentation into tokens that open and close blocks, and marks
each place where a key may turn out to stand; a colon later settles the marks that were keys.
-/

namespace TablePlan.Yaml

inductive Token where
  | streamEnd
  | versionDirective (major minor : Nat)
  | tagDirective (handle expansion : String)
  | documentStart | documentEnd
  | blockSequenceStart | blockMappingStart | blockEnd
  | flowSequenceStart | flowSequenceEnd | flowMappingStart | flowMappingEnd
  | blockEntry | flowEntry
  | key | value
  | reference (name : String)
  | anchor (name : String)
  | tag (handle suffix : String)
  | scalar (text : String) (isPlain : Bool)
  deriving DecidableEq, Repr

/-- A token, or a place where a key may stand. -/
inductive Piece where
  | token (t : Token)
  | place (number : Nat)
  deriving DecidableEq, Repr

structure KeyPlace where
  number : Nat
  required : Bool
  offset : Nat
  line : Nat
  column : Nat
  deriving DecidableEq, Repr

structure ScanState where
  cursor : Cursor
  /-- What was scanned, the last first. -/
  pieces : List Piece
  places : Nat
  /-- The places that turned out to be keys, and whether a block mapping starts there. -/
  settled : List (Nat × Bool)
  flowDepth : Nat
  indent : Int
  outerIndents : List Int
  keyAllowed : Bool
  /-- The possible key of each open flow collection, and of the block structure last. -/
  keys : List (Option KeyPlace)

namespace ScanState

def start (text : List Char) : ScanState where
  cursor := Cursor.start text
  pieces := []
  places := 0
  settled := []
  flowDepth := 0
  indent := -1
  outerIndents := []
  keyAllowed := true
  keys := [none]

def inFlow (s : ScanState) : Bool := s.flowDepth != 0

def emit (s : ScanState) (t : Token) : ScanState :=
  { s with pieces := .token t :: s.pieces }

def moveTo (s : ScanState) (c : Cursor) : ScanState := { s with cursor := c }

def allowKey (s : ScanState) (allowed : Bool) : ScanState := { s with keyAllowed := allowed }

def take (s : ScanState) (t : Token) (width : Nat) : ScanState :=
  (s.emit t).moveTo (s.cursor.skipMany width)

/-- Forgets a possible key; one that had to be a key is a fault. -/
def dropKey (s : ScanState) : Option ScanState :=
  match s.keys with
  | some place :: keys => if place.required then none else some { s with keys := none :: keys }
  | _ => some s

def markKey (s : ScanState) : Option ScanState :=
  if s.keyAllowed then do
    let s ← s.dropKey
    let required := !s.inFlow && s.indent == (s.cursor.column : Int)
    let place : KeyPlace :=
      ⟨s.places, required, s.cursor.offset, s.cursor.line, s.cursor.column⟩
    some { s with
      pieces := .place s.places :: s.pieces
      places := s.places + 1
      keys := some place :: s.keys.drop 1 }
  else some s

/-- A key ends on its own line and within 1024 bytes. -/
def isStale (c : Cursor) (place : KeyPlace) : Bool :=
  place.line < c.line || place.offset + 1024 < c.offset

def dropStaleKeys (s : ScanState) : Option ScanState := do
  let keys ← s.keys.mapM fun key => match key with
    | some place =>
      if isStale s.cursor place then (if place.required then none else some none)
      else some (some place)
    | none => some none
  return { s with keys }

def openBlock (s : ScanState) (column : Nat) (t : Token) : ScanState :=
  if s.inFlow || (column : Int) ≤ s.indent then s
  else { s.emit t with indent := column, outerIndents := s.indent :: s.outerIndents }

def closeBlocks (s : ScanState) (column : Int) : ScanState :=
  if s.inFlow then s else go s.outerIndents s
where
  go : List Int → ScanState → ScanState
    | [], s => s
    | outer :: rest, s =>
      if s.indent ≤ column then s
      else go rest { s.emit .blockEnd with indent := outer, outerIndents := rest }

/-- Skips blanks, comments and breaks. Where a key may start in the block structure, a tab is no
blank. -/
def skipSpace : (bound : Nat) → ScanState → ScanState
  | 0, s => s
  | bound + 1, s =>
    let tabs := s.inFlow || !s.keyAllowed
    let c := s.cursor
    let c := if c.offset = 0 ∧ c.peek? = some '\ufeff' then c.skip else c
    let c := c.skipWhile fun d => d == ' ' || (tabs && d == '\t')
    let c := if c.isNext (· == '#') then c.skipWhile fun _ => true else c
    if c.atBreak then
      skipSpace bound { s with cursor := c.skipBreak, keyAllowed := s.keyAllowed || !s.inFlow }
    else s.moveTo c

def directiveNumber? (c : Cursor) : Option (Nat × Cursor) :=
  let (digits, after) := c.readWhile Char.isDigit
  if digits.isEmpty || 9 < digits.length then none
  else some ((String.ofList digits).toNat?.getD 0, after)

/-- A tag handle: letters between exclamation marks, or a single mark with letters after it. -/
def tagHandle? (inDirective : Bool) (c : Cursor) : Option (List Char × Cursor) :=
  if !c.isNext (· == '!') then none
  else
    let (name, after) := c.skip.readWhile isNameChar
    if after.isNext (· == '!') then some ('!' :: name ++ ['!'], after.skip)
    else if inDirective && !name.isEmpty then none
    else some ('!' :: name, after)

def isTagChar (verbatim : Bool) (c : Char) : Bool :=
  isNameChar c || ";/?:@&=+$.!~*'()".toList.contains c || (verbatim && [',', '[', ']'].contains c)

def percentBytes : List Char → List UInt8 × Nat
  | '%' :: a :: b :: rest =>
    if Quoted.isHexDigit a && Quoted.isHexDigit b then
      let (bytes, width) := percentBytes rest
      (UInt8.ofNat (Quoted.hexValue [a, b]) :: bytes, width + 3)
    else ([], 0)
  | _ => ([], 0)

def tagChars? (verbatim : Bool) : (bound : Nat) → Cursor → Option (List Char × Cursor)
  | 0, c => some ([], c)
  | bound + 1, c =>
    match c.peek? with
    | some d =>
      if isTagChar verbatim d then
        (tagChars? verbatim bound c.skip).map fun (read, c) => (d :: read, c)
      else if d = '%' then
        let (bytes, width) := percentBytes c.rest
        if width = 0 then none
        else do
          let decoded ← String.fromUTF8? ⟨bytes.toArray⟩
          let (read, c) ← tagChars? verbatim bound (c.skipMany width)
          return (decoded.toList ++ read, c)
      else some ([], c)
    | none => some ([], c)

def readTagChars? (verbatim : Bool) (c : Cursor) : Option (List Char × Cursor) :=
  tagChars? verbatim (c.rest.length + 1) c

/-- The end of a directive: nothing but blanks and a comment up to the break, which is skipped. -/
def endDirective? (c : Cursor) : Option Cursor :=
  let c := c.skipWhile isBlank
  let c := if c.isNext (· == '#') then c.skipWhile fun _ => true else c
  if c.atBreakOrEnd then some c.skipBreak else none

def directive? (c : Cursor) : Option (Token × Cursor) := do
  let (name, c) := c.skip.readWhile isNameChar
  if name.isEmpty || !c.atSpace then none
  else
    let c := c.skipWhile isBlank
    if name = "YAML".toList then
      let (major, c) ← directiveNumber? c
      if !c.isNext (· == '.') then none
      else
        let (minor, c) ← directiveNumber? c.skip
        return (.versionDirective major minor, ← endDirective? c)
    else if name = "TAG".toList then
      let (handle, c) ← tagHandle? true c
      if !c.atBlank then none
      else
        let (expansion, c) ← readTagChars? true (c.skipWhile isBlank)
        if expansion.isEmpty || !c.atSpace then none
        else return (.tagDirective (String.ofList handle) (String.ofList expansion),
          ← endDirective? c)
    else none

def anchorName? (c : Cursor) : Option (String × Cursor) :=
  let (name, after) := c.skip.readWhile isNameChar
  let ends := after.atSpace || after.isNext fun d => "?:,]\x7d%@`".toList.contains d
  if name.isEmpty || !ends then none else some (String.ofList name, after)

/-- A tag by its handle and what follows it; a tag in angle brackets and a lone mark have no
handle. -/
def tag? (inFlow : Bool) (c : Cursor) : Option (Token × Cursor) := do
  let (handle, suffix, c) ←
    if ['!', '<'].isPrefixOf c.rest then do
      let (suffix, c) ← readTagChars? true (c.skipMany 2)
      if suffix.isEmpty || !c.isNext (· == '>') then none else some ([], suffix, c.skip)
    else do
      let (handle, c) ← tagHandle? false c
      let (suffix, c) ← readTagChars? false c
      if handle.length > 1 && handle.getLast? == some '!' then
        if suffix.isEmpty then none else some (handle, suffix, c)
      else
        let suffix := handle.drop 1 ++ suffix
        if suffix.isEmpty then some ([], ['!'], c) else some (['!'], suffix, c)
  if c.atSpace || (inFlow && c.isNext (· == ',')) then
    return (.tag (String.ofList handle) (String.ofList suffix), c)
  else none

def startsPlain (inFlow : Bool) (text : List Char) : Bool :=
  match text with
  | [] => false
  | c :: rest =>
    let marks := "-?:,[]\x7b\x7d#&*!|>'\"%@`".toList
    !(isBlank c || isBreak c || marks.contains c) ||
      (c == '-' && !(rest.head?.map isBlank).getD false) ||
      (!inFlow && (c == '?' || c == ':') && !Cursor.endsWord rest)

def scalarToken (text : List Char) (isPlain : Bool) : Token :=
  .scalar (String.ofList text) isPlain

def takeValue (s : ScanState) : Option ScanState :=
  match s.keys with
  | some place :: keys =>
    let opens := !s.inFlow && s.indent < (place.column : Int)
    let s := { s with settled := (place.number, opens) :: s.settled, keys := none :: keys }
    let s := if opens then
        { s with indent := place.column, outerIndents := s.indent :: s.outerIndents }
      else s
    some ((s.allowKey false).take .value 1)
  | _ =>
    if !s.inFlow && !s.keyAllowed then none
    else
      let s := s.openBlock s.cursor.column .blockMappingStart
      some ((s.allowKey !s.inFlow).take .value 1)

def step (s : ScanState) : Option ScanState := do
  let s := s.skipSpace (s.cursor.rest.length + 1)
  let s ← s.dropStaleKeys
  let s := s.closeBlocks s.cursor.column
  let c := s.cursor
  let nextEnds := Cursor.endsWord (c.rest.drop 1)
  match c.peek? with
  | none =>
    let s ← (s.closeBlocks (-1)).dropKey
    return s.emit .streamEnd
  | some d =>
    if c.column = 0 ∧ d = '%' then
      let s ← (s.closeBlocks (-1)).dropKey
      let (t, c) ← directive? c
      return ((s.allowKey false).emit t).moveTo c
    else if c.atAnyDocumentMark then
      let s ← (s.closeBlocks (-1)).dropKey
      return (s.allowKey false).take (if d = '-' then .documentStart else .documentEnd) 3
    else if d = '[' ∨ d = '\x7b' then
      let s ← s.markKey
      let s := { s with flowDepth := s.flowDepth + 1, keys := none :: s.keys }
      return (s.allowKey true).take (if d = '[' then .flowSequenceStart else .flowMappingStart) 1
    else if d = ']' ∨ d = '\x7d' then
      let s ← s.dropKey
      let s := if s.inFlow then { s with flowDepth := s.flowDepth - 1, keys := s.keys.drop 1 }
        else s
      return (s.allowKey false).take (if d = ']' then .flowSequenceEnd else .flowMappingEnd) 1
    else if d = ',' then
      return ((← s.dropKey).allowKey true).take .flowEntry 1
    else if d = '-' ∧ nextEnds then
      if !s.inFlow && !s.keyAllowed then none
      else
        let s ← (s.openBlock c.column .blockSequenceStart).dropKey
        return (s.allowKey true).take .blockEntry 1
    else if d = '?' ∧ (s.inFlow ∨ nextEnds) then
      if !s.inFlow && !s.keyAllowed then none
      else
        let s ← (s.openBlock c.column .blockMappingStart).dropKey
        return (s.allowKey !s.inFlow).take .key 1
    else if d = ':' ∧ (s.inFlow ∨ nextEnds) then s.takeValue
    else if d = '*' ∨ d = '&' then
      let s ← s.markKey
      let (name, c) ← anchorName? c
      return ((s.allowKey false).emit (if d = '*' then .reference name else .anchor name)).moveTo c
    else if d = '!' then
      let s ← s.markKey
      let (t, c) ← tag? s.inFlow c
      return ((s.allowKey false).emit t).moveTo c
    else if (d = '|' ∨ d = '>') ∧ !s.inFlow then
      let s ← s.dropKey
      let (text, c) ← Block.read (d == '|') s.indent c
      return ((s.allowKey true).emit (scalarToken text false)).moveTo c
    else if d = '\'' ∨ d = '"' then
      let s ← s.markKey
      let (text, c) ← Quoted.read d c
      return ((s.allowKey false).emit (scalarToken text false)).moveTo c
    else if startsPlain s.inFlow c.rest then
      let s ← s.markKey
      let (text, broken, c) ← Plain.read s.inFlow (s.indent + 1).toNat c
      return ((s.allowKey broken).emit (scalarToken text true)).moveTo c
    else none

def isDone (s : ScanState) : Bool := s.pieces.head? == some (.token .streamEnd)

/-- Scans to the end of the text; every token but the last takes a character. -/
def run : (bound : Nat) → ScanState → Option ScanState
  | 0, _ => none
  | bound + 1, s => do
    let s ← s.step
    if s.isDone then return s else run bound s

/-- The tokens of what was scanned: a settled place is a key, any other is dropped. -/
def tokens (s : ScanState) : List Token :=
  s.pieces.reverse.flatMap fun piece => match piece with
    | .token t => [t]
    | .place number => match s.settled.lookup number with
      | some true => [.blockMappingStart, .key]
      | some false => [.key]
      | none => []

end ScanState

namespace Token

/-- The tokens of a text. A mark of byte order may stand in front; other characters that no
document may hold are refused. -/
def scan? (text : String) : Option (List Token) :=
  let cs := match text.toList with
    | '\ufeff' :: rest => rest
    | cs => cs
  if !cs.all isAllowed then none
  else (ScanState.run (cs.length + 2) (ScanState.start cs)).map ScanState.tokens

end Token

end TablePlan.Yaml
