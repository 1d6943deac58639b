/-!
A place in a YAML text: what is still to be read, with the line and column reached. Lines end in
any of the breaks of YAML, and a carriage return with a line feed is one break.
-/

namespace TablePlan.Yaml

def isAllowed (c : Char) : Bool :=
  let n := c.toNat
  n == 0x9 || n == 0xa || n == 0xd || (0x20 ≤ n && n ≤ 0x7e) || n == 0x85 ||
    (0xa0 ≤ n && n ≤ 0xfffd) || 0x10000 ≤ n

def isBreak (c : Char) : Bool :=
  c == '\n' || c == '\r' || c == '\x85' || c == '\u2028' || c == '\u2029'

def isBlank (c : Char) : Bool :=
  c == ' ' || c == '\t'

def isNameChar (c : Char) : Bool :=
  c.isAlphanum || c == '_' || c == '-'

structure Cursor where
  rest : List Char
  offset : Nat
  line : Nat
  column : Nat
  deriving DecidableEq, Repr

namespace Cursor

def start (text : List Char) : Cursor := ⟨text, 0, 0, 0⟩

def peek? (c : Cursor) : Option Char := c.rest.head?

def isNext (c : Cursor) (p : Char → Bool) : Bool :=
  (c.rest.head?.map p).getD false

def atEnd (c : Cursor) : Bool := c.rest.isEmpty

def atBlank (c : Cursor) : Bool := c.isNext isBlank

def atBreak (c : Cursor) : Bool := c.isNext isBreak

def atBreakOrEnd (c : Cursor) : Bool := c.atEnd || c.atBreak

def endsWord (text : List Char) : Bool :=
  match text with
  | [] => true
  | c :: _ => isBlank c || isBreak c

def atSpace (c : Cursor) : Bool := endsWord c.rest

def skip (c : Cursor) : Cursor :=
  match c.rest with
  | [] => c
  | d :: rest => ⟨rest, c.offset + d.utf8Size, c.line, c.column + 1⟩

def skipMany (c : Cursor) (count : Nat) : Cursor :=
  count.repeat skip c

def skipBreak (c : Cursor) : Cursor :=
  match c.rest with
  | '\r' :: '\n' :: rest => ⟨rest, c.offset + 2, c.line + 1, 0⟩
  | d :: rest => if isBreak d then ⟨rest, c.offset + d.utf8Size, c.line + 1, 0⟩ else c
  | [] => c

/-- The break ahead as it stands in a value, and the place after it: only the separators of lines
and paragraphs keep their character. -/
def readBreak (c : Cursor) : List Char × Cursor :=
  match c.rest with
  | d :: _ =>
    if d = '\u2028' ∨ d = '\u2029' then ([d], c.skipBreak)
    else if isBreak d then (['\n'], c.skipBreak)
    else ([], c)
  | [] => ([], c)

def readWhile (c : Cursor) (p : Char → Bool) : List Char × Cursor :=
  let read := c.rest.takeWhile fun d => p d && !isBreak d
  (read, c.skipMany read.length)

def skipWhile (c : Cursor) (p : Char → Bool) : Cursor := (c.readWhile p).2

def atDocumentMark (c : Cursor) (mark : Char) : Bool :=
  c.column == 0 && [mark, mark, mark].isPrefixOf c.rest && endsWord (c.rest.drop 3)

def atAnyDocumentMark (c : Cursor) : Bool :=
  c.atDocumentMark '-' || c.atDocumentMark '.'

end Cursor

end TablePlan.Yaml
