/-!
The smallest parts of a TOML text: blanks, comments, line ends, strings and keys. A reader takes
its part off the front of the text, or fails.
-/

namespace TablePlan.Toml

abbrev TextReader (α : Type) := StateT (List Char) Option α

namespace TextReader

def peek? : TextReader (Option Char) := return (← get).head?

def next : TextReader Char := do
  match ← get with
  | c :: rest =>
    set rest
    return c
  | [] => failure

def skipIf (mark : List Char) : TextReader Bool := do
  let text ← get
  if mark.isPrefixOf text then
    set (text.drop mark.length)
    return true
  else return false

def expect (mark : List Char) : TextReader Unit := do
  if ← skipIf mark then return () else failure

def takeWhile (p : Char → Bool) : TextReader (List Char) := do
  let text ← get
  set (text.dropWhile p)
  return text.takeWhile p

def isBlank (c : Char) : Bool := c == ' ' || c == '\t'

def blanks : TextReader Unit := do
  let _ ← takeWhile isBlank

/-- Control characters stand nowhere in a document but in escapes, the tab apart. -/
def isControl (c : Char) : Bool :=
  (c.toNat < 0x20 && c != '\t') || c.toNat == 0x7f

def comment : TextReader Unit := do
  if ← skipIf ['#'] then
    let _ ← takeWhile fun c => !isControl c

def newline? : TextReader Bool := do
  if ← skipIf ['\n'] then return true else skipIf ['\r', '\n']

def spaceUpTo : (bound : Nat) → TextReader Unit
  | 0 => return ()
  | bound + 1 => do
    blanks
    comment
    if ← newline? then spaceUpTo bound

def space : TextReader Unit := do
  spaceUpTo ((← get).length + 1)

def isHexDigit (c : Char) : Bool :=
  c.isDigit || ('a' ≤ c && c ≤ 'f') || ('A' ≤ c && c ≤ 'F')

def hexValue (digits : List Char) : Nat :=
  digits.foldl (fun n c =>
    16 * n + if c.isDigit then c.toNat - '0'.toNat else c.toLower.toNat - 'a'.toNat + 10) 0

def numbered (width : Nat) : TextReader Char := do
  let text ← get
  let digits := text.take width
  let n := hexValue digits
  if digits.length < width || !digits.all isHexDigit || (0xd800 ≤ n && n < 0xe000) ||
      0x110000 ≤ n then failure
  set (text.drop width)
  return Char.ofNat n

def escape : TextReader Char := do
  match ← next with
  | 'b' => return '\x08'
  | 't' => return '\t'
  | 'n' => return '\n'
  | 'f' => return '\x0c'
  | 'r' => return '\r'
  | '"' => return '"'
  | '\\' => return '\\'
  | 'u' => numbered 4
  | 'U' => numbered 8
  | _ => failure

/-- A string on one line after its opening quote; escapes count in double quotes only. -/
def lineString (quote : Char) : (bound : Nat) → TextReader (List Char)
  | 0 => failure
  | bound + 1 => do
    let c ← next
    if c = quote then return []
    else if c = '\\' ∧ quote = '"' then return (← escape) :: (← lineString quote bound)
    else if isControl c then failure
    else return c :: (← lineString quote bound)

/-- Skips the rest of a line after a backslash, and all blanks and line ends after it. -/
def skipLineEnd : TextReader Unit := do
  blanks
  if ← newline? then
    let _ ← takeWhile fun c => isBlank c || c == '\n' || c == '\r'
  else failure

def endsLine (text : List Char) : Bool :=
  match text.dropWhile isBlank with
  | '\n' :: _ | '\r' :: '\n' :: _ => true
  | _ => false

/-- A string over several lines after its opening quotes. Up to two quotes may stand before the
closing ones. -/
def blockString (quote : Char) : (bound : Nat) → TextReader (List Char)
  | 0 => failure
  | bound + 1 => do
    let text ← get
    let quotes := (text.takeWhile (· == quote)).length
    if 3 ≤ quotes then
      if 5 < quotes then failure
      set (text.drop quotes)
      return List.replicate (quotes - 3) quote
    let c ← next
    if c = '\\' ∧ quote = '"' then
      if endsLine (← get) then
        skipLineEnd
        blockString quote bound
      else return (← escape) :: (← blockString quote bound)
    else if c = '\n' then return c :: (← blockString quote bound)
    else if c = '\r' then
      expect ['\n']
      return '\n' :: (← blockString quote bound)
    else if isControl c then failure
    else return c :: (← blockString quote bound)

/-- A string in quotes of its kind, one or three; a line end right after three is dropped. -/
def string (quote : Char) : TextReader String := do
  let bound := (← get).length + 1
  if ← skipIf [quote, quote, quote] then
    let _ ← newline?
    return String.ofList (← blockString quote bound)
  else
    expect [quote]
    return String.ofList (← lineString quote bound)

def isBareKeyChar (c : Char) : Bool :=
  c.isAlphanum || c == '_' || c == '-'

def keyPart : TextReader String := do
  match ← peek? with
  | some '"' => quoted '"'
  | some '\'' => quoted '\''
  | _ =>
    let name ← takeWhile isBareKeyChar
    if name.isEmpty then failure
    return String.ofList name
where
  quoted (quote : Char) : TextReader String := do
    expect [quote]
    return String.ofList (← lineString quote ((← get).length + 1))

def keyParts : (bound : Nat) → TextReader (List String)
  | 0 => failure
  | bound + 1 => do
    let part ← keyPart
    blanks
    if ← skipIf ['.'] then
      blanks
      return part :: (← keyParts bound)
    else return [part]

def key : TextReader (List String) := do
  keyParts ((← get).length + 1)

end TextReader

end TablePlan.Toml
