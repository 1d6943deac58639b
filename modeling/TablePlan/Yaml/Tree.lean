import TablePlan.Yaml.Token

/-!
The tree of a YAML document, where tags are complete and aliases name what they stand for by the
number of its anchor.
-/

namespace TablePlan.Yaml

inductive Tree where
  | void
  | scalar (anchor : Option Nat) (tag : Option String) (text : String) (isPlain : Bool)
  | sequence (anchor : Option Nat) (tag : Option String) (items : List Tree)
  | mapping (anchor : Option Nat) (tag : Option String) (members : List (Tree × Tree))
  | reference (anchor : Nat)

structure TreeState where
  tokens : List Token
  handles : List (String × String)
  anchors : List (String × Nat)

abbrev TreeParser (α : Type) := StateT TreeState Option α

namespace TreeParser

def peek : TreeParser Token := do
  match (← get).tokens with
  | t :: _ => return t
  | [] => failure

def skip : TreeParser Unit := modify fun s => { s with tokens := s.tokens.drop 1 }

def expect (t : Token) : TreeParser Unit := do
  if (← peek) = t then skip else failure

def skipIf (t : Token) : TreeParser Bool := do
  if (← peek) = t then
    skip
    return true
  else return false

/-- A number for an anchor: how many names of anchors there were before. A name that is used again
gets a new number all the same. -/
def newAnchor (name : String) : TreeParser Nat := do
  let anchors := (← get).anchors
  let number := anchors.length
  modify fun s => { s with anchors := (name, number) :: anchors.filter (·.1 != name) }
  return number

/-- A tag from its handle and suffix; a tag without a handle is complete. -/
def fullTag (handle suffix : String) : TreeParser String := do
  if handle.isEmpty then return suffix
  else
    match (← get).handles.lookup handle with
    | some expansion => return expansion ++ suffix
    | none => failure

structure Properties where
  anchor : Option String
  tag : Option String

def anchorName? : TreeParser (Option String) := do
  match ← peek with
  | .anchor name =>
    skip
    return some name
  | _ => return none

def tagText? : TreeParser (Option String) := do
  match ← peek with
  | .tag handle suffix =>
    skip
    return some (← fullTag handle suffix)
  | _ => return none

def properties : TreeParser Properties := do
  match ← anchorName? with
  | some name => return ⟨some name, ← tagText?⟩
  | none =>
    let tag ← tagText?
    return ⟨← if tag.isSome then anchorName? else pure none, tag⟩

def omitted : Tree := .scalar none none "" true

def scalarTag (tag : Option String) : Option String :=
  if tag = some "!" then none else tag

/-- Where a node stands, and so which tokens may start it. -/
inductive Position where
  | flow
  | block
  /-- As a member of a block mapping, whose sequences need no indentation. -/
  | member
  deriving DecidableEq

mutual

/-- A node. Every call takes a token before the next one of its kind, so a bound of some times the
number of tokens is enough. -/
def node : (bound : Nat) → Position → TreeParser Tree
  | 0, _ => failure
  | bound + 1, position => do
    match ← peek with
    | .reference name =>
      match (← get).anchors.lookup name with
      | some number =>
        skip
        return .reference number
      | none => failure
    | _ =>
      let p ← properties
      let anchor ← p.anchor.mapM newAnchor
      match ← peek with
      | .scalar text isPlain =>
        skip
        return .scalar anchor (scalarTag p.tag) text isPlain
      | .flowSequenceStart =>
        skip
        return .sequence anchor p.tag (← flowItems bound true)
      | .flowMappingStart =>
        skip
        return .mapping anchor p.tag (← flowMembers bound true)
      | .blockSequenceStart =>
        if position = .flow then failure
        skip
        return .sequence anchor p.tag (← blockItems bound)
      | .blockMappingStart =>
        if position = .flow then failure
        skip
        return .mapping anchor p.tag (← blockMembers bound)
      | t =>
        if t = .blockEntry ∧ position = .member then
          return .sequence anchor p.tag (← looseItems bound)
        else if p.anchor.isSome || p.tag.isSome then return .scalar anchor p.tag "" true
        else failure

def nodeUnless : (bound : Nat) → Position → List Token → TreeParser Tree
  | 0, _, _ => failure
  | bound + 1, position, ends => do
    if ends.contains (← peek) then return omitted else node bound position

def blockItems : (bound : Nat) → TreeParser (List Tree)
  | 0 => failure
  | bound + 1 => do
    if ← skipIf .blockEntry then
      let item ← nodeUnless bound .block [.blockEntry, .blockEnd]
      return item :: (← blockItems bound)
    else
      expect .blockEnd
      return []

def looseItems : (bound : Nat) → TreeParser (List Tree)
  | 0 => failure
  | bound + 1 => do
    if ← skipIf .blockEntry then
      let item ← nodeUnless bound .block [.blockEntry, .key, .value, .blockEnd]
      return item :: (← looseItems bound)
    else return []

def blockMembers : (bound : Nat) → TreeParser (List (Tree × Tree))
  | 0 => failure
  | bound + 1 => do
    if ← skipIf .key then
      let key ← nodeUnless bound .member [.key, .value, .blockEnd]
      let value ←
        if ← skipIf .value then nodeUnless bound .member [.key, .value, .blockEnd]
        else pure omitted
      return (key, value) :: (← blockMembers bound)
    else
      expect .blockEnd
      return []

/-- The items of a flow sequence up to its end; `first` before any item was read. -/
def flowItems : (bound : Nat) → (first : Bool) → TreeParser (List Tree)
  | 0, _ => failure
  | bound + 1, first => do
    if ← skipIf .flowSequenceEnd then return []
    if !first then expect .flowEntry
    if ← skipIf .flowSequenceEnd then return []
    let item ←
      if ← skipIf .key then
        let ends := [Token.value, .flowEntry, .flowSequenceEnd]
        let key ←
          if ends.contains (← peek) then do
            skip
            pure omitted
          else node bound .flow
        let value ←
          if ← skipIf .value then nodeUnless bound .flow [.flowEntry, .flowSequenceEnd]
          else pure omitted
        pure (.mapping none none [(key, value)])
      else node bound .flow
    return item :: (← flowItems bound false)

def flowMembers : (bound : Nat) → (first : Bool) → TreeParser (List (Tree × Tree))
  | 0, _ => failure
  | bound + 1, first => do
    if ← skipIf .flowMappingEnd then return []
    if !first then expect .flowEntry
    if ← skipIf .flowMappingEnd then return []
    let member ←
      if ← skipIf .key then
        let key ← nodeUnless bound .flow [.value, .flowEntry, .flowMappingEnd]
        let value ←
          if ← skipIf .value then nodeUnless bound .flow [.flowEntry, .flowMappingEnd]
          else pure omitted
        pure (key, value)
      else
        let key ← node bound .flow
        pure (key, omitted)
    return member :: (← flowMembers bound false)

end

def commonHandles : List (String × String) :=
  [("!", "!"), ("!!", "tag:yaml.org,2002:")]

/-- Reads directives: one version at most, and each handle once. -/
def directives : (bound : Nat) → (version : Bool) → List (String × String) →
    TreeParser (List (String × String))
  | 0, _, _ => failure
  | bound + 1, version, handles => do
    match ← peek with
    | .versionDirective major minor =>
      if version || major ≠ 1 || (minor ≠ 1 && minor ≠ 2) then failure
      skip
      directives bound true handles
    | .tagDirective handle expansion =>
      if (handles.lookup handle).isSome then failure
      skip
      directives bound version ((handle, expansion) :: handles)
    | _ => return handles

def documentNode (bound : Nat) : TreeParser Tree := do
  let t ← peek
  if t = .documentStart then
    skip
    match ← peek with
    | .versionDirective _ _ | .tagDirective _ _ | .documentStart | .documentEnd | .streamEnd =>
      return omitted
    | _ => node bound .block
  else node bound .block

def skipDocumentEnds : (bound : Nat) → TreeParser Unit
  | 0 => failure
  | bound + 1 => do if ← skipIf .documentEnd then skipDocumentEnds bound

def document : TreeParser Tree := do
  let bound := (← get).tokens.length + 1
  if ← skipIf .streamEnd then return .void
  let first ← peek
  let handles ← directives bound false []
  modify fun s => { s with handles := handles ++ commonHandles }
  let started := (← peek) = .documentStart
  let hasDirectives := first != (← peek)
  if hasDirectives && !started then failure
  let tree ← documentNode (4 * bound)
  skipDocumentEnds bound
  expect .streamEnd
  return tree

end TreeParser

namespace Tree

def ofTokens? (tokens : List Token) : Option Tree :=
  (TreeParser.document ⟨tokens, [], []⟩).map Prod.fst

end Tree

end TablePlan.Yaml
