import TablePlan.Toml.Value

/-!
TOML documents. A table that a header defines, or that dotted keys build, is closed for the other
way of writing it, and nothing is defined twice. The main function is `Value.ofText?`.
-/

namespace TablePlan.Toml

inductive Origin where
  | header
  /-- As a table around the one that a header defines. -/
  | around
  | dotted
  deriving DecidableEq, Repr

inductive Entry where
  | value (v : Value)
  | table (origin : Origin) (members : List (String × Entry))
  /-- Tables that headers with double brackets define; the last one first. -/
  | tables (items : List (List (String × Entry)))

abbrev Members := List (String × Entry)

namespace Members

def put (name : String) (entry : Entry) : Members → Members
  | [] => [(name, entry)]
  | (other, old) :: rest =>
    if other = name then (name, entry) :: rest else (other, old) :: put name entry rest

/-- Changes the table that a header names, creating tables on the way. -/
def underHeader (change : String → Members → Option Members) :
    (path : List String) → Members → Option Members
  | [], _ => none
  | [name], members => change name members
  | name :: path, members =>
    match members.lookup name with
    | none => do return members.put name (.table .around (← underHeader change path []))
    | some (.table origin inner) => do
      return members.put name (.table origin (← underHeader change path inner))
    | some (.tables (last :: earlier)) => do
      return members.put name (.tables ((← underHeader change path last) :: earlier))
    | _ => none

def define (name : String) (members : Members) : Option Members :=
  match members.lookup name with
  | none => some (members.put name (.table .header []))
  | some (.table .around inner) => some (members.put name (.table .header inner))
  | _ => none

def defineNext (name : String) (members : Members) : Option Members :=
  match members.lookup name with
  | none => some (members.put name (.tables [[]]))
  | some (.tables items) => some (members.put name (.tables ([] :: items)))
  | _ => none

def assign (v : Value) : (key : List String) → Members → Option Members
  | [], _ => none
  | [name], members =>
    match members.lookup name with
    | none => some (members.put name (.value v))
    | some _ => none
  | name :: rest, members =>
    match members.lookup name with
    | none => do return members.put name (.table .dotted (← assign v rest []))
    | some (.table .dotted inner) => do
      return members.put name (.table .dotted (← assign v rest inner))
    | some (.table .around inner) =>
      if rest.length ≤ 1 then none
      else do return members.put name (.table .around (← assign v rest inner))
    | _ => none

/-- Changes the members of the table that was defined last under a path. -/
def within (change : Members → Option Members) : (path : List String) → Members → Option Members
  | [], members => change members
  | name :: path, members =>
    match members.lookup name with
    | some (.table origin inner) => do
      return members.put name (.table origin (← within change path inner))
    | some (.tables (last :: earlier)) => do
      return members.put name (.tables ((← within change path last) :: earlier))
    | _ => none

end Members

mutual

def Entry.toValue : Entry → Value
  | .value v => v
  | .table _ members => .table (valuesOf members)
  | .tables items => .array (tablesOf items).reverse

def valuesOf : List (String × Entry) → List (String × Value)
  | [] => []
  | (name, entry) :: rest => (name, entry.toValue) :: valuesOf rest

def tablesOf : List (List (String × Entry)) → List Value
  | [] => []
  | members :: rest => .table (valuesOf members) :: tablesOf rest

end

namespace TextReader

mutual

/-- A value. Every bracket takes a character, so the length of the text bounds the depth. -/
def valueUpTo : (bound : Nat) → TextReader Value
  | 0 => failure
  | bound + 1 => do
    if ← skipIf ['['] then return .array (← itemsUpTo bound)
    else if ← skipIf ['\x7b'] then
      blanks
      if ← skipIf ['\x7d'] then return .table []
      else return .table (valuesOf (← inlineUpTo bound []))
    else scalar

/-- The items of an array after its opening bracket; a comma may stand after the last one. -/
def itemsUpTo : (bound : Nat) → TextReader (List Value)
  | 0 => failure
  | bound + 1 => do
    space
    if ← skipIf [']'] then return []
    let item ← valueUpTo bound
    space
    if ← skipIf [','] then return item :: (← itemsUpTo bound)
    else
      expect [']']
      return [item]

def inlineUpTo : (bound : Nat) → Members → TextReader Members
  | 0, _ => failure
  | bound + 1, members => do
    blanks
    let name ← key
    expect ['=']
    blanks
    let v ← valueUpTo bound
    blanks
    let members ← (Members.assign v name members : Option Members)
    if ← skipIf [','] then inlineUpTo bound members
    else
      expect ['\x7d']
      return members

end

/-- A document so far: its tables, and the path of the one that keys belong to. -/
structure Progress where
  root : Members
  path : List String

def definition (p : Progress) : TextReader Progress := do
  if ← skipIf ['[', '['] then
    blanks
    let path ← key
    expect [']', ']']
    return ⟨← (p.root.underHeader Members.defineNext path : Option Members), path⟩
  else if ← skipIf ['['] then
    blanks
    let path ← key
    expect [']']
    return ⟨← (p.root.underHeader Members.define path : Option Members), path⟩
  else
    let name ← key
    expect ['=']
    blanks
    let v ← valueUpTo ((← get).length + 1)
    return { p with
      root := ← (p.root.within (Members.assign v name) p.path : Option Members) }

def definitions : (bound : Nat) → Progress → TextReader Progress
  | 0, _ => failure
  | bound + 1, p => do
    space
    match ← peek? with
    | none => return p
    | some _ =>
      let p ← definition p
      blanks
      comment
      if ← newline? then definitions bound p
      else
        match ← peek? with
        | none => return p
        | some _ => failure

end TextReader

namespace Value

/-- The members of the table that a text is; a mark of byte order may stand in front. -/
def ofText? (text : String) : Option (List (String × Value)) :=
  let cs := match text.toList with
    | '\ufeff' :: rest => rest
    | cs => cs
  match TextReader.definitions (cs.length + 1) ⟨[], []⟩ cs with
  | some (p, _) => some (valuesOf p.root)
  | none => none

end Value

end TablePlan.Toml
