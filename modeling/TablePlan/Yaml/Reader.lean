import TablePlan.Decimal.Reading
import TablePlan.Decimal.Width
import TablePlan.Yaml.Node
import TablePlan.Yaml.Tree

/-!
YAML documents read into nodes. Plain scalars are null, booleans, numbers or texts by their
spelling; aliases are replaced by what they stand for, within bounds on depth and repetition. The
main function is `Node.ofText?`.
-/

namespace TablePlan.Yaml

namespace Scalar

def isNull (text : String) : Bool :=
  ["null", "Null", "NULL", "~"].contains text

def bool? (text : String) : Option Bool :=
  if ["true", "True", "TRUE"].contains text then some true
  else if ["false", "False", "FALSE"].contains text then some false
  else none

def hasLeadingZero (cs : List Char) : Bool :=
  let digits := match cs with
    | '-' :: rest | '+' :: rest => rest
    | _ => cs
  match digits with
  | '0' :: d :: rest => (d :: rest).all Char.isDigit
  | _ => false

def digitValue (c : Char) : Nat :=
  if c.isDigit then c.toNat - '0'.toNat else c.toLower.toNat - 'a'.toNat + 10

def isDigitIn (base : Nat) (c : Char) : Bool :=
  (c.isDigit || ('a' ≤ c && c ≤ 'f') || ('A' ≤ c && c ≤ 'F')) && digitValue c < base

def natIn? (base : Nat) (digits : List Char) : Option Nat :=
  if digits.isEmpty || !digits.all (isDigitIn base) then none
  else some (digits.foldl (fun n c => base * n + digitValue c) 0)

/-- The size of an integer without its sign: in a base named by its mark, or in decimals. -/
def magnitude? : List Char → Option Nat
  | '0' :: 'x' :: rest => natIn? 16 rest
  | '0' :: 'o' :: rest => natIn? 8 rest
  | '0' :: 'b' :: rest => natIn? 2 rest
  | cs => natIn? 10 cs

def int? (text : String) : Option Int :=
  let cs := text.toList
  if hasLeadingZero cs then none
  else match cs with
    | '-' :: rest => (magnitude? rest).map fun n => -(n : Int)
    | '+' :: rest => (magnitude? rest).map fun n => (n : Int)
    | _ => (magnitude? cs).map fun n => (n : Int)

def float? (text : String) : Option Float :=
  let (negative, unsigned) := match text.toList with
    | '-' :: rest => (true, String.ofList rest)
    | '+' :: rest => (false, String.ofList rest)
    | _ => (false, text)
  let signed (x : Float) : Float := if negative then -x else x
  if [".inf", ".Inf", ".INF"].contains unsigned then some (signed (1 / 0))
  else if [".nan", ".NaN", ".NAN"].contains text then some (0 / 0)
  else match Decimal.floatOfText? unsigned with
    | some x => if x.isInf then none else some (signed x)
    | none => none

/-- The integers that a node can hold. -/
def isNodeInt (n : Int) : Bool := Decimal.isWord 64 n

/-- The integers that read as integers at all; longer ones read as doubles. -/
def isInt (n : Int) : Bool := Decimal.isWord 128 n

def intNode? (n : Int) : Option Node :=
  if isNodeInt n then some (.number (.int n)) else none

def spelledInt? (text : String) : Option Int :=
  (int? text).filter isInt

def plainNode? (text : String) : Option Node :=
  if text.isEmpty || isNull text then some .null
  else match bool? text with
    | some b => some (.bool b)
    | none => match spelledInt? text with
      | some n => intNode? n
      | none =>
        if hasLeadingZero text.toList then some (.string text)
        else match float? text with
          | some x => some (.number (.float x))
          | none => some (.string text)

def taggedNode? (tag text : String) : Option Node :=
  if tag = "tag:yaml.org,2002:bool" then (bool? text).map .bool
  else if tag = "tag:yaml.org,2002:int" then (spelledInt? text).bind intNode?
  else if tag = "tag:yaml.org,2002:float" then (float? text).map fun x => .number (.float x)
  else if tag = "tag:yaml.org,2002:null" then if isNull text then some .null else none
  else some (.string text)

end Scalar

namespace Tree

def localTag? (tag : Option String) : Option String :=
  match tag.map String.toList with
  | some ('!' :: name) => some (String.ofList name)
  | _ => none

def anchor? : Tree → Option Nat
  | .scalar anchor _ _ _ | .sequence anchor _ _ | .mapping anchor _ _ => anchor
  | _ => none

mutual

/-- A tree with its subtrees in the order in which they start, the aliases among them. -/
def subtrees : Tree → List Tree
  | .sequence anchor tag items => .sequence anchor tag items :: subtreesOfItems items
  | .mapping anchor tag members => .mapping anchor tag members :: subtreesOfMembers members
  | t => [t]

def subtreesOfItems : List Tree → List Tree
  | [] => []
  | t :: ts => subtrees t ++ subtreesOfItems ts

def subtreesOfMembers : List (Tree × Tree) → List Tree
  | [] => []
  | (key, value) :: rest => subtrees key ++ subtrees value ++ subtreesOfMembers rest

end

def isCollection : Tree → Bool
  | .sequence _ _ _ | .mapping _ _ _ => true
  | _ => false

/-- What aliases may stand for: the anchored trees, of which the last of a number counts, and how
many aliases may be followed. -/
structure Anchors where
  trees : List (Nat × Tree)
  limit : Nat

/-- A document may follow a hundred aliases for each start and end of a node in it. -/
def anchors (document : Tree) : Anchors :=
  let all := document.subtrees
  { trees := all.reverse.filterMap fun t => t.anchor?.map (·, t)
    limit := 100 * (all.length + (all.filter isCollection).length) }

abbrev Composer (α : Type) := StateT Nat Option α

def follow (a : Anchors) : Tree → Composer Tree
  | .reference number => do
    let count := (← get) + 1
    if a.limit < count then failure
    set count
    match a.trees.lookup number with
    | some t => return t
    | none => failure
  | t => return t

/-- Puts a node under the tag of its document, if it has one; the tag must have a name. -/
def underTag (tag : Option String) (node : Node) : Composer Node :=
  match localTag? tag with
  | some name => if name.isEmpty then failure else return .tagged name node
  | none => return node

def addMember (members : List (Node × Node)) (key : Node) (value : Composer Node) :
    Composer (List (Node × Node)) := do
  if members.any fun m => m.1.sameAs key then failure
  return members ++ [(key, ← value)]

/-- The node of a tree. Collections nest no deeper than `depth`. -/
def compose (a : Anchors) : (depth : Nat) → Tree → Composer Node
  | depth, t => do
    match ← follow a t with
    | .void | .reference _ => return .null
    | .scalar _ tag text isPlain =>
      match localTag? tag with
      | some _ =>
        let node ← if isPlain then (Scalar.plainNode? text : Option Node) else pure (.string text)
        underTag tag node
      | none => match tag with
        | some tag => (Scalar.taggedNode? tag text : Option Node)
        | none =>
          if isPlain then (Scalar.plainNode? text : Option Node) else return .string text
    | .sequence _ tag items =>
      match depth with
      | 0 => failure
      | depth + 1 => underTag tag (.sequence (← items.mapM (compose a depth)))
    | .mapping _ tag members =>
      match depth with
      | 0 => failure
      | depth + 1 =>
        let members ← members.foldlM (fun read m => do
          addMember read (← compose a depth m.1) (compose a depth m.2)) []
        underTag tag (.mapping members)

def depthLimit : Nat := 128

def toNode? (document : Tree) : Option Node :=
  (compose document.anchors depthLimit document 0).map Prod.fst

end Tree

namespace Node

/-- The node of the only document of a text; an empty text is null. -/
def ofText? (text : String) : Option Node := do
  (← Tree.ofTokens? (← Token.scan? text)).toNode?

end Node

end TablePlan.Yaml
