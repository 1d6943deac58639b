/-!
YAML documents as data. Members of a mapping keep their order and no key occurs twice in it; keys
are equal when they are the same value.
-/

namespace TablePlan.Yaml

inductive Number where
  | int (value : Int)
  | float (value : Float)

namespace Number

/-- Every value that is no number equals every other one. -/
def sameAs : Number → Number → Bool
  | .int a, .int b => a == b
  | .float a, .float b => (a.isNaN && b.isNaN) || a == b
  | _, _ => false

end Number

inductive Node where
  | null
  | bool (value : Bool)
  | number (value : Number)
  | string (value : String)
  | sequence (items : List Node)
  | mapping (members : List (Node × Node))
  | tagged (tag : String) (inner : Node)
  deriving Inhabited

inductive Kind where
  | null | boolean | number | string | sequence | mapping | tagged
  deriving DecidableEq, Repr

namespace Kind

def name : Kind → String
  | .null => "null"
  | .boolean => "boolean"
  | .number => "number"
  | .string => "string"
  | .sequence => "sequence"
  | .mapping => "mapping"
  | .tagged => "tagged value"

end Kind

namespace Node

def kind : Node → Kind
  | .null => .null
  | .bool _ => .boolean
  | .number _ => .number
  | .string _ => .string
  | .sequence _ => .sequence
  | .mapping _ => .mapping
  | .tagged _ _ => .tagged

mutual

/-- Whether two nodes are the same value. Members of mappings may stand in any order. -/
def sameAs : Node → Node → Bool
  | .null, .null => true
  | .bool a, .bool b => a == b
  | .number a, .number b => a.sameAs b
  | .string a, .string b => a == b
  | .sequence as, .sequence bs => sameItems as bs
  | .mapping as, .mapping bs => as.length == bs.length && membersIn as bs
  | .tagged s a, .tagged t b => s == t && sameAs a b
  | _, _ => false

def sameItems : List Node → List Node → Bool
  | [], [] => true
  | a :: as, b :: bs => sameAs a b && sameItems as bs
  | _, _ => false

def membersIn : List (Node × Node) → List (Node × Node) → Bool
  | [], _ => true
  | (key, value) :: rest, members =>
    members.any (fun m => sameAs key m.1 && sameAs value m.2) && membersIn rest members

end

def get? (name : String) (members : List (Node × Node)) : Option Node :=
  (members.find? fun m => match m.1 with
    | .string key => key == name
    | _ => false).map Prod.snd

end Node

end TablePlan.Yaml
