/-!
JSON documents as data. Members of an object keep their order and may repeat, and a number keeps
its text, so that a document says no less than what was written.
-/

namespace TablePlan

inductive Json where
  | null
  | bool (value : Bool)
  | number (text : String)
  | string (value : String)
  | array (items : List Json)
  | object (members : List (String × Json))
  deriving Inhabited

namespace Json

def ofInt (n : Int) : Json := .number (toString n)

def ofOption {α : Type} (f : α → Json) : Option α → Json
  | some a => f a
  | none => .null

/-- The value of the last member of a name. -/
def get? (name : String) : Json → Option Json
  | .object members => (members.reverse.find? fun m => m.1 == name).map Prod.snd
  | _ => none

end Json

end TablePlan
