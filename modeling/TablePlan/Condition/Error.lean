/-!
Why a condition text has no meaning here, with the text itself.
-/

namespace TablePlan

inductive ParseFault where
  | noExpression
  | trailing (token : String)
  | invalidNumber (digits : String)
  deriving DecidableEq, Repr

inductive ConditionError where
  | parse (clause : String) (fault : ParseFault)
  | unsupported (clause feature : String)
  deriving DecidableEq, Repr

namespace ConditionError

def clause : ConditionError → String
  | .parse clause _ => clause
  | .unsupported clause _ => clause

def message : ConditionError → String
  | .parse clause .noExpression => s!"Cannot parse condition '{clause}'"
  | .parse clause (.trailing token) =>
    s!"Cannot parse condition '{clause}': unexpected trailing input at '{token}'"
  | .parse clause (.invalidNumber digits) =>
    s!"Cannot parse condition '{clause}': invalid number '{digits}'"
  | .unsupported clause feature => s!"Unsupported {feature} in condition '{clause}'"

end ConditionError

end TablePlan
