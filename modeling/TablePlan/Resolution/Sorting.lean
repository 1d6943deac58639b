import TablePlan.Resolution.Basic

/-!
Sort conditions mapped to output columns. A condition names an output column, or else the source of
one: a qualified column or the label of an aggregate.
-/

namespace TablePlan

/-- Letters, digits, underscores and dots of ASCII. -/
def isPlainReference (text : String) : Bool :=
  text.all fun c => c.isAlphanum || c == '_' || c == '.'

namespace OutputColumn

def isSourceText (text : String) (output : OutputColumn) : Bool :=
  match output.source with
  | .column ref => (ColumnRef.parse text).aliasName.isSome && ref == .parse text
  | .aggregate call => call.label == text

end OutputColumn

def sortColumn? (output : List OutputColumn) (text : String) : Option String :=
  if output.any (·.name == text) then some text
  else (output.find? (·.isSourceText text)).map OutputColumn.name

namespace ResolvedSpec

def sortKey (spec : ResolvedSpec) (output : List OutputColumn) (index : Nat) (c : SortCondition) :
    Except ResolutionError SortKey :=
  match sortColumn? output c.column with
  | some column => .ok ⟨column, c.direction⟩
  | none => match (ColumnRef.parse c.column).aliasName with
    | some aliasName =>
      if isPlainReference c.column && !spec.scope.declares aliasName then
        .error (.unknownAlias aliasName (.sort index))
      else .error (.unknownSortColumn c.column)
    | none => .error (.unknownSortColumn c.column)

def sortKeys (spec : ResolvedSpec) (output : List OutputColumn) :
    Except ResolutionError (List SortKey) :=
  spec.sort.zipIdx.mapM fun (c, i) => spec.sortKey output i c

end ResolvedSpec

end TablePlan
