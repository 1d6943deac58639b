import TablePlan.Resolution.Basic

/-!
The output columns of a spec: one for each selected source, in order, under distinct names.
-/

namespace TablePlan

open Text (joined)

inductive OutputError where
  | duplicateName (name : String)
  | ambiguous (name : String) (sources : List String)
  | ungroupedColumn (column : ColumnRef)
  deriving DecidableEq, Repr

namespace OutputError

def message : OutputError → String
  | .duplicateName name => s!"Duplicate output column '{name}'"
  | .ambiguous name sources =>
    let names := joined ", " sources
    s!"Ambiguous output column '{name}' from {names}; "
      ++ "qualify the source and give it an explicit output name"
  | .ungroupedColumn column => s!"Column '{column.text}' is selected but not in group_condition"

end OutputError

namespace ColumnSource

def defaultName : ColumnSource → String
  | .column ref => ref.column
  | .aggregate call => call.label

end ColumnSource

structure NamedSelect where
  output : OutputColumn
  entry : ResolvedSelect
  deriving DecidableEq, Repr

namespace ResolvedSpec

def selectedSource (spec : ResolvedSpec) (entry : ResolvedSelect) :
    Except OutputError ColumnSource :=
  match entry.source with
  | .ambiguous column aliases =>
    .error (.ambiguous column (aliases.map fun aliasName => aliasName ++ "." ++ column))
  | .resolved (.column ref) =>
    if spec.isAggregated && !spec.group.contains ref then .error (.ungroupedColumn ref)
    else .ok (.column ref)
  | .resolved source => .ok source

def conflict (name : String) (earlier entry : ResolvedSelect) : OutputError :=
  if earlier.outputName.isSome && entry.outputName.isSome then .duplicateName name
  else .ambiguous name [earlier.key, entry.key]

/-- Names the entries one by one; `earlier` holds those already named, in order. -/
def nameEntries (spec : ResolvedSpec) : (earlier : List NamedSelect) → List ResolvedSelect →
    Except OutputError (List NamedSelect)
  | earlier, [] => .ok earlier
  | earlier, entry :: entries => do
    let source ← spec.selectedSource entry
    let name := entry.outputName.getD source.defaultName
    match earlier.find? (·.output.name == name) with
    | some first => .error (conflict name first.entry entry)
    | none => spec.nameEntries (earlier ++ [⟨⟨source, name⟩, entry⟩]) entries

def outputColumns (spec : ResolvedSpec) : Except OutputError (List OutputColumn) := do
  return (← spec.nameEntries [] spec.select).map NamedSelect.output

end ResolvedSpec

end TablePlan
