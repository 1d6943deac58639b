import TablePlan.Main
import TablePlan.Sorter.Basic
import TablePlan.Sorter.Routine
import TablePlan.Sorter.Standard
import TablePlan.Proofs.Names
import TablePlan.Proofs.Success
import TablePlan.Proofs.Table.Row
import TablePlan.Proofs.Table.Operations
import TablePlan.Proofs.Table.Grouping
import TablePlan.Proofs.JoinOrder.Connection
import TablePlan.Proofs.JoinOrder.Walk
import TablePlan.Proofs.JoinOrder.Joinable
import TablePlan.Proofs.JoinOrder.Shape
import TablePlan.Proofs.Named
import TablePlan.Proofs.Resolution.Declared
import TablePlan.Proofs.Resolution.Bound
import TablePlan.Proofs.Resolution.Output
import TablePlan.Proofs.Plan.Compilation
import TablePlan.Proofs.Execution.Sources
import TablePlan.Proofs.Execution.Joining
import TablePlan.Proofs.Execution.Outcome
import TablePlan.Proofs.Execution.Choices
import TablePlan.Proofs.Execution.InnerJoin
import TablePlan.Proofs.Predicate
import TablePlan.Proofs.Execution.Selection
import TablePlan.Proofs.Execution.Valuations
import TablePlan.Proofs.JoinOrder.Exchange
import TablePlan.Proofs.Plan.Reordering
import TablePlan.Proofs.Execution.Reordering
import TablePlan.Proofs.Table.Extension
import TablePlan.Proofs.Execution.Extension
import TablePlan.Proofs.Plan.Soundness
import TablePlan.Proofs.Plan.Grouping
import TablePlan.Proofs.Table.Comparison
import TablePlan.Proofs.Table.Mirror
import TablePlan.Proofs.JoinOrder.Turning
import TablePlan.Proofs.Execution.Turning
import TablePlan.Proofs.Condition.Direct
import TablePlan.Proofs.Condition.Chain
import TablePlan.Proofs.Condition.Call
import TablePlan.Proofs.Condition.Meaning
import TablePlan.Proofs.Decimal.Rounding
import TablePlan.Proofs.Decimal.Scientific
import TablePlan.Proofs.Decimal.Shortest
import TablePlan.Proofs.Decimal.Text
import TablePlan.Proofs.Calendar.Text
import TablePlan.Proofs.Condition.Scanning
import TablePlan.Proofs.Condition.Written
import TablePlan.Proofs.Condition.Parsing
import TablePlan.Proofs.Condition.Operands
import TablePlan.Proofs.Condition.RoundTrip
import TablePlan.Proofs.Table.Provenance
import TablePlan.Proofs.Execution.Provenance
import TablePlan.Proofs.Table.Reading
import TablePlan.Proofs.Table.Session
import TablePlan.Proofs.Declarations
import TablePlan.Proofs.Spec.Document
import TablePlan.Proofs.Spec.Aliases
import TablePlan.Proofs.Spec.Keys
import TablePlan.Proofs.Resolution.TableOrder
import TablePlan.Proofs.Plan.TableOrder
import TablePlan.Proofs.Execution.TableOrder
import TablePlan.Proofs.Table.NumberedJoin
import TablePlan.Proofs.Table.Fault
import TablePlan.Proofs.Table.NestedLoops
import TablePlan.Proofs.JoinOrder.Fault
import TablePlan.Proofs.Resolution.OutputName
import TablePlan.Proofs.Plan.OutputName
import TablePlan.Proofs.Truth
import TablePlan.Proofs.Table.Filtering
import TablePlan.Proofs.Execution.Conjunction
import TablePlan.Proofs.Table.Partition
import TablePlan.Proofs.Table.Aggregation
import TablePlan.Proofs.StableSort
import TablePlan.Proofs.Table.Sorting
import TablePlan.Proofs.Decimal.Nearest
import TablePlan.Proofs.Table.CellOrder
import TablePlan.Proofs.Table.IntegerCondition
import TablePlan.Proofs.Resolution.Correspondence
import TablePlan.Proofs.Resolution.Owners
import TablePlan.Proofs.Resolution.Idempotence
import TablePlan.Proofs.Traversal
import TablePlan.Proofs.Resolution.OutputFault
import TablePlan.Proofs.Execution.SortedOutput
import TablePlan.Proofs.ColumnRef
import TablePlan.Proofs.Condition.ColumnTokens
import TablePlan.Proofs.Condition.Spelling
import TablePlan.Proofs.Condition.ColumnText
import TablePlan.Proofs.Resolution.GroupedKey
import TablePlan.Proofs.Execution.ColumnNames
