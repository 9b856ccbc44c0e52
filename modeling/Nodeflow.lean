import Nodeflow.Binary32
import Nodeflow.Builtin.All
import Nodeflow.Builtin.Arithmetic
import Nodeflow.Builtin.Constant
import Nodeflow.Builtin.Conversion
import Nodeflow.Builtin.FloatList
import Nodeflow.Builtin.Switch
import Nodeflow.Builtin.Vector
import Nodeflow.CommandLine
import Nodeflow.Config
import Nodeflow.Config.File
import Nodeflow.Context
import Nodeflow.DataGraph.Basic
import Nodeflow.DataGraph.Builder
import Nodeflow.DataGraph.Dot
import Nodeflow.DataGraph.Socket
import Nodeflow.Decimal.Basic
import Nodeflow.Decimal.Layout
import Nodeflow.Decimal.Reading
import Nodeflow.Decimal.Shortest
import Nodeflow.Fault
import Nodeflow.Function.Basic
import Nodeflow.Function.Compiled
import Nodeflow.Function.Dependencies
import Nodeflow.Function.Kind
import Nodeflow.Function.LazyCall
import Nodeflow.Function.LazySteps
import Nodeflow.Function.Script
import Nodeflow.Function.TupleCall
import Nodeflow.FunctionGraph.Basic
import Nodeflow.FunctionGraph.Compiled
import Nodeflow.FunctionGraph.Dependencies
import Nodeflow.FunctionGraph.Evaluation
import Nodeflow.Generation
import Nodeflow.Lowering.Draft
import Nodeflow.Lowering.Error
import Nodeflow.Lowering.Inserter
import Nodeflow.Lowering.Link
import Nodeflow.Lowering.Tree
import Nodeflow.Main
import Nodeflow.OrderedMap
import Nodeflow.Program.Basic
import Nodeflow.Program.Instruction
import Nodeflow.Program.Register
import Nodeflow.Ron.Extension
import Nodeflow.Ron.Reader
import Nodeflow.Ron.Record
import Nodeflow.Ron.Scalar
import Nodeflow.Ron.Sequence
import Nodeflow.Ron.Skip
import Nodeflow.Ron.Writing
import Nodeflow.Runner
import Nodeflow.Snapshot
import Nodeflow.Text.Blank
import Nodeflow.Text.Hex
import Nodeflow.Text.Hidden
import Nodeflow.Text.Name
import Nodeflow.Text.Quoted
import Nodeflow.Tree.Basic
import Nodeflow.Tree.Catalogue
import Nodeflow.Tree.Editor
import Nodeflow.Tree.File
import Nodeflow.Tree.Node
import Nodeflow.Tree.Order
import Nodeflow.Tree.Port
import Nodeflow.Tree.Supply
import Nodeflow.Tuple
import Nodeflow.Tuple.Exchange
import Nodeflow.Uuid
import Nodeflow.Value.Basic
import Nodeflow.Value.Printing
import Nodeflow.Value.Reading
import Nodeflow.Value.Type
import Nodeflow.Walk
import Nodeflow.Proofs.DataGraph.Wiring
import Nodeflow.Proofs.Walk.Order
import Nodeflow.Proofs.DataGraph.Frozen
import Nodeflow.Proofs.Function.Context
import Nodeflow.Proofs.Function.Entries
import Nodeflow.Proofs.FunctionGraph.Calls
import Nodeflow.Proofs.FunctionGraph.Sound
import Nodeflow.Proofs.FunctionGraph.Steps
import Nodeflow.Proofs.FunctionGraph.Outcome
import Nodeflow.Proofs.FunctionGraph.Rounds
import Nodeflow.Proofs.FunctionGraph.Settling
import Nodeflow.Proofs.FunctionGraph.Interpreter
import Nodeflow.Proofs.Program.Running
import Nodeflow.Proofs.Program.Renaming
import Nodeflow.Proofs.Program.Naming
import Nodeflow.Proofs.Program.Emission
import Nodeflow.Proofs.FunctionGraph.Needed
import Nodeflow.Proofs.FunctionGraph.Program
import Nodeflow.Proofs.FunctionGraph.Inlining
import Nodeflow.Proofs.Builtin.Calls
import Nodeflow.Proofs.Builtin.Emission
import Nodeflow.Proofs.FunctionGraph.Standard
import Nodeflow.Proofs.FunctionGraph.Agreement
import Nodeflow.Proofs.FunctionGraph.Results
import Nodeflow.Proofs.FunctionGraph.Bodies
import Nodeflow.Proofs.Tree.Editing
import Nodeflow.Proofs.Generation.Execution
import Nodeflow.Proofs.Generation.Bodies
import Nodeflow.Proofs.Generation.Dependencies
import Nodeflow.Proofs.Generation.Values
import Nodeflow.Proofs.DataGraph.Linked
import Nodeflow.Proofs.FunctionGraph.Demand
import Nodeflow.Proofs.Decimal.Rounding
import Nodeflow.Proofs.DataGraph.Deciding
import Nodeflow.Proofs.FunctionGraph.Chains
import Nodeflow.Proofs.Tree.Ordering
import Nodeflow.Proofs.Lowering.Shape
import Nodeflow.Proofs.Decimal.Layout
import Nodeflow.Proofs.Ron.Blocks
import Nodeflow.Proofs.Ron.Quoted
import Nodeflow.Proofs.Ron.Scalar
import Nodeflow.Proofs.Tree.File
import Nodeflow.Proofs.FunctionGraph.SingleAssignment
import Nodeflow.Proofs.Function.Asking
import Nodeflow.Proofs.Snapshot.Faithful
import Nodeflow.Proofs.Tuple.Conservation
import Nodeflow.Proofs.Generation.Signature
import Nodeflow.Proofs.FunctionGraph.Frames
import Nodeflow.Proofs.FunctionGraph.Upstream
import Nodeflow.Proofs.DataGraph.Drawing
import Nodeflow.Proofs.Value.Reading
import Nodeflow.Proofs.Generation.Inputs
import Nodeflow.Proofs.Lowering.DataLinks
