import Nodeflow.Value.Printing
import Nodeflow.Program.Register
import Nodeflow.DataGraph.Socket
import Nodeflow.Function.Kind

/-!
# Faults

A fault ends a computation at once: a caller or a function body broke a rule of the library. It is
not an answer about the caller's data, and nothing recovers from it inside the library.
-/

namespace Nodeflow

/-- A broken rule that ends a computation. -/
inductive Fault where
  | outOfBounds (length index : Nat)
  /-- A tuple element was given a value of another type. -/
  | elementType (index : Nat) (element : Parameter) (found : ValueType)
  | elementEmpty (index : Nat) (name : String)
  | elementReadAs (index : Nat) (type : ValueType)
  | secondBody (function : String) (kind : BodyKind)
  | dependencyCount (function : String) (given outputs : Nat)
  | dependencyMissing (function : String)
  | noInput (node : DataNode) (position : Nat)
  | noOutput (node : DataNode) (position : Nat)
  | foreignSocket (socket : DataSocket)
  /-- Two declared sockets of an interface node stand for one data socket. -/
  | mappedTwice (socket : Nat)
  | unmapped (socket : Nat)
  /-- A lazy call was started without an input it always requires. -/
  | requiredMissing (function : String) (index : Nat)
  /-- A lazy body returned without having finished or asked for anything. -/
  | noProgress (function : String)
  | notDone (function : String)
  | outputsMissing (function : String)
  | argumentMissing (index : Nat) (name : String)
  | notCallable (function : String)
  | argumentCount (given expected : Nat)
  | unwritten (register : Register)
  | wrongContent (register : Register) (value : Value) (expected : RegisterContent)
  | inputRegisters (function : String) (given expected : Nat)
  | outputRegisters (function : String) (given expected : Nat)
  | counterOverflow
  /-- A value was looked up that no step had stored. -/
  | noEntry
  deriving DecidableEq, Repr

namespace Fault

/-- The wording of a comparison that did not hold. -/
def unequal (context left right : String) : String :=
  "assertion `left == right` failed: " ++ context ++ "\n  left: " ++ left ++ "\n right: " ++ right

def message : Fault → String
  | outOfBounds length index =>
    "index out of bounds: the len is " ++ toString length ++ " but the index is " ++ toString index
  | elementType index element found =>
    unequal ("element " ++ toString index ++ " (" ++ element.name ++ ") expects " ++
      element.type.name) found.name element.type.name
  | elementEmpty index name =>
    "element " ++ toString index ++ " (" ++ name ++ ") is not initialized"
  | elementReadAs index type => "element " ++ toString index ++ " is not of type " ++ type.name
  | secondBody function kind =>
    "function " ++ function ++ " already has a " ++ kind.name ++ " body"
  | dependencyCount function given outputs =>
    unequal ("dependencies of " ++ function ++ " do not match its outputs") (toString given)
      (toString outputs)
  | dependencyMissing function => "dependencies of " ++ function ++ " reference missing inputs"
  | noInput node position => "node " ++ node.described ++ " has no input " ++ toString position
  | noOutput node position => "node " ++ node.described ++ " has no output " ++ toString position
  | foreignSocket socket => socket.described ++ " is not part of the graph"
  | mappedTwice socket =>
    "interface socket VirtualSocketId(" ++ toString socket ++ ") mapped twice"
  | unmapped socket =>
    "virtual socket VirtualSocketId(" ++ toString socket ++ ") has no data socket"
  | requiredMissing function index =>
    function ++ ": required input " ++ toString index ++ " is not initialized"
  | noProgress function => function ++ " neither finished nor requested inputs"
  | notDone function => function ++ " is not done"
  | outputsMissing function => function ++ " left outputs uninitialized"
  | argumentMissing index name =>
    "argument " ++ toString index ++ " (" ++ name ++ ") is not initialized"
  | notCallable function => function ++ " has no tuple-call body"
  | argumentCount given expected =>
    unequal "wrong number of program arguments" (toString given) (toString expected)
  | unwritten register => register.name ++ " read before it was written"
  | wrongContent register value expected =>
    register.name ++ " holds " ++ value.full ++ ", expected " ++ expected.described
  | inputRegisters function given expected =>
    unequal (function ++ ": wrong number of input registers") (toString given) (toString expected)
  | outputRegisters function given expected =>
    unequal (function ++ ": wrong number of output registers") (toString given) (toString expected)
  | counterOverflow => "attempt to add with overflow"
  | noEntry => "no entry found for key"

end Fault

/-- The element of an array at an index that the caller vouches for. -/
def elementAt {α : Type} (xs : Array α) (i : Nat) : Except Fault α :=
  match xs[i]? with
  | some x => .ok x
  | none => .error (.outOfBounds xs.size i)

end Nodeflow
