/-!
# Names of nodes and sockets

Nodes, input sockets and output sockets of a data graph are numbered, each kind on its own.
-/

namespace Nodeflow

structure DataNode where
  index : Nat
  deriving DecidableEq, Repr, Inhabited

/-- An input socket of a data graph, by its number among the inputs. -/
structure InputSocket where
  index : Nat
  deriving DecidableEq, Repr, Inhabited

/-- An output socket of a data graph, by its number among the outputs. -/
structure OutputSocket where
  index : Nat
  deriving DecidableEq, Repr, Inhabited

inductive DataSocket where
  | input (socket : InputSocket)
  | output (socket : OutputSocket)
  deriving DecidableEq, Repr, Inhabited

def DataNode.described (n : DataNode) : String := "DataNodeId(" ++ toString n.index ++ ")"

def InputSocket.described (s : InputSocket) : String := "InputSocketId(" ++ toString s.index ++ ")"

def OutputSocket.described (s : OutputSocket) : String :=
  "OutputSocketId(" ++ toString s.index ++ ")"

def DataSocket.described : DataSocket → String
  | input s => "Input(" ++ s.described ++ ")"
  | output s => "Output(" ++ s.described ++ ")"

end Nodeflow
