import Nodeflow.DataGraph.Builder
import Nodeflow.Tree.Port

/-!
# Trees without a data graph

The reasons for which a tree cannot be turned into a data graph.
-/

namespace Nodeflow

/-- Why a tree has no data graph. -/
inductive LoweringError where
  | unknownNodeType (idname node : String)
  | unsupportedSocketType (node socket : String) (type : PortType)
  | signatureMismatch (node function : String)
  | duplicateInterfaceNode (idname : String) (count : Nat)
  | incompatibleLink (source target : String) (reason : DataGraphError)
  | dataGraph (reason : DataGraphError)
  deriving DecidableEq, Repr

/-- The refusal of the data graph that is behind a reason. -/
def LoweringError.refusal? : LoweringError → Option DataGraphError
  | incompatibleLink _ _ reason | dataGraph reason => some reason
  | _ => none

def LoweringError.name : LoweringError → String
  | unknownNodeType .. => "UnknownNodeType"
  | unsupportedSocketType .. => "UnsupportedSocketType"
  | signatureMismatch .. => "SignatureMismatch"
  | duplicateInterfaceNode .. => "DuplicateInterfaceNode"
  | incompatibleLink .. => "IncompatibleLink"
  | dataGraph _ => "DataGraph"

def LoweringError.message : LoweringError → String
  | unknownNodeType idname node =>
    "Unknown node type '" ++ idname ++ "' (node '" ++ node ++ "')"
  | unsupportedSocketType node socket type =>
    "Socket '" ++ socket ++ "' of node '" ++ node ++ "' has unsupported type " ++ type.name
  | signatureMismatch node function =>
    "Node '" ++ node ++ "' does not match the signature of '" ++ function ++ "'"
  | duplicateInterfaceNode idname count =>
    "Tree has " ++ toString count ++ " '" ++ idname ++ "' nodes, at most one is allowed"
  | incompatibleLink source target _ => "Cannot link '" ++ source ++ "' to '" ++ target ++ "'"
  | dataGraph reason => reason.message

end Nodeflow
