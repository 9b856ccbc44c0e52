import Nodeflow.Generation
import Nodeflow.DataGraph.Dot
import Nodeflow.Tree.File
import Nodeflow.Config.File
import Nodeflow.Value.Reading

/-!
# Running trees

A tree is loaded, turned into a function, and then called on inputs given as text, or shown as a
drawing or a listing.
-/

namespace Nodeflow

inductive Mode where
  | call
  | dot
  | program
  deriving DecidableEq, Repr, Inhabited

def Mode.all : List Mode := [call, dot, program]

def Mode.name : Mode → String
  | call => "call"
  | dot => "dot"
  | program => "program"

inductive LoadError where
  | missing
  | notText
  | form
  deriving DecidableEq, Repr

def LoadError.name : LoadError → String
  | missing | notText => "Io"
  | form => "Parse"

def LoadError.message : LoadError → String
  | missing => "I/O error: No such file or directory (os error 2)"
  | notText => "I/O error: stream did not contain valid UTF-8"
  | form => "Parse error"

inductive RunError where
  | tree (reason : LoadError)
  | config (reason : LoadError)
  | generation (tree : String)
  | arity (function : String) (expected given : Nat)
  | input (name : String) (reason : ValueTextError)
  | notCompiled (function : String)
  | noDataGraph (function : String)
  deriving DecidableEq, Repr

def RunError.name : RunError → String
  | tree reason => "Tree." ++ reason.name
  | config reason => "Config." ++ reason.name
  | generation _ => "Generation"
  | arity .. => "Arity"
  | input .. => "Input"
  | notCompiled _ => "NotCompiled"
  | noDataGraph _ => "NoDataGraph"

def RunError.message : RunError → String
  | tree reason => "Failed to load node tree: " ++ reason.message
  | config reason => "Failed to load config: " ++ reason.message
  | generation name => "Could not generate a function from '" ++ name ++ "'"
  | arity function expected given =>
    "'" ++ function ++ "' takes " ++ toString expected ++ " inputs, got " ++ toString given
  | input name reason => "Input '" ++ name ++ "': " ++ reason.message
  | notCompiled function => "'" ++ function ++ "' has no compiled body"
  | noDataGraph function => "'" ++ function ++ "' has no data graph"

namespace Package

/-- Stores the inputs of a call, given as text, in order. -/
def readInputs (inputs : List (Parameter × String)) (input : Tuple) :
    ExceptT RunError (Except Fault) Tuple :=
  inputs.zipIdx.foldlM
    (fun input ((parameter, text), i) =>
      match parameter.type.parse text with
      | .error reason => throw (.input parameter.name reason)
      | .ok v => do
        let (_, input) ← liftM (input.put i v)
        return input)
    input

def callOn (p : Package) (inputs : List String) :
    ExceptT RunError (Except Fault) (Eval Tuples) := do
  let f := p.function
  if inputs.length ≠ f.inputs.size then
    throw (.arity f.name f.inputs.size inputs.length)
  match f.tupleCall? with
  | none => throw (.generation f.name)
  | some body =>
    let tuples := f.newTuples
    let input ← readInputs (f.inputs.toList.zip inputs) tuples.input
    return f.call body { tuples with input }

/-- Calls the function on inputs given as text; gives its results with their names. -/
def call (p : Package) (inputs : List String) :
    ExceptT RunError (Except Fault) (List (String × Value)) := do
  let (called, _) := (← p.callOn inputs).runOn {}
  let values ← liftM (called >>= fun tuples => tuples.output.intoValues)
  return (p.function.outputs.toList.map Parameter.name).zip values

def resultLine (result : String × Value) : String :=
  result.1 ++ " = " ++ result.2.plain ++ "\n"

def render (p : Package) (mode : Mode) (inputs : List String) :
    ExceptT RunError (Except Fault) String := do
  let f := p.function
  match mode with
  | .call => return String.join ((← p.call inputs).map resultLine)
  | .dot =>
    match p.dataGraph? with
    | some tree => liftM tree.graph.dot
    | none => throw (.noDataGraph f.name)
  | .program =>
    match f.compiled? with
    | some emitter => return (← liftM (f.program emitter)).text
    | none => throw (.notCompiled f.name)

end Package

def Tree.execute (t : Tree) (config : Config) (mode : Mode) (inputs : List String) :
    ExceptT RunError (Except Fault) String := do
  match ← liftM (t.generate config (.builtin config)) with
  | none => throw (.generation t.name)
  | some package => package.render mode inputs

/-- The content of a file, if there is one. -/
abbrev FileContent := Option ByteArray

def FileContent.load {α : Type} (file : FileContent) (ofText? : String → Option α) :
    Except LoadError α :=
  match file with
  | none => .error .missing
  | some bytes =>
    match String.fromUTF8? bytes with
    | none => .error .notText
    | some text =>
      match ofText? text with
      | none => .error .form
      | some v => .ok v

/-- Loads a tree and its settings, the standard ones if no file is named, and executes the tree. -/
def runFiles (tree : FileContent) (config : Option FileContent) (mode : Mode)
    (inputs : List String) : ExceptT RunError (Except Fault) String := do
  let t ← match FileContent.load tree Tree.ofText? with
    | .ok t => pure t
    | .error reason => throw (.tree reason)
  let c ← match config.map fun file => FileContent.load file Config.ofText? with
    | none => pure {}
    | some (.ok c) => pure c
    | some (.error reason) => throw (.config reason)
  t.execute c mode inputs

end Nodeflow
