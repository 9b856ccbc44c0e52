import Nodeflow.Config
import Nodeflow.Ron.Record
import Nodeflow.Ron.Writing

/-!
# Settings as text

Settings are kept in the object notation. Fields that are left out keep their standard value.
-/

namespace Nodeflow.Config

open Ron Ron.Reader

def toText (c : Config) : String :=
  recordBlock 0
    [("input_node", Text.quoteInFile c.inputNode),
      ("output_node", Text.quoteInFile c.outputNode),
      ("dependencies_body", boolText c.dependenciesBody),
      ("compiled_body", boolText c.compiledBody)]

structure Parts where
  inputNode : Option String := none
  outputNode : Option String := none
  dependenciesBody : Option Bool := none
  compiledBody : Option Bool := none

def Parts.field (c : Parts) : String → Option (Reader Parts)
  | "input_node" => some (once c.inputNode (fun v => { c with inputNode := some v }) text)
  | "output_node" => some (once c.outputNode (fun v => { c with outputNode := some v }) text)
  | "dependencies_body" =>
    some (once c.dependenciesBody (fun v => { c with dependenciesBody := some v }) bool)
  | "compiled_body" =>
    some (once c.compiledBody (fun v => { c with compiledBody := some v }) bool)
  | _ => none

def Parts.config (c : Parts) : Config :=
  let standard : Config := {}
  { inputNode := c.inputNode.getD standard.inputNode
    outputNode := c.outputNode.getD standard.outputNode
    dependenciesBody := c.dependenciesBody.getD standard.dependenciesBody
    compiledBody := c.compiledBody.getD standard.compiledBody }

def config (x : Extensions) : Reader Config :=
  Parts.config <$> record x (levels - 2) "GenerationConfig" Parts.field {}

def ofText? (text : String) : Option Config := whole config text

end Nodeflow.Config
