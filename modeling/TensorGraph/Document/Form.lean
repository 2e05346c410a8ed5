import TensorGraph.Document.OfGraph
import TensorGraph.Document.Schema
import TensorGraph.Document.TypedAttributes
import TensorGraph.Json.Reader
import TensorGraph.Json.Writer
import TensorGraph.Yaml.Node
import TensorGraph.Yaml.Writer

/-!
Graphs as JSON and as YAML text.
-/

namespace TensorGraph.Document

open Yaml

/-- The indent of JSON text where none is given. -/
def defaultIndent : Option Int := some 2

def toJson (g : Graph) (indent : Option Int) : Except Error String := do
  Json.render indent (← ofGraph g)

/-- The YAML text of a document in which each attribute is a record. -/
def writeYaml (doc : Value) : Except Error String := return (← Schema.graph.write doc).render

/-- The document of YAML text, with attributes as they are written. The text has to hold a
mapping. -/
def loadYaml (text : String) : Except Error Value := do
  match ← Tree.parse text with
  | some (.mapping entries) => Schema.graph.read (.mapping entries)
  | _ => failWith .yamlSchema

def toYaml (g : Graph) : Except Error String := do
  writeYaml (← mapAttributes typedAttribute (← ofGraph g))

def readYaml (text : String) : Except Error Value := do
  mapAttributes untypedAttribute (← loadYaml text)

def ofJson (text : String) : Except Error Graph := do toGraph (← Json.parse text)

def ofYaml (text : String) : Except Error Graph := do toGraph (← readYaml text)

end TensorGraph.Document
