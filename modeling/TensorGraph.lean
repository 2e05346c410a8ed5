import TensorGraph.CommandLine.Argument
import TensorGraph.CommandLine.Options
import TensorGraph.CommandLine.Path
import TensorGraph.CommandLine.Run
import TensorGraph.CommandLine.Usage
import TensorGraph.Digest.Basic
import TensorGraph.Digest.Sha256
import TensorGraph.Document.Form
import TensorGraph.Document.OfGraph
import TensorGraph.Document.Schema
import TensorGraph.Document.ToGraph
import TensorGraph.Document.TypedAttributes
import TensorGraph.ElementType.Basic
import TensorGraph.ElementType.Default
import TensorGraph.ElementType.Notation
import TensorGraph.Error
import TensorGraph.Graph.Basic
import TensorGraph.Graph.Builder
import TensorGraph.Graph.Check
import TensorGraph.Graph.Combine
import TensorGraph.Graph.Drawing
import TensorGraph.Graph.Names
import TensorGraph.Graph.Node
import TensorGraph.Graph.NodeKind
import TensorGraph.Graph.Order
import TensorGraph.Graph.Render
import TensorGraph.Graph.Types
import TensorGraph.Graph.Walk
import TensorGraph.Json.Reader
import TensorGraph.Json.Writer
import TensorGraph.Main
import TensorGraph.Number.Binary
import TensorGraph.Number.Decimal
import TensorGraph.Number.LittleEndian
import TensorGraph.Number.Quantity
import TensorGraph.Operation.Attributes
import TensorGraph.Operation.Basic
import TensorGraph.Operation.Kind
import TensorGraph.Operation.ResultShape
import TensorGraph.Operation.ResultType
import TensorGraph.OrderedMap
import TensorGraph.Proofs.Document.Loading
import TensorGraph.Proofs.Document.OperationInputs
import TensorGraph.Proofs.Document.OutputOrder
import TensorGraph.Proofs.Document.Records
import TensorGraph.Proofs.Document.Reload
import TensorGraph.Proofs.Document.Reordering
import TensorGraph.Proofs.Document.RoundTrip
import TensorGraph.Proofs.Graph.Building
import TensorGraph.Proofs.Graph.BuiltValid
import TensorGraph.Proofs.Graph.Calls
import TensorGraph.Proofs.Graph.EagerTypes
import TensorGraph.Proofs.Graph.Edits
import TensorGraph.Proofs.Graph.Forward
import TensorGraph.Proofs.Graph.History
import TensorGraph.Proofs.Graph.Observation
import TensorGraph.Proofs.Graph.Reached
import TensorGraph.Proofs.Graph.Relisted
import TensorGraph.Proofs.Graph.Removal
import TensorGraph.Proofs.Graph.Restriction
import TensorGraph.Proofs.Graph.SameNodes
import TensorGraph.Proofs.Graph.Schedule
import TensorGraph.Proofs.Graph.Slots
import TensorGraph.Proofs.Graph.Sorting
import TensorGraph.Proofs.Graph.Store
import TensorGraph.Proofs.Graph.Successors
import TensorGraph.Proofs.Graph.Typing
import TensorGraph.Proofs.Graph.Union
import TensorGraph.Proofs.Graph.UnionTypes
import TensorGraph.Proofs.Graph.Validity
import TensorGraph.Proofs.Graph.Walking
import TensorGraph.Proofs.Shape.Broadcasting
import TensorGraph.Shape.Axis
import TensorGraph.Shape.Basic
import TensorGraph.Shape.Broadcast
import TensorGraph.Shape.MatrixProduct
import TensorGraph.Shape.OfValue
import TensorGraph.Shape.Position
import TensorGraph.Shape.Reshape
import TensorGraph.Shape.Rewrite
import TensorGraph.Shape.Strides
import TensorGraph.Shape.Window
import TensorGraph.Tensor.Assign
import TensorGraph.Tensor.Basic
import TensorGraph.Tensor.Element
import TensorGraph.Tensor.Placement
import TensorGraph.Tensor.Reference
import TensorGraph.Tensor.RowMajor
import TensorGraph.Tensor.View
import TensorGraph.Text.Blank
import TensorGraph.Text.Hex
import TensorGraph.Text.Letters
import TensorGraph.Text.Printable
import TensorGraph.Text.Quoted
import TensorGraph.Value
import TensorGraph.Yaml.Chars
import TensorGraph.Yaml.Cursor
import TensorGraph.Yaml.Node
import TensorGraph.Yaml.ScalarText
import TensorGraph.Yaml.Style
import TensorGraph.Yaml.Token
import TensorGraph.Yaml.Tree
import TensorGraph.Yaml.Writer
import TensorGraph.Proofs.Shape.Addressing
import TensorGraph.Proofs.Tensor.Windows
import TensorGraph.Proofs.Digest.Preimage
import TensorGraph.Proofs.Tensor.ContentAddress
import TensorGraph.Proofs.Graph.Diagnostics
import TensorGraph.Proofs.Graph.Drawing
import TensorGraph.Proofs.Graph.Duality
import TensorGraph.Proofs.Operation.Failures
import TensorGraph.Proofs.Document.YamlForm
import TensorGraph.Proofs.Graph.Narrowing
import TensorGraph.Proofs.Graph.UnionAssociative
import TensorGraph.Proofs.Graph.Undo
import TensorGraph.Proofs.Graph.FreshNames
import TensorGraph.Proofs.Shape.DenseBuffer
import TensorGraph.Proofs.Shape.Stretching
import TensorGraph.Proofs.Shape.Permutations
import TensorGraph.Proofs.Shape.Reshaping
import TensorGraph.Proofs.Shape.MatrixProducts
import TensorGraph.Proofs.Shape.WindowCounts
import TensorGraph.Proofs.Shape.Axes
import TensorGraph.Proofs.Operation.Joining
import TensorGraph.Proofs.Operation.ElementCounts
import TensorGraph.Proofs.Shape.Contiguity
import TensorGraph.Proofs.Shape.Regrouping
import TensorGraph.Proofs.Shape.Relocation
import TensorGraph.Proofs.Tensor.Rearranging
import TensorGraph.Proofs.Digest.Spelling
import TensorGraph.Proofs.Operation.Reductions
import TensorGraph.Proofs.Number.Conversion
import TensorGraph.Proofs.Operation.AttributeHistory
