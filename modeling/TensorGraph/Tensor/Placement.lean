import TensorGraph.OrderedMap

/-!
Placement of a tensor: which workers hold a copy of its bytes, and notes by key. None of this
takes part in the identity of the tensor.
-/

namespace TensorGraph

/-- A copy of the bytes. -/
structure Location where
  worker : String
  path : String
  isPrimary : Bool
deriving DecidableEq, Repr

/-- The copies, in the order in which they were added, and the notes. -/
structure Placement where
  locations : List Location
  metadata : OrderedMap String

namespace Placement

def empty : Placement := ⟨[], .empty⟩

/-- Adds a location after those that are there. -/
def addLocation (p : Placement) (location : Location) : Placement :=
  { p with locations := p.locations ++ [location] }

def removeLocation (p : Placement) (worker : String) : Placement :=
  { p with locations := p.locations.filter (·.worker ≠ worker) }

def hasLocation (p : Placement) (worker : String) : Bool := p.locations.any (·.worker = worker)

/-- The first primary copy. -/
def primary? (p : Placement) : Option Location := p.locations.find? (·.isPrimary)

def setMeta (p : Placement) (key value : String) : Placement :=
  { p with metadata := p.metadata.put key value }

end Placement

end TensorGraph
