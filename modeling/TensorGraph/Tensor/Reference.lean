import TensorGraph.Digest.Basic

/-!
References to tensors: what is known of a tensor without its bytes.
-/

namespace TensorGraph

/-- The shape and element type of a tensor, and the digest of its content. -/
structure Reference where
  shape : Shape
  elementType : ElementType
  digest : Digest
deriving DecidableEq, Repr, Inhabited

namespace Reference

/-- A tensor that has no bytes yet. -/
def empty (shape : Shape) (elementType : ElementType) : Reference := ⟨shape, elementType, .zero⟩

def isMaterialized (r : Reference) : Bool := !r.digest.isZero

/-- Two references stand for the same content if their digests agree; shape and element type only
inform. -/
def sameContent (r s : Reference) : Bool := r.digest == s.digest

def byteSize (r : Reference) : Nat := r.shape.size * r.elementType.size

/-- The shape and the element type, as descriptions of nodes and operations show them. -/
def typeText (r : Reference) : String := r.shape.text ++ ":" ++ r.elementType.name

def text (r : Reference) : String :=
  "TensorRef(hash=" ++ r.digest.text ++ ", shape=" ++ r.shape.text ++ ", dtype=" ++
    r.elementType.name ++ ")"

end Reference

end TensorGraph
