import TensorGraph.Yaml.Token
import TensorGraph.Yaml.Tree

/-!
Nodes of YAML documents. A node is made of tokens; it becomes a tree if every key is a scalar and
no mapping has a key twice.
-/

namespace TensorGraph.Yaml

/-- A node, the keys of which may be collections. -/
inductive Node where
  | scalar (s : String)
  | sequence (items : List Node)
  | mapping (entries : List (Node × Node))
deriving Repr, Inhabited

namespace Node

/-- What stands where a node is missing. -/
def missing : Node := .scalar ""

/-- Whether text that is no token is met while the tokens that follow one are looked at. If the
token may turn out to be a key, those on its line are, and in any case the next one. -/
def looksBroken (first : Placed) (rest : List Placed) : Bool :=
  let near := if first.maybeKey then (rest.takeWhile (·.line = first.line)).length else 0
  (rest.take (near + 1)).any (·.token = .broken)

/-- The error for a token that is understood but refused. -/
def refused {α : Type} (f : Fault) (first : Placed) (rest : List Placed) : Except Error α :=
  if looksBroken first rest then malformed else failWith f

/-- Whether the next token is one of some. -/
def atAny (tokens : List Placed) (test : Token → Bool) : Bool :=
  tokens.head?.any fun placed => test placed.token

/-- Whether nothing more belongs to a key or value of a block mapping. -/
def endsKey (t : Token) : Bool := t = .key || t = .value || t = .blockEnd

/-- Whether nothing more belongs to an entry of an indented list. -/
def endsItem (t : Token) : Bool := t = .entry || t = .blockEnd

/-- Whether nothing more belongs to an entry of a list at the level of its parent. -/
def endsFlatItem (t : Token) : Bool := t = .entry || endsKey t

mutual

/-- A node at the start of the tokens. The value of a key may be a sequence that is not deeper
than the key. -/
def parseNode (flat : Bool) : Nat → List Placed → Except Error (Node × List Placed)
  | 0, _ => malformed
  | _ + 1, [] => malformed
  | fuel + 1, first :: rest =>
    match first.token with
    | .scalar s => .ok (.scalar s, rest)
    | .anchor => refused .yamlAnchor first rest
    | .tag => refused .yamlTag first rest
    | .flowStart => refused .yamlFlowStyle first rest
    | .sequenceStart => do
      let (items, rest) ← parseItems endsItem fuel rest
      match rest with
      | ⟨.blockEnd, _, _⟩ :: rest => return (.sequence items, rest)
      | _ => malformed
    | .mappingStart => do
      let (entries, rest) ← parseEntries fuel rest
      return (.mapping entries, rest)
    | .entry =>
      if flat then do
        let (items, rest) ← parseItems endsFlatItem fuel (first :: rest)
        return (.sequence items, rest)
      else malformed
    | _ => malformed

/-- The items of a sequence, each behind its mark. -/
def parseItems (ends : Token → Bool) :
    Nat → List Placed → Except Error (List Node × List Placed)
  | 0, _ => malformed
  | fuel + 1, tokens =>
    match tokens with
    | ⟨.entry, _, _⟩ :: rest =>
      if atAny rest ends then do
        let (items, rest) ← parseItems ends fuel rest
        return (missing :: items, rest)
      else do
        let (item, rest) ← parseNode false fuel rest
        let (items, rest) ← parseItems ends fuel rest
        return (item :: items, rest)
    | _ => .ok ([], tokens)

/-- The key of an entry, behind its mark; it may be missing. -/
def parseKey : Nat → List Placed → Except Error (Node × List Placed)
  | 0, _ => malformed
  | fuel + 1, tokens =>
    match tokens with
    | ⟨.key, _, _⟩ :: rest =>
      if atAny rest endsKey then .ok (missing, rest) else parseNode true fuel rest
    | _ => .ok (missing, tokens)

/-- The value of an entry, behind its mark; it may be missing. -/
def parseValue : Nat → List Placed → Except Error (Node × List Placed)
  | 0, _ => malformed
  | fuel + 1, tokens =>
    match tokens with
    | ⟨.value, _, _⟩ :: rest =>
      if atAny rest endsKey then .ok (missing, rest) else parseNode true fuel rest
    | _ => .ok (missing, tokens)

/-- The entries of a mapping up to its end. -/
def parseEntries : Nat → List Placed → Except Error (List (Node × Node) × List Placed)
  | 0, _ => malformed
  | fuel + 1, tokens =>
    if atAny tokens (· = .blockEnd) then .ok ([], tokens.tail)
    else if atAny tokens fun t => t = .key || t = .value then do
      let (key, rest) ← parseKey fuel tokens
      let (value, rest) ← parseValue fuel rest
      let (entries, rest) ← parseEntries fuel rest
      return ((key, value) :: entries, rest)
    else malformed

end

/-- Whether a token opens or ends a document. -/
def marksDocument (t : Token) : Bool :=
  match t with
  | .directive _ => true
  | .documentStart => true
  | .documentEnd => true
  | .streamEnd => true
  | _ => false

/-- Passes over directives. At most one gives a version, and the version is a first one. -/
def passDirectives : Bool → List Placed → Except Error (List Placed)
  | versioned, ⟨.directive version, _, _⟩ :: rest =>
    match version with
    | some major =>
      if versioned || major ≠ 1 then malformed else passDirectives true rest
    | none => passDirectives versioned rest
  | _, tokens => .ok tokens

/-- The node of the only document, if there is a document. -/
def ofTokens (tokens : List Placed) : Except Error (Option Node) := do
  if atAny tokens (· = .streamEnd) then return none
  let fuel := 4 * tokens.length + 4
  let (node, rest) ←
    if atAny tokens fun t => marksDocument t && t ≠ .documentEnd then do
      match ← passDirectives false tokens with
      | ⟨.documentStart, _, _⟩ :: rest =>
        if atAny rest marksDocument then pure (missing, rest) else parseNode false fuel rest
      | _ => malformed
    else parseNode false fuel tokens
  let rest := if atAny rest (· = .documentEnd) then rest.tail else rest
  if atAny rest (· = .streamEnd) then return some node else malformed

def keyText : Node → Except Error String
  | .scalar s => .ok s
  | _ => failWith .yamlSchema

mutual

def toTree : Node → Except Error Tree
  | .scalar s => .ok (.scalar s)
  | .sequence items => do return .sequence (← toTrees items)
  | .mapping entries => do return .mapping (← toEntries [] entries)

def toTrees : List Node → Except Error (List Tree)
  | [] => .ok []
  | item :: rest => do return (← toTree item) :: (← toTrees rest)

/-- Entries whose keys differ from those before them. -/
def toEntries (seen : List String) :
    List (Node × Node) → Except Error (List (String × Tree))
  | [] => .ok []
  | entry :: rest => do
    let (key, tree) ← toEntry entry
    if key ∈ seen then failWith .yamlDuplicateKey
    return (key, tree) :: (← toEntries (key :: seen) rest)

/-- The tree of an entry, whose key has to be text. -/
def toEntry : Node × Node → Except Error (String × Tree)
  | (key, node) => do return (← keyText key, ← toTree node)

end

end Node

/-- The tree of a text, if there is anything in the text. Characters that may not stand in a text
are refused. -/
def Tree.parse (text : String) : Except Error (Option Tree) := do
  if !text.toList.all isAllowed then failWith .noFields
  match ← Node.ofTokens (← Token.scan text) with
  | some node => return some (← node.toTree)
  | none => return none

end TensorGraph.Yaml
