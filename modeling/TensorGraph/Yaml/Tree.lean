/-!
Trees of YAML documents. A scalar is a text; a schema tells later what it stands for.
-/

namespace TensorGraph.Yaml

/-- A document without styles and positions. -/
inductive Tree where
  | scalar (s : String)
  | sequence (items : List Tree)
  | mapping (entries : List (String × Tree))
deriving Repr, Inhabited

namespace Tree

/-- What stands for a collection without items. -/
def empty : Tree := .scalar ""

/-- A sequence; one without items is written as nothing. -/
def ofItems (items : List Tree) : Tree := if items.isEmpty then empty else .sequence items

/-- A mapping; one without entries is written as nothing. -/
def ofEntries (entries : List (String × Tree)) : Tree :=
  if entries.isEmpty then empty else .mapping entries

/-! ### Equality -/

mutual

def same : Tree → Tree → Bool
  | .scalar s, .scalar t => s = t
  | .sequence items, .sequence others => sameItems items others
  | .mapping entries, .mapping others => sameEntries entries others
  | _, _ => false

def sameItems : List Tree → List Tree → Bool
  | [], [] => true
  | item :: items, other :: others => same item other && sameItems items others
  | _, _ => false

def sameEntries : List (String × Tree) → List (String × Tree) → Bool
  | [], [] => true
  | entry :: entries, other :: others => sameEntry entry other && sameEntries entries others
  | _, _ => false

def sameEntry : String × Tree → String × Tree → Bool
  | (key, tree), (key', tree') => key = key' && same tree tree'

end

mutual

theorem same_iff : ∀ tree other : Tree, same tree other = true ↔ tree = other
  | .scalar _, .scalar _ => by simp [same]
  | .sequence items, .sequence others => by simp [same, sameItems_iff items others]
  | .mapping entries, .mapping others => by simp [same, sameEntries_iff entries others]
  | .scalar _, .sequence _ | .scalar _, .mapping _ | .sequence _, .scalar _
  | .sequence _, .mapping _ | .mapping _, .scalar _ | .mapping _, .sequence _ => by simp [same]

theorem sameItems_iff : ∀ items others : List Tree, sameItems items others = true ↔ items = others
  | [], [] | [], _ :: _ | _ :: _, [] => by simp [sameItems]
  | item :: items, other :: others => by
    simp [sameItems, same_iff item other, sameItems_iff items others]

theorem sameEntries_iff : ∀ entries others : List (String × Tree),
    sameEntries entries others = true ↔ entries = others
  | [], [] | [], _ :: _ | _ :: _, [] => by simp [sameEntries]
  | entry :: entries, other :: others => by
    simp [sameEntries, sameEntry_iff entry other, sameEntries_iff entries others]

theorem sameEntry_iff : ∀ entry other : String × Tree, sameEntry entry other = true ↔ entry = other
  | (_, tree), (_, other) => by simp [sameEntry, same_iff tree other]

end

instance : DecidableEq Tree := fun tree other => decidable_of_iff _ (same_iff tree other)

end Tree

end TensorGraph.Yaml
