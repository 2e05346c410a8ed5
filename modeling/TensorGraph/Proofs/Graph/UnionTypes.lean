import TensorGraph.Proofs.Graph.Union

/-!
Types in a union. What a node says about its type does not change on its side: the types of its
inputs are those under the new names, and an input that exists on its side exists in the union. So
types that all nodes of a union agree with are made of such types for its two sides, although the
pass over the union takes the nodes in an order of its own.
-/

namespace TensorGraph

/-! ### New keys -/

namespace Entries

variable {α : Type} {entries : Entries α} {rename : String → String} {key : String}

/-- The same values under new names. -/
def mapKeys (rename : String → String) (entries : Entries α) : Entries α :=
  entries.map fun entry => (rename entry.1, entry.2)

theorem get?_mapKeys (injective : Function.Injective rename) :
    (entries.mapKeys rename).get? (rename key) = entries.get? key := by
  induction entries with
  | nil => rfl
  | cons entry rest ih =>
      have same_iff : rename entry.1 = rename key ↔ entry.1 = key := injective.eq_iff
      rw [mapKeys, List.map_cons, ← mapKeys, get?, get?, ih]
      simp only [same_iff]

/-- What has a value under the new names is a new name. -/
theorem get?_mapKeys_eq_some_iff (injective : Function.Injective rename) {value : α} :
    (entries.mapKeys rename).get? key = some value ↔
      ∃ k, entries.get? k = some value ∧ rename k = key := by
  constructor
  · intro found
    induction entries with
    | nil => cases found
    | cons entry rest ih =>
        rw [mapKeys, List.map_cons, ← mapKeys, get?] at found
        split at found
        · next here => exact ⟨entry.1, by rw [get?, if_pos rfl, found], here⟩
        · next elsewhere =>
          obtain ⟨k, found', rfl⟩ := ih found
          have apart : entry.1 ≠ k := by
            rintro rfl
            exact elsewhere rfl
          exact ⟨k, by rw [get?, if_neg apart, found'], rfl⟩
  · intro there
    rcases there with ⟨k, found, rfl⟩
    rw [get?_mapKeys injective, found]

end Entries

namespace Graph

variable {g other union : Graph} {n m : Node} {name : String} {stem setting : Option String}
  {types one two : String → Option Reference} {t : Reference}

/-! ### Types on two sides -/

/-- Types for the nodes of a union, those of its first side and, without their new names, those of
its second side. -/
structure Joins (stem : Option String) (g other union : Graph)
    (types one two : String → Option Reference) : Prop where
  domain : ∀ name, (types name).isSome = union.has name
  domain_left : ∀ name, (one name).isSome = g.has name
  domain_right : ∀ name, (two name).isSome = other.has name
  left : ∀ name, g.has name = true → types name = one name
  right : ∀ name, other.has name = true → types (renamed stem name) = two name

section Joins

variable (joins : Joins stem g other union types one two) (unites : Unites stem g other union)

include joins unites

/-- A node that has all its inputs on its side says the same about its type. -/
theorem Joins.localType_left (whole : g.Whole) (member : n ∈ g.nodes) :
    LocalType setting union types n t ↔ LocalType setting g one n t := by
  apply localType_congr_of_has
  · intro p takes
    have present := whole n member p takes
    rw [present, unites.has_left present]
  · exact fun p takes => joins.left p (whole n member p takes)

/-- So it does where its inputs get new names. -/
theorem Joins.localType_right (whole : other.Whole) (member : m ∈ other.nodes) :
    LocalType setting union types (renamedNode stem m) t ↔ LocalType setting other two m t := by
  have types_eq : ∀ p ∈ m.inputs, types (renamed stem p) = two p := fun p takes =>
    joins.right p (whole m member p takes)
  rw [LocalType, LocalType, renamedNode]
  dsimp only
  cases m.kind with
  | input => rfl
  | const => rfl
  | output =>
      have has_eq : ∀ p ∈ m.inputs, (union.has ∘ renamed stem) p = other.has p := by
        intro p takes
        have present := whole m member p takes
        rw [Function.comp_apply, unites.has_right present, present]
      rw [List.find?_map, List.find?_congr has_eq]
      constructor
      · intro stated
        obtain ⟨_, first, typed⟩ := stated
        obtain ⟨p, first', rfl⟩ := Option.map_eq_some_iff.1 first
        rw [types_eq p (List.mem_of_find?_eq_some first')] at typed
        exact ⟨p, first', typed⟩
      · intro stated
        obtain ⟨p, first, typed⟩ := stated
        refine ⟨renamed stem p, by rw [first, Option.map_some], ?_⟩
        rw [types_eq p (List.mem_of_find?_eq_some first), typed]
  | op =>
      have inputs_eq : (m.inputs.map (renamed stem)).map types = m.inputs.map two := by
        rw [List.map_map]
        exact List.map_congr_left types_eq
      rw [inputs_eq]

/-- A node of the first side agrees with types of the union as it does with those of its side. -/
theorem Joins.agrees_left_iff (whole : g.Whole) (found : g.node? name = some n) :
    (∃ t, types name = some t ∧ LocalType setting union types n t) ↔
      ∃ t, one name = some t ∧ LocalType setting g one n t := by
  rcases unites.left.node?_eq_some_iff.1 found with ⟨member, rfl⟩
  rw [joins.left n.name (unites.left.has_of_mem member)]
  simp only [joins.localType_left unites whole member]

theorem Joins.agrees_right_iff (whole : other.Whole) (found : other.node? name = some m) :
    (∃ t, types (renamed stem name) = some t ∧
        LocalType setting union types (renamedNode stem m) t) ↔
      ∃ t, two name = some t ∧ LocalType setting other two m t := by
  rcases unites.right.node?_eq_some_iff.1 found with ⟨member, rfl⟩
  rw [joins.right m.name (unites.right.has_of_mem member)]
  simp only [joins.localType_right unites whole member]

/-- All nodes of a union agree with types if and only if those of both sides do. -/
theorem Joins.solves_iff (whole : g.Whole) (whole' : other.Whole) :
    Solves setting union types ↔ Solves setting g one ∧ Solves setting other two := by
  constructor
  · intro solves
    refine ⟨⟨joins.domain_left, fun name n found => ?_⟩, joins.domain_right, fun name m found => ?_⟩
    · apply (joins.agrees_left_iff unites whole found).1
      exact solves.rule name n (unites.node?_left found)
    · apply (joins.agrees_right_iff unites whole' found).1
      exact solves.rule _ _ (unites.node?_right found)
  · intro both
    rcases both with ⟨solves, solves'⟩
    refine ⟨joins.domain, fun name n found => ?_⟩
    rcases unites.node?_cases found with found_left | ⟨q, m, found_right, rfl, rfl⟩
    · apply (joins.agrees_left_iff unites whole found_left).2
      exact solves.rule name n found_left
    · apply (joins.agrees_right_iff unites whole' found_right).2
      exact solves'.rule q m found_right

end Joins

/-! ### Inferred types -/

/-- Types under the names of two graphs, those of the second one under their new names. -/
def joined (stem : Option String) (one two : OrderedMap Reference) : String → Option Reference :=
  Entries.get? (one.entries ++ two.entries.mapKeys (renamed stem))

theorem Unites.joins_joined (unites : Unites stem g other union) {one two : OrderedMap Reference}
    (domain_left : ∀ name, (one.get? name).isSome = g.has name)
    (domain_right : ∀ name, (two.get? name).isSome = other.has name) :
    Joins stem g other union (joined stem one two) one.get? two.get? := by
  have joined_eq (name : String) : joined stem one two name =
      (one.get? name <|> (two.entries.mapKeys (renamed stem)).get? name) :=
    Entries.get?_append _ _ name
  refine ⟨fun name => ?_, domain_left, domain_right, fun name has => ?_, fun name has => ?_⟩
  · have renamed_iff : ((two.entries.mapKeys (renamed stem)).get? name).isSome = true ↔
        ∃ q, other.has q = true ∧ renamed stem q = name := by
      simp only [Option.isSome_iff_exists, ← domain_right,
        Entries.get?_mapKeys_eq_some_iff (renamed_injective stem), OrderedMap.get?]
      tauto
    rw [joined_eq, Bool.eq_iff_iff, unites.has_iff, ← renamed_iff, ← domain_left]
    simp
  · obtain ⟨t, typed⟩ := Option.isSome_iff_exists.1 ((domain_left name).trans has)
    rw [joined_eq, typed]
    rfl
  · have absent : one.get? (renamed stem name) = none := by
      rw [← Option.not_isSome_iff_eq_none, domain_left]
      exact fun has' => unites.not_both has' has
    rw [joined_eq, absent, Entries.get?_mapKeys (renamed_injective stem)]
    rfl

section Inference

variable (unites : Unites stem g other union) (whole : g.Whole) (whole' : other.Whole)
  (acyclic : g.Acyclic) (acyclic' : other.Acyclic)

include unites whole whole' acyclic acyclic'

/-- Types that are found for both sides are found for the union. -/
theorem Unites.exists_forwardTypes {left right : OrderedMap Reference}
    (inferred : g.forwardTypes setting = .ok left)
    (inferred' : other.forwardTypes setting = .ok right) :
    ∃ known, union.forwardTypes setting = .ok known ∧ known.get? = joined stem left right := by
  have solves := (unites.left.exists_forwardTypes_iff.1 ⟨left, inferred, rfl⟩).2
  have solves' := (unites.right.exists_forwardTypes_iff.1 ⟨right, inferred', rfl⟩).2
  have joins := unites.joins_joined solves.domain solves'.domain
  apply unites.indexed.exists_forwardTypes_iff.2
  exact ⟨unites.acyclic whole whole' acyclic acyclic',
    (joins.solves_iff unites whole whole').2 ⟨solves, solves'⟩⟩

/-- Types that are found for the union are, side by side, types for both sides. -/
theorem Unites.exists_forwardTypes_sides {known : OrderedMap Reference}
    (inferred : union.forwardTypes setting = .ok known) :
    (∃ left, g.forwardTypes setting = .ok left) ∧
      ∃ right, other.forwardTypes setting = .ok right := by
  have solves := (unites.indexed.exists_forwardTypes_iff.1 ⟨known, inferred, rfl⟩).2
  have joins : Joins stem g other union known.get?
      (fun name => if g.has name then known.get? name else none)
      (fun name => if other.has name then known.get? (renamed stem name) else none) := by
    refine ⟨solves.domain, fun name => ?_, fun name => ?_, fun name has => ?_, fun name has => ?_⟩
    · split
      · next has => rw [solves.domain, unites.has_left has, has]
      · next absent => simp [absent]
    · split
      · next has => rw [solves.domain, unites.has_right has, has]
      · next absent => simp [absent]
    · rw [if_pos has]
    · rw [if_pos has]
  obtain ⟨solves_left, solves_right⟩ := (joins.solves_iff unites whole whole').1 solves
  obtain ⟨left, inferred_left, _⟩ :=
    unites.left.exists_forwardTypes_iff.2 ⟨acyclic, solves_left⟩
  obtain ⟨right, inferred_right, _⟩ :=
    unites.right.exists_forwardTypes_iff.2 ⟨acyclic', solves_right⟩
  exact ⟨⟨left, inferred_left⟩, right, inferred_right⟩

end Inference

/-- **Types side by side.** Inference succeeds on the union of two graphs that pass the checks if
and only if it succeeds on both, and it finds for the union the types that it finds for the first
graph and, under the new names, those that it finds for the second one. -/
theorem forwardTypes_side_by_side (one : g.Reached) (two : other.Reached)
    (valid : g.validate = true) (valid' : other.validate = true)
    (merged : g.merge other stem = .ok union) (setting : Option String) :
    ((∃ known, union.forwardTypes setting = .ok known) ↔
      (∃ known, g.forwardTypes setting = .ok known) ∧
        ∃ known, other.forwardTypes setting = .ok known) ∧
    ∀ known left right, union.forwardTypes setting = .ok known →
      g.forwardTypes setting = .ok left → other.forwardTypes setting = .ok right →
      known.get? = joined stem left right := by
  have unites := unites_of_merge one.indexed two.indexed merged
  obtain ⟨acyclic, whole⟩ := one.indexed.acyclic_and_whole_of_validate valid
  obtain ⟨acyclic', whole'⟩ := two.indexed.acyclic_and_whole_of_validate valid'
  refine ⟨⟨?_, ?_⟩, fun known left right inferred inferred_left inferred_right => ?_⟩
  · intro inferred
    obtain ⟨known, inferred⟩ := inferred
    exact unites.exists_forwardTypes_sides whole whole' acyclic acyclic' inferred
  · intro both
    rcases both with ⟨⟨left, inferred_left⟩, right, inferred_right⟩
    obtain ⟨known, inferred, _⟩ :=
      unites.exists_forwardTypes whole whole' acyclic acyclic' inferred_left inferred_right
    exact ⟨known, inferred⟩
  · obtain ⟨known', inferred', types_eq⟩ :=
      unites.exists_forwardTypes whole whole' acyclic acyclic' inferred_left inferred_right
    obtain rfl : known' = known := Except.ok.inj (inferred'.symm.trans inferred)
    exact types_eq

/-- A sum of an input with itself, added before the input. -/
def doubling : List Node :=
  [{ name := "y", kind := .output, inputs := ["r"] },
    { name := "r", kind := .op, operation := some { kind := .add }, inputs := ["x", "x"] },
    { name := "x", kind := .input, tensor := some (.empty ⟨[4]⟩ .float32) }]

theorem forwardTypes_pipeline_doubling : ∃ g other union known,
    pipeline.foldlM add (empty (.text "g")) = .ok g ∧
    doubling.foldlM add (empty (.text "h")) = .ok other ∧ g.Reached ∧ other.Reached ∧
    g.validate = true ∧ other.validate = true ∧ g.merge other (some "b") = .ok union ∧
    union.forwardTypes none = .ok known ∧
    known.get? "y" = some (.empty ⟨[2, 3]⟩ .float32) ∧
    known.get? "b_y" = some (.empty ⟨[4]⟩ .float32) := by
  obtain ⟨g, made⟩ : ∃ g, pipeline.foldlM add (empty (.text "g")) = .ok g := ⟨_, rfl⟩
  obtain ⟨other, made'⟩ : ∃ other, doubling.foldlM add (empty (.text "h")) = .ok other := ⟨_, rfl⟩
  have reached : g.Reached := (Reached.empty _).foldlM_add made
  have reached' : other.Reached := (Reached.empty _).foldlM_add made'
  obtain ⟨union, left, right, valid, valid', merged, inferred_left, inferred_right, at_y, at_b_y⟩ :
      ∃ union left right, g.validate = true ∧ other.validate = true ∧
        g.merge other (some "b") = .ok union ∧ g.forwardTypes none = .ok left ∧
        other.forwardTypes none = .ok right ∧
        joined (some "b") left right "y" = some (.empty ⟨[2, 3]⟩ .float32) ∧
        joined (some "b") left right "b_y" = some (.empty ⟨[4]⟩ .float32) := by
    cases made
    cases made'
    exact ⟨_, _, _, rfl, rfl, rfl, rfl, rfl, rfl, rfl⟩
  obtain ⟨succeeds_iff, types_eq⟩ :=
    forwardTypes_side_by_side reached reached' valid valid' merged none
  obtain ⟨known, inferred⟩ := succeeds_iff.2 ⟨⟨left, inferred_left⟩, right, inferred_right⟩
  have at_end := types_eq known left right inferred inferred_left inferred_right
  rw [← at_end] at at_y at_b_y
  exact ⟨g, other, union, known, made, made', reached, reached', valid, valid', merged, inferred,
    at_y, at_b_y⟩

end Graph

end TensorGraph
