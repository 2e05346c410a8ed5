import Mathlib.Data.List.Find
import TensorGraph.Proofs.Graph.SameNodes
import TensorGraph.Proofs.Graph.Sorting

/-!
Types as the solution of local equations. Every node says what its type is in terms of the types of
its predecessors. The pass over the sorted nodes never has to look ahead, so on an acyclic graph it
finds types that satisfy all nodes at once, if there are any, and it has no choice in that. What the
nodes say does not depend on the places where they lie, and so the types do not either.
-/

namespace TensorGraph.Graph

variable {g g' : Graph} {n m : Node} {name : String} {done ready rest : List String}
  {setting : Option String} {types other : String → Option Reference}
  {known later : OrderedMap Reference} {t : Reference}

/-! ### What the nodes say -/

/-- The type of a node, as the node says it. Input nodes and constants have their own tensor; an
output has the type of the first of its inputs that exists; an operation has the result for the
types of its inputs, where an input that does not exist is missing. -/
def LocalType (setting : Option String) (g : Graph) (types : String → Option Reference) (n : Node)
    (t : Reference) : Prop :=
  match n.kind with
  | .input | .const => n.tensor = some t
  | .output => ∃ p, n.inputs.find? g.has = some p ∧ types p = some t
  | .op => ∃ op, n.operation = some op ∧
      Operation.result setting { op with inputs := n.inputs.map types } = .ok t

/-- Types for the nodes of a graph, and for no other names, that all nodes agree with. -/
structure Solves (setting : Option String) (g : Graph) (types : String → Option Reference) :
    Prop where
  domain : ∀ name, (types name).isSome = g.has name
  rule : ∀ name n, g.node? name = some n → ∃ t, types name = some t ∧ LocalType setting g types n t

/-- What a node says depends on which of its inputs exist and on their types. -/
theorem localType_congr_of_has (has_eq : ∀ p ∈ n.inputs, g'.has p = g.has p)
    (agree : ∀ p ∈ n.inputs, types p = other p) :
    LocalType setting g types n t ↔ LocalType setting g' other n t := by
  rw [LocalType, LocalType]
  cases n.kind with
  | input => rfl
  | const => rfl
  | output =>
      rw [List.find?_congr has_eq]
      apply exists_congr
      intro p
      apply and_congr_right
      intro first
      rw [agree p (List.mem_of_find?_eq_some first)]
  | op => rw [List.map_congr_left agree]

theorem localType_congr (agree : ∀ p ∈ n.inputs, types p = other p) :
    LocalType setting g types n t ↔ LocalType setting g other n t :=
  localType_congr_of_has (fun _ _ => rfl) agree

/-- The first that has a value is the first that is present, where just those that are present have
one. -/
theorem findSome?_eq_some_iff_find? {select : String → Bool} {names : List String}
    (present : ∀ p ∈ names, (types p).isSome = select p) :
    names.findSome? types = some t ↔ ∃ p, names.find? select = some p ∧ types p = some t := by
  induction names with
  | nil => simp
  | cons first rest ih =>
      have first_present := present first List.mem_cons_self
      cases at_first : types first with
      | none =>
          have skipped : select first = false := by simpa [at_first] using first_present.symm
          rw [List.findSome?_cons, at_first, List.find?_cons_of_neg (by simp [skipped])]
          exact ih fun p later => present p (List.mem_cons_of_mem _ later)
      | some r =>
          have taken : select first = true := by simpa [at_first] using first_present.symm
          rw [List.findSome?_cons, at_first, List.find?_cons_of_pos taken]
          simp [at_first]

/-- The type that the program gives a node is the one that the node says, as soon as the types of
those inputs that exist are known. -/
theorem typeOf_eq_ok_iff (present : ∀ p ∈ n.inputs, (known.get? p).isSome = g.has p) :
    typeOf setting known n = .ok t ↔ LocalType setting g known.get? n t := by
  rw [typeOf, LocalType]
  cases n.kind with
  | input => exact orError_eq_ok_iff
  | const => exact orError_eq_ok_iff
  | output =>
      rw [orError_eq_ok_iff, List.head?_filterMap]
      exact findSome?_eq_some_iff_find? present
  | op =>
      cases n.operation with
      | none => simp
      | some op => simp

/-! ### The pass over the sorted nodes -/

/-- When a node is placed, all its inputs that exist have been. -/
theorem Stage.mem_done (stage : g.Stage done ready) (indexed : g.Indexed)
    (found : g.node? name = some n) (listed : name ∈ done ++ ready) {p : String}
    (takes : p ∈ n.inputs) (has : g.has p = true) : p ∈ done := by
  rcases indexed.node?_eq_some_iff.1 found with ⟨member, rfl⟩
  exact waitsFor_eq_zero_iff.1 ((stage.mem_iff n member).1 listed) p takes has

/-- Known types that the nodes placed so far agree with. -/
structure SolvesOn (setting : Option String) (g : Graph) (done : List String)
    (known : OrderedMap Reference) : Prop where
  domain : ∀ name, (known.get? name).isSome = true ↔ name ∈ done
  rule : ∀ name ∈ done, ∀ n, g.node? name = some n →
    ∃ t, known.get? name = some t ∧ LocalType setting g known.get? n t

theorem solvesOn_nil : SolvesOn setting g [] .empty where
  domain := by simp
  rule := by simp

theorem Stage.next_not_mem (stage : g.Stage done (name :: ready)) : name ∉ done := by
  intro placed
  exact (List.nodup_append.1 stage.nodup).2.2 name placed name List.mem_cons_self rfl

section Pass

variable (indexed : g.Indexed) (stage : g.Stage done (name :: ready))

include indexed stage

/-- The inputs of the next node that exist are those whose types are known. -/
theorem SolvesOn.isSome_eq_has (solved : SolvesOn setting g done known)
    (found : g.node? name = some n) :
    ∀ p ∈ n.inputs, (known.get? p).isSome = g.has p := by
  intro p takes
  rw [Bool.eq_iff_iff, solved.domain]
  constructor
  · intro placed
    exact indexed.has_iff.2 (stage.known p (List.mem_append_left _ placed))
  · exact stage.mem_done indexed found (by simp) takes

/-- The type of the next node changes nothing for the nodes before it, and nothing for itself: it
is no input of any of them. -/
theorem SolvesOn.step (solved : SolvesOn setting g done known) (found : g.node? name = some n)
    (typed : typeOf setting known n = .ok t) :
    SolvesOn setting g (done ++ [name]) (known.put name t) := by
  have untouched {other : String} {m : Node} (found' : g.node? other = some m)
      (listed : other ∈ done ++ name :: ready) :
      ∀ p ∈ m.inputs, known.get? p = (known.put name t).get? p := by
    intro p takes
    rw [OrderedMap.get?_put_of_ne]
    rintro rfl
    have has : g.has p = true := indexed.has_iff.2 (stage.known p (by simp))
    exact stage.next_not_mem (stage.mem_done indexed found' listed takes has)
  constructor
  · intro other
    by_cases same : other = name
    · simp [same]
    · rw [OrderedMap.get?_put_of_ne _ _ same, solved.domain]
      simp [same]
  · intro other listed m found'
    by_cases same : other = name
    · subst same
      obtain rfl : n = m := Option.some.inj (found.symm.trans found')
      refine ⟨t, OrderedMap.get?_put_self _ _ _, ?_⟩
      rw [← localType_congr (untouched found (by simp))]
      exact (typeOf_eq_ok_iff (solved.isSome_eq_has indexed stage found)).1 typed
    · have earlier : other ∈ done := by simpa [same] using listed
      obtain ⟨t', at_other, stated⟩ := solved.rule other earlier m found'
      refine ⟨t', ?_, ?_⟩
      · rwa [OrderedMap.get?_put_of_ne _ _ same]
      · exact (localType_congr (untouched found' (List.mem_append_left _ earlier))).1 stated

end Pass

theorem addType_eq (found : g.node? name = some n) :
    addType setting g known name = (do return known.put name (← typeOf setting known n)) := by
  rw [addType, found]

/-- Where the pass succeeds, all nodes agree with the types that it ends with. -/
theorem Serves.solvesOn (serves : g.Serves done ready rest) (indexed : g.Indexed)
    (stage : g.Stage done ready) (solved : SolvesOn setting g done known)
    (passed : rest.foldlM (addType setting g) known = .ok later) :
    SolvesOn setting g (done ++ rest) later := by
  induction serves generalizing known with
  | idle =>
      obtain rfl : known = later := by simpa using passed
      simpa using solved
  | @serve done ready rest name _ ih =>
      obtain ⟨n, member, rfl⟩ := mem_names.1 (stage.known name (by simp))
      have found := indexed.node?_of_mem member
      obtain ⟨next, step, passed⟩ := bind_eq_ok_iff.1 passed
      rw [addType_eq found] at step
      obtain ⟨t, typed, made⟩ := bind_eq_ok_iff.1 step
      cases made
      simpa using ih (stage.step indexed) (solved.step indexed stage found typed) passed

/-- Where there are types that all nodes agree with, the pass succeeds and finds them. -/
theorem Serves.exists_foldlM_addType (serves : g.Serves done ready rest) (indexed : g.Indexed)
    (stage : g.Stage done ready) (solves : Solves setting g types)
    (agree : ∀ name, known.get? name = if name ∈ done then types name else none) :
    ∃ later, rest.foldlM (addType setting g) known = .ok later ∧
      ∀ name, later.get? name = if name ∈ done ++ rest then types name else none := by
  induction serves generalizing known with
  | idle => exact ⟨known, rfl, by simpa using agree⟩
  | @serve done ready rest name _ ih =>
      obtain ⟨n, member, rfl⟩ := mem_names.1 (stage.known name (by simp))
      have found := indexed.node?_of_mem member
      obtain ⟨t, at_node, stated⟩ := solves.rule n.name n found
      -- An input is known by now, or it does not exist and then it has no type on either side.
      have inputs_known : ∀ p ∈ n.inputs, types p = known.get? p := by
        intro p takes
        by_cases placed : p ∈ done
        · rw [agree, if_pos placed]
        · rw [agree, if_neg placed, ← Option.not_isSome_iff_eq_none, solves.domain]
          intro has
          exact placed (stage.mem_done indexed found (by simp) takes has)
      have typed : typeOf setting known n = .ok t := by
        rw [typeOf_eq_ok_iff fun p takes => by rw [← inputs_known p takes, solves.domain]]
        exact (localType_congr inputs_known).1 stated
      have agree' : ∀ name, (known.put n.name t).get? name =
          if name ∈ done ++ [n.name] then types name else none := by
        intro name
        by_cases same : name = n.name
        · rw [same, OrderedMap.get?_put_self, at_node]
          simp
        · rw [OrderedMap.get?_put_of_ne _ _ same, agree]
          simp [same]
      obtain ⟨later, passed, at_end⟩ := ih (stage.step indexed) agree'
      refine ⟨later, ?_, by simpa using at_end⟩
      rw [List.foldlM_cons, addType_eq found, typed]
      exact passed

/-- Inferred types are, as a function of names, just the types that all nodes agree with. -/
theorem Indexed.exists_forwardTypes_iff (indexed : g.Indexed) :
    (∃ known, g.forwardTypes setting = .ok known ∧ known.get? = types) ↔
      g.Acyclic ∧ Solves setting g types := by
  have serves := indexed.serves_placement
  have stage := indexed.stage_sources
  constructor
  · intro inferred
    rcases inferred with ⟨known, inferred, rfl⟩
    obtain ⟨order, sorted, passed⟩ := bind_eq_ok_iff.1 inferred
    obtain ⟨acyclic, rfl⟩ := indexed.sorted_eq_ok_iff.1 sorted
    have solved := serves.solvesOn indexed stage solvesOn_nil passed
    have placed_iff (name : String) : name ∈ [] ++ g.placement ↔ g.has name = true := by
      rw [List.nil_append, (acyclic.placement_perm indexed).mem_iff, indexed.has_iff]
    refine ⟨acyclic, fun name => ?_, fun name n found => ?_⟩
    · rw [Bool.eq_iff_iff, solved.domain, placed_iff]
    · have member := indexed.node?_eq_some_iff.1 found
      refine solved.rule name ?_ n found
      rw [placed_iff, indexed.has_iff]
      exact mem_names.2 ⟨n, member⟩
  · intro both
    rcases both with ⟨acyclic, solves⟩
    have nothing_known (name : String) : (OrderedMap.empty : OrderedMap Reference).get? name =
        if name ∈ [] then types name else none := by simp
    obtain ⟨known, passed, at_end⟩ :=
      serves.exists_foldlM_addType indexed stage solves nothing_known
    refine ⟨known, ?_, ?_⟩
    · rw [forwardTypes, indexed.sorted_eq acyclic]
      exact passed
    · funext name
      rw [at_end, List.nil_append]
      split
      · rfl
      · next unplaced =>
        rw [(acyclic.placement_perm indexed).mem_iff, ← indexed.has_iff] at unplaced
        rw [eq_comm, ← Option.not_isSome_iff_eq_none, solves.domain]
        exact unplaced

/-! ### The same nodes in other places -/

/-- Every name designates the same node in two graphs, or none in either. -/
def SameNodes (g g' : Graph) : Prop := ∀ name, Option.Rel SameNode (g.node? name) (g'.node? name)

/-- Two results of inference: the same type for every name, or a failure on both sides. -/
def SameTypes : Except Error (OrderedMap Reference) → Except Error (OrderedMap Reference) → Prop
  | .ok known, .ok known' => known'.get? = known.get?
  | .error _, .error _ => True
  | _, _ => False

theorem Indexed.has_eq_isSome (indexed : g.Indexed) (name : String) :
    g.has name = (g.node? name).isSome := by
  cases found : g.node? name with
  | none =>
      have absent := indexed.node?_eq_none_iff.1 found
      rw [← indexed.has_iff] at absent
      simpa using absent
  | some n =>
      have member := indexed.node?_eq_some_iff.1 found
      simpa using indexed.has_iff.2 (mem_names.2 ⟨n, member⟩)

theorem SameNode.localType_iff (same : SameNode n m) (has_eq : g'.has = g.has) :
    LocalType setting g' types m t ↔ LocalType setting g types n t := by
  have operations := same.operation_rel
  rw [LocalType, LocalType, same.kind_eq, same.inputs_eq, same.tensor_eq, has_eq]
  cases n.kind with
  | op =>
      generalize n.operation = op, m.operation = op' at operations
      cases operations with
      | none => simp
      | some alike => simp [alike.result_eq setting]
  | _ => rfl

theorem SameNodes.exists_right (same : SameNodes g g') (found : g.node? name = some n) :
    ∃ m, g'.node? name = some m ∧ SameNode n m := by
  have relation := same name
  rw [found] at relation
  generalize found' : g'.node? name = node' at relation
  cases relation with
  | some alike => exact ⟨_, rfl, alike⟩

theorem SameNodes.symm (same : SameNodes g g') : SameNodes g' g := by
  intro name
  have relation := same name
  generalize g.node? name = node, g'.node? name = node' at relation ⊢
  cases relation with
  | none => exact .none
  | some alike => exact .some alike.symm

section SameNodes

variable (same : SameNodes g g') (indexed : g.Indexed) (indexed' : g'.Indexed)

include same indexed indexed'

theorem SameNodes.has_eq : g'.has = g.has := by
  funext name
  rw [indexed.has_eq_isSome, indexed'.has_eq_isSome]
  have relation := same name
  generalize g.node? name = node, g'.node? name = node' at relation
  cases relation <;> rfl

/-- Edges run between the same names. -/
theorem SameNodes.precedes_eq : g'.Precedes = g.Precedes := by
  funext before behind
  rw [Precedes, Precedes, same.has_eq indexed indexed']
  have relation := same behind
  generalize g.node? behind = node, g'.node? behind = node' at relation
  cases relation with
  | none => simp
  | some alike => simp [alike.inputs_eq]

/-- Types that the nodes of one graph agree with are types that those of the other agree with. -/
theorem SameNodes.solves (solves : Solves setting g types) : Solves setting g' types := by
  have has_eq := same.has_eq indexed indexed'
  rcases solves with ⟨domain, rule⟩
  refine ⟨fun name => by rw [domain, has_eq], fun name m found' => ?_⟩
  obtain ⟨n, found, alike⟩ := same.symm.exists_right found'
  obtain ⟨t, at_name, stated⟩ := rule name n found
  exact ⟨t, at_name, (alike.localType_iff has_eq.symm).1 stated⟩

/-- Inference gives both graphs the same types, or fails on both. -/
theorem SameNodes.sameTypes :
    SameTypes (g.forwardTypes setting) (g'.forwardTypes setting) := by
  have acyclic_iff : g'.Acyclic ↔ g.Acyclic := by
    rw [Acyclic, Acyclic, same.precedes_eq indexed indexed']
  have inferred_iff (types : String → Option Reference) :
      (∃ known, g'.forwardTypes setting = .ok known ∧ known.get? = types) ↔
        ∃ known, g.forwardTypes setting = .ok known ∧ known.get? = types := by
    rw [indexed.exists_forwardTypes_iff, indexed'.exists_forwardTypes_iff, acyclic_iff]
    apply and_congr_right
    intro _
    exact ⟨same.symm.solves indexed' indexed, same.solves indexed indexed'⟩
  cases inferred : g.forwardTypes setting with
  | ok known =>
      obtain ⟨known', inferred', same_types⟩ := (inferred_iff known.get?).2 ⟨known, inferred, rfl⟩
      rw [inferred']
      exact same_types
  | error e =>
      cases inferred' : g'.forwardTypes setting with
      | error e' => trivial
      | ok known' =>
          obtain ⟨known, inferred'', _⟩ := (inferred_iff known'.get?).1 ⟨known', inferred', rfl⟩
          rw [inferred] at inferred''
          cases inferred''

end SameNodes

/-! ### Nodes that are added in another order -/

/-- Nodes that are added one after the other are there afterwards, each told of later ones. -/
theorem Indexed.forall₂_foldlM_add {ns old : List Node} (indexed : g.Indexed)
    (same : List.Forall₂ SameNode old g.nodes) (added : ns.foldlM Graph.add g = .ok g') :
    g'.Indexed ∧ List.Forall₂ SameNode (old ++ ns) g'.nodes := by
  induction ns generalizing g old with
  | nil =>
      obtain rfl : g = g' := by simpa using added
      exact ⟨indexed, by simpa using same⟩
  | cons n ns ih =>
      obtain ⟨next, step, added⟩ := bind_eq_ok_iff.1 added
      have next_same : List.Forall₂ SameNode (old ++ [n]) next.nodes :=
        indexed.forall₂_nodes_add step same (.refl n)
      simpa using ih (indexed.add step) next_same added

/-- Two graphs have the same nodes if they have been given the same ones, in whatever order. -/
theorem Indexed.sameNodes_of_perm {ns ns' : List Node} (indexed : g.Indexed)
    (indexed' : g'.Indexed) (perm : ns.Perm ns') (listed : List.Forall₂ SameNode ns g.nodes)
    (listed' : List.Forall₂ SameNode ns' g'.nodes) : SameNodes g g' := by
  intro name
  cases found : g.node? name with
  | none =>
      cases found' : g'.node? name with
      | none => exact .none
      | some m =>
          rcases indexed'.node?_eq_some_iff.1 found' with ⟨member', rfl⟩
          obtain ⟨k, given, same'⟩ := exists_same_of_mem listed'.flip member'
          obtain ⟨n, member, same⟩ := exists_same_of_mem listed (perm.mem_iff.2 given)
          have absent := indexed.node?_eq_none_iff.1 found
          rw [same'.name_eq, ← same.name_eq] at absent
          exact absurd (mem_names.2 ⟨n, member, rfl⟩) absent
  | some n =>
      rcases indexed.node?_eq_some_iff.1 found with ⟨member, rfl⟩
      obtain ⟨k, given, same⟩ := exists_same_of_mem listed.flip member
      obtain ⟨m, member', same'⟩ := exists_same_of_mem listed' (perm.mem_iff.1 given)
      have alike := SameNode.of_common same same'
      have found' : g'.node? n.name = some m :=
        indexed'.node?_eq_some_iff.2 ⟨member', alike.name_eq⟩
      rw [found']
      exact .some alike

/-- Adding the same nodes in two orders makes two graphs with the same nodes. -/
theorem sameNodes_of_perm {ns ns' : List Node} {title title' : Value} (perm : ns.Perm ns')
    (one : ns.foldlM add (empty title) = .ok g) (two : ns'.foldlM add (empty title') = .ok g') :
    SameNodes g g' := by
  obtain ⟨indexed, listed⟩ := (tidy_empty title).indexed.forall₂_foldlM_add .nil one
  obtain ⟨indexed', listed'⟩ := (tidy_empty title').indexed.forall₂_foldlM_add .nil two
  exact indexed.sameNodes_of_perm indexed' perm listed listed'

/-- **Type inference.** On every graph, whatever its history is, inference succeeds if and only if
there is no cycle and there are types that all nodes agree with; what it finds are these types, and
there are no others. On two graphs with the same nodes, wherever these lie, it finds the same types
or fails on both. -/
theorem forwardTypes_iff_solves (setting : Option String) (reached : g.Reached) :
    ((∃ known, g.forwardTypes setting = .ok known) ↔
      g.Acyclic ∧ ∃ types, Solves setting g types) ∧
    (∀ known, g.forwardTypes setting = .ok known →
      ∀ types, Solves setting g types ↔ types = known.get?) ∧
    ∀ g', g'.Reached → SameNodes g g' →
      SameTypes (g.forwardTypes setting) (g'.forwardTypes setting) := by
  have indexed := reached.indexed
  refine ⟨?_, fun known inferred types => ?_, fun g' reached' same => ?_⟩
  · constructor
    · intro inferred
      rcases inferred with ⟨known, inferred⟩
      have both := indexed.exists_forwardTypes_iff.1 ⟨known, inferred, rfl⟩
      exact ⟨both.1, known.get?, both.2⟩
    · intro both
      rcases both with ⟨acyclic, types, solves⟩
      obtain ⟨known, inferred, _⟩ := indexed.exists_forwardTypes_iff.2 ⟨acyclic, solves⟩
      exact ⟨known, inferred⟩
  · have both := indexed.exists_forwardTypes_iff.1 ⟨known, inferred, rfl⟩
    constructor
    · intro solves
      obtain ⟨known', inferred', rfl⟩ := indexed.exists_forwardTypes_iff.2 ⟨both.1, solves⟩
      obtain rfl : known' = known := Except.ok.inj (inferred'.symm.trans inferred)
      rfl
    · rintro rfl
      exact both.2
  · exact same.sameTypes indexed reached'.indexed

/-- An input, an operation on it, and an output that names a missing input before the operation. -/
def chained : List Node :=
  [{ name := "x", kind := .input, tensor := some (.empty ⟨[2, 3]⟩ .float32) },
    { name := "r", kind := .op, operation := some { kind := .relu }, inputs := ["x"] },
    { name := "y", kind := .output, inputs := ["z", "r"] }]

theorem forwardTypes_chained : ∃ g g' known, chained.foldlM add (empty (.text "g")) = .ok g ∧
    chained.reverse.foldlM add (empty (.text "g'")) = .ok g' ∧ g.Reached ∧ g'.Reached ∧
    SameNodes g g' ∧ g.forwardTypes none = .ok known ∧ Solves none g known.get? ∧
    known.get? "y" = some (.empty ⟨[2, 3]⟩ .float32) ∧
    SameTypes (g.forwardTypes none) (g'.forwardTypes none) := by
  obtain ⟨g, made⟩ : ∃ g, chained.foldlM add (empty (.text "g")) = .ok g := ⟨_, rfl⟩
  obtain ⟨g', made'⟩ : ∃ g', chained.reverse.foldlM add (empty (.text "g'")) = .ok g' := ⟨_, rfl⟩
  have reached : g.Reached := (Reached.empty _).foldlM_add made
  have reached' : g'.Reached := (Reached.empty _).foldlM_add made'
  have same : SameNodes g g' := sameNodes_of_perm (List.reverse_perm chained).symm made made'
  have typing := forwardTypes_iff_solves none reached
  obtain ⟨known, inferred, at_end⟩ : ∃ known, g.forwardTypes none = .ok known ∧
      known.get? "y" = some (.empty ⟨[2, 3]⟩ .float32) := by
    cases made
    exact ⟨_, rfl, rfl⟩
  exact ⟨g, g', known, made, made', reached, reached', same, inferred,
    (typing.2.1 known inferred known.get?).2 rfl, at_end, typing.2.2 g' reached' same⟩

end TensorGraph.Graph
