import TensorGraph.Proofs.Graph.Building
import TensorGraph.Proofs.Operation.Failures

/-!
Names that a builder makes up. A node without a name is named for what it is, with a number behind
that the builder never uses again, and the number can be read off the name whatever stands before
it. So no name is made up twice, and where no names are given, every name is new. A request that
fails has at most used up a number.
-/

namespace TensorGraph.Builder

open TensorGraph.Graph

variable {b : Builder} {n : Node} {name : String} {made : Except Error Node} {e : Error}

/-! ### Numbers behind names -/

/-- The number at the end of a name. -/
def numberOf (name : String) : Nat :=
  Nat.ofDigitChars 10 (name.toList.reverse.takeWhile Char.isDigit).reverse 0

/-- The number can be read off whatever stands before it, digits included. -/
theorem numberOf_numbered (stem : String) (number : Nat) :
    numberOf (stem ++ "_" ++ toString number) = number := by
  have digits : ∀ c ∈ (Nat.toDigits 10 number).reverse, c.isDigit = true := fun c listed =>
    Nat.isDigit_of_mem_toDigits (by decide) (by decide) (List.mem_reverse.1 listed)
  have chars : (stem ++ "_" ++ toString number).toList.reverse =
      (Nat.toDigits 10 number).reverse ++ '_' :: stem.toList.reverse := by
    simp
  have stop : ('_' :: stem.toList.reverse).takeWhile Char.isDigit = [] := rfl
  rw [numberOf, chars, List.takeWhile_append_of_pos digits, stop, List.append_nil,
    List.reverse_reverse, Nat.ofDigitChars_toDigits (by decide) (by decide)]

theorem nameFor_empty (b : Builder) (stem : String) : b.nameFor "" stem =
    (stem ++ "_" ++ toString b.next, { b with next := b.next + 1 }) :=
  if_pos rfl

theorem nameFor_of_ne (given : name ≠ "") (b : Builder) (stem : String) :
    b.nameFor name stem = (name, b) :=
  if_neg given

/-! ### Requests -/

/-- A request to add a node. Where its name is empty, the builder makes one up. -/
inductive Request where
  | input (tensor : Option Reference) (name : String)
  | const (tensor : Option Reference) (name : String)
  | operation (setting : Option String) (kind : OperationKind) (inputs : List String)
      (shape : Option Shape) (elementType : Option ElementType) (attributes : Entries Value)
      (name : String)
  | output (source name : String)

namespace Request

/-- The name that is given to the node. -/
def given : Request → String
  | input _ name | const _ name | operation _ _ _ _ _ _ name | output _ name => name

/-- What the node is named for. -/
def stem : Request → String
  | input _ _ => "input"
  | const _ _ => "const"
  | operation _ kind _ _ _ _ _ => kind.name
  | output _ _ => "output"

/-- The same request with another name. -/
def named (name : String) : Request → Request
  | input tensor _ => input tensor name
  | const tensor _ => const tensor name
  | operation setting kind inputs shape elementType attributes _ =>
    operation setting kind inputs shape elementType attributes name
  | output source _ => output source name

end Request

variable {request : Request} {requests : List Request}

/-- What a request leaves, and what it is answered with. -/
def perform (b : Builder) : Request → Builder × Except Error String
  | .input tensor name => b.addInput tensor name
  | .const tensor name => b.addConst tensor name
  | .operation setting kind inputs shape elementType attributes name =>
    b.addOperation setting kind inputs shape elementType attributes name
  | .output source name => b.addOutput source name

/-- The name that is made up for a request, if the request uses up a number. -/
def generated? (b : Builder) (request : Request) : Option String :=
  if (b.perform request).1.next = b.next then none else some (b.nameFor "" request.stem).1

/-- The names that are made up in a run of requests. -/
def generated (b : Builder) : List Request → List String
  | [] => []
  | request :: rest =>
    (b.generated? request).toList ++ generated (b.perform request).1 rest

/-- The answers to a run of requests. -/
def answers (b : Builder) : List Request → List (Except Error String)
  | [] => []
  | request :: rest => (b.perform request).2 :: answers (b.perform request).1 rest

theorem Built.perform (built : Built b) (request : Request) : Built (b.perform request).1 := by
  cases request with
  | input tensor name => exact .addInput built tensor name
  | const tensor name => exact .addConst built tensor name
  | operation setting kind inputs shape elementType attributes name =>
      exact .addOperation built setting kind inputs shape elementType attributes name
  | output source name => exact .addOutput built source name

/-! ### Errors before a node is added -/

/-- An error that is not about a name that is taken. -/
def IsUntaken (e : Error) : Prop := ∀ name, e ≠ .graph (.duplicateNode name)

theorem isUntaken_of_isInferred (e : Error) (inferred : Operation.IsInferred e) : IsUntaken e := by
  obtain ⟨_, rfl⟩ | ⟨_, rfl⟩ := inferred
  · exact nofun
  · exact nofun

theorem failsOnly_tensorOf (name : String) : FailsOnly IsUntaken (b.tensorOf name) := by
  rw [tensorOf]
  split
  · exact failsOnly_ok
  · intro other same
    cases same

theorem failsOnly_ofValues (entries : Entries Value) :
    FailsOnly IsUntaken (Attributes.ofValues entries) := by
  refine failsOnly_foldlM fun attributes entry _ => FailsOnly.bind ?_ fun _ => failsOnly_ok
  unfold Attribute.ofValue
  split
  case h_5 | h_6 => exact failsOnly_orError nofun
  case h_7 => exact nofun
  all_goals exact failsOnly_ok

theorem failsOnly_default (setting : Option String) :
    FailsOnly IsUntaken (ElementType.default setting) := by
  unfold ElementType.default
  split
  · exact failsOnly_ok
  · split
    · exact failsOnly_ok
    · generalize ElementType.parse? _ = parsed
      exact failsOnly_orError nofun

theorem failsOnly_resultType (setting : Option String) (op : Operation) :
    FailsOnly IsUntaken (op.resultType setting) := by
  rw [Operation.resultType]
  split
  · split
    · exact failsOnly_ok
    · exact failsOnly_default setting
  · have present : FailsOnly IsUntaken op.presentInputs :=
      (Operation.failsOnly_presentFrom 0 op.inputs).mono fun e lacks =>
        isUntaken_of_isInferred e (.inl lacks)
    refine present.bind fun given => ?_
    split
    · exact failsOnly_default setting
    · exact failsOnly_ok

/-- The node of an operation has its name, whatever of it is inferred. What keeps it from being made
is that an input is unknown, an attribute is none, or inference fails. -/
theorem ends_operationNode (setting : Option String) (kind : OperationKind) (inputs : List String)
    (shape : Option Shape) (elementType : Option ElementType) (attributes : Entries Value)
    (name : String) :
    Ends IsUntaken (fun n => n.name = name)
      (b.operationNode setting kind inputs shape elementType attributes name) := by
  refine Ends.bind (failsOnly_mapM fun p _ => failsOnly_tensorOf p) fun references _ => ?_
  refine Ends.bind (failsOnly_ofValues attributes) fun attributes _ => ?_
  have shapes (op : Operation) : FailsOnly IsUntaken op.resultShape :=
    (Operation.failsOnly_resultShape op).mono isUntaken_of_isInferred
  have types := failsOnly_resultType setting
  cases shape <;> cases elementType
  case none.none => exact Ends.bind (shapes _) fun _ _ => Ends.bind (types _) fun _ _ => rfl
  case none.some => exact Ends.bind (shapes _) fun _ _ => rfl
  case some.none s =>
    exact Ends.bind (@failsOnly_ok _ _ s) fun _ _ => Ends.bind (types _) fun _ _ => rfl
  case some.some => rfl

/-! ### One request -/

/-- What a request comes to. It fails before a name is due, or its node gets the name that is given
or made up, and is added if it can be made. -/
inductive Proceeds (b : Builder) (request : Request) : Builder × Except Error String → Prop where
  | refused {e : Error} (untaken : IsUntaken e) : Proceeds b request (b, .error e)
  | named {made : Except Error Node}
      (ends : Ends IsUntaken (fun n => n.name = (b.nameFor request.given request.stem).1) made) :
      Proceeds b request ((b.nameFor request.given request.stem).2.finish made)

theorem proceeds_perform (b : Builder) (request : Request) :
    b.Proceeds request (b.perform request) := by
  cases request with
  | input tensor name =>
      exact @Proceeds.named b (.input tensor name)
        (.ok { name := (b.nameFor name "input").1, kind := .input, tensor }) rfl
  | const tensor name =>
      exact @Proceeds.named b (.const tensor name)
        (.ok { name := (b.nameFor name "const").1, kind := .const, tensor }) rfl
  | operation setting kind inputs shape elementType attributes name =>
      exact .named (ends_operationNode setting kind inputs shape elementType attributes _)
  | output source name =>
      have told := failsOnly_tensorOf (b := b) source
      rw [perform, addOutput]
      cases found : b.tensorOf source with
      | error e =>
          rw [found] at told
          exact .refused told
      | ok tensor =>
          exact @Proceeds.named b (.output source name)
            (.ok { name := (b.nameFor name "output").1, kind := .output, inputs := [source],
                   tensor }) rfl

theorem next_finish (b : Builder) (made : Except Error Node) :
    (b.finish made).1.next = b.next := by
  cases made with
  | error e => rfl
  | ok n =>
      rw [finish, addNode]
      split <;> rfl

theorem finish_of_error (failed : (b.finish made).2 = .error e) : (b.finish made).1 = b := by
  cases made with
  | error e => rfl
  | ok n =>
      rw [finish, addNode] at failed ⊢
      cases added : b.graph.add n with
      | error => rfl
      | ok g' => simp [added] at failed

theorem finish_eq_ok (done : (b.finish made).2 = .ok name) : ∃ n, made = .ok n ∧ n.name = name := by
  cases made with
  | error e => cases done
  | ok n =>
      rw [finish, addNode] at done
      split at done
      · cases done
        exact ⟨n, rfl, rfl⟩
      · cases done

/-- A request that fails leaves the graph as it was, wherever it fails. -/
theorem graph_perform_of_error (failed : (b.perform request).2 = .error e) :
    (b.perform request).1.graph = b.graph := by
  have proceeds := b.proceeds_perform request
  generalize b.perform request = outcome at proceeds failed
  cases proceeds with
  | refused => rfl
  | named => rw [finish_of_error failed, graph_nameFor]

/-! ### Names that are made up -/

/-- A name is made up only where none is given. It uses up the number that it ends with. -/
theorem generated?_eq_some (generates : b.generated? request = some name) :
    request.given = "" ∧ name = request.stem ++ "_" ++ toString b.next ∧
      (b.perform request).1.next = b.next + 1 := by
  have proceeds := b.proceeds_perform request
  rw [generated?] at generates
  generalize b.perform request = outcome at proceeds generates ⊢
  split at generates
  · cases generates
  · next counted =>
    cases proceeds with
    | refused => exact absurd rfl counted
    | named =>
        rw [next_finish] at counted ⊢
        by_cases unnamed : request.given = ""
        · rw [unnamed, nameFor_empty]
          rw [nameFor_empty] at generates
          exact ⟨rfl, (Option.some.inj generates).symm, rfl⟩
        · rw [nameFor_of_ne unnamed] at counted
          exact absurd rfl counted

theorem next_perform (generates : b.generated? request = none) :
    (b.perform request).1.next = b.next := by
  rw [generated?] at generates
  split at generates
  · assumption
  · cases generates

/-- A request for which a name is made up is the request that gives this name, once the number is
used up. -/
theorem perform_of_generated (generates : b.generated? request = some name) :
    b.perform request =
      ({ b with next := b.next + 1 } : Builder).perform (request.named name) := by
  obtain ⟨unnamed, rfl, counted⟩ := generated?_eq_some generates
  have filled : request.stem ++ "_" ++ toString b.next ≠ "" := by
    have nonempty := b.nameFor_ne_empty "" request.stem
    rwa [nameFor_empty] at nonempty
  cases request with
  | input tensor given =>
      cases unnamed
      rw [Request.named, perform, perform, addInput, addInput, nameFor_empty, nameFor_of_ne filled]
      rfl
  | const tensor given =>
      cases unnamed
      rw [Request.named, perform, perform, addConst, addConst, nameFor_empty, nameFor_of_ne filled]
      rfl
  | operation setting kind inputs shape elementType attributes given =>
      cases unnamed
      rw [Request.named, perform, perform, addOperation, addOperation, nameFor_empty,
        nameFor_of_ne filled]
      rfl
  | output source given =>
      cases unnamed
      have same : ({ b with next := b.next + 1 } : Builder).tensorOf source = b.tensorOf source :=
        rfl
      rw [perform, addOutput] at counted
      rw [Request.named, perform, perform, addOutput, addOutput, same]
      cases found : b.tensorOf source with
      | error e =>
          -- The number would not be used up.
          rw [found] at counted
          exact absurd counted (Nat.succ_ne_self b.next).symm
      | ok tensor =>
          dsimp only
          rw [nameFor_empty, nameFor_of_ne filled]
          rfl

/-- Where no name is given, the node that is added has the one that is made up. -/
theorem generated?_of_ok (unnamed : request.given = "")
    (done : (b.perform request).2 = .ok name) : b.generated? request = some name := by
  have proceeds := b.proceeds_perform request
  rw [generated?]
  generalize b.perform request = outcome at proceeds done ⊢
  cases proceeds with
  | refused => cases done
  | named ends =>
      obtain ⟨n, rfl, rfl⟩ := finish_eq_ok done
      have called : n.name = (b.nameFor request.given request.stem).1 := ends
      rw [next_finish, called, unnamed, nameFor_empty, if_neg (Nat.succ_ne_self b.next)]

theorem next_le_numberOf (listed : name ∈ b.generated requests) : b.next ≤ numberOf name := by
  induction requests generalizing b with
  | nil => cases listed
  | cons request rest ih =>
      rw [generated, List.mem_append, Option.mem_toList] at listed
      obtain generates | later := listed
      · obtain ⟨_, rfl, _⟩ := generated?_eq_some generates
        exact (numberOf_numbered request.stem b.next).ge
      · have beyond := ih later
        cases generates : b.generated? request with
        | none => rwa [next_perform generates] at beyond
        | some other =>
            obtain ⟨_, _, counted⟩ := generated?_eq_some generates
            rw [counted] at beyond
            exact Nat.le_of_succ_le beyond

/-- No name is made up twice: those that come later end with greater numbers. -/
theorem nodup_generated (b : Builder) (requests : List Request) :
    (b.generated requests).Nodup := by
  induction requests generalizing b with
  | nil => exact List.nodup_nil
  | cons request rest ih =>
      rw [generated]
      cases generates : b.generated? request with
      | none => exact ih _
      | some name =>
          obtain ⟨_, rfl, counted⟩ := generated?_eq_some generates
          rw [Option.toList_some, List.singleton_append, List.nodup_cons]
          refine ⟨fun again => ?_, ih _⟩
          have beyond := next_le_numberOf again
          rw [numberOf_numbered, counted] at beyond
          exact Nat.not_succ_le_self b.next beyond

/-! ### Runs without given names -/

/-- All numbers behind names of nodes are used up. -/
def Numbered (b : Builder) : Prop := ∀ name ∈ b.graph.names, numberOf name < b.next

/-- Where no name is given, the new name is not taken, since its number was not used up. -/
theorem Numbered.perform (numbered : b.Numbered) (indexed : b.graph.Indexed)
    (unnamed : request.given = "") :
    (b.perform request).1.Numbered ∧ FailsOnly IsUntaken (b.perform request).2 := by
  have proceeds := b.proceeds_perform request
  generalize b.perform request = outcome at proceeds ⊢
  have counted : ({ b with next := b.next + 1 } : Builder).Numbered := fun name listed =>
    (numbered name listed).trans (Nat.lt_succ_self _)
  cases proceeds with
  | refused untaken => exact ⟨numbered, untaken⟩
  | @named made ends =>
      rw [unnamed, nameFor_empty] at ends ⊢
      cases made with
      | error e => exact ⟨counted, ends⟩
      | ok n =>
          have number : numberOf n.name = b.next := by
            rw [show n.name = request.stem ++ "_" ++ toString b.next from ends, numberOf_numbered]
          have fresh : n.name ∉ b.graph.names := fun listed =>
            (numbered n.name listed).ne number
          -- So the addition succeeds, and the only number that it brings in is the one used up here.
          cases added : b.graph.add n with
          | error e =>
              rw [indexed.add_eq fresh] at added
              cases added
          | ok g' =>
              rw [finish, addNode, added]
              refine ⟨fun name listed => ?_, failsOnly_ok⟩
              rw [indexed.names_add added, List.mem_append, List.mem_singleton] at listed
              obtain before | rfl := listed
              · exact counted name before
              · exact number.trans_lt (Nat.lt_succ_self _)

/-- Where no names are given, no request fails for a name that is taken. -/
theorem Numbered.answers (numbered : b.Numbered) (built : b.Built)
    (unnamed : ∀ request ∈ requests, request.given = "") :
    ∀ answer ∈ b.answers requests, FailsOnly IsUntaken answer := by
  induction requests generalizing b with
  | nil =>
      intro answer answered
      cases answered
  | cons request rest ih =>
      obtain ⟨first, later⟩ := List.forall_mem_cons.1 unnamed
      obtain ⟨still, untaken⟩ := numbered.perform built.grown.indexed first
      exact List.forall_mem_cons.2 ⟨untaken, ih still (built.perform request) later⟩

/-- **Requests are atomic, and names that are made up are new.** A request that fails leaves the
graph as it was, whether a look-up, an attribute, inference or the addition itself fails. A name is
made up only where none is given; the request then goes on as if it were given, and what it is
answered with, if it succeeds, is this name. In no run is a name made up twice. In a run without
given names, no request fails for a name that is taken. -/
theorem requests_atomic_and_fresh (title : Value) :
    (∀ (b : Builder) (request : Request) (e : Error), (b.perform request).2 = .error e →
      (b.perform request).1.graph = b.graph) ∧
    (∀ (b : Builder) (request : Request) (name : String), b.generated? request = some name →
      request.given = "" ∧ b.perform request =
        ({ b with next := b.next + 1 } : Builder).perform (request.named name)) ∧
    (∀ (b : Builder) (request : Request) (name : String), request.given = "" →
      (b.perform request).2 = .ok name → b.generated? request = some name) ∧
    (∀ requests : List Request,
      (({ graph := .empty title } : Builder).generated requests).Nodup) ∧
    ∀ requests : List Request, (∀ request ∈ requests, request.given = "") → ∀ name,
      .error (.graph (.duplicateNode name)) ∉
        ({ graph := .empty title } : Builder).answers requests := by
  refine ⟨fun _ _ _ => graph_perform_of_error, fun b request name generates => ?_,
    fun _ _ _ => generated?_of_ok, nodup_generated _, fun requests unnamed name answered => ?_⟩
  · exact ⟨(generated?_eq_some generates).1, perform_of_generated generates⟩
  · have numbered : ({ graph := .empty title } : Builder).Numbered := nofun
    exact numbered.answers (.start title) unnamed _ answered name rfl

/-- A builder after a request that gives the name that would be made up next. -/
def taken : Builder :=
  (({ graph := .empty (.text "g") } : Builder).addInput (some (.empty ⟨[2]⟩ .float32)) "relu_0").1

/-- Requests of which the first comes upon a name that is taken, the next two name a node that does
not exist, and one leaves out an input. -/
def careless : List Request :=
  [.operation none .relu ["relu_0"] none none [] "",
   .output "absent" "",
   .operation none .relu ["absent"] none none [] "",
   .operation none .add ["relu_0"] none none [] "",
   .output "relu_0" ""]

theorem requests_atomic_and_fresh_careless :
    let start : Builder := { graph := .empty (.text "g") }
    let given : Request := .input (some (.empty ⟨[2]⟩ .float32)) "relu_0"
    let again : Request := .operation none .relu ["relu_0"] none none [] ""
    (start.answers (given :: careless) =
        [.ok "relu_0", .error (.graph (.duplicateNode "relu_0")),
          .error (.graph (.unknownNode "absent" (.text "g"))),
          .error (.graph (.unknownNode "absent" (.text "g"))),
          .error (.operation (.tooFewInputs .add 1)), .ok "output_3"] ∧
      start.generated (given :: careless) = ["relu_0", "relu_1", "add_2", "output_3"] ∧
      (start.generated (given :: careless)).Nodup) ∧
    ((taken.perform again).1.graph = taken.graph ∧
      taken.perform again = ({ taken with next := 1 } : Builder).perform (again.named "relu_0")) ∧
    (∀ request ∈ careless, request.given = "") ∧
      ∀ name, .error (.graph (.duplicateNode name)) ∉ start.answers careless := by
  obtain ⟨atomic, made_up, _, nodup, fresh⟩ := requests_atomic_and_fresh (.text "g")
  have failed : (taken.perform (.operation none .relu ["relu_0"] none none [] "")).2 =
      .error (.graph (.duplicateNode "relu_0")) := rfl
  have generates : taken.generated? (.operation none .relu ["relu_0"] none none [] "") =
      some "relu_0" := by decide
  have unnamed : ∀ request ∈ careless, request.given = "" := by simp [careless, Request.given]
  exact ⟨⟨rfl, by decide +kernel, nodup _⟩, ⟨atomic _ _ _ failed, (made_up _ _ _ generates).2⟩,
    unnamed, fresh _ unnamed⟩

end TensorGraph.Builder
