import TensorGraph.Document.Schema
import TensorGraph.Proofs.Operation.Failures

/-!
What schemas admit. `Schema.Admits` says it of values, where reading says it of trees: all that a
schema reads it admits, and a tree is read only if each of its parts is. Reading fails with faults
only, so none of its failures is an error about graphs.
-/

namespace TensorGraph

/-- An error without a wording of its own. -/
def Error.IsFault (e : Error) : Prop := ∃ f, e = .fault f

@[simp] theorem Error.isFault_fault (f : Fault) : (Error.fault f).IsFault := ⟨f, rfl⟩

theorem failsOnly_failWith {α : Type} (f : Fault) :
    FailsOnly Error.IsFault (failWith f : Except Error α) := ⟨f, rfl⟩

namespace Document.Schema

open Yaml

variable {schema inner : Schema} {tree : Tree} {items : List Tree} {key : String}
  {parts : List (String × Tree)}
  {value : Value} {entries first second : Entries Value}

/-- Whether a value has the form that a schema asks for. -/
inductive Admits : Schema → Value → Prop
  | text (s : String) : Admits .text (.text s)
  | int (n : Int) : Admits .int (.int n)
  | float (x : Number.Binary64) : Admits .float (.float x)
  | bool (b : Bool) : Admits .bool (.bool b)
  | list {schema : Schema} {items : List Value} (each : ∀ item ∈ items, Admits schema item) :
      Admits (.listOf schema) (.list items)
  | map {schema : Schema} {entries : Entries Value}
      (complete : schema.isComplete entries.keys = true)
      (known : ∀ entry ∈ entries, (schema.field? entry.1).isSome)
      (each : ∀ entry ∈ entries, ∀ inner, schema.field? entry.1 = some inner →
        Admits inner entry.2) :
      Admits schema (.map entries)

/-- Each of these entries may stand in a map of a schema. -/
def Fits (schema : Schema) (entries : Entries Value) : Prop :=
  ∀ entry ∈ entries, ∃ inner, schema.field? entry.1 = some inner ∧ inner.Admits entry.2

theorem admits_map_iff :
    schema.Admits (.map entries) ↔ schema.isComplete entries.keys = true ∧ schema.Fits entries := by
  constructor
  · rintro ⟨⟩
    rename_i complete known each
    refine ⟨complete, fun entry member => ?_⟩
    obtain ⟨inner, found⟩ := Option.isSome_iff_exists.1 (known entry member)
    exact ⟨inner, found, each entry member inner found⟩
  · rintro ⟨complete, fits⟩
    refine .map complete (fun entry member => ?_) fun entry member inner found => ?_
    · obtain ⟨inner, found, -⟩ := fits entry member
      rw [found]
      rfl
    · obtain ⟨inner', found', admits⟩ := fits entry member
      rwa [Option.some.inj (found.symm.trans found')]

theorem fits_nil : schema.Fits [] := nofun

theorem Fits.cons (found : schema.field? key = some inner) (admits : inner.Admits value)
    (fits : schema.Fits entries) : schema.Fits ((key, value) :: entries) :=
  List.forall_mem_cons.2 ⟨⟨inner, found, admits⟩, fits⟩

theorem Fits.append (fits : schema.Fits first) (fits' : schema.Fits second) :
    schema.Fits (first ++ second) :=
  List.forall_mem_append.2 ⟨fits, fits'⟩

theorem fits_ite {c : Prop} [Decidable c] (found : schema.field? key = some inner)
    (admits : inner.Admits value) : schema.Fits (if c then [(key, value)] else []) := by
  split
  · exact .cons found admits fits_nil
  · exact fits_nil

/-- A record knows the keys of its fields only. -/
theorem mem_keys_of_field? {fields : List (String × Bool × Schema)}
    (known : (record fields).field? key = some inner) : key ∈ fields.map (·.1) := by
  by_contra unlisted
  have unknown : fields.lookup key = none := by
    rw [List.lookup_eq_none_iff]
    intro field member
    rw [bne_iff_ne]
    rintro rfl
    exact unlisted (List.mem_map_of_mem member)
  rw [field?, unknown] at known
  cases known

/-- What stands under a known key is what its own schema asks for. -/
theorem Fits.admits (fits : schema.Fits entries) (found : schema.field? key = some inner)
    (entry : entries.get? key = some value) : inner.Admits value := by
  obtain ⟨inner', found', admits⟩ := fits _ (Entries.mem_of_get?_eq_some entry)
  rwa [Option.some.inj (found.symm.trans found')]

theorem exists_items_of_admits (admits : (listOf schema).Admits value) :
    ∃ values, value = .list values ∧ ∀ item ∈ values, schema.Admits item := by
  cases admits with
  | list each => exact ⟨_, rfl, each⟩
  | map complete => cases complete

theorem exists_entries_of_admits_mapOf (admits : (mapOf schema).Admits value) :
    ∃ entries : Entries Value, value = .map entries ∧ (mapOf schema).Fits entries := by
  cases admits with
  | map complete known each => exact ⟨_, rfl, (admits_map_iff.1 (.map complete known each)).2⟩

theorem exists_entries_of_admits_record {fields : List (String × Bool × Schema)}
    (admits : (record fields).Admits value) :
    ∃ entries : Entries Value, value = .map entries ∧ (record fields).Fits entries := by
  cases admits with
  | map complete known each => exact ⟨_, rfl, (admits_map_iff.1 (.map complete known each)).2⟩

/-! ### Scalars -/

theorem failsOnly_readInteger (s : String) : FailsOnly Error.IsFault (readInteger s) :=
  FailsOnly.check (Error.isFault_fault _) (FailsOnly.check (Error.isFault_fault _) failsOnly_ok)

theorem failsOnly_readFloat (s : String) : FailsOnly Error.IsFault (readFloat s) := by
  have number (cs : List Char) : FailsOnly Error.IsFault
      (orError (Number.Binary64.read? (String.ofList cs)) (.fault .badValue)) :=
    failsOnly_orError (Error.isFault_fault _)
  simp only [readFloat, pure_eq_ok, ok_bind]
  split
  · exact number _
  · split
    · exact number _
    · exact Error.isFault_fault _

theorem failsOnly_readBool (s : String) : FailsOnly Error.IsFault (readBool s) := by
  unfold readBool
  dsimp only
  split
  · exact failsOnly_ok
  · split
    · exact failsOnly_ok
    · exact failsOnly_failWith _

theorem ends_map {α : Type} {write : α → Value} {x : Except Error α}
    (only : FailsOnly Error.IsFault x) (admits : ∀ a, schema.Admits (write a)) :
    Ends Error.IsFault schema.Admits (write <$> x) := by
  cases x with
  | ok a => exact admits a
  | error e => exact only

theorem ends_readScalar (schema : Schema) (s : String) :
    Ends Error.IsFault schema.Admits (schema.readScalar s) := by
  cases schema with
  | text => exact .text s
  | int => exact ends_map (failsOnly_readInteger s) .int
  | float => exact ends_map (failsOnly_readFloat s) .float
  | bool => exact ends_map (failsOnly_readBool s) .bool
  | listOf item =>
    rw [readScalar]
    split
    · exact .list (by simp)
    · exact Error.isFault_fault _
  | mapOf inner =>
    rw [readScalar]
    split
    · exact .map rfl (by simp) (by simp)
    · exact Error.isFault_fault _
  | record fields => exact Error.isFault_fault _

/-! ### Trees -/

mutual

/-- What a schema reads it admits, and what it does not read it refuses with a fault. -/
theorem ends_read (schema : Schema) : ∀ tree : Tree,
    Ends Error.IsFault schema.Admits (schema.read tree)
  | .scalar s => ends_readScalar schema s
  | .sequence items => by
    cases schema with
    | listOf item =>
      rw [Schema.read]
      exact (ends_readItems item items).bind fun _ each => Admits.list each
    | _ => exact Error.isFault_fault _
  | .mapping entries => by
    rw [Schema.read]
    split
    next complete =>
      refine (ends_readEntries schema entries).bind fun values read => admits_map_iff.2 ?_
      exact ⟨by rw [read.1, complete], read.2⟩
    next => exact Error.isFault_fault _

theorem ends_readItems (schema : Schema) : ∀ items : List Tree,
    Ends Error.IsFault (fun values => ∀ value ∈ values, schema.Admits value)
      (schema.readItems items)
  | [] => by simp [readItems, Ends]
  | item :: items => by
    rw [readItems]
    exact (ends_read schema item).bind fun value admits =>
      (ends_readItems schema items).bind fun values each => List.forall_mem_cons.2 ⟨admits, each⟩

theorem ends_readEntries (schema : Schema) : ∀ entries : List (String × Tree),
    Ends Error.IsFault (fun values => values.keys = entries.map (·.1) ∧ schema.Fits values)
      (schema.readEntries entries)
  | [] => by simp [readEntries, Ends, Entries.keys, Fits]
  | entry :: entries => by
    rw [readEntries]
    refine (ends_readEntry schema entry).bind fun value read =>
      (ends_readEntries schema entries).bind fun values rest => ⟨?_, ?_⟩
    · exact congrArg₂ List.cons read.1 rest.1
    · exact List.forall_mem_cons.2 ⟨read.2, rest.2⟩

theorem ends_readEntry (schema : Schema) : ∀ entry : String × Tree,
    Ends Error.IsFault (fun value => value.1 = entry.1 ∧
      ∃ inner, schema.field? value.1 = some inner ∧ inner.Admits value.2) (schema.readEntry entry)
  | (key, tree) => by
    rw [readEntry]
    split
    next inner found =>
      exact (ends_read inner tree).bind fun value admits => ⟨rfl, inner, found, admits⟩
    next => exact Error.isFault_fault _

end

/-- What a schema reads it admits. -/
theorem admits_of_read (read : schema.read tree = .ok value) : schema.Admits value := by
  have ends := ends_read schema tree
  rwa [read] at ends

theorem exists_read_of_mem_items {values : List Value} (read : schema.readItems items = .ok values)
    (member : tree ∈ items) : ∃ part, schema.read tree = .ok part := by
  induction items generalizing values with
  | nil => cases member
  | cons item items ih =>
    rw [readItems] at read
    obtain ⟨first, first_read, read⟩ := bind_eq_ok_iff.1 read
    obtain ⟨rest, rest_read, -⟩ := bind_eq_ok_iff.1 read
    rcases List.mem_cons.1 member with rfl | member
    · exact ⟨first, first_read⟩
    · exact ih rest_read member

theorem exists_read_of_mem_entries (read : schema.readEntries parts = .ok entries)
    (member : (key, tree) ∈ parts) :
    ∃ inner part, schema.field? key = some inner ∧ inner.read tree = .ok part := by
  induction parts generalizing entries with
  | nil => cases member
  | cons entry parts ih =>
    rw [readEntries] at read
    obtain ⟨first, first_read, read⟩ := bind_eq_ok_iff.1 read
    obtain ⟨rest, rest_read, -⟩ := bind_eq_ok_iff.1 read
    rcases List.mem_cons.1 member with rfl | member
    · rw [readEntry] at first_read
      split at first_read
      next inner found =>
        obtain ⟨part, part_read, -⟩ := bind_eq_ok_iff.1 first_read
        exact ⟨inner, part, found, part_read⟩
      next => cases first_read
    · exact ih rest_read member

/-- A list is read only if each of its items is. -/
theorem exists_read_of_mem_sequence (read : (listOf schema).read (.sequence items) = .ok value)
    (member : tree ∈ items) : ∃ part, schema.read tree = .ok part := by
  rw [Schema.read] at read
  obtain ⟨values, read, -⟩ := bind_eq_ok_iff.1 read
  exact exists_read_of_mem_items read member

/-- A map is read only if the schema knows each of its keys and reads what stands there. -/
theorem exists_read_of_mem_mapping (read : schema.read (.mapping parts) = .ok value)
    (member : (key, tree) ∈ parts) :
    ∃ inner part, schema.field? key = some inner ∧ inner.read tree = .ok part := by
  rw [Schema.read] at read
  split at read
  next =>
    obtain ⟨values, read, -⟩ := bind_eq_ok_iff.1 read
    exact exists_read_of_mem_entries read member
  next => cases read

end Document.Schema

end TensorGraph
