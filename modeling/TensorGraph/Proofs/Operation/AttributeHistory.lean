import Mathlib.Data.List.Induction
import TensorGraph.Operation.Attributes
import TensorGraph.Proofs.Number.Conversion

/-!
What look-ups find after edits. Attributes are edited in place, by values that need not stand for an
attribute; what is stored under a key is described by the history alone, as the last value that was
accepted for the key and not removed. A look-up gives this value where it has the variant of the
default, an integer as the nearest float where a float is asked for, and else the default. There is
one look-up that fails: integers have no bound, and a float beyond the finite numbers is refused.
-/

namespace TensorGraph

open Number

namespace Attribute

inductive Variant where
  | int
  | float
  | bool
  | text
  | ints
deriving DecidableEq, Repr

def variant : Attribute → Variant
  | int _ => .int
  | float _ => .float
  | bool _ => .bool
  | text _ => .text
  | ints _ => .ints

theorem exists_int_of_variant {a : Attribute} (h : a.variant = .int) : ∃ n, a = .int n := by
  cases a with
  | int n => exact ⟨n, rfl⟩
  | _ => nomatch h

/-- A value stands for an attribute: a number, a truth value or a text for itself, and integers for
a list of them, whether they come as a list or as a tuple. -/
inductive StandsFor : Value → Attribute → Prop where
  | int (n : Int) : StandsFor (.int n) (.int n)
  | float (x : Binary64) : StandsFor (.float x) (.float x)
  | bool (b : Bool) : StandsFor (.bool b) (.bool b)
  | text (s : String) : StandsFor (.text s) (.text s)
  | list (ns : List Int) : StandsFor (.list (ns.map .int)) (.ints ns)
  | tuple (ns : List Int) : StandsFor (.tuple (ns.map .int)) (.ints ns)

/-- A list is only taken if it holds integers and nothing else. -/
theorem exists_ints_of_ofValue {items : List Value} {e : Error} {a : Attribute}
    (read : orError ((Value.allInts? items).map ints) e = .ok a) :
    ∃ ns : List Int, items = ns.map .int ∧ a = ints ns := by
  rw [orError_eq_ok_iff, Option.map_eq_some_iff] at read
  obtain ⟨ns, all, rfl⟩ := read
  exact ⟨ns, Value.allInts?_eq_some_iff.1 all, rfl⟩

theorem ofValue_eq_ok_iff {value : Value} {a : Attribute} :
    ofValue value = .ok a ↔ StandsFor value a := by
  constructor
  · intro read
    cases value with
    | int n =>
      cases read
      exact .int n
    | float x =>
      cases read
      exact .float x
    | bool b =>
      cases read
      exact .bool b
    | text s =>
      cases read
      exact .text s
    | list items =>
      obtain ⟨ns, rfl, rfl⟩ := exists_ints_of_ofValue read
      exact .list ns
    | tuple items =>
      obtain ⟨ns, rfl, rfl⟩ := exists_ints_of_ofValue read
      exact .tuple ns
    | _ => cases read
  · intro stands
    cases stands with
    | list ns => exact ofValue_toRecord (.ints ns)
    | tuple ns => exact ofValue_toValue (.ints ns)
    | _ => rfl

theorem StandsFor.deterministic {value : Value} {a b : Attribute} (one : StandsFor value a)
    (two : StandsFor value b) : a = b :=
  Except.ok.inj ((ofValue_eq_ok_iff.2 one).symm.trans (ofValue_eq_ok_iff.2 two))

/-- A value that stands for no attribute is refused, whatever is wrong with it. -/
theorem ofValue_eq_error {value : Value} (useless : ∀ a, ¬ StandsFor value a) :
    ofValue value = .error (.badAttribute value) := by
  have refused : ∀ a, ofValue value ≠ .ok a := fun a read => useless a (ofValue_eq_ok_iff.1 read)
  have listed (items : List Value)
      (h : ∀ a, orError ((Value.allInts? items).map ints) (.badAttribute value) ≠ .ok a) :
      orError ((Value.allInts? items).map ints) (.badAttribute value) =
        .error (.badAttribute value) := by
    cases all : (Value.allInts? items).map ints with
    | none => rfl
    | some a => exact absurd (congrArg (orError · _) all) (h a)
  cases value with
  | null | complex | map => rfl
  | list items => exact listed items refused
  | tuple items => exact listed items refused
  | _ => exact absurd rfl (refused _)

end Attribute

namespace Attributes

open Attribute

variable {attributes : Attributes} {key : String} {stored default : Attribute}

/-- What can be done to attributes. A copy takes their place. -/
inductive Edit where
  | set (key : String) (value : Value)
  | remove (key : String)
  | copy

def Edit.result (attributes : Attributes) : Edit → Except Error Attributes
  | .set key value => attributes.set key value
  | .remove key => .ok (attributes.remove key)
  | .copy => attributes.copy

/-- An edit that fails is reported and leaves the attributes as they are. -/
def perform (attributes : Attributes) (edit : Edit) : Attributes × Except Error Unit :=
  match edit.result attributes with
  | .ok edited => (edited, .ok ())
  | .error e => (attributes, .error e)

/-- The attributes after edits, from none on. -/
def afterEdits (edits : List Edit) : Attributes :=
  edits.foldl (fun attributes edit => (attributes.perform edit).1) .empty

/-- Whether an edit settles what stands under a key. -/
def Edit.Settles (key : String) : Edit → Prop
  | .set other value => other = key ∧ ∃ a, StandsFor value a
  | .remove other => other = key
  | .copy => False

/-- The last value that edits have stored under a key: what came later neither stored a value under
it nor removed it. -/
def LastStored (key : String) (edits : List Edit) (stored : Attribute) : Prop :=
  ∃ before value after, edits = before ++ .set key value :: after ∧ StandsFor value stored ∧
    ∀ edit ∈ after, ¬ edit.Settles key

theorem not_lastStored_nil : ¬ LastStored key [] stored := by
  rintro ⟨before, value, after, edits, -⟩
  cases before <;> cases edits

/-- What an edit stores under a key is the last; otherwise the last before it still is, unless the
edit settles the key. -/
theorem lastStored_concat_iff {edits : List Edit} {edit : Edit} :
    LastStored key (edits ++ [edit]) stored ↔
      (∃ value, edit = .set key value ∧ StandsFor value stored) ∨
        LastStored key edits stored ∧ ¬ edit.Settles key := by
  constructor
  · rintro ⟨before, value, after, parts, stands, quiet⟩
    rcases List.eq_nil_or_concat after with rfl | ⟨after, last, rfl⟩
    · obtain ⟨-, last⟩ := List.append_inj' parts rfl
      cases last
      exact .inl ⟨value, rfl, stands⟩
    · rw [List.concat_eq_append] at parts quiet
      rw [← List.cons_append, ← List.append_assoc] at parts
      obtain ⟨rfl, same⟩ := List.append_inj' parts rfl
      cases same
      rw [List.forall_mem_append, List.forall_mem_singleton] at quiet
      exact .inr ⟨⟨before, value, after, rfl, stands, quiet.1⟩, quiet.2⟩
  · rintro (⟨value, rfl, stands⟩ | ⟨⟨before, value, after, rfl, stands, quiet⟩, unsettled⟩)
    · exact ⟨edits, value, [], rfl, stands, by simp⟩
    · refine ⟨before, value, after ++ [edit], by simp, stands, ?_⟩
      rw [List.forall_mem_append, List.forall_mem_singleton]
      exact ⟨quiet, unsettled⟩

/-! ### Edits -/

theorem perform_set {value : Value} (stands : StandsFor value stored) :
    attributes.perform (.set key value) = (attributes.put key stored, .ok ()) := by
  rw [perform, Edit.result, set, ofValue_eq_ok_iff.2 stands]
  rfl

/-- A value that is no attribute is refused, and the attributes stay as they are. -/
theorem perform_set_of_refused {value : Value} (useless : ∀ a, ¬ StandsFor value a) :
    attributes.perform (.set key value) = (attributes, .error (.badAttribute value)) := by
  rw [perform, Edit.result, set, ofValue_eq_error useless]
  rfl

theorem perform_remove : attributes.perform (.remove key) = (attributes.remove key, .ok ()) := rfl

theorem perform_copy : attributes.perform .copy = (attributes, .ok ()) := by
  rw [perform, Edit.result, copy_eq]

/-- What one edit makes of what stands under a key. -/
theorem get?_perform_eq_some_iff {edit : Edit} :
    (attributes.perform edit).1.get? key = some stored ↔
      (∃ value, edit = .set key value ∧ StandsFor value stored) ∨
        attributes.get? key = some stored ∧ ¬ edit.Settles key := by
  cases edit with
  | set other value =>
    by_cases accepted : ∃ a, StandsFor value a
    · obtain ⟨a, stands⟩ := accepted
      rw [perform_set stands]
      by_cases same : other = key
      · subst same
        rw [OrderedMap.get?_put_self]
        constructor
        · rintro ⟨⟩
          exact .inl ⟨value, rfl, stands⟩
        · rintro (⟨_, same, again⟩ | ⟨-, unsettled⟩)
          · cases same
            rw [stands.deterministic again]
          · exact absurd ⟨rfl, a, stands⟩ unsettled
      · rw [OrderedMap.get?_put_of_ne attributes a (Ne.symm same)]
        simp [Edit.Settles, same]
    · rw [perform_set_of_refused fun a stands => accepted ⟨a, stands⟩]
      constructor
      · exact fun kept => .inr ⟨kept, fun settled => accepted settled.2⟩
      · rintro (⟨_, same, stands⟩ | ⟨kept, -⟩)
        · cases same
          exact absurd ⟨stored, stands⟩ accepted
        · exact kept
  | remove other =>
    rw [perform_remove]
    by_cases same : other = key
    · subst same
      simp [Edit.Settles]
    · rw [OrderedMap.get?_remove_of_ne attributes (Ne.symm same)]
      simp [Edit.Settles, same]
  | copy =>
    rw [perform_copy]
    simp [Edit.Settles]

/-- Under a key stands what was stored there last. -/
theorem get?_afterEdits_eq_some_iff {edits : List Edit} :
    (afterEdits edits).get? key = some stored ↔ LastStored key edits stored := by
  induction edits using List.reverseRecOn with
  | nil => simp [afterEdits, not_lastStored_nil]
  | append_singleton edits edit ih =>
    rw [afterEdits, List.foldl_append, ← afterEdits, List.foldl_cons, List.foldl_nil,
      get?_perform_eq_some_iff, ih, lastStored_concat_iff]

/-! ### Look-ups -/

theorem lookup_of_none (missing : attributes.get? key = none) :
    attributes.lookup key default.toValue = .ok default.toValue := by
  unfold lookup
  rw [missing]

theorem lookup_of_variant_eq (found : attributes.get? key = some stored)
    (same : stored.variant = default.variant) :
    attributes.lookup key default.toValue = .ok stored.toValue := by
  unfold lookup
  rw [found]
  cases stored <;> cases default <;> first | rfl | nomatch same

/-- An integer where a float is asked for. -/
theorem lookup_of_int {n : Int} (found : attributes.get? key = some (.int n)) (y : Binary64) :
    attributes.lookup key (Attribute.float y).toValue =
      Value.float <$> orError (Binary64.ofInt? n) (.fault .overflow) := by
  unfold lookup
  rw [found]
  rfl

/-- An integer serves where a float is asked for, if it is the nearest integer to a float at all. -/
theorem exists_lookup_of_int {n : Int} (found : attributes.get? key = some (.int n))
    (asked : default.variant = .float) (below : n.natAbs < finiteLimit) :
    ∃ x, attributes.lookup key default.toValue = .ok (.float x) ∧ x.IsNearest n := by
  cases default with
  | float y =>
    cases converted : Binary64.ofInt? n with
    | none => exact absurd ((Binary64.ofInt?_eq_none_iff n).1 converted) (Nat.not_le_of_lt below)
    | some x =>
      refine ⟨x, ?_, Binary64.isNearest_of_ofInt? converted⟩
      rw [lookup_of_int found, converted, orError_some, map_ok]
  | _ => nomatch asked

/-- An integer beyond the finite numbers is no float, and it is refused where one is asked for. -/
theorem lookup_of_int_beyond {n : Int} (found : attributes.get? key = some (.int n))
    (asked : default.variant = .float) (beyond : finiteLimit ≤ n.natAbs) :
    attributes.lookup key default.toValue = .error (.fault .overflow) := by
  cases default with
  | float y =>
    rw [lookup_of_int found, Binary64.ofInt?_of_limit_le beyond]
    rfl
  | _ => nomatch asked

/-- Whether a value is of another variant than a look-up asks for and cannot serve as one. -/
def Mismatch (stored default : Attribute) : Prop :=
  stored.variant ≠ default.variant ∧ ¬ (stored.variant = .int ∧ default.variant = .float)

theorem lookup_of_mismatch (found : attributes.get? key = some stored)
    (mismatch : Mismatch stored default) :
    attributes.lookup key default.toValue = .ok default.toValue := by
  obtain ⟨other, unfit⟩ := mismatch
  unfold lookup
  rw [found]
  cases stored <;> cases default <;>
    first
    | rfl
    | exact absurd rfl other
    | exact absurd ⟨rfl, rfl⟩ unfit

/-- What rules of inference read, each with a default of the variant that it expects, is what look-ups
give for these defaults. -/
theorem lookup_eq_typed (attributes : Attributes) (key : String) :
    (∀ n, attributes.lookup key (.int n) = .ok (.int (attributes.getInt key n))) ∧
    (∀ b, attributes.lookup key (.bool b) = .ok (.bool (attributes.getBool key b))) ∧
    (∀ s, attributes.lookup key (.text s) = .ok (.text (attributes.getText key s))) ∧
    (∀ ns : List Int, attributes.lookup key (.tuple (ns.map .int)) =
      .ok (.tuple ((attributes.getInts key ns).map .int))) := by
  simp only [lookup, getInt, getBool, getText, getInts]
  refine ⟨fun n => ?_, fun b => ?_, fun s => ?_, fun ns => ?_⟩
  all_goals
    cases attributes.get? key with
    | none => rfl
    | some stored => cases stored <;> rfl

/-- **Look-ups after edits.** After any edits, a look-up gives what was stored last, if that has the
variant of the default; the nearest float, if that is an integer and a float is asked for; and the
default in all other cases. So the result always has the variant of the default, with one exception:
where a float is asked for and the last that was stored is an integer from the limit of the finite
numbers on, the look-up fails. A value that stands for no attribute is refused and nothing changes. -/
theorem lookup_after_edits (edits : List Edit) (key : String) (default : Attribute) :
    (∀ stored, LastStored key edits stored → stored.variant = default.variant →
      (afterEdits edits).lookup key default.toValue = .ok stored.toValue) ∧
    (∀ n, LastStored key edits (.int n) → default.variant = .float →
      (n.natAbs < finiteLimit → ∃ x,
        (afterEdits edits).lookup key default.toValue = .ok (.float x) ∧ x.IsNearest n) ∧
      (finiteLimit ≤ n.natAbs →
        (afterEdits edits).lookup key default.toValue = .error (.fault .overflow))) ∧
    ((∀ stored, LastStored key edits stored → Mismatch stored default) →
      (afterEdits edits).lookup key default.toValue = .ok default.toValue) ∧
    ((∃ a : Attribute, (afterEdits edits).lookup key default.toValue = .ok a.toValue ∧
        a.variant = default.variant) ↔
      ¬ ∃ n, LastStored key edits (.int n) ∧ default.variant = .float ∧ finiteLimit ≤ n.natAbs) ∧
    ∀ value, (∀ a, ¬ StandsFor value a) →
      (afterEdits edits).perform (.set key value) =
        (afterEdits edits, .error (.badAttribute value)) := by
  have settled {stored : Attribute} :
      LastStored key edits stored → (afterEdits edits).get? key = some stored :=
    get?_afterEdits_eq_some_iff.2
  have otherwise (mismatch : ∀ stored, LastStored key edits stored → Mismatch stored default) :
      (afterEdits edits).lookup key default.toValue = .ok default.toValue := by
    cases found : (afterEdits edits).get? key with
    | none => exact lookup_of_none found
    | some stored =>
      exact lookup_of_mismatch found (mismatch stored (get?_afterEdits_eq_some_iff.1 found))
  refine ⟨fun stored last => lookup_of_variant_eq (settled last), fun n last asked =>
    ⟨exists_lookup_of_int (settled last) asked, lookup_of_int_beyond (settled last) asked⟩,
    otherwise, ⟨?fails, ?gives⟩, fun value => perform_set_of_refused⟩
  case fails =>
    rintro ⟨a, given, -⟩ ⟨n, last, asked, beyond⟩
    cases given.symm.trans (lookup_of_int_beyond (settled last) asked beyond)
  case gives =>
    intro finite
    cases found : (afterEdits edits).get? key with
    | none => exact ⟨default, lookup_of_none found, rfl⟩
    | some stored =>
      have last := get?_afterEdits_eq_some_iff.1 found
      by_cases same : stored.variant = default.variant
      · exact ⟨stored, lookup_of_variant_eq found same, same⟩
      · by_cases widened : stored.variant = .int ∧ default.variant = .float
        · obtain ⟨whole, asked⟩ := widened
          obtain ⟨n, rfl⟩ := exists_int_of_variant whole
          have below := Nat.lt_of_not_le fun beyond => finite ⟨n, last, asked, beyond⟩
          obtain ⟨x, given, -⟩ := exists_lookup_of_int found asked below
          exact ⟨.float x, given, asked.symm⟩
        · exact ⟨default, lookup_of_mismatch found ⟨same, widened⟩, rfl⟩

/-- An integer that is no float, 2 ^ 1024. -/
def oversized : Int := (2 ^ (54 + largestPlace) : Nat)

theorem finiteLimit_le_oversized : finiteLimit ≤ oversized.natAbs := by
  rw [oversized, Int.natAbs_natCast]
  exact finiteLimit_bounds.2

/-- A truth value and two integers after several edits, a refused one and a copy among them: the
truth value is no integer, one integer serves as a float, and the other is too large to. -/
theorem lookup_after_edits_mixed :
    let edits : List Edit := [.set "scale" (.float .zero), .set "keep" (.bool true),
      .set "keep" (.list [.int 1, .bool true]), .copy, .set "scale" (.int 3),
      .set "size" (.int oversized), .set "axes" (.list [.int 1]), .remove "axes"]
    (∃ x, (afterEdits edits).lookup "scale" (.float .one) = .ok (.float x) ∧ x.IsNearest 3) ∧
      (afterEdits edits).lookup "keep" (.int 7) = .ok (.int 7) ∧
      (afterEdits edits).lookup "keep" (.bool false) = .ok (.bool true) ∧
      (afterEdits edits).lookup "axes" (.tuple []) = .ok (.tuple []) ∧
      (afterEdits edits).lookup "size" (.float .one) = .error (.fault .overflow) ∧
      (afterEdits edits).perform (.set "keep" .null) =
        (afterEdits edits, .error (.badAttribute .null)) := by
  intro edits
  have last {key : String} {a : Attribute} :
      (afterEdits edits).get? key = some a → LastStored key edits a :=
    get?_afterEdits_eq_some_iff.1
  have only {key : String} {a b : Attribute} (found : (afterEdits edits).get? key = some a)
      (stored : LastStored key edits b) : b = a :=
    Option.some.inj ((get?_afterEdits_eq_some_iff.2 stored).symm.trans found)
  have scale : (afterEdits edits).get? "scale" = some (.int 3) := rfl
  have keep : (afterEdits edits).get? "keep" = some (.bool true) := rfl
  have axes : (afterEdits edits).get? "axes" = none := rfl
  have size : (afterEdits edits).get? "size" = some (.int oversized) := rfl
  have small : 3 < finiteLimit := by
    calc 3 < 2 ^ 53 := by decide
      _ ≤ 2 ^ (53 + largestPlace) :=
        Nat.pow_le_pow_right (by decide) (Nat.le_add_right 53 largestPlace)
      _ ≤ finiteLimit := finiteLimit_bounds.1
  refine ⟨?_, ?_, ?_, ?_, ?_, ?_⟩
  · exact ((lookup_after_edits edits "scale" (.float .one)).2.1 3 (last scale) rfl).1 small
  · refine (lookup_after_edits edits "keep" (.int 7)).2.2.1 fun b stored => ?_
    cases only keep stored
    exact ⟨by decide, by decide⟩
  · exact (lookup_after_edits edits "keep" (.bool false)).1 _ (last keep) rfl
  · refine (lookup_after_edits edits "axes" (.ints [])).2.2.1 fun b stored => ?_
    cases (get?_afterEdits_eq_some_iff.2 stored).symm.trans axes
  · exact ((lookup_after_edits edits "size" (.float .one)).2.1 oversized (last size) rfl).2
      finiteLimit_le_oversized
  · exact (lookup_after_edits edits "keep" (.int 0)).2.2.2.2 .null fun _ stands => nomatch stands

/-- Not every look-up gives a value: here an integer is stored that is no float. -/
theorem lookup_fails_beyond :
    let edits : List Edit := [.set "size" (.int oversized)]
    LastStored "size" edits (.int oversized) ∧
      (afterEdits edits).lookup "size" (.float .one) = .error (.fault .overflow) := by
  intro edits
  have size : (afterEdits edits).get? "size" = some (.int oversized) := rfl
  have asked : (Attribute.float .one).variant = .float := rfl
  have refused := lookup_of_int_beyond size asked finiteLimit_le_oversized
  exact ⟨get?_afterEdits_eq_some_iff.1 size, refused⟩

end Attributes

end TensorGraph
