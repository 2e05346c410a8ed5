/-!
Lists of names.
-/

namespace TensorGraph

/-- Each name once, where it first stands. -/
def distinct : List String → List String
  | [] => []
  | name :: rest => name :: (distinct rest).filter (· ≠ name)

theorem distinct_cons (name : String) (rest : List String) :
    distinct (name :: rest) = name :: (distinct rest).filter (· ≠ name) := rfl

@[simp] theorem mem_distinct {name : String} {names : List String} :
    name ∈ distinct names ↔ name ∈ names := by
  induction names with
  | nil => rfl
  | cons first rest ih => by_cases h : name = first <;> simp [distinct_cons, ih, h]

theorem nodup_distinct (names : List String) : (distinct names).Nodup := by
  induction names with
  | nil => exact List.nodup_nil
  | cons first rest ih =>
    rw [distinct_cons, List.nodup_cons]
    exact ⟨by simp, ih.sublist List.filter_sublist⟩

/-- Names that differ stay as they are. -/
theorem distinct_of_nodup {names : List String} (nodup : names.Nodup) : distinct names = names := by
  induction names with
  | nil => rfl
  | cons first rest ih =>
      rw [List.nodup_cons] at nodup
      rw [distinct_cons, ih nodup.2, List.filter_eq_self.2]
      intro name later
      rw [decide_eq_true_eq]
      rintro rfl
      exact nodup.1 later

/-- Picking names out before or after makes no difference. -/
theorem distinct_filter (pick : String → Bool) (names : List String) :
    distinct (names.filter pick) = (distinct names).filter pick := by
  induction names with
  | nil => rfl
  | cons first rest ih =>
      cases picked : pick first with
      | true =>
          rw [List.filter_cons_of_pos picked, distinct_cons, distinct_cons,
            List.filter_cons_of_pos picked, ih, List.filter_filter, List.filter_filter]
          simp only [Bool.and_comm]
      | false =>
          have unpicked : ¬ pick first = true := by simp [picked]
          -- The first name is picked nowhere, so it need not be left out of the rest.
          rw [List.filter_cons_of_neg unpicked, distinct_cons, List.filter_cons_of_neg unpicked,
            ih, List.filter_filter]
          apply List.filter_congr
          intro name _
          by_cases same : name = first <;> simp [same, picked]

/-- The names that are not a given one. -/
def without (name : String) (names : List String) : List String := names.filter (· ≠ name)

@[simp] theorem mem_without {name other : String} {names : List String} :
    other ∈ without name names ↔ other ∈ names ∧ other ≠ name := by
  simp [without]

/-- A name that is not listed can be left out. -/
theorem without_of_not_mem {name : String} {names : List String} (h : name ∉ names) :
    without name names = names := by
  refine List.filter_eq_self.2 fun other hmem => ?_
  rw [decide_eq_true_eq]
  rintro rfl
  exact h hmem

end TensorGraph
