/-!
Maps from text that remember the order in which their keys were first put in. A later value for
a key takes the place of the earlier one and keeps its position.
-/

namespace TensorGraph

/-- Pairs of a key and a value; what a map holds, without the promise that keys differ. -/
abbrev Entries (α : Type) := List (String × α)

namespace Entries

variable {α : Type}

def keys (entries : Entries α) : List String := entries.map (·.1)

/-- The value of the first entry with a key. -/
def get? : Entries α → String → Option α
  | [], _ => none
  | (k, v) :: rest, key => if k = key then some v else get? rest key

/-- Replaces the value of a key where it stands, or puts the key at the end. -/
def put : Entries α → String → α → Entries α
  | [], key, value => [(key, value)]
  | (k, v) :: rest, key, value =>
    if k = key then (k, value) :: rest else (k, v) :: put rest key value

/-- All entries but those with a key. -/
def remove (entries : Entries α) (key : String) : Entries α :=
  entries.filter fun entry => entry.1 ≠ key

/-! ### Entries one by one -/

theorem keys_nil : keys ([] : Entries α) = [] := rfl

theorem keys_cons (entry : String × α) (rest : Entries α) :
    keys (entry :: rest) = entry.1 :: keys rest := rfl

theorem get?_nil (key : String) : get? ([] : Entries α) key = none := rfl

theorem get?_cons (k : String) (v : α) (rest : Entries α) (key : String) :
    get? ((k, v) :: rest) key = if k = key then some v else get? rest key := rfl

theorem put_nil (key : String) (value : α) : put [] key value = [(key, value)] := rfl

theorem put_cons (k : String) (v : α) (rest : Entries α) (key : String) (value : α) :
    put ((k, v) :: rest) key value =
      if k = key then (k, value) :: rest else (k, v) :: put rest key value := rfl

theorem remove_cons (k : String) (v : α) (rest : Entries α) (key : String) :
    remove ((k, v) :: rest) key =
      if k = key then remove rest key else (k, v) :: remove rest key := by
  by_cases same : k = key
  · rw [if_pos same]
    exact List.filter_cons_of_neg (by simpa using same)
  · rw [if_neg same]
    exact List.filter_cons_of_pos (by simpa using same)

/-! ### Look-ups and keys after changes -/

theorem mem_keys_put {entries : Entries α} {key k : String} {value : α} :
    k ∈ (put entries key value).keys ↔ k = key ∨ k ∈ entries.keys := by
  induction entries with
  | nil => simp [put_nil, keys_cons]
  | cons entry rest ih =>
    obtain ⟨k', v'⟩ := entry
    rw [put_cons, keys_cons, List.mem_cons]
    by_cases h : k' = key
    · subst h
      rw [if_pos rfl, keys_cons, List.mem_cons]
      grind
    · rw [if_neg h, keys_cons, List.mem_cons, ih]
      grind

/-- Putting a value never makes a key appear twice. -/
theorem nodup_keys_put {entries : Entries α} (h : entries.keys.Nodup) (key : String) (value : α) :
    (put entries key value).keys.Nodup := by
  induction entries with
  | nil => simp [put_nil, keys_cons, keys_nil]
  | cons entry rest ih =>
    obtain ⟨k', v'⟩ := entry
    rw [keys_cons, List.nodup_cons] at h
    rw [put_cons]
    by_cases hk : k' = key
    · rw [if_pos hk, keys_cons, List.nodup_cons]
      exact h
    · have hmem : k' ∉ (put rest key value).keys := by
        rw [mem_keys_put]
        exact fun hc => hc.elim hk h.1
      rw [if_neg hk, keys_cons, List.nodup_cons]
      exact ⟨hmem, ih h.2⟩

theorem nodup_keys_remove {entries : Entries α} (h : entries.keys.Nodup) (key : String) :
    (remove entries key).keys.Nodup :=
  h.sublist (List.filter_sublist.map _)

@[simp] theorem get?_put_self (entries : Entries α) (key : String) (value : α) :
    (put entries key value).get? key = some value := by
  induction entries with
  | nil => simp [put_nil, get?_cons]
  | cons entry rest ih =>
    obtain ⟨k', v'⟩ := entry
    by_cases h : k' = key <;> simp [put_cons, get?_cons, h, ih]

/-- Putting a value leaves the other keys alone. -/
theorem get?_put_of_ne (entries : Entries α) {key k : String} (value : α) (h : k ≠ key) :
    (put entries key value).get? k = entries.get? k := by
  induction entries with
  | nil => simp [put_nil, get?_cons, get?_nil, Ne.symm h]
  | cons entry rest ih =>
    obtain ⟨k', v'⟩ := entry
    by_cases hk : k' = key
    · subst hk
      simp [put_cons, get?_cons, Ne.symm h]
    · by_cases hk' : k' = k
      · subst hk'
        simp [put_cons, get?_cons, hk]
      · simp [put_cons, get?_cons, hk, hk', ih]

/-- Of two values for a key, the second counts. -/
theorem put_put (entries : Entries α) (key : String) (first second : α) :
    (entries.put key first).put key second = entries.put key second := by
  induction entries with
  | nil => simp [put_nil, put_cons]
  | cons entry rest ih =>
    obtain ⟨k', v'⟩ := entry
    by_cases h : k' = key <;> simp [put_cons, h, ih]

/-- Putting the value that a key has changes nothing. -/
theorem put_of_get?_eq_some {entries : Entries α} {key : String} {value : α}
    (h : entries.get? key = some value) : entries.put key value = entries := by
  induction entries with
  | nil => cases h
  | cons entry rest ih =>
    obtain ⟨k', v'⟩ := entry
    rw [get?_cons] at h
    rw [put_cons]
    by_cases hk : k' = key
    · rw [if_pos hk, Option.some.injEq] at h
      rw [if_pos hk, h]
    · rw [if_neg hk] at h
      rw [if_neg hk, ih h]

theorem put_of_not_mem {entries : Entries α} {key : String} (value : α)
    (h : key ∉ entries.keys) : put entries key value = entries ++ [(key, value)] := by
  induction entries with
  | nil => rfl
  | cons entry rest ih =>
    obtain ⟨k', v'⟩ := entry
    simp only [keys_cons, List.mem_cons, not_or] at h
    simp [put_cons, Ne.symm h.1, ih h.2]

@[simp] theorem get?_remove_self (entries : Entries α) (key : String) :
    (remove entries key).get? key = none := by
  induction entries with
  | nil => rfl
  | cons entry rest ih =>
    obtain ⟨k', v'⟩ := entry
    by_cases h : k' = key <;> simp [remove_cons, get?_cons, h, ih]

/-- Removing a key leaves the other keys alone. -/
theorem get?_remove_of_ne (entries : Entries α) {key k : String} (h : k ≠ key) :
    (remove entries key).get? k = entries.get? k := by
  induction entries with
  | nil => rfl
  | cons entry rest ih =>
    obtain ⟨k', v'⟩ := entry
    by_cases hk : k' = key
    · subst hk
      simp [remove_cons, get?_cons, Ne.symm h, ih]
    · simp [remove_cons, get?_cons, hk, ih]

/-- Behind other entries, an entry counts only where those have no value for the key. -/
theorem get?_append (first second : Entries α) (key : String) :
    get? (first ++ second) key = (first.get? key <|> second.get? key) := by
  induction first with
  | nil => simp [get?_nil]
  | cons entry rest ih =>
    obtain ⟨k', v'⟩ := entry
    by_cases h : k' = key <;> simp [get?_cons, h, ih]

theorem mem_of_get?_eq_some {entries : Entries α} {key : String} {value : α}
    (h : entries.get? key = some value) : (key, value) ∈ entries := by
  induction entries with
  | nil => cases h
  | cons entry rest ih =>
    obtain ⟨k', v'⟩ := entry
    rw [get?_cons] at h
    by_cases hk : k' = key
    · rw [if_pos hk, Option.some.injEq] at h
      rw [hk, h]
      exact List.mem_cons_self
    · rw [if_neg hk] at h
      exact List.mem_cons_of_mem _ (ih h)

/-- Where keys differ, a value is found under a key if and only if the two make an entry. -/
theorem get?_eq_some_iff {entries : Entries α} (h : entries.keys.Nodup) {key : String}
    {value : α} : entries.get? key = some value ↔ (key, value) ∈ entries := by
  induction entries with
  | nil => simp [get?_nil]
  | cons entry rest ih =>
    obtain ⟨k', v'⟩ := entry
    rw [keys_cons, List.nodup_cons] at h
    by_cases hk : k' = key
    · subst hk
      have hrest : (k', value) ∉ rest := fun hmem => h.1 (List.mem_map.2 ⟨_, hmem, rfl⟩)
      simp [get?_cons, hrest, eq_comm]
    · simp [get?_cons, hk, Ne.symm hk, ih h.2]

end Entries

/-- Entries whose keys differ. -/
structure OrderedMap (α : Type) where
  entries : Entries α
  nodup : entries.keys.Nodup

namespace OrderedMap

variable {α : Type}

theorem ext {m n : OrderedMap α} (h : m.entries = n.entries) : m = n := by
  cases m
  cases n
  cases h
  rfl

def empty : OrderedMap α := ⟨[], List.nodup_nil⟩

instance : Inhabited (OrderedMap α) := ⟨empty⟩

/-- The keys, in the order of their first insertion. -/
def keys (m : OrderedMap α) : List String := m.entries.keys

def size (m : OrderedMap α) : Nat := m.entries.length

def isEmpty (m : OrderedMap α) : Bool := m.entries.isEmpty

def get? (m : OrderedMap α) (key : String) : Option α := m.entries.get? key

def contains (m : OrderedMap α) (key : String) : Bool := (m.get? key).isSome

/-- Gives a key a value; a key that is there keeps its position. -/
def put (m : OrderedMap α) (key : String) (value : α) : OrderedMap α :=
  ⟨m.entries.put key value, Entries.nodup_keys_put m.nodup key value⟩

def remove (m : OrderedMap α) (key : String) : OrderedMap α :=
  ⟨m.entries.remove key, Entries.nodup_keys_remove m.nodup key⟩

/-- Puts entries one after the other: the last value of a key stands at its first position. -/
def putAll (m : OrderedMap α) (entries : Entries α) : OrderedMap α :=
  entries.foldl (fun m entry => m.put entry.1 entry.2) m

/-- The map of entries that may repeat keys. -/
def ofEntries (entries : Entries α) : OrderedMap α := empty.putAll entries

/-- Putting entries whose keys are new, and differ, appends them. -/
theorem entries_putAll {m : OrderedMap α} {entries : Entries α}
    (h : (m.entries ++ entries).keys.Nodup) :
    (m.putAll entries).entries = m.entries ++ entries := by
  induction entries generalizing m with
  | nil => simp [putAll]
  | cons entry rest ih =>
    have hnew : entry.1 ∉ m.entries.keys := by
      intro hmem
      simp only [Entries.keys, List.map_append, List.map_cons] at h hmem
      exact (List.nodup_append.1 h).2.2 _ hmem _ (by simp) rfl
    have hput : (m.put entry.1 entry.2).entries = m.entries ++ [entry] := by
      simpa [put] using Entries.put_of_not_mem entry.2 hnew
    have hrest : ((m.put entry.1 entry.2).entries ++ rest).keys.Nodup := by
      rw [hput]
      simpa using h
    have := ih hrest
    simp only [putAll, List.foldl_cons] at this ⊢
    rw [this, hput]
    simp

@[simp] theorem get?_empty (key : String) : (empty : OrderedMap α).get? key = none := rfl

@[simp] theorem get?_put_self (m : OrderedMap α) (key : String) (value : α) :
    (m.put key value).get? key = some value :=
  Entries.get?_put_self m.entries key value

theorem get?_put_of_ne (m : OrderedMap α) {key k : String} (value : α) (h : k ≠ key) :
    (m.put key value).get? k = m.get? k :=
  Entries.get?_put_of_ne m.entries value h

@[simp] theorem get?_remove_self (m : OrderedMap α) (key : String) :
    (m.remove key).get? key = none :=
  Entries.get?_remove_self m.entries key

theorem get?_remove_of_ne (m : OrderedMap α) {key k : String} (h : k ≠ key) :
    (m.remove key).get? k = m.get? k :=
  Entries.get?_remove_of_ne m.entries h

/-- The map of entries whose keys differ holds just these entries. -/
theorem get?_ofEntries {entries : Entries α} (h : entries.keys.Nodup) {key : String} {value : α} :
    (ofEntries entries).get? key = some value ↔ (key, value) ∈ entries := by
  have hkeys : ((empty : OrderedMap α).entries ++ entries).keys.Nodup := by simpa [empty]
  have hentries : (ofEntries entries).entries = entries := entries_putAll hkeys
  rw [get?, hentries, Entries.get?_eq_some_iff h]

/-- A key is listed if and only if it has a value. -/
theorem mem_keys_iff (m : OrderedMap α) {key : String} :
    key ∈ m.keys ↔ m.contains key = true := by
  rw [contains, get?, Option.isSome_iff_exists, keys, Entries.keys, List.mem_map]
  simp [Entries.get?_eq_some_iff m.nodup]

/-- The entries of a map make that map. -/
theorem ofEntries_entries (m : OrderedMap α) : ofEntries m.entries = m := by
  apply ext
  have h : ((empty : OrderedMap α).entries ++ m.entries).keys.Nodup := by
    simpa [empty] using m.nodup
  simpa [ofEntries, empty] using entries_putAll h

end OrderedMap

end TensorGraph
