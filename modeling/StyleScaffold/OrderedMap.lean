/-!
# Ordered maps

A map that remembers the order in which its keys came. Writing a key that is already there keeps
the key and its position and replaces the value; any other key goes to the end. Keys are compared
by `==`, which may be coarser than equality: then the first of several equal keys is the one that
is kept.
-/

namespace StyleScaffold

/-- Replaces the value at the first key equal to `key`, or appends the pair. -/
def putEntry {κ α : Type} [BEq κ] (key : κ) (value : α) : List (κ × α) → List (κ × α)
  | [] => [(key, value)]
  | (k, v) :: rest => if k == key then (k, value) :: rest else (k, v) :: putEntry key value rest

/-- The keys after writing: the old ones, and the new one behind them unless it was there. -/
theorem map_fst_putEntry {κ α : Type} [BEq κ] (key : κ) (value : α) (entries : List (κ × α)) :
    (putEntry key value entries).map Prod.fst =
      if entries.any (·.1 == key) then entries.map Prod.fst
      else entries.map Prod.fst ++ [key] := by
  induction entries with
  | nil => rfl
  | cons e rest ih =>
    obtain ⟨k, v⟩ := e
    unfold putEntry
    by_cases hk : (k == key) = true
    · simp [hk]
    · simp only [hk, if_false, List.map_cons, ih, List.any_cons, Bool.false_or, Bool.false_eq_true]
      split <;> simp

/-- No two keys in the list are equal. -/
def DistinctKeys {κ : Type} [BEq κ] (keys : List κ) : Prop :=
  keys.Pairwise fun a b => (a == b) = false

theorem distinctKeys_putEntry {κ α : Type} [BEq κ] (key : κ) (value : α)
    {entries : List (κ × α)} (h : DistinctKeys (entries.map Prod.fst)) :
    DistinctKeys ((putEntry key value entries).map Prod.fst) := by
  rw [map_fst_putEntry]
  split
  · exact h
  · rename_i hAny
    refine List.pairwise_append.2 ⟨h, by simp, ?_⟩
    intro a ha b hb
    rw [List.mem_singleton] at hb
    subst hb
    rw [Bool.not_eq_true, List.any_eq_false] at hAny
    obtain ⟨e, he, rfl⟩ := List.mem_map.1 ha
    simpa using hAny e he

/-- Keys with values in the order of their first writing. -/
structure OrderedMap (κ α : Type) [BEq κ] where
  entries : List (κ × α)
  distinct : DistinctKeys (entries.map Prod.fst)

namespace OrderedMap

variable {κ α : Type} [BEq κ]

@[ext] theorem ext {a b : OrderedMap κ α} (h : a.entries = b.entries) : a = b := by
  cases a; cases b; simp_all

def empty : OrderedMap κ α := ⟨[], List.Pairwise.nil⟩

/-- The map after writing `value` at `key`. -/
def insert (m : OrderedMap κ α) (key : κ) (value : α) : OrderedMap κ α :=
  ⟨putEntry key value m.entries, distinctKeys_putEntry key value m.distinct⟩

/-- Writes the pairs one after another. -/
def insertAll (m : OrderedMap κ α) (pairs : List (κ × α)) : OrderedMap κ α :=
  pairs.foldl (fun m p => m.insert p.1 p.2) m

/-- The map that the pairs write: a repeated key keeps its first place and its last value. -/
def ofList (pairs : List (κ × α)) : OrderedMap κ α := empty.insertAll pairs

/-- The value at a key. -/
def get? (m : OrderedMap κ α) (key : κ) : Option α :=
  (m.entries.find? fun e => e.1 == key).map Prod.snd

def keys (m : OrderedMap κ α) : List κ := m.entries.map Prod.fst

def values (m : OrderedMap κ α) : List α := m.entries.map Prod.snd

def size (m : OrderedMap κ α) : Nat := m.entries.length

@[simp] theorem entries_empty : (empty : OrderedMap κ α).entries = [] := rfl

@[simp] theorem entries_insert (m : OrderedMap κ α) (key : κ) (value : α) :
    (m.insert key value).entries = putEntry key value m.entries := rfl

theorem keys_insert (m : OrderedMap κ α) (key : κ) (value : α) :
    (m.insert key value).keys =
      if m.keys.any (· == key) then m.keys else m.keys ++ [key] := by
  simp only [keys, entries_insert, map_fst_putEntry, List.any_map]
  rfl

theorem find?_putEntry {key : κ} {value : α} (hKey : (key == key) = true)
    (entries : List (κ × α)) :
    ((putEntry key value entries).find? fun e => e.1 == key).map Prod.snd = some value := by
  induction entries with
  | nil => simp [putEntry, hKey]
  | cons e rest ih =>
    obtain ⟨k, v⟩ := e
    unfold putEntry
    by_cases hk : (k == key) = true
    · simp [hk]
    · simp only [hk, if_false, Bool.false_eq_true, List.find?_cons]
      exact ih

/-- A key that was written has the value written. -/
theorem get?_insert_self (m : OrderedMap κ α) {key : κ} (hKey : (key == key) = true)
    (value : α) : (m.insert key value).get? key = some value :=
  find?_putEntry hKey m.entries

end OrderedMap

end StyleScaffold
