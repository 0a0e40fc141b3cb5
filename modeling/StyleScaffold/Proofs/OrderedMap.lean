import StyleScaffold.OrderedMap

/-!
# Maps and the pairs that write them

With a lawful comparison of keys, the entries of a map are pairs that were written
(`mem_ofList`), and the entries of a map write the same map again (`ofList_entries`), also into
another map (`insertAll_ofList`) and under other keys (`filterMap_ofList`). Writing over a key never
adds anything to a map (`count_ofList_le`). What was written last under a key is found there
(`get?_insertAll`), so it makes a difference unless the key is written again
(`insertAll_insert_iff`).
-/

namespace StyleScaffold

variable {κ ι α β : Type} [BEq κ] [BEq ι] [BEq β]

theorem mem_of_lookup [LawfulBEq κ] {table : List (κ × α)} {key : κ} {value : α}
    (h : table.lookup key = some value) : (key, value) ∈ table := by
  obtain ⟨front, back, rfl, -⟩ := List.lookup_eq_some_iff.1 h
  exact List.mem_append_right front List.mem_cons_self

theorem mem_putEntry [LawfulBEq κ] {key : κ} {value : α} {entries : List (κ × α)} {e : κ × α}
    (h : e ∈ putEntry key value entries) : e = (key, value) ∨ e ∈ entries := by
  induction entries with
  | nil => exact Or.inl (List.mem_singleton.1 h)
  | cons first rest ih =>
    unfold putEntry at h
    split at h
    · rename_i hKey
      rcases List.mem_cons.1 h with rfl | hRest
      · exact Or.inl (by rw [eq_of_beq hKey])
      · exact Or.inr (List.mem_cons_of_mem _ hRest)
    · rcases List.mem_cons.1 h with rfl | hRest
      · exact Or.inr List.mem_cons_self
      · exact (ih hRest).imp_right (List.mem_cons_of_mem _)

/-- A new key goes to the end. -/
theorem putEntry_of_new {key : κ} {value : α} {entries : List (κ × α)}
    (h : ∀ e ∈ entries, (e.1 == key) = false) :
    putEntry key value entries = entries ++ [(key, value)] := by
  induction entries with
  | nil => rfl
  | cons first rest ih =>
    rw [putEntry, h first List.mem_cons_self, if_neg Bool.false_ne_true,
      ih fun e he => h e (List.mem_cons_of_mem _ he)]
    rfl

theorem putEntry_map (f : α → α) (key : κ) (value : α) (entries : List (κ × α)) :
    putEntry key (f value) (entries.map (Prod.map id f)) =
      (putEntry key value entries).map (Prod.map id f) := by
  induction entries with
  | nil => rfl
  | cons first rest ih =>
    obtain ⟨k, v⟩ := first
    show putEntry key (f value) ((k, f v) :: rest.map (Prod.map id f)) = _
    rw [putEntry, putEntry, ih]
    split <;> rfl

theorem count_putEntry_le [LawfulBEq κ] (parts : κ × α → List β) (c : β) (key : κ) (value : α)
    (entries : List (κ × α)) :
    ((putEntry key value entries).flatMap parts).count c ≤
      (entries.flatMap parts).count c + (parts (key, value)).count c := by
  induction entries with
  | nil => simp [putEntry]
  | cons first rest ih =>
    obtain ⟨k, v⟩ := first
    unfold putEntry
    split
    · rename_i hKey
      rw [eq_of_beq hKey]
      simp only [List.flatMap_cons, List.count_append]
      omega
    · simp only [List.flatMap_cons, List.count_append]
      omega

/-- The pair under another key, if the key has one. -/
def rekey (g : κ → Option ι) (e : κ × α) : Option (ι × α) := (g e.1).map fun key => (key, e.2)

theorem filterMap_rekey_putEntry [LawfulBEq κ] [LawfulBEq ι] {g : κ → Option ι}
    (hg : ∀ k k' i, g k = some i → g k' = some i → k = k') (key : κ) (value : α)
    (entries : List (κ × α)) :
    (putEntry key value entries).filterMap (rekey g) =
      match g key with
      | none => entries.filterMap (rekey g)
      | some i => putEntry i value (entries.filterMap (rekey g)) := by
  induction entries with
  | nil => cases h : g key <;> simp [putEntry, rekey, h]
  | cons first rest ih =>
    obtain ⟨k, v⟩ := first
    by_cases hKey : k = key
    · subst hKey
      cases h : g k <;> simp [putEntry, rekey, h]
    · have hBeq : (k == key) = false := beq_eq_false_iff_ne.2 hKey
      rw [putEntry, hBeq, if_neg Bool.false_ne_true, List.filterMap_cons, List.filterMap_cons, ih]
      cases hk : g k with
      | none => simp only [rekey, hk, Option.map_none]
      | some j =>
        cases h : g key with
        | none => simp only [rekey, hk, Option.map_some]
        | some i =>
          have hNe : (j == i) = false := by
            rw [beq_eq_false_iff_ne]
            rintro rfl
            exact hKey (hg k key j hk h)
          simp only [rekey, hk, Option.map_some]
          rw [putEntry, hNe, if_neg Bool.false_ne_true]

theorem putEntry_putEntry_self [LawfulBEq κ] (key : κ) (v w : α) (entries : List (κ × α)) :
    putEntry key v (putEntry key w entries) = putEntry key v entries := by
  induction entries with
  | nil => simp [putEntry]
  | cons first rest ih =>
    obtain ⟨k, value⟩ := first
    cases hKey : k == key <;> simp [putEntry, hKey, ih]

/-- Where a key is written already, it does not matter when it is written again. -/
theorem putEntry_comm [LawfulBEq κ] {k k' : κ} (h : k ≠ k') (v v' : α) {entries : List (κ × α)}
    (hMem : k ∈ entries.map Prod.fst) :
    putEntry k v (putEntry k' v' entries) = putEntry k' v' (putEntry k v entries) := by
  induction entries with
  | nil => cases hMem
  | cons first rest ih =>
    obtain ⟨key, value⟩ := first
    have hNe : (k == k') = false := beq_eq_false_iff_ne.2 h
    rw [List.map_cons, List.mem_cons] at hMem
    by_cases hKey : key = k
    · subst hKey
      simp [putEntry, hNe]
    · have hk : (key == k) = false := beq_eq_false_iff_ne.2 hKey
      have hRest := ih (hMem.resolve_left (Ne.symm hKey))
      cases hk' : key == k' <;> simp [putEntry, hk, hk', hRest]

namespace OrderedMap

@[simp] theorem insertAll_nil (m : OrderedMap κ α) : m.insertAll [] = m := rfl

@[simp] theorem insertAll_cons (m : OrderedMap κ α) (p : κ × α) (pairs : List (κ × α)) :
    m.insertAll (p :: pairs) = (m.insert p.1 p.2).insertAll pairs := rfl

theorem mem_insertAll [LawfulBEq κ] {m : OrderedMap κ α} {pairs : List (κ × α)} {e : κ × α}
    (h : e ∈ (m.insertAll pairs).entries) : e ∈ m.entries ∨ e ∈ pairs := by
  induction pairs generalizing m with
  | nil => exact Or.inl h
  | cons p pairs ih =>
    rcases ih h with hEntry | hPair
    · rcases mem_putEntry hEntry with rfl | hOld
      · exact Or.inr List.mem_cons_self
      · exact Or.inl hOld
    · exact Or.inr (List.mem_cons_of_mem _ hPair)

/-- Every entry of a map that pairs write is one of the pairs. -/
theorem mem_ofList [LawfulBEq κ] {pairs : List (κ × α)} {e : κ × α}
    (h : e ∈ (ofList pairs).entries) : e ∈ pairs := by
  rcases mem_insertAll h with hNone | hPair
  · simp at hNone
  · exact hPair

theorem insertAll_ne_empty {m : OrderedMap κ α} (h : m.entries ≠ []) (pairs : List (κ × α)) :
    (m.insertAll pairs).entries ≠ [] := by
  induction pairs generalizing m with
  | nil => exact h
  | cons p pairs ih =>
    apply ih
    intro hNil
    have hKeys := map_fst_putEntry p.1 p.2 m.entries
    rw [entries_insert] at hNil
    rw [hNil] at hKeys
    split at hKeys
    · exact h (List.map_eq_nil_iff.1 hKeys.symm)
    · simp at hKeys

/-- Only where no pair is written the map stays empty. -/
theorem ofList_eq_empty_iff {pairs : List (κ × α)} :
    (ofList pairs : OrderedMap κ α) = empty ↔ pairs = [] := by
  constructor
  · intro h
    cases pairs with
    | nil => rfl
    | cons p pairs =>
      have hFirst : ((empty : OrderedMap κ α).insert p.1 p.2).entries ≠ [] := by
        simp [putEntry]
      refine absurd ?_ (insertAll_ne_empty hFirst pairs)
      rw [← insertAll_cons]
      exact congrArg entries h
  · rintro rfl
    rfl

theorem entries_insertAll_map (f : α → α) {m m' : OrderedMap κ α}
    (h : m'.entries = m.entries.map (Prod.map id f)) (pairs : List (κ × α)) :
    (m'.insertAll (pairs.map (Prod.map id f))).entries =
      (m.insertAll pairs).entries.map (Prod.map id f) := by
  induction pairs generalizing m m' with
  | nil => exact h
  | cons p pairs ih =>
    apply ih
    rw [entries_insert, h]
    exact putEntry_map f p.1 p.2 m.entries

/-- A function of the values may be applied before or after the pairs are written. -/
theorem entries_ofList_map (f : α → α) (pairs : List (κ × α)) :
    (ofList (pairs.map (Prod.map id f))).entries = (ofList pairs).entries.map (Prod.map id f) :=
  entries_insertAll_map f rfl pairs

/-- Pairs with keys that are new and distinct are appended. -/
theorem entries_insertAll {m : OrderedMap κ α} {pairs : List (κ × α)}
    (h : DistinctKeys ((m.entries ++ pairs).map Prod.fst)) :
    (m.insertAll pairs).entries = m.entries ++ pairs := by
  induction pairs generalizing m with
  | nil => simp
  | cons p pairs ih =>
    have hNew : ∀ e ∈ m.entries, (e.1 == p.1) = false := by
      intro e he
      rw [List.map_append, List.map_cons] at h
      exact (List.pairwise_append.1 h).2.2 e.1 (List.mem_map_of_mem he) p.1 List.mem_cons_self
    have hInsert : (m.insert p.1 p.2).entries = m.entries ++ [p] := putEntry_of_new hNew
    rw [insertAll_cons, ih, hInsert, List.append_assoc, List.singleton_append]
    rwa [hInsert, List.append_assoc, List.singleton_append]

theorem nodup_of_distinctKeys [LawfulBEq κ] {keys : List κ} (h : DistinctKeys keys) : keys.Nodup :=
  h.imp beq_eq_false_iff_ne.1

/-- Pairs with distinct keys are the entries of the map that they write. -/
theorem entries_ofList [LawfulBEq κ] {pairs : List (κ × α)} (h : (pairs.map Prod.fst).Nodup) :
    (ofList pairs).entries = pairs := by
  have hDistinct : DistinctKeys (([] ++ pairs).map Prod.fst) := h.imp beq_eq_false_iff_ne.2
  exact entries_insertAll hDistinct

/-- A map with other keys is appended when it is written into a map. -/
theorem entries_insertAll_of_disjoint [LawfulBEq κ] {m o : OrderedMap κ α}
    (h : ∀ key ∈ m.keys, key ∉ o.keys) :
    (m.insertAll o.entries).entries = m.entries ++ o.entries := by
  apply entries_insertAll
  rw [List.map_append]
  refine List.pairwise_append.2 ⟨m.distinct, o.distinct, ?_⟩
  intro a ha b hb
  rw [beq_eq_false_iff_ne]
  rintro rfl
  exact h a ha hb

/-- The entries of a map write the map again. -/
theorem ofList_entries (m : OrderedMap κ α) : ofList m.entries = m := by
  apply OrderedMap.ext
  rw [ofList, entries_insertAll] <;> simp [m.distinct]

theorem mem_keys_insert [LawfulBEq κ] {m : OrderedMap κ α} {k : κ} (h : k ∈ m.keys) (key : κ)
    (value : α) : k ∈ (m.insert key value).keys := by
  rw [keys_insert]
  split
  · exact h
  · exact List.mem_append_left _ h

theorem mem_keys_insert_self [LawfulBEq κ] (m : OrderedMap κ α) (key : κ) (value : α) :
    key ∈ (m.insert key value).keys := by
  rw [keys_insert]
  split
  · rename_i hAny
    obtain ⟨k, hMem, hEq⟩ := List.any_eq_true.1 hAny
    rwa [eq_of_beq hEq] at hMem
  · simp

theorem insert_insertAll [LawfulBEq κ] {m : OrderedMap κ α} {key : κ} (hMem : key ∈ m.keys)
    {pairs : List (κ × α)} (h : ∀ e ∈ pairs, e.1 ≠ key) (value : α) :
    (m.insertAll pairs).insert key value = (m.insert key value).insertAll pairs := by
  induction pairs generalizing m with
  | nil => rfl
  | cons p pairs ih =>
    rw [List.forall_mem_cons] at h
    rw [insertAll_cons, insertAll_cons, ih (mem_keys_insert hMem p.1 p.2) h.2]
    congr 1
    exact OrderedMap.ext (putEntry_comm (Ne.symm h.1) value p.2 hMem)

theorem insertAll_putEntry [LawfulBEq κ] (m : OrderedMap κ α) (key : κ) (value : α)
    {entries : List (κ × α)} (h : DistinctKeys (entries.map Prod.fst)) :
    m.insertAll (putEntry key value entries) = (m.insertAll entries).insert key value := by
  induction entries generalizing m with
  | nil => rfl
  | cons first rest ih =>
    obtain ⟨k, v⟩ := first
    obtain ⟨hFirst, hRest⟩ := List.pairwise_cons.1 h
    by_cases hKey : k = key
    · subst hKey
      have hOther : ∀ e ∈ rest, e.1 ≠ k := fun e he hEq => by
        have hNe := hFirst e.1 (List.mem_map_of_mem he)
        rw [hEq, BEq.rfl] at hNe
        cases hNe
      rw [putEntry, if_pos BEq.rfl, insertAll_cons, insertAll_cons,
        insert_insertAll (mem_keys_insert_self m k v) hOther]
      congr 1
      exact OrderedMap.ext (putEntry_putEntry_self k value v m.entries).symm
    · rw [putEntry, if_neg (by simpa using hKey), insertAll_cons, insertAll_cons, ih _ hRest]

/-- A map that pairs write is written into another map like the pairs. -/
theorem insertAll_entries_insertAll [LawfulBEq κ] (m o : OrderedMap κ α)
    (pairs : List (κ × α)) :
    m.insertAll (o.insertAll pairs).entries = (m.insertAll o.entries).insertAll pairs := by
  induction pairs generalizing o with
  | nil => rfl
  | cons p pairs ih =>
    rw [insertAll_cons, insertAll_cons, ih, entries_insert, insertAll_putEntry m p.1 p.2 o.distinct]

theorem insertAll_ofList [LawfulBEq κ] (m : OrderedMap κ α) (pairs : List (κ × α)) :
    m.insertAll (ofList pairs).entries = m.insertAll pairs :=
  insertAll_entries_insertAll m empty pairs

/-- So the maps of several lists of pairs are written like all the pairs. -/
theorem insertAll_flatMap_ofList [LawfulBEq κ] {γ : Type} (m : OrderedMap κ α) (as : List γ)
    (pairs : γ → List (κ × α)) :
    m.insertAll (as.flatMap fun a => (ofList (pairs a)).entries) = m.insertAll (as.flatMap pairs) := by
  have hAppend : ∀ (m : OrderedMap κ α) (ps qs : List (κ × α)),
      m.insertAll (ps ++ qs) = (m.insertAll ps).insertAll qs := fun _ _ _ => List.foldl_append
  induction as generalizing m with
  | nil => rfl
  | cons a as ih => rw [List.flatMap_cons, List.flatMap_cons, hAppend, hAppend, insertAll_ofList, ih]

theorem filterMap_insertAll [LawfulBEq κ] [LawfulBEq ι] {g : κ → Option ι}
    (hg : ∀ k k' i, g k = some i → g k' = some i → k = k') (m : OrderedMap κ α)
    (o : OrderedMap ι α) (hm : m.entries.filterMap (rekey g) = o.entries)
    (pairs : List (κ × α)) :
    (m.insertAll pairs).entries.filterMap (rekey g) =
      (o.insertAll (pairs.filterMap (rekey g))).entries := by
  induction pairs generalizing m o with
  | nil => exact hm
  | cons p pairs ih =>
    rw [insertAll_cons]
    have hPut := filterMap_rekey_putEntry hg p.1 p.2 m.entries
    cases hKey : g p.1 with
    | none =>
      rw [hKey] at hPut
      rw [List.filterMap_cons_none (by simp [rekey, hKey])]
      exact ih _ _ (hPut.trans hm)
    | some i =>
      rw [hKey] at hPut
      rw [List.filterMap_cons_some (b := (i, p.2)) (by simp [rekey, hKey]), insertAll_cons]
      exact ih _ _ (hPut.trans (congrArg (putEntry i p.2) hm))

/-- Entries under other keys are the entries of the map that the pairs under these keys write. -/
theorem filterMap_ofList [LawfulBEq κ] [LawfulBEq ι] {g : κ → Option ι}
    (hg : ∀ k k' i, g k = some i → g k' = some i → k = k') (pairs : List (κ × α)) :
    (ofList pairs).entries.filterMap (rekey g) = (ofList (pairs.filterMap (rekey g))).entries :=
  filterMap_insertAll hg empty empty rfl pairs

theorem count_insertAll_le [LawfulBEq κ] (parts : κ × α → List β) (c : β) (m : OrderedMap κ α)
    (pairs : List (κ × α)) :
    ((m.insertAll pairs).entries.flatMap parts).count c ≤
      (m.entries.flatMap parts).count c + (pairs.flatMap parts).count c := by
  induction pairs generalizing m with
  | nil => simp
  | cons p pairs ih =>
    obtain ⟨key, value⟩ := p
    have hRest := ih (m.insert key value)
    have hFirst := count_putEntry_le parts c key value m.entries
    rw [entries_insert] at hRest
    simp only [insertAll_cons, List.flatMap_cons, List.count_append]
    omega

/-- Nothing stands in the entries of a map more often than in the pairs that write it. -/
theorem count_ofList_le [LawfulBEq κ] (parts : κ × α → List β) (c : β) (pairs : List (κ × α)) :
    ((ofList pairs).entries.flatMap parts).count c ≤ (pairs.flatMap parts).count c := by
  simpa [ofList] using count_insertAll_le parts c empty pairs

theorem length_insertAll_le (m : OrderedMap κ α) (pairs : List (κ × α)) :
    (m.insertAll pairs).entries.length ≤ m.entries.length + pairs.length := by
  induction pairs generalizing m with
  | nil => exact Nat.le_refl _
  | cons p pairs ih =>
    have hRest := ih (m.insert p.1 p.2)
    have hKeys := congrArg List.length (map_fst_putEntry p.1 p.2 m.entries)
    rw [entries_insert] at hRest
    rw [insertAll_cons, List.length_cons]
    split at hKeys
    · simp only [List.length_map] at hKeys
      omega
    · simp only [List.length_map, List.length_append, List.length_singleton] at hKeys
      omega

theorem length_ofList_le (pairs : List (κ × α)) :
    (ofList pairs).entries.length ≤ pairs.length := by
  simpa [ofList] using length_insertAll_le empty pairs

/-! ## The value at a key -/

theorem find?_putEntry_eq [EquivBEq κ] (k key : κ) (value : α) (entries : List (κ × α)) :
    ((putEntry k value entries).find? fun e => e.1 == key).map Prod.snd =
      if k == key then some value else (entries.find? fun e => e.1 == key).map Prod.snd := by
  induction entries with
  | nil => cases hk : k == key <;> simp [putEntry, hk]
  | cons e rest ih =>
    obtain ⟨own, v⟩ := e
    unfold putEntry
    cases hOwn : own == k with
    | true =>
      have hSame : (own == key) = (k == key) := BEq.congr_left hOwn
      cases hk : k == key <;> simp [hSame, hk]
    | false =>
      cases hk : own == key with
      | true =>
        have hOther : (k == key) = false := by rw [← BEq.congr_right hk, BEq.comm, hOwn]
        simp [hk, hOther]
      | false => simpa [hk] using ih

theorem get?_insert [EquivBEq κ] (m : OrderedMap κ α) (k key : κ) (value : α) :
    (m.insert k value).get? key = if k == key then some value else m.get? key :=
  find?_putEntry_eq k key value m.entries

/-- The values that pairs have for a key. -/
def valuesAt (key : κ) (pairs : List (κ × α)) : List α :=
  pairs.filterMap fun p => if p.1 == key then some p.2 else none

theorem valuesAt_flatMap {γ : Type} (key : κ) (as : List γ) (pairs : γ → List (κ × α)) :
    valuesAt key (as.flatMap pairs) = as.flatMap fun a => valuesAt key (pairs a) :=
  List.filterMap_flatMap

/-- The last of the values for a key counts, and without one the map keeps its own. -/
theorem get?_insertAll [EquivBEq κ] (m : OrderedMap κ α) (pairs : List (κ × α)) (key : κ) :
    (m.insertAll pairs).get? key = (valuesAt key pairs).getLast?.or (m.get? key) := by
  induction pairs generalizing m with
  | nil => rfl
  | cons p pairs ih =>
    rw [insertAll_cons, ih, get?_insert]
    cases hKey : p.1 == key with
    | true =>
      have hValues : valuesAt key (p :: pairs) = p.2 :: valuesAt key pairs := by
        simp [valuesAt, hKey]
      rw [if_pos rfl, hValues, List.getLast?_cons]
      cases (valuesAt key pairs).getLast? <;> rfl
    | false =>
      have hValues : valuesAt key (p :: pairs) = valuesAt key pairs := by simp [valuesAt, hKey]
      rw [if_neg Bool.false_ne_true, hValues]

/-- A key has a value just where a pair with an equal key was written. -/
theorem isSome_get?_ofList [EquivBEq κ] (pairs : List (κ × α)) (key : κ) :
    ((ofList pairs).get? key).isSome = true ↔ ∃ p ∈ pairs, (p.1 == key) = true := by
  have hNone : (empty : OrderedMap κ α).get? key = none := rfl
  rw [ofList, get?_insertAll, hNone, Option.or_none, Option.isSome_iff_ne_none, ne_eq,
    List.getLast?_eq_none_iff]
  simp [valuesAt]

theorem insertAll_append (m : OrderedMap κ α) (front back : List (κ × α)) :
    m.insertAll (front ++ back) = (m.insertAll front).insertAll back := List.foldl_append

/-- A map is given by its keys and their values. -/
theorem eq_of_get? [EquivBEq κ] {m m' : OrderedMap κ α} (hKeys : m.keys = m'.keys)
    (h : ∀ key ∈ m.keys, m.get? key = m'.get? key) : m = m' := by
  obtain ⟨entries, hDistinct⟩ := m
  obtain ⟨entries', hDistinct'⟩ := m'
  apply OrderedMap.ext
  simp only [keys, get?] at hKeys h
  dsimp only
  clear hDistinct'
  induction entries generalizing entries' with
  | nil => exact (List.map_eq_nil_iff.1 hKeys.symm).symm
  | cons e rest ih =>
    obtain ⟨k, v⟩ := e
    cases entries' with
    | nil => cases hKeys
    | cons e' rest' =>
      obtain ⟨k', v'⟩ := e'
      rw [List.map_cons, List.map_cons, List.cons.injEq] at hKeys
      obtain ⟨hKey, hRest⟩ := hKeys
      obtain rfl : k = k' := hKey
      obtain ⟨hFirst, hTail⟩ := List.pairwise_cons.1 hDistinct
      have hValue := h k List.mem_cons_self
      simp only [List.find?_cons, BEq.rfl, Option.map_some, Option.some.injEq] at hValue
      rw [hValue, ih hTail rest' hRest fun key hKey => ?_]
      have hOther := h key (List.mem_cons_of_mem k hKey)
      simpa only [List.find?_cons, hFirst key hKey] using hOther

theorem keys_insertAll_congr {m m' : OrderedMap κ α} (h : m.keys = m'.keys)
    (pairs : List (κ × α)) : (m.insertAll pairs).keys = (m'.insertAll pairs).keys := by
  induction pairs generalizing m m' with
  | nil => exact h
  | cons p pairs ih =>
    apply ih
    rw [keys_insert, keys_insert, h]

/-- Of two values for one key it does not matter which is written, if the key is written again. -/
theorem insertAll_insert_iff [EquivBEq κ] (m : OrderedMap κ α) (key : κ) (v v' : α)
    (pairs : List (κ × α)) :
    (m.insert key v).insertAll pairs = (m.insert key v').insertAll pairs ↔
      v = v' ∨ ∃ p ∈ pairs, (p.1 == key) = true := by
  have hNone : valuesAt key pairs = [] ↔ ¬ ∃ p ∈ pairs, (p.1 == key) = true := by
    simp [valuesAt]
  constructor
  · intro h
    by_cases hWritten : ∃ p ∈ pairs, (p.1 == key) = true
    · exact Or.inr hWritten
    · have hValue := congrArg (get? · key) h
      simp only [get?_insertAll, hNone.2 hWritten, get?_insert_self _ BEq.rfl] at hValue
      exact Or.inl (Option.some.inj hValue)
  · rintro (rfl | ⟨p, hp, hKey⟩)
    · rfl
    · refine eq_of_get? (keys_insertAll_congr (by rw [keys_insert, keys_insert]) pairs) fun k _ => ?_
      rw [get?_insertAll, get?_insertAll, get?_insert, get?_insert]
      cases hSame : key == k with
      | false => rfl
      | true =>
        have hMem : p.2 ∈ valuesAt k pairs :=
          List.mem_filterMap.2 ⟨p, hp, if_pos (BEq.trans hKey hSame)⟩
        rw [List.getLast?_eq_some_getLast (List.ne_nil_of_mem hMem), Option.some_or, Option.some_or]

end OrderedMap

end StyleScaffold
