import StyleScaffold.Proofs.Json.WrittenText
import StyleScaffold.Proofs.OrderedMap

/-!
# Indented JSON

The indented text of a value is read back whatever depth it was written at and whatever comes
behind it. `Reads` says so of one value: texts are read with their surrogate pairs joined
(`reads_str`), and an object is read when the values of its fields are (`reads_obj`). Names that
joining makes equal are one field then.

`Joins` says what became of the value: no text in what is read has a pair in two halves, and a value
of such texts is read as it is (`joins_str`, `joins_obj`).
-/

namespace StyleScaffold.Json

open Text

/-- What a value is read as from its indented text, with enough fuel and enough room. -/
structure Reads (depth : Nat) (v w : Json) : Prop where
  skip_eq : ∀ rest, skip (indentedAt depth v ++ rest) = indentedAt depth v ++ rest
  value_eq : ∀ fuel room rest, (indentedAt depth v).length < fuel →
    (indentedAt depth v).length ≤ room →
    value fuel room (indentedAt depth v ++ rest) = .ok (w, rest)

/-! ## White space -/

theorem skip_newLine (depth : Nat) (s : Text) : skip (newLine depth ++ s) = skip s := by
  apply List.dropWhile_append_of_pos
  intro c hc
  rw [newLine, List.mem_cons, copies, List.mem_replicate] at hc
  rcases hc with rfl | ⟨-, rfl⟩ <;> decide

theorem skip_space (s : Text) : skip (.char ' ' :: s) = skip s := rfl

/-! ## Texts -/

theorem stringText_append (s rest : Text) :
    stringText s ++ rest = .char '"' :: (s.flatMap charText ++ .char '"' :: rest) := by
  simp [stringText, ofString]

theorem indentedAt_str (depth : Nat) (s : Text) : indentedAt depth (.str s) = stringText s := by
  rw [indentedAt, scalarText]
  all_goals simp

theorem value_quote (fuel room : Nat) (s : Text) :
    value (fuel + 1) room (.char '"' :: s) =
      (expect (stringBody s)).map (Prod.map .str id) := by
  rw [value]
  rfl

/-- A text is read with its surrogate pairs joined. -/
theorem reads_str (depth : Nat) (s : Text) : Reads depth (.str s) (.str (joinHalves s)) where
  skip_eq rest := by
    rw [indentedAt_str, stringText_append]
    rfl
  value_eq fuel room rest h _ := by
    obtain ⟨fuel, rfl⟩ := Nat.exists_eq_add_one_of_ne_zero (Nat.ne_zero_of_lt h)
    rw [indentedAt_str, stringText_append, value_quote, stringBody_written]
    rfl

/-! ## Objects -/

/-- A field whose value has been read, and what is behind it up to the end of its object. -/
def fieldsFrom (fuel room : Nat) (field : Text × Json) (rest : Text) :
    Except ParseFault (List (Text × Json) × Text) :=
  match skip rest with
  | ',' :: rest => (members fuel room (skip rest)).map fun (fields, rest) => (field :: fields, rest)
  | '}' :: rest => .ok ([field], rest)
  | _ => .error .malformed

theorem members_field {fuel room depth : Nat} {k : Text} {v w : Json} (h : Reads depth v w)
    (hFuel : (indentedAt depth v).length < fuel) (hRoom : (indentedAt depth v).length ≤ room)
    (rest : Text) :
    members (fuel + 1) room (stringText k ++ (": " ++ (indentedAt depth v ++ rest))) =
      fieldsFrom fuel room (joinHalves k, w) rest := by
  have hColon : skip (": " ++ (indentedAt depth v ++ rest)) =
      .char ':' :: .char ' ' :: (indentedAt depth v ++ rest) := rfl
  rw [stringText_append, members]
  simp only [stringBody_written, hColon, skip_space, h.skip_eq,
    h.value_eq fuel room rest hFuel hRoom]
  rfl

theorem members_fields {depth : Nat} {f : Json → Json} {fields : List (Text × Json)}
    (hFields : ∀ e ∈ fields, Reads depth e.2 (f e.2)) {k : Text} {v : Json}
    (h : Reads depth v (f v)) {fuel room : Nat}
    (hFuel : (indentedAt depth v).length + (indentedFields depth fields).length < fuel)
    (hRoom : (indentedAt depth v).length + (indentedFields depth fields).length ≤ room)
    (close : Nat) (rest : Text) :
    members (fuel + 1) room (stringText k ++ (": " ++ (indentedAt depth v ++
        (indentedFields depth fields ++ (newLine close ++ .char '}' :: rest))))) =
      .ok (((k, v) :: fields).map (Prod.map joinHalves f), rest) := by
  induction fields generalizing k v fuel with
  | nil =>
    rw [members_field h (by omega) (by omega), indentedFields, List.nil_append, fieldsFrom,
      skip_newLine]
    rfl
  | cons e fields ih =>
    obtain ⟨k', v'⟩ := e
    obtain ⟨hHead, hFields⟩ := List.forall_mem_cons.1 hFields
    change Reads depth v' (f v') at hHead
    have hText (t : Text) : indentedFields depth ((k', v') :: fields) ++ t =
        .char ',' :: (newLine depth ++ (stringText k' ++ ((": " : Text) ++ (indentedAt depth v' ++
          (indentedFields depth fields ++ t))))) := by
      simp [indentedFields, ofString]
    have hStart (t : Text) : skip (stringText k' ++ t) = stringText k' ++ t := by
      rw [stringText_append]
      rfl
    have hLength := congrArg List.length (hText [])
    simp only [List.length_append, List.length_cons] at hLength
    obtain ⟨fuel, rfl⟩ := Nat.exists_eq_add_one_of_ne_zero (Nat.ne_zero_of_lt hFuel)
    have hComma (t : Text) : skip (.char ',' :: t) = .char ',' :: t := rfl
    rw [members_field h (by omega) (by omega), fieldsFrom, hText, hComma]
    simp only [skip_newLine, hStart]
    rw [ih hFields hHead (by omega) (by omega)]
    rfl

theorem indentedAt_fields (depth : Nat) (k : Text) (v : Json) (fields : List (Text × Json))
    (rest : Text) :
    indentedAt depth (.obj ((k, v) :: fields)) ++ rest =
      .char '{' :: (newLine (depth + 1) ++ (stringText k ++ ((": " : Text) ++
        (indentedAt (depth + 1) v ++ (indentedFields (depth + 1) fields ++
          (newLine depth ++ .char '}' :: rest)))))) := by
  simp [indentedAt, ofString]

/-- The reader for objects writes the fields into a map. -/
theorem entries_ofList_eq (fields : List (Text × Json)) :
    (OrderedMap.ofList fields).entries = fields.foldl (fun fs (k, v) => putEntry k v fs) [] := by
  have hGeneral (m : OrderedMap Text Json) :
      (m.insertAll fields).entries = fields.foldl (fun fs (k, v) => putEntry k v fs) m.entries := by
    induction fields generalizing m with
    | nil => rfl
    | cons e fields ih => exact ih (m.insert e.1 e.2)
  exact hGeneral .empty

theorem value_brace {fuel room : Nat} {s t : Text} (h : skip s = .char '"' :: t) :
    value (fuel + 1) (room + 1) (.char '{' :: s) =
      (members fuel room (.char '"' :: t)).map fun (fields, rest) =>
        (.obj (OrderedMap.ofList fields).entries, rest) := by
  rw [value]
  simp only [h, entries_ofList_eq]
  rfl

/-- An object is read when the values of its fields are. -/
theorem reads_obj {depth : Nat} {f : Json → Json} {fields : List (Text × Json)}
    (h : ∀ e ∈ fields, Reads (depth + 1) e.2 (f e.2)) :
    Reads depth (.obj fields)
      (.obj (OrderedMap.ofList (fields.map (Prod.map joinHalves f))).entries) where
  skip_eq rest := by
    cases fields with
    | nil => rfl
    | cons e fields =>
      rw [indentedAt_fields]
      rfl
  value_eq fuel room rest hFuel hRoom := by
    obtain ⟨fuel, rfl⟩ := Nat.exists_eq_add_one_of_ne_zero (Nat.ne_zero_of_lt hFuel)
    cases fields with
    | nil =>
      rw [indentedAt] at hRoom ⊢
      obtain ⟨room, rfl⟩ := Nat.exists_eq_add_one_of_ne_zero (Nat.ne_zero_of_lt hRoom)
      rfl
    | cons e fields =>
      obtain ⟨k, v⟩ := e
      obtain ⟨hHead, hFields⟩ := List.forall_mem_cons.1 h
      change Reads (depth + 1) v (f v) at hHead
      have hLength := congrArg List.length (indentedAt_fields depth k v fields [])
      simp only [List.length_append, List.length_cons, List.length_nil] at hLength
      obtain ⟨fuel, rfl⟩ := Nat.exists_eq_add_one_of_ne_zero (n := fuel) (by omega)
      obtain ⟨room, rfl⟩ := Nat.exists_eq_add_one_of_ne_zero (n := room) (by omega)
      have hMembers : members (fuel + 1) room _ = _ :=
        members_fields hFields (k := k) hHead (by omega) (by omega) depth rest
      rw [stringText_append] at hMembers
      rw [indentedAt_fields, stringText_append, value_brace (skip_newLine _ _), hMembers]
      rfl

/-! ## Texts in a value -/

mutual

/-- The texts in a value, the names of fields among them. -/
def texts : Json → List Text
  | .str s => [s]
  | .arr items => itemTexts items
  | .obj fields => fieldTexts fields
  | _ => []

/-- The texts in items. -/
def itemTexts : List Json → List Text
  | [] => []
  | v :: vs => texts v ++ itemTexts vs

/-- The names and the texts in fields. -/
def fieldTexts : List (Text × Json) → List Text
  | [] => []
  | (k, v) :: fs => k :: (texts v ++ fieldTexts fs)

end

theorem mem_texts_obj {fields : List (Text × Json)} {s : Text} :
    s ∈ (Json.obj fields).texts ↔ ∃ e ∈ fields, s = e.1 ∨ s ∈ e.2.texts := by
  rw [texts]
  induction fields with
  | nil => simp [fieldTexts]
  | cons e fields ih => simp [fieldTexts, ih, or_assoc]

/-- No text in the value has a surrogate pair in two halves. -/
def PairFree (v : Json) : Prop := ∀ s ∈ v.texts, pairFree s = true

instance (v : Json) : Decidable v.PairFree :=
  inferInstanceAs (Decidable (∀ s ∈ v.texts, Text.pairFree s = true))

/-- The second value is free of pairs, and it is the first one if that is free of pairs too. -/
structure Joins (v w : Json) : Prop where
  pairFree : w.PairFree
  eq_self : v.PairFree → w = v

theorem Joins.eq_iff {v w : Json} (h : Joins v w) : w = v ↔ v.PairFree :=
  ⟨fun hEq => hEq ▸ h.pairFree, h.eq_self⟩

theorem joins_str (s : Text) : Joins (.str s) (.str (joinHalves s)) where
  pairFree t ht := by
    rw [List.mem_singleton.1 ht]
    exact pairFree_joinHalves s
  eq_self h := by rw [joinHalves_eq_self_iff.2 (h s (List.mem_singleton_self s))]

theorem joins_obj {f : Json → Json} {fields : List (Text × Json)}
    (hDistinct : DistinctKeys (fields.map Prod.fst)) (h : ∀ e ∈ fields, Joins e.2 (f e.2)) :
    Joins (.obj fields)
      (.obj (OrderedMap.ofList (fields.map (Prod.map joinHalves f))).entries) where
  pairFree t ht := by
    obtain ⟨e, he, ht⟩ := mem_texts_obj.1 ht
    obtain ⟨e, hMem, rfl⟩ := List.mem_map.1 (OrderedMap.mem_ofList he)
    rcases ht with rfl | ht
    · exact pairFree_joinHalves e.1
    · exact (h e hMem).pairFree t ht
  eq_self hFree := by
    have hSelf : fields.map (Prod.map joinHalves f) = fields.map id := by
      refine List.map_congr_left fun e he => Prod.ext ?_ ?_
      · exact joinHalves_eq_self_iff.2 (hFree e.1 (mem_texts_obj.2 ⟨e, he, .inl rfl⟩))
      · exact (h e he).eq_self fun t ht => hFree t (mem_texts_obj.2 ⟨e, he, .inr ht⟩)
    rw [hSelf, List.map_id, OrderedMap.entries_ofList (OrderedMap.nodup_of_distinctKeys hDistinct)]

end StyleScaffold.Json
