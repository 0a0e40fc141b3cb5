import StyleScaffold.Component.TokenModule
import StyleScaffold.Proofs.Json.Indented

/-!
# Modules of design tokens

The object in a module of tokens is JSON but for the names of the four groups, which stand without
quotes. `readModule?` reads it with the reader for JSON, and takes only the frame that modules have.

Main results, for tokens whose names are texts and whose values are texts or maps of texts:

* a module is read as its tokens with their surrogate pairs joined
  (`readModule?_moduleText_joined`);
* so the tokens come back exactly when none of their texts has the two halves of a pair one behind
  the other, and such tokens are told apart by their modules (`readModule?_moduleText`);
* in general they are not, since a module writes the two halves like the character of the pair
  (`not_injective_moduleText`).
-/

namespace StyleScaffold

open Text

namespace Json

/-! ## Values of tokens -/

/-- Texts, and maps from texts to texts. -/
def IsTextual (v : Json) : Prop :=
  (∃ s, v = .str s) ∨ ∃ m : OrderedMap Text Text, v = .ofTexts m.entries

def joinedText : Json → Json
  | .str s => .str (joinHalves s)
  | v => v

/-- A text or a map of texts with its surrogate pairs joined. -/
def joinedValue : Json → Json
  | .obj fields => .obj (OrderedMap.ofList (fields.map (Prod.map joinHalves joinedText))).entries
  | v => joinedText v

theorem reads_joinedValue {v : Json} (h : v.IsTextual) (depth : Nat) :
    Reads depth v (joinedValue v) := by
  rcases h with ⟨s, rfl⟩ | ⟨m, rfl⟩
  · exact reads_str depth s
  · refine reads_obj fun e he => ?_
    obtain ⟨⟨k, s⟩, -, rfl⟩ := List.mem_map.1 he
    exact reads_str (depth + 1) s

theorem joins_joinedValue {v : Json} (h : v.IsTextual) : Joins v (joinedValue v) := by
  rcases h with ⟨s, rfl⟩ | ⟨m, rfl⟩
  · exact joins_str s
  · refine joins_obj ?_ fun e he => ?_
    · rw [List.map_map]
      exact m.distinct
    · obtain ⟨⟨k, s⟩, -, rfl⟩ := List.mem_map.1 he
      exact joins_str s

end Json

/-! ## Groups -/

/-- A group of tokens with texts as its names. -/
def namedGroup (m : OrderedMap Text Json) : TokenGroup where
  entries := m.entries.map (Prod.map .text id)
  distinct := by
    rw [List.map_map]
    have hNames := m.distinct
    rw [DistinctKeys, List.pairwise_map] at hNames ⊢
    exact hNames

/-- Every name in the group is a text, and every value a text or a map of texts. -/
def TextualGroup (group : TokenGroup) : Prop :=
  ∀ e ∈ group.entries, (∃ name, e.1 = .text name) ∧ e.2.IsTextual

theorem groupJson_namedGroup (m : OrderedMap Text Json) :
    DesignTokens.groupJson (namedGroup m) = .obj m.entries := by
  rw [DesignTokens.groupJson, namedGroup, List.map_map]
  exact congrArg Json.obj (List.map_id m.entries)

theorem TextualGroup.exists_namedGroup {group : TokenGroup} (h : TextualGroup group) :
    ∃ m : OrderedMap Text Json, group = namedGroup m ∧ ∀ e ∈ m.entries, e.2.IsTextual := by
  have hNames := group.distinct
  rw [DistinctKeys, List.pairwise_map] at hNames
  let m : OrderedMap Text Json :=
    { entries := group.entries.map (Prod.map Key.fieldName id)
      distinct := by
        rw [List.map_map, DistinctKeys, List.pairwise_map]
        refine hNames.imp_of_mem fun {a b} ha hb hab => ?_
        obtain ⟨s, hs⟩ := (h a ha).1
        obtain ⟨t, ht⟩ := (h b hb).1
        rw [hs, ht] at hab
        simpa [hs, ht, Key.fieldName] using hab }
  refine ⟨m, OrderedMap.ext ?_, fun e he => ?_⟩
  · calc
      group.entries = group.entries.map id := (List.map_id _).symm
      _ = group.entries.map (Prod.map .text id ∘ Prod.map Key.fieldName id) :=
        List.map_congr_left fun e he => by
          obtain ⟨s, hs⟩ := (h e he).1
          exact Prod.ext (by simp [hs, Key.fieldName]) rfl
      _ = (namedGroup m).entries := List.map_map.symm
  · obtain ⟨e, hMem, rfl⟩ := List.mem_map.1 he
    exact (h e hMem).2

theorem textualGroup_namedGroup {m : OrderedMap Text Json} (h : ∀ e ∈ m.entries, e.2.IsTextual) :
    TextualGroup (namedGroup m) := by
  intro e he
  obtain ⟨e, hMem, rfl⟩ := List.mem_map.1 he
  exact ⟨⟨e.1, rfl⟩, h e hMem⟩

theorem namedGroup_inj {m m' : OrderedMap Text Json} : namedGroup m = namedGroup m' ↔ m = m' := by
  refine ⟨fun h => OrderedMap.ext ?_, fun h => h ▸ rfl⟩
  have hEntries := congrArg DesignTokens.groupJson h
  rw [groupJson_namedGroup, groupJson_namedGroup] at hEntries
  exact Json.obj.inj hEntries

/-! ## Reading a module -/

/-- A group behind its name, and what comes behind the group. It may be nested as deeply as the text
is long. -/
def readGroup? (name s : Text) : Option (TokenGroup × Text) := do
  let s ← strip? (name ++ ":") (Json.skip s)
  match Json.value (2 * s.length + 1) s.length (Json.skip s) with
  | .ok (.obj fields, rest) => some (namedGroup (.ofList fields), Json.skip rest)
  | _ => none

/-- The tokens in a module of them. -/
def readModule? (s : Text) : Option DesignTokens := do
  let s ← strip? "// Design Tokens\nexport const designTokens = \x7b" s
  let (colors, s) ← readGroup? "colors" s
  let s ← strip? "," s
  let (typography, s) ← readGroup? "typography" s
  let s ← strip? "," s
  let (spacing, s) ← readGroup? "spacing" s
  let s ← strip? "," s
  let (effects, s) ← readGroup? "effects" s
  let s ← strip? "\x7d;" s
  if s.isEmpty then some ⟨colors, typography, spacing, effects⟩ else none

/-- A group as it stands in a module. -/
def groupText (name : Text) (group : TokenGroup) : Text :=
  "\n  " ++ (name ++ (":" ++ (" " ++ (DesignTokens.groupJson group).indented)))

theorem moduleText_eq (tokens : DesignTokens) :
    tokens.moduleText =
      "// Design Tokens\nexport const designTokens = \x7b" ++
        (groupText "colors" tokens.colors ++ ("," ++
          (groupText "typography" tokens.typography ++ ("," ++
            (groupText "spacing" tokens.spacing ++ ("," ++
              (groupText "effects" tokens.effects ++ "\n\x7d;"))))))) := by
  simp [DesignTokens.moduleText, groupText, ofString]

/-- A group with the surrogate pairs in its names and values joined. Names that become equal are one
then, with the value of the last of them. -/
def joinedGroup (group : TokenGroup) : TokenGroup :=
  namedGroup (.ofList (group.entries.map fun (k, v) => (joinHalves k.fieldName, v.joinedValue)))

theorem joinedGroup_namedGroup (m : OrderedMap Text Json) :
    joinedGroup (namedGroup m) =
      namedGroup (.ofList (m.entries.map (Prod.map joinHalves Json.joinedValue))) := by
  have hEntries :
      (namedGroup m).entries.map (fun (k, v) => (joinHalves k.fieldName, v.joinedValue)) =
        m.entries.map (Prod.map joinHalves Json.joinedValue) := List.map_map
  rw [joinedGroup, hEntries]

theorem joinedGroup_eq_iff {group : TokenGroup} (h : TextualGroup group) :
    joinedGroup group = group ↔ (DesignTokens.groupJson group).PairFree := by
  obtain ⟨m, rfl, hValues⟩ := h.exists_namedGroup
  have hJoins := Json.joins_obj m.distinct fun e he => Json.joins_joinedValue (hValues e he)
  rw [joinedGroup_namedGroup, namedGroup_inj, groupJson_namedGroup, ← hJoins.eq_iff, Json.obj.injEq]
  exact ⟨congrArg OrderedMap.entries, OrderedMap.ext⟩

theorem readGroup?_groupText (name : Text) (hName : ∀ t, Json.skip (name ++ t) = name ++ t)
    {group : TokenGroup} (h : TextualGroup group) (rest : Text) :
    readGroup? name (groupText name group ++ rest) = some (joinedGroup group, Json.skip rest) := by
  obtain ⟨m, rfl, hValues⟩ := h.exists_namedGroup
  have hReads : Json.Reads 0 (.obj m.entries) _ := Json.reads_obj fun e he =>
    Json.reads_joinedValue (hValues e he) 1
  rw [← groupJson_namedGroup] at hReads
  have hSpaces (t : Text) : Json.skip ("\n  " ++ t) = Json.skip t := rfl
  have hSpace (t : Text) : Json.skip (" " ++ t) = Json.skip t := rfl
  have hText : groupText name (namedGroup m) ++ rest = "\n  " ++ ((name ++ (":" : Text)) ++
      (" " ++ ((DesignTokens.groupJson (namedGroup m)).indented ++ rest))) := by
    simp [groupText]
  have hStrip (t : Text) : strip? (name ++ ":") (Json.skip (name ++ ":" ++ t)) = some t := by
    rw [List.append_assoc, hName, ← List.append_assoc]
    exact strip?_eq_some_iff.2 rfl
  have hRoom : ∀ t : Text, (Json.indentedAt 0 (DesignTokens.groupJson (namedGroup m))).length ≤
      (" " ++ (Json.indentedAt 0 (DesignTokens.groupJson (namedGroup m)) ++ t)).length := by
    intro t
    simp only [List.length_append]
    omega
  have hFuel := fun t => Nat.lt_succ_of_le
    (Nat.le_trans (hRoom t) (Nat.le_mul_of_pos_left _ Nat.two_pos))
  rw [readGroup?, hText, hSpaces, hStrip, Option.bind_eq_bind, Option.bind_some, hSpace,
    Json.indented, hReads.skip_eq, hReads.value_eq _ _ _ (hFuel rest) (hRoom rest),
    joinedGroup_namedGroup]
  simp only [OrderedMap.ofList_entries]

/-! ## Tokens -/

namespace DesignTokens

/-- Every name is a text, and every value a text or a map of texts. -/
structure IsTextual (tokens : DesignTokens) : Prop where
  colors : TextualGroup tokens.colors
  typography : TextualGroup tokens.typography
  spacing : TextualGroup tokens.spacing
  effects : TextualGroup tokens.effects

/-- No name and no value has a surrogate pair in two halves. -/
structure PairFree (tokens : DesignTokens) : Prop where
  colors : (groupJson tokens.colors).PairFree
  typography : (groupJson tokens.typography).PairFree
  spacing : (groupJson tokens.spacing).PairFree
  effects : (groupJson tokens.effects).PairFree

def joined (tokens : DesignTokens) : DesignTokens where
  colors := joinedGroup tokens.colors
  typography := joinedGroup tokens.typography
  spacing := joinedGroup tokens.spacing
  effects := joinedGroup tokens.effects

theorem joined_eq_iff {tokens : DesignTokens} (h : tokens.IsTextual) :
    tokens.joined = tokens ↔ tokens.PairFree := by
  have hColors := joinedGroup_eq_iff h.colors
  have hTypography := joinedGroup_eq_iff h.typography
  have hSpacing := joinedGroup_eq_iff h.spacing
  have hEffects := joinedGroup_eq_iff h.effects
  constructor
  · intro hEq
    exact ⟨hColors.1 (congrArg DesignTokens.colors hEq),
      hTypography.1 (congrArg DesignTokens.typography hEq),
      hSpacing.1 (congrArg DesignTokens.spacing hEq),
      hEffects.1 (congrArg DesignTokens.effects hEq)⟩
  · intro hFree
    rw [joined, hColors.2 hFree.colors, hTypography.2 hFree.typography, hSpacing.2 hFree.spacing,
      hEffects.2 hFree.effects]

/-- A module is read as the tokens in it with their surrogate pairs joined. -/
theorem readModule?_moduleText_joined {tokens : DesignTokens} (h : tokens.IsTextual) :
    readModule? tokens.moduleText = some tokens.joined := by
  have hComma (t : Text) : strip? "," (Json.skip ("," ++ t)) = some t := rfl
  have hClose : strip? "\x7d;" (Json.skip "\n\x7d;") = some [] := rfl
  rw [readModule?, moduleText_eq, strip?_eq_some_iff.2 rfl]
  simp only [Option.bind_eq_bind, Option.bind_some, hComma, hClose,
    readGroup?_groupText "colors" (fun _ => rfl) h.colors,
    readGroup?_groupText "typography" (fun _ => rfl) h.typography,
    readGroup?_groupText "spacing" (fun _ => rfl) h.spacing,
    readGroup?_groupText "effects" (fun _ => rfl) h.effects]
  rfl

/-- Tokens with one colour, whose name is the given text. -/
def namedColor (name : Text) : DesignTokens :=
  { colors := namedGroup (.ofList [(name, .str "#ffffff")]) }

theorem isTextual_namedColor (name : Text) : (namedColor name).IsTextual where
  colors := textualGroup_namedGroup fun e he => by
    rw [List.mem_singleton.1 he]
    exact .inl ⟨_, rfl⟩
  typography _ he := nomatch he
  spacing _ he := nomatch he
  effects _ he := nomatch he

/-- The two halves of a surrogate pair are written like the character of the pair. -/
theorem not_injective_moduleText : ¬ ∀ tokens other : DesignTokens, tokens.IsTextual →
    other.IsTextual → tokens.moduleText = other.moduleText → tokens = other := by
  intro h
  have hText : (namedColor [.ofNat 0xD83D, .ofNat 0xDE00]).moduleText =
      (namedColor [.ofNat 0x1F600]).moduleText := by decide
  have hEq := h _ _ (isTextual_namedColor _) (isTextual_namedColor _) hText
  have hName := congrArg (fun tokens => (groupJson tokens.colors).texts) hEq
  revert hName
  decide

/-- **A module of tokens can be read.** The tokens come back as they were exactly when no surrogate
pair in them is in two halves, and then no other such tokens have the same module. -/
theorem readModule?_moduleText {tokens : DesignTokens} (h : tokens.IsTextual) :
    (∃ read, readModule? tokens.moduleText = some read) ∧
      (readModule? tokens.moduleText = some tokens ↔ tokens.PairFree) ∧
      ∀ other : DesignTokens, other.IsTextual → tokens.PairFree → other.PairFree →
        tokens.moduleText = other.moduleText → tokens = other := by
  have hRead := readModule?_moduleText_joined h
  refine ⟨⟨_, hRead⟩, ?_, fun other hOther hFree hOtherFree hText => ?_⟩
  · rw [hRead, Option.some.injEq, joined_eq_iff h]
  · rw [hText, readModule?_moduleText_joined hOther, Option.some.injEq] at hRead
    rw [← (joined_eq_iff h).2 hFree, ← hRead, (joined_eq_iff hOther).2 hOtherFree]

/-- Tokens with a name beyond ASCII, and a type style. -/
def headingTokens : DesignTokens where
  colors := namedGroup (.ofList [("Grün", .str "#00ff00")])
  typography := namedGroup (.ofList [("Heading", .ofTexts [("fontSize", "16px")])])

theorem readModule?_moduleText_heading :
    headingTokens.IsTextual ∧ headingTokens.PairFree ∧
      readModule? headingTokens.moduleText = some headingTokens := by
  have hTextual : headingTokens.IsTextual :=
    { colors := textualGroup_namedGroup fun e he => by
        rw [List.mem_singleton.1 he]
        exact .inl ⟨_, rfl⟩
      typography := textualGroup_namedGroup fun e he => by
        rw [List.mem_singleton.1 he]
        exact .inr ⟨.ofList [("fontSize", "16px")], rfl⟩
      spacing := fun _ he => nomatch he
      effects := fun _ he => nomatch he }
  have hFree : headingTokens.PairFree :=
    { colors := by decide
      typography := by decide
      spacing := by decide
      effects := by decide }
  exact ⟨hTextual, hFree, (readModule?_moduleText hTextual).2.1.2 hFree⟩

end DesignTokens

end StyleScaffold
