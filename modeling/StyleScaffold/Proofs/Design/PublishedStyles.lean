import StyleScaffold.Proofs.Design.Component
import StyleScaffold.Proofs.OrderedMap

/-!
# Published styles among the tokens

Published styles are recorded first, each under its name, and then the walk through the document
writes into the same groups. A solid fill is written under a name with an ending, but the style of a
text under the bare name of its node, and so a node can take the place of a published style.

* `group_addStyle`, `group_addNode`: what a step writes into each group.
* `group_designTokens`: so a group is written by the styles, and by the nodes behind them.
* `designTokens_styles_iff`: the published styles that are still there in the end.
-/

namespace StyleScaffold

open Text

/-! ## Keys -/

instance : LawfulBEq (Int ⊕ Binary64) where
  eq_of_beq := by
    intro a b h
    cases a with
    | inl m =>
      cases b with
      | inl n => exact congrArg Sum.inl (eq_of_beq h)
      | inr y => cases h
    | inr x =>
      cases b with
      | inl n => cases h
      | inr y => exact congrArg Sum.inr (eq_of_beq h)
  rfl := by
    intro a
    cases a with
    | inl n => exact beq_self_eq_true n
    | inr x => exact beq_self_eq_true x

namespace Key

theorem beq_iff {a b : Key} : (a == b) = true ↔
    a = .null ∧ b = .null ∨ (∃ s, a = .text s ∧ b = .text s) ∨
      ∃ n, a.number? = some n ∧ b.number? = some n := by
  show same a b = true ↔ _
  unfold same
  split
  · simp [number?]
  · rename_i s t
    have hNumber : (text s).number? = none := rfl
    simpa [hNumber] using eq_comm
  · rename_i hNull hText
    rw [Bool.and_eq_true, beq_iff_eq, Option.isSome_iff_exists]
    grind

instance : EquivBEq Key where
  symm := by
    intro a b h
    rw [beq_iff] at h ⊢
    grind
  trans := by
    intro a b c h h'
    rw [beq_iff] at h h' ⊢
    grind [number?]
  rfl := by
    intro a
    rw [beq_iff]
    cases a <;> simp [number?]

theorem beq_text_iff {k : Key} {s : Text} : (k == .text s) = true ↔ k = .text s := by
  have hNumber : (text s).number? = none := rfl
  rw [beq_iff]
  constructor
  · rintro (⟨-, hNull⟩ | ⟨t, rfl, hText⟩ | ⟨n, -, hNone⟩)
    · cases hNull
    · exact hText.symm
    · rw [hNumber] at hNone
      cases hNone
  · rintro rfl
    exact Or.inr (Or.inl ⟨s, rfl, rfl⟩)

end Key

namespace Design

open Json

/-! ## Published styles -/

/-- The kinds of published styles that are recorded. -/
inductive StyleKind where
  | fill
  | text
  | effect
  deriving DecidableEq

namespace StyleKind

/-- The type that styles of the kind have. -/
def typeName : StyleKind → Text
  | .fill => "FILL"
  | .text => "TEXT"
  | .effect => "EFFECT"

/-- The group in which styles of the kind are recorded. -/
def group : StyleKind → DesignTokens → TokenGroup
  | .fill, tokens => tokens.colors
  | .text, tokens => tokens.typography
  | .effect, tokens => tokens.effects

/-- The tokens with a value in the group of the kind. -/
def put (kind : StyleKind) (tokens : DesignTokens) (key : Key) (value : Json) : DesignTokens :=
  match kind with
  | .fill => { tokens with colors := tokens.colors.insert key value }
  | .text => { tokens with typography := tokens.typography.insert key value }
  | .effect => { tokens with effects := tokens.effects.insert key value }

theorem group_put (kind other : StyleKind) (tokens : DesignTokens) (key : Key) (value : Json) :
    other.group (kind.put tokens key value) =
      if kind = other then (other.group tokens).insert key value else other.group tokens := by
  cases kind <;> cases other <;> rfl

def all : List StyleKind := [fill, text, effect]

theorem mem_all (kind : StyleKind) : kind ∈ all := by cases kind <;> decide

theorem typeName_injective {kind other : StyleKind} (h : kind.typeName = other.typeName) :
    kind = other := by
  have hAll : ∀ kind ∈ all, ∀ other ∈ all, kind.typeName = other.typeName → kind = other := by
    decide
  exact hAll kind kind.mem_all other other.mem_all h

/-- The kind that a type names. -/
def ofType? (type : Json) : Option StyleKind := all.find? fun kind => type.isText kind.typeName

theorem ofType?_eq_some_iff {type : Json} {kind : StyleKind} :
    ofType? type = some kind ↔ type.isText kind.typeName = true := by
  constructor
  · intro h
    exact List.find?_some (p := fun kind : StyleKind => type.isText kind.typeName) h
  · intro h
    have hSome : (ofType? type).isSome = true := List.find?_isSome.2 ⟨kind, kind.mem_all, h⟩
    obtain ⟨other, hOther⟩ := Option.isSome_iff_exists.1 hSome
    have hText : type.isText other.typeName = true :=
      List.find?_some (p := fun kind : StyleKind => type.isText kind.typeName) hOther
    rw [hOther, Option.some.injEq]
    apply typeName_injective
    rw [isText_iff.1 h] at hText
    exact (eq_of_beq hText).symm

/-- The name of a style of the kind: the key it is published under, if it has no other. -/
def styleName? (kind : StyleKind) (e : Key × Json) : Option Json :=
  match e.2 with
  | .obj fields =>
    if (fieldOrNull fields "styleType").isText kind.typeName then
      some (fieldOr fields "name" e.1.toJson)
    else none
  | _ => none

/-- What a published style writes into the group of the kind. -/
def styleTokens (kind : StyleKind) (e : Key × Json) : List (Key × Json) :=
  ((kind.styleName? e).bind key?).toList.map (·, e.1.toJson)

end StyleKind

/-- The styles are objects, and those of one kind have texts for their names, no two the same. -/
structure ArePublished (styles : OrderedMap Key Json) : Prop where
  objects : ∀ e ∈ styles.entries, ∃ fields, e.2 = .obj fields
  names : ∀ kind : StyleKind, ∀ e ∈ styles.entries, ∀ v ∈ kind.styleName? e, ∃ name, v = .str name
  distinct : ∀ kind : StyleKind, (styles.entries.filterMap kind.styleName?).Nodup

theorem toKey_eq_ok {v : Json} {k : Key} : v.toKey = .ok k ↔ v.key? = some k := by
  unfold toKey
  cases v.key? <;> simp

theorem key?_eq_text_iff {v : Json} {s : Text} : v.key? = some (.text s) ↔ v = .str s := by
  cases v <;> simp [key?]

/-- A style is recorded in the group of its kind, if it has one. -/
theorem addStyle_obj (tokens : DesignTokens) (key : Key) (fields : List (Text × Json)) :
    addStyle tokens (key, .obj fields) =
      match StyleKind.ofType? (fieldOrNull fields "styleType") with
      | some kind => do
        return kind.put tokens (← (fieldOr fields "name" key.toJson).toKey) key.toJson
      | none => .ok tokens := by
  simp only [addStyle, fields?, bind, Except.bind, StyleKind.ofType?, StyleKind.all,
    List.find?_cons, StyleKind.typeName]
  cases (fieldOrNull fields "styleType").isText "FILL" with
  | true => rfl
  | false =>
    cases (fieldOrNull fields "styleType").isText "TEXT" with
    | true => rfl
    | false => cases (fieldOrNull fields "styleType").isText "EFFECT" <;> rfl

theorem StyleKind.styleName?_obj (kind : StyleKind) (key : Key) (fields : List (Text × Json)) :
    kind.styleName? (key, .obj fields) =
      if ofType? (fieldOrNull fields "styleType") = some kind then
        some (fieldOr fields "name" key.toJson)
      else none := by
  simp only [styleName?, ofType?_eq_some_iff]

/-- What a style writes into a group. -/
theorem group_addStyle (kind : StyleKind) {tokens tokens' : DesignTokens} {e : Key × Json}
    (h : addStyle tokens e = .ok tokens') :
    kind.group tokens' = (kind.group tokens).insertAll (kind.styleTokens e) := by
  obtain ⟨key, style⟩ := e
  obtain ⟨fields, hFields, -⟩ := bind_eq_ok.1 h
  cases style with
  | obj own =>
    rw [addStyle_obj] at h
    rw [StyleKind.styleTokens, StyleKind.styleName?_obj]
    cases hKind : StyleKind.ofType? (fieldOrNull own "styleType") with
    | none =>
      rw [hKind] at h
      cases h
      rfl
    | some other =>
      rw [hKind] at h
      obtain ⟨k, hName, h⟩ := bind_eq_ok.1 h
      cases h
      rw [StyleKind.group_put]
      simp only [Option.some.injEq]
      split
      · rw [Option.bind_some, toKey_eq_ok.1 hName]
        rfl
      · rfl
  | _ => cases hFields

/-- The style is an object, and if it is of a kind that is recorded, its name can be a key. -/
structure IsRecordable (e : Key × Json) : Prop where
  object : ∃ fields, e.2 = .obj fields
  name : ∀ kind : StyleKind, ∀ v ∈ kind.styleName? e, v.key?.isSome = true

theorem exists_addStyle_iff {tokens : DesignTokens} {e : Key × Json} :
    (∃ tokens', addStyle tokens e = .ok tokens') ↔ IsRecordable e := by
  obtain ⟨key, style⟩ := e
  cases style with
  | obj fields =>
    have hName : ∀ kind : StyleKind,
        StyleKind.ofType? (fieldOrNull fields "styleType") = some kind →
        kind.styleName? (key, .obj fields) = some (fieldOr fields "name" key.toJson) := by
      intro kind hKind
      rw [StyleKind.styleName?_obj, if_pos hKind]
    rw [addStyle_obj]
    cases hType : StyleKind.ofType? (fieldOrNull fields "styleType") with
    | none =>
      refine iff_of_true ⟨tokens, rfl⟩ ⟨⟨fields, rfl⟩, fun kind v hv => ?_⟩
      rw [StyleKind.styleName?_obj, hType, if_neg (by simp)] at hv
      cases hv
    | some kind =>
      refine (exists_bind_iff fun _ => exists_pure_iff).trans ?_
      simp only [and_true, toKey_eq_ok, ← Option.isSome_iff_exists]
      constructor
      · intro hKey
        refine ⟨⟨fields, rfl⟩, fun other v hv => ?_⟩
        rw [StyleKind.styleName?_obj] at hv
        split at hv
        · cases hv
          exact hKey
        · cases hv
      · intro h
        exact h.name kind _ (hName kind hType)
  | _ => exact iff_of_false (fun ⟨_, h⟩ => nomatch h) fun h => nomatch h.object

theorem ArePublished.isRecordable {styles : OrderedMap Key Json} (h : ArePublished styles)
    {e : Key × Json} (he : e ∈ styles.entries) : IsRecordable e := by
  refine ⟨h.objects e he, fun kind v hv => ?_⟩
  obtain ⟨name, rfl⟩ := h.names kind e he v hv
  rfl

/-! ## Tokens of nodes -/

namespace Node

/-- No solid fill is out of bounds, and the name can be a key if a style is written under it. -/
structure HasTokens (n : Node) : Prop where
  fills : ∀ p ∈ n.content.fills, ∀ color ∈ p.solid?, color.IsBounded
  name : n.typographyValue?.isSome = true → n.name.key?.isSome = true

theorem exists_fillTokens_iff {n : Node} :
    (∃ ts, n.fillTokens = .ok ts) ↔ ∀ p ∈ n.content.fills, ∀ color ∈ p.solid?, color.IsBounded := by
  have hEach : ∀ (color : Color) (i : Nat), (∃ t, (do
      let hex ← color.hexText.mapError .number
      return (n.tokenName ("-fill-" ++ ofNat i), .str hex) : Except DataFault (Key × Json)) =
        .ok t) ↔ color.IsBounded := by
    intro color i
    rw [exists_bind_iff fun _ => exists_pure_iff, and_true, ← Color.exists_hex_iff]
    simp only [mapError_eq_ok]
  have hFills : n.content.fills.zipIdx.map Prod.fst = n.content.fills := by simp
  rw [fillTokens, exists_mapM_eq_ok_iff]
  conv => rhs; rw [← hFills]
  simp only [Prod.forall, hEach, List.mem_filterMap, Option.map_eq_some_iff, List.forall_mem_map]
  constructor
  · rintro h p i hp color hColor
    exact h color i ⟨(p, i), hp, color, hColor, rfl⟩
  · rintro h color i ⟨⟨p, j⟩, hp, own, hOwn, hEq⟩
    cases hEq
    exact h p j hp _ hOwn

theorem exists_typographyTokens_iff {n : Node} :
    (∃ ts, n.typographyTokens = .ok ts) ↔
      (n.typographyValue?.isSome = true → n.name.key?.isSome = true) := by
  unfold typographyTokens
  cases n.typographyValue? with
  | none => simp
  | some value =>
    refine (exists_bind_iff fun _ => exists_pure_iff).trans ?_
    simp [toKey_eq_ok, Option.isSome_iff_exists]

/-- What a node writes into the group of a kind; nothing if it fails. -/
def tokensOf (n : Node) : StyleKind → List (Key × Json)
  | .fill => n.fillTokens.toOption.getD []
  | .text => n.typographyTokens.toOption.getD []
  | .effect => []

end Node

theorem exists_addNode_iff {tokens : DesignTokens} {n : Node} :
    (∃ tokens', addNode tokens n = .ok tokens') ↔ n.HasTokens := by
  refine (exists_bind_iff fun _ => exists_bind_iff fun _ => exists_pure_iff).trans ?_
  rw [and_true, Node.exists_fillTokens_iff, Node.exists_typographyTokens_iff]
  exact ⟨fun h => ⟨h.1, h.2⟩, fun h => ⟨h.1, h.2⟩⟩

/-- What a node writes into a group. -/
theorem group_addNode (kind : StyleKind) {tokens tokens' : DesignTokens} {n : Node}
    (h : addNode tokens n = .ok tokens') :
    kind.group tokens' = (kind.group tokens).insertAll (n.tokensOf kind) := by
  obtain ⟨fills, hFills, h⟩ := bind_eq_ok.1 h
  obtain ⟨typography, hTypography, h⟩ := bind_eq_ok.1 h
  cases h
  cases kind with
  | fill =>
    rw [Node.tokensOf, hFills]
    rfl
  | text =>
    rw [Node.tokensOf, hTypography]
    rfl
  | effect => rfl

/-! ## The run -/

/-- Where each step writes into a group, the whole run writes one after another. -/
theorem view_foldlM {α : Type} {step : DesignTokens → α → Except DataFault DesignTokens}
    {written : α → List (Key × Json)} (view : DesignTokens → TokenGroup)
    (hStep : ∀ tokens a tokens', step tokens a = .ok tokens' →
      view tokens' = (view tokens).insertAll (written a))
    {as : List α} {tokens tokens' : DesignTokens} (h : as.foldlM step tokens = .ok tokens') :
    view tokens' = (view tokens).insertAll (as.flatMap written) := by
  induction as generalizing tokens with
  | nil =>
    cases h
    rfl
  | cons a as ih =>
    rw [List.foldlM_cons] at h
    obtain ⟨next, hNext, hRest⟩ := bind_eq_ok.1 h
    rw [List.flatMap_cons, OrderedMap.insertAll_append, ← hStep tokens a next hNext, ih hRest]

theorem group_designTokens (kind : StyleKind) {document : Node} {styles : OrderedMap Key Json}
    {tokens : DesignTokens} (h : designTokens document styles = .ok tokens) :
    kind.group tokens = (OrderedMap.ofList (styles.entries.flatMap kind.styleTokens)).insertAll
      (document.walk.flatMap (·.tokensOf kind)) := by
  obtain ⟨published, hPublished, hNodes⟩ := bind_eq_ok.1 h
  have hStyle : ∀ tokens e tokens', addStyle tokens e = .ok tokens' →
      kind.group tokens' = (kind.group tokens).insertAll (kind.styleTokens e) :=
    fun _ _ _ => group_addStyle kind
  have hNode : ∀ tokens n tokens', addNode tokens n = .ok tokens' →
      kind.group tokens' = (kind.group tokens).insertAll (n.tokensOf kind) :=
    fun _ _ _ => group_addNode kind
  have hEmpty : kind.group {} = .empty := by cases kind <;> rfl
  rw [view_foldlM kind.group hNode hNodes, view_foldlM kind.group hStyle hPublished, hEmpty,
    OrderedMap.ofList]

/-- Tokens are found unless a style cannot be recorded or a node has none. -/
theorem exists_tokens_iff (document : Node) (styles : OrderedMap Key Json) :
    (∃ tokens, designTokens document styles = .ok tokens) ↔
      (∀ e ∈ styles.entries, IsRecordable e) ∧ ∀ n ∈ document.walk, n.HasTokens := by
  have hStyles : ∀ tokens, ∀ e ∈ styles.entries,
      (∃ tokens', addStyle tokens e = .ok tokens') ↔ IsRecordable e :=
    fun _ _ _ => exists_addStyle_iff
  have hNodes : ∀ tokens, ∀ n ∈ document.walk,
      (∃ tokens', addNode tokens n = .ok tokens') ↔ n.HasTokens := fun _ _ _ => exists_addNode_iff
  refine (exists_bind_iff (exists_foldlM_iff hNodes)).trans ?_
  rw [exists_foldlM_iff hStyles]

theorem exists_designTokens_iff (document : Node) {styles : OrderedMap Key Json}
    (h : ArePublished styles) :
    (∃ tokens, designTokens document styles = .ok tokens) ↔ ∀ n ∈ document.walk, n.HasTokens :=
  (exists_tokens_iff document styles).trans (and_iff_right fun _ he => h.isRecordable he)

/-! ## What is left of the styles -/

namespace Node

/-- The colours that a node writes under a name. -/
def fillsAt (name : Text) (n : Node) : List Text :=
  n.content.fills.zipIdx.filterMap fun (paint, i) =>
    if n.name.display ++ "-fill-" ++ ofNat i = name then
      paint.solid?.bind fun color => color.hexText.toOption
    else none

end Node

/-- Whether the nodes leave a style its place: of the fills under its name the last one counts, a
text with a size takes the place in any case, and nodes write no effects. -/
def StyleKind.Keeps (document : Node) (name : Text) (key : Json) : StyleKind → Prop
  | .fill => ∀ hex ∈ (document.walk.flatMap (·.fillsAt name)).getLast?, key = .str hex
  | .text => ∀ n ∈ document.walk, n.typographyValue?.isSome = true → n.name ≠ .str name
  | .effect => True

theorem valuesAt_fillTokens (name : Text) {n : Node} {tokens : List (Key × Json)}
    (h : n.fillTokens = .ok tokens) :
    OrderedMap.valuesAt (.text name) tokens = (n.fillsAt name).map .str := by
  let colorAt? (color : Color) (i : Nat) : Option Text :=
    if n.name.display ++ "-fill-" ++ ofNat i = name then color.hexText.toOption else none
  have hEach : ∀ (fill : Color × Nat) token, (do
      let hex ← fill.1.hexText.mapError .number
      return (n.tokenName ("-fill-" ++ ofNat fill.2), .str hex) : Except DataFault (Key × Json)) =
        .ok token →
      (if token.1 == .text name then some token.2 else none) =
        (colorAt? fill.1 fill.2).map .str := by
    intro fill token hToken
    obtain ⟨hex, hHex, hEq⟩ := bind_eq_ok.1 hToken
    cases hEq
    have hOwn := mapError_eq_ok.1 hHex
    simp only [Node.tokenName, Key.text_beq_text, ← List.append_assoc, beq_iff_eq, colorAt?, hOwn]
    split <;> rfl
  rw [OrderedMap.valuesAt, filterMap_mapM h fun fill _ token hToken => hEach fill token hToken,
    Node.fillsAt, List.filterMap_filterMap, List.map_filterMap]
  refine congrArg (List.filterMap · _) (funext ?_)
  rintro ⟨paint, i⟩
  cases hSolid : paint.solid? with
  | none => simp [hSolid]
  | some color => simp [hSolid, colorAt?]

theorem valuesAt_typographyTokens (name : Text) {n : Node} {tokens : List (Key × Json)}
    (h : n.typographyTokens = .ok tokens) :
    OrderedMap.valuesAt (.text name) tokens =
      if n.name.isText name then n.typographyValue?.toList else [] := by
  unfold Node.typographyTokens at h
  cases hValue : n.typographyValue? with
  | none =>
    rw [hValue] at h
    cases h
    simp [OrderedMap.valuesAt]
  | some value =>
    rw [hValue] at h
    obtain ⟨k, hKey, hEq⟩ := bind_eq_ok.1 h
    cases hEq
    have hSame : (k == .text name) = n.name.isText name := by
      rw [Bool.eq_iff_iff, Key.beq_text_iff, isText_iff, ← key?_eq_text_iff, toKey_eq_ok.1 hKey,
        Option.some.injEq]
    simp only [OrderedMap.valuesAt, List.filterMap_cons, List.filterMap_nil, hSame]
    cases n.name.isText name <;> rfl

theorem eq_of_nodup_filterMap {α β : Type} {f : α → Option β} {l : List α}
    (h : (l.filterMap f).Nodup) {a b : α} (ha : a ∈ l) (hb : b ∈ l) {c : β} (hfa : f a = some c)
    (hfb : f b = some c) : a = b := by
  induction l with
  | nil => cases ha
  | cons first rest ih =>
    have hNot : ∀ {d}, f first = some c → d ∈ rest → f d ≠ some c := by
      intro d hFirst hd hEq
      rw [List.filterMap_cons_some hFirst, List.nodup_cons] at h
      exact h.1 (List.mem_filterMap.2 ⟨d, hd, hEq⟩)
    have hRest : (rest.filterMap f).Nodup :=
      h.sublist ((List.sublist_cons_self first rest).filterMap f)
    rcases List.mem_cons.1 ha with rfl | haRest
    · rcases List.mem_cons.1 hb with rfl | hbRest
      · rfl
      · exact absurd hfb (hNot hfa hbRest)
    · rcases List.mem_cons.1 hb with rfl | hbRest
      · exact absurd hfa (hNot hfb haRest)
      · exact ih hRest haRest hbRest

theorem mem_valuesAt_styleTokens {kind : StyleKind} {name : Text} {e : Key × Json} {v : Json} :
    v ∈ OrderedMap.valuesAt (.text name) (kind.styleTokens e) ↔
      kind.styleName? e = some (.str name) ∧ e.1.toJson = v := by
  rw [OrderedMap.valuesAt, StyleKind.styleTokens]
  cases kind.styleName? e with
  | none => simp
  | some own =>
    cases hKey : own.key? with
    | none =>
      have hOther : own ≠ .str name := by
        rintro rfl
        cases hKey
      simp [hKey, hOther]
    | some k =>
      have hSame : (k == .text name) = true ↔ own = .str name := by
        rw [Key.beq_text_iff, ← key?_eq_text_iff, hKey, Option.some.injEq]
      simp [hKey, hSame]

/-- A published style is recorded under its name, and no other is. -/
theorem get?_styleTokens {styles : OrderedMap Key Json} (h : ArePublished styles)
    {kind : StyleKind} {e : Key × Json} (he : e ∈ styles.entries) {name : Text}
    (hName : kind.styleName? e = some (.str name)) :
    (OrderedMap.ofList (styles.entries.flatMap kind.styleTokens)).get? (.text name) =
      some e.1.toJson := by
  rw [OrderedMap.ofList, OrderedMap.get?_insertAll, OrderedMap.valuesAt_flatMap]
  have hMem : ∀ v, v ∈ styles.entries.flatMap
      (fun e => OrderedMap.valuesAt (.text name) (kind.styleTokens e)) ↔ v = e.1.toJson := by
    intro v
    rw [List.mem_flatMap]
    constructor
    · rintro ⟨other, hOther, hv⟩
      obtain ⟨hOtherName, rfl⟩ := mem_valuesAt_styleTokens.1 hv
      rw [eq_of_nodup_filterMap (h.distinct kind) hOther he hOtherName hName]
    · rintro rfl
      exact ⟨e, he, mem_valuesAt_styleTokens.2 ⟨hName, rfl⟩⟩
  have hNe := List.ne_nil_of_mem ((hMem e.1.toJson).2 rfl)
  rw [List.getLast?_eq_some_getLast hNe, (hMem _).1 (List.getLast_mem hNe), Option.some_or]

/-- The values that nodes write under the name of a style. -/
theorem valuesAt_tokensOf (kind : StyleKind) (name : Text) {n : Node} (h : n.HasTokens) :
    OrderedMap.valuesAt (.text name) (n.tokensOf kind) =
      match kind with
      | .fill => (n.fillsAt name).map .str
      | .text => if n.name.isText name then n.typographyValue?.toList else []
      | .effect => [] := by
  cases kind with
  | fill =>
    obtain ⟨tokens, hTokens⟩ := Node.exists_fillTokens_iff.2 h.fills
    rw [Node.tokensOf, hTokens]
    exact valuesAt_fillTokens name hTokens
  | text =>
    obtain ⟨tokens, hTokens⟩ := Node.exists_typographyTokens_iff.2 h.name
    rw [Node.tokensOf, hTokens]
    exact valuesAt_typographyTokens name hTokens
  | effect => rfl

theorem Key.toJson_ne_obj (k : Key) (fields : List (Text × Json)) : k.toJson ≠ .obj fields := by
  cases k <;> simp [Key.toJson]

theorem exists_obj_of_typographyValue? {n : Node} {v : Json} (h : n.typographyValue? = some v) :
    ∃ fields, v = .obj fields := by
  unfold Node.typographyValue? at h
  split at h
  · obtain ⟨size, -, rfl⟩ := Option.map_eq_some_iff.1 h
    exact ⟨_, rfl⟩
  · cases h

theorem keeps_fill_iff (document : Node) (name : Text) (key : Json) :
    StyleKind.fill.Keeps document name key ↔
      ∀ v ∈ (document.walk.flatMap fun n => (n.fillsAt name).map .str).getLast?, v = key := by
  rw [← List.map_flatMap, List.getLast?_map, StyleKind.Keeps]
  cases (document.walk.flatMap (·.fillsAt name)).getLast? with
  | none => simp
  | some hex => simp [eq_comm]

/-- What is written under the name of a text is an object, and no key is one. -/
theorem keeps_text_iff (document : Node) (name : Text) (key : Key) :
    StyleKind.text.Keeps document name key.toJson ↔
      ∀ v ∈ (document.walk.flatMap fun n =>
        if n.name.isText name then n.typographyValue?.toList else []).getLast?, v = key.toJson := by
  generalize hAll : (document.walk.flatMap fun n =>
    if n.name.isText name then n.typographyValue?.toList else []) = values
  have hObject : ∀ v ∈ values, v ≠ key.toJson := by
    intro v hv
    rw [← hAll] at hv
    obtain ⟨n, -, hOwn⟩ := List.mem_flatMap.1 hv
    split at hOwn
    · obtain ⟨fields, rfl⟩ := exists_obj_of_typographyValue? (Option.mem_toList.1 hOwn)
      exact (Key.toJson_ne_obj key fields).symm
    · cases hOwn
  have hNone : StyleKind.text.Keeps document name key.toJson ↔ values = [] := by
    rw [← hAll, List.flatMap_eq_nil_iff, StyleKind.Keeps]
    refine forall_congr' fun n => forall_congr' fun _ => ?_
    rw [ne_eq, ← isText_iff]
    cases n.typographyValue? <;> cases n.name.isText name <;> simp
  rw [hNone]
  constructor
  · rintro rfl
    simp
  · intro hLast
    cases hValue : values.getLast? with
    | none => exact List.getLast?_eq_none_iff.1 hValue
    | some v => exact absurd (hLast v hValue) (hObject v (List.mem_of_getLast? hValue))

/-- Where all nodes have tokens, a style keeps its place just where the last value that they write
there is its key. -/
theorem keeps_iff (kind : StyleKind) (document : Node) (name : Text) (key : Key)
    (h : ∀ n ∈ document.walk, n.HasTokens) :
    kind.Keeps document name key.toJson ↔
      ∀ v ∈ (document.walk.flatMap fun n =>
        OrderedMap.valuesAt (.text name) (n.tokensOf kind)).getLast?, v = key.toJson := by
  have hValues := List.map_congr_left fun n hn => valuesAt_tokensOf kind name (h n hn)
  rw [List.flatMap_def, hValues, ← List.flatMap_def]
  cases kind with
  | fill => exact keeps_fill_iff document name key.toJson
  | text => exact keeps_text_iff document name key
  | effect =>
    have hNone : (document.walk.flatMap fun _ => ([] : List Json)) = [] :=
      List.flatMap_eq_nil_iff.2 fun _ _ => rfl
    dsimp only
    rw [hNone]
    simp [StyleKind.Keeps]

/-- A published style of texts. -/
def headingStyle : Key × Json :=
  (.text "S:2", .obj [("styleType", .str "TEXT"), ("name", .str "Heading")])

/-- A text with a size. -/
def sizedText (name : Text) : Node :=
  .mk (.str []) (.str name) .text (.text (.str []) [] none ⟨.null, some .one, none, .null⟩) []

theorem arePublished_headingStyle : ArePublished (.ofList [headingStyle]) := by
  have hEntries : (OrderedMap.ofList [headingStyle]).entries = [headingStyle] := rfl
  have hName : ∀ kind : StyleKind, kind.styleName? headingStyle =
      if kind = .text then some (.str "Heading") else none := by
    intro kind
    cases kind <;> rfl
  refine ⟨?_, fun kind => ?_, fun kind => ?_⟩
  · rw [hEntries, List.forall_mem_singleton]
    exact ⟨_, rfl⟩
  · rw [hEntries, List.forall_mem_singleton, hName]
    split
    · rintro _ ⟨⟩
      exact ⟨_, rfl⟩
    · simp
  · rw [hEntries, List.filterMap_cons, hName]
    split <;> simp

/-- A text of that name takes its place. -/
theorem not_get?_published :
    ¬ ∀ (document : Node) (styles : OrderedMap Key Json) (tokens : DesignTokens),
      ArePublished styles → designTokens document styles = .ok tokens →
        ∀ (kind : StyleKind), ∀ e ∈ styles.entries, ∀ name, kind.styleName? e = some (.str name) →
          (kind.group tokens).get? (.text name) = some e.1.toJson := by
  intro h
  have hTokens : designTokens (sizedText "Heading") (.ofList [headingStyle]) = .ok _ := rfl
  have hKey := h _ _ _ arePublished_headingStyle hTokens .text headingStyle List.mem_cons_self
    "Heading" rfl
  cases hKey

/-- Where styles are published under texts, no two of a kind under the same, the tokens are found
unless a solid fill is out of bounds or the name of a text with a size cannot be a key. A style
is then still there under its name just where the nodes leave it its place. -/
theorem designTokens_styles_iff (document : Node) {styles : OrderedMap Key Json}
    (h : ArePublished styles) :
    ((∃ tokens, designTokens document styles = .ok tokens) ↔ ∀ n ∈ document.walk, n.HasTokens) ∧
      ∀ tokens, designTokens document styles = .ok tokens →
        ∀ (kind : StyleKind), ∀ e ∈ styles.entries, ∀ name, kind.styleName? e = some (.str name) →
          ((kind.group tokens).get? (.text name) = some e.1.toJson ↔
            kind.Keeps document name e.1.toJson) := by
  refine ⟨exists_designTokens_iff document h, fun tokens hTokens kind e he name hName => ?_⟩
  have hNodes := (exists_designTokens_iff document h).1 ⟨tokens, hTokens⟩
  rw [group_designTokens kind hTokens, OrderedMap.get?_insertAll, get?_styleTokens h he hName,
    OrderedMap.valuesAt_flatMap, keeps_iff kind document name e.1 hNodes]
  cases (document.walk.flatMap fun n =>
    OrderedMap.valuesAt (.text name) (n.tokensOf kind)).getLast? <;> simp

theorem designTokens_styles_otherText :
    ∃ tokens, designTokens (sizedText "Body") (.ofList [headingStyle]) = .ok tokens ∧
      tokens.typography.get? (.text "Heading") = some (.str "S:2") := by
  obtain ⟨hExists, hKept⟩ := designTokens_styles_iff (sizedText "Body") arePublished_headingStyle
  have hWalk : (sizedText "Body").walk = [sizedText "Body"] := rfl
  obtain ⟨tokens, hTokens⟩ := hExists.2 (by
    rw [hWalk, List.forall_mem_singleton]
    exact ⟨by simp [sizedText, Node.content, Content.fills], fun _ => rfl⟩)
  refine ⟨tokens, hTokens, ?_⟩
  refine (hKept tokens hTokens .text headingStyle List.mem_cons_self "Heading" rfl).2 ?_
  rw [StyleKind.Keeps, hWalk, List.forall_mem_singleton]
  intro _
  simp [sizedText, Node.name, ofString]

end Design

end StyleScaffold
