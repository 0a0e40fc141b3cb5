import StyleScaffold.Proofs.Design.NodeTokens

/-!
# Hidden paints

A paint that is not visible can be given another colour anywhere in a document. Its components stay
as they are, since of the visible paints alone one is drawn. But the tokens list every solid fill,
visible or not, and so they show the colour of a hidden one unless a later fill takes its place.

* `map_walk_mapContent`: a change in one place of a document as the walk sees it.
* `declarations_recolor`: a node is described by its visible paints.
* `solidFills_recolor`: a solid fill is listed with its own colour.
* `recolor_hidden_iff`: whether another colour of a hidden paint makes a difference.
-/

namespace StyleScaffold

open Text

theorem exists_modify {α : Type} {l : List α} {i : Nat} {a : α} (h : l[i]? = some a) (f : α → α) :
    ∃ front back, front.length = i ∧ l.drop (i + 1) = back ∧ l = front ++ a :: back ∧
      l.modify i f = front ++ f a :: back := by
  obtain ⟨hi, rfl⟩ := List.getElem?_eq_some_iff.1 h
  refine ⟨l.take i, l.drop (i + 1), ?_, rfl, ?_, List.modify_eq_take_cons_drop hi⟩
  · rw [List.length_take]
    omega
  · rw [List.getElem_cons_drop, List.take_append_drop]

namespace Design

open Json

/-! ## Places in a document -/

namespace Node

/-- The node at a path, whose steps are the numbers of children. -/
def at? : List Nat → Node → Option Node
  | [], n => some n
  | j :: path, n => n.children[j]?.bind (at? path)

/-- What the walk passes behind the node at a path. -/
def behind : List Nat → Node → List Node
  | [], n => n.children.flatMap walk
  | j :: path, n =>
    n.children[j]?.elim [] (behind path) ++ (n.children.drop (j + 1)).flatMap walk

def withContent (content : Content) : Node → Node
  | mk id name type _ children => mk id name type content children

/-- The document with a change in the content of the node at a path. -/
def mapContent (f : Content → Content) : List Nat → Node → Node
  | [], n => n.withContent (f n.content)
  | j :: path, mk id name type content children =>
    mk id name type content (children.modify j (mapContent f path))

theorem label_mapContent (f : Content → Content) (path : List Nat) (n : Node) :
    (mapContent f path n).label = n.label := by
  cases n
  cases path <;> rfl

theorem mem_walk_of_mem_behind {path : List Nat} {document m : Node}
    (h : m ∈ behind path document) : m ∈ document.walk := by
  rw [walk_eq]
  refine List.mem_cons_of_mem document ?_
  induction path generalizing document with
  | nil => exact h
  | cons j path ih =>
    rcases List.mem_append.1 h with hInside | hNext
    · cases hChild : document.children[j]? with
      | none =>
        rw [hChild] at hInside
        cases hInside
      | some child =>
        rw [hChild] at hInside
        refine List.mem_flatMap.2 ⟨child, List.mem_of_getElem? hChild, ?_⟩
        rw [walk_eq]
        exact List.mem_cons_of_mem child (ih hInside)
    · obtain ⟨child, hChild, hMem⟩ := List.mem_flatMap.1 hNext
      exact List.mem_flatMap.2 ⟨child, List.mem_of_mem_drop hChild, hMem⟩

theorem mem_walk_of_at? {path : List Nat} {document n : Node} (h : document.at? path = some n) :
    n ∈ document.walk := by
  induction path generalizing document with
  | nil =>
    obtain rfl : document = n := Option.some.inj h
    rw [walk_eq]
    exact List.mem_cons_self
  | cons j path ih =>
    obtain ⟨child, hChild, hInside⟩ := Option.bind_eq_some_iff.1 h
    rw [walk_eq]
    exact List.mem_cons_of_mem document
      (List.mem_flatMap.2 ⟨child, List.mem_of_getElem? hChild, ih hInside⟩)

/-- What is looked at in a node does not depend on anything below it but the labels of its
children. -/
def IsShallow {γ : Type} (view : Node → γ) : Prop :=
  ∀ id name type content children children', children.map label = children'.map label →
    view (mk id name type content children) = view (mk id name type content children')

/-- A change in one place of a document is seen there only. -/
theorem map_walk_mapContent {γ : Type} {view : Node → γ} (hView : IsShallow view)
    (f : Content → Content) {path : List Nat} {document n : Node}
    (hn : document.at? path = some n) :
    ∃ front, document.walk.map view = front ++ view n :: (document.behind path).map view ∧
      (document.mapContent f path).walk.map view =
        front ++ view (n.mapContent f []) :: (document.behind path).map view := by
  induction path generalizing document with
  | nil =>
    obtain rfl : document = n := Option.some.inj hn
    cases document
    exact ⟨[], by rw [walk_eq]; rfl, by rw [walk_eq]; rfl⟩
  | cons j path ih =>
    obtain ⟨id, name, type, content, children⟩ := document
    obtain ⟨child, hChild, hInside⟩ := Option.bind_eq_some_iff.1 hn
    change children[j]? = some child at hChild
    obtain ⟨front, hOld, hNew⟩ := ih hInside
    obtain ⟨earlier, later, -, hDrop, rfl, hModify⟩ := exists_modify hChild (mapContent f path)
    have hBehind : behind (j :: path) (mk id name type content (earlier ++ child :: later)) =
        behind path child ++ later.flatMap walk := by
      rw [behind, Node.children, hChild, hDrop]
      rfl
    have hRoot : view (mk id name type content (earlier ++ mapContent f path child :: later)) =
        view (mk id name type content (earlier ++ child :: later)) := by
      refine hView id name type content _ _ ?_
      rw [List.map_append, List.map_append, List.map_cons, List.map_cons, label_mapContent]
    refine ⟨view (mk id name type content (earlier ++ child :: later)) ::
      ((earlier.flatMap walk).map view ++ front), ?_, ?_⟩
    · rw [walk_eq, hBehind]
      simp only [Node.children, List.flatMap_append, List.flatMap_cons, List.map_cons,
        List.map_append, hOld, List.append_assoc, List.cons_append]
    · have hChange :
          mapContent f (j :: path) (mk id name type content (earlier ++ child :: later)) =
            mk id name type content (earlier ++ mapContent f path child :: later) := by
        rw [← hModify]
        rfl
      rw [hChange, walk_eq, hBehind]
      simp only [Node.children, List.flatMap_append, List.flatMap_cons, List.map_cons,
        List.map_append, hNew, hRoot, List.append_assoc, List.cons_append]

end Node

/-! ## Another colour for a paint -/

/-- The two lists of paints. -/
inductive PaintSide where
  | fill
  | stroke
  deriving DecidableEq

def Paint.recolor (color : Color) (p : Paint) : Paint := { p with color := some color }

/-- The surface with another colour for the paint with a number. -/
def Surface.recolor (side : PaintSide) (i : Nat) (color : Color) (s : Surface) : Surface :=
  match side with
  | .fill => { s with fills := s.fills.modify i (Paint.recolor color) }
  | .stroke => { s with strokes := s.strokes.modify i (Paint.recolor color) }

namespace Content

/-- The paints of a side; texts have no strokes, and pages and unknown nodes have no paints. -/
def paints : PaintSide → Content → List Paint
  | .fill, content => content.fills
  | .stroke, .container s _ => s.strokes
  | .stroke, .shape s => s.strokes
  | .stroke, _ => []

/-- The content with another colour for the paint with a number. -/
def recolor (side : PaintSide) (i : Nat) (color : Color) : Content → Content
  | .container s layout => .container (s.recolor side i color) layout
  | .shape s => .shape (s.recolor side i color)
  | .text characters fills box style =>
    match side with
    | .fill => .text characters (fills.modify i (Paint.recolor color)) box style
    | .stroke => .text characters fills box style
  | .page => .page
  | .unknown rawType => .unknown rawType

theorem fills_recolor (i : Nat) (color : Color) (content : Content) :
    (content.recolor .fill i color).fills = content.fills.modify i (Paint.recolor color) := by
  cases content with
  | page => cases i <;> rfl
  | unknown rawType => cases i <;> rfl
  | _ => rfl

theorem box?_recolor (side : PaintSide) (i : Nat) (color : Color) (content : Content) :
    (content.recolor side i color).box? = content.box? := by
  cases content <;> cases side <;> rfl

end Content

namespace Node

/-- The document with another colour for a paint of the node at a path. -/
def recolor (path : List Nat) (side : PaintSide) (i : Nat) (color : Color) (document : Node) :
    Node :=
  document.mapContent (Content.recolor side i color) path

theorem exists_map_walk_recolor {γ : Type} {view : Node → γ} (hView : IsShallow view)
    {document n : Node} {path : List Nat} (hn : document.at? path = some n) (side : PaintSide) (i : Nat) (color : Color) :
    ∃ front, document.walk.map view = front ++ view n :: (document.behind path).map view ∧
      (document.recolor path side i color).walk.map view =
        front ++ view (n.recolor [] side i color) :: (document.behind path).map view :=
  map_walk_mapContent hView _ hn

/-- Where the change is not seen at its place, it is not seen at all. -/
theorem map_walk_recolor {γ : Type} {view : Node → γ} (hView : IsShallow view)
    {document n : Node} {path : List Nat} (hn : document.at? path = some n) {side : PaintSide}
    {i : Nat} {color : Color} (hSame : view (n.recolor [] side i color) = view n) :
    (document.recolor path side i color).walk.map view = document.walk.map view := by
  obtain ⟨front, hOld, hNew⟩ := exists_map_walk_recolor hView hn side i color
  rw [hNew, hOld, hSame]

theorem flatMap_walk_recolor {γ : Type} {written : Node → List γ} (hShallow : IsShallow written)
    {document n : Node} {path : List Nat} (hn : document.at? path = some n) {side : PaintSide}
    {i : Nat} {color : Color} (hSame : written (n.recolor [] side i color) = written n) :
    (document.recolor path side i color).walk.flatMap written = document.walk.flatMap written := by
  rw [List.flatMap_def, List.flatMap_def, map_walk_recolor hShallow hn hSame]

end Node

/-! ## Components -/

/-- A hidden paint is not drawn, whatever its colour is. -/
theorem solidColor?_modify {paints : List Paint} {i : Nat}
    (hHidden : ∀ p ∈ paints[i]?, p.visible.truthy = false) (color : Color) :
    solidColor? (paints.modify i (Paint.recolor color)) = solidColor? paints := by
  cases hPaint : paints[i]? with
  | none => rw [List.modify_eq_self (List.getElem?_eq_none_iff.1 hPaint)]
  | some p =>
    have hNone := hHidden p hPaint
    obtain ⟨front, back, -, -, rfl, hModify⟩ := exists_modify hPaint (Paint.recolor color)
    have hOther : (p.recolor color).visible.truthy = false := hNone
    rw [hModify]
    simp only [solidColor?, List.findSome?_append, List.findSome?_cons, hNone, hOther,
      Bool.false_eq_true, if_false]

theorem Surface.style_recolor {side : PaintSide} {i : Nat} {s : Surface}
    (hHidden : ∀ p ∈ ((Content.shape s).paints side)[i]?, p.visible.truthy = false)
    (color : Color) : (s.recolor side i color).style = s.style := by
  cases side with
  | fill =>
    have hFills : solidColor? (s.fills.modify i (Paint.recolor color)) = solidColor? s.fills :=
      solidColor?_modify hHidden color
    simp only [style, recolor, border, paintDeclaration, hFills]
  | stroke =>
    have hStrokes : solidColor? (s.strokes.modify i (Paint.recolor color)) =
        solidColor? s.strokes := solidColor?_modify hHidden color
    simp only [style, recolor, border, hStrokes]

theorem Content.look_recolor {side : PaintSide} {i : Nat} {content : Content}
    (hHidden : ∀ p ∈ (content.paints side)[i]?, p.visible.truthy = false) (color : Color) :
    (content.recolor side i color).look = content.look := by
  cases content with
  | page => rfl
  | unknown rawType => rfl
  | shape s => exact Surface.style_recolor hHidden color
  | container s layout =>
    have hStyle : (s.recolor side i color).style = s.style := by
      refine Surface.style_recolor (fun p hp => hHidden p ?_) color
      cases side <;> exact hp
    cases layout with
    | none => exact hStyle
    | some layout => simp only [recolor, look, hStyle]
  | text characters fills box style =>
    cases side with
    | fill =>
      have hFills : solidColor? (fills.modify i (Paint.recolor color)) = solidColor? fills :=
        solidColor?_modify hHidden color
      simp only [recolor, look, TextStyle.style, paintDeclaration, hFills]
    | stroke => rfl

namespace Node

theorem declarations_recolor {side : PaintSide} {i : Nat} {n : Node}
    (hHidden : ∀ p ∈ (n.content.paints side)[i]?, p.visible.truthy = false) (color : Color) :
    (n.recolor [] side i color).declarations = n.declarations := by
  obtain ⟨id, name, type, content, children⟩ := n
  have hLook : (content.recolor side i color).look = content.look :=
    Content.look_recolor hHidden color
  simp only [declarations, recolor, mapContent, withContent, Node.content, hLook,
    Content.box?_recolor]

/-- What a node adds to the components. -/
def component? (policies : Policies) (n : Node) : Option (Except DataFault DesignComponent) :=
  if n.isComponent then some (n.toComponent policies) else none

theorem components_eq (policies : Policies) (document : Node) :
    document.components policies =
      ((document.walk.map (component? policies)).filterMap fun step => step).mapM
        fun step => step := by
  have hEach : document.walk.filterMap (component? policies) =
      (document.walk.filter isComponent).map (toComponent policies) := by
    rw [← List.filterMap_eq_map, ← List.filterMap_eq_filter, List.filterMap_filterMap]
    refine congrArg (List.filterMap · _) (funext fun n => ?_)
    cases hOwn : n.isComponent <;> simp [component?, hOwn, Option.guard]
  rw [List.filterMap_map]
  change _ = (document.walk.filterMap (component? policies)).mapM fun step => step
  rw [hEach, List.mapM_map]
  rfl

theorem isShallow_component? (policies : Policies) : IsShallow (component? policies) := by
  intro id name type content children children' hLabels
  have hOwn : (mk id name type content children).toComponent policies =
      (mk id name type content children').toComponent policies := by
    simp only [toComponent, Node.children, hLabels]
    rfl
  rw [component?, component?, hOwn]
  rfl

/-- Components do not show the colour of a hidden paint. -/
theorem components_recolor {document n : Node} {path : List Nat}
    (hn : document.at? path = some n) {side : PaintSide} {i : Nat}
    (hHidden : ∀ p ∈ (n.content.paints side)[i]?, p.visible.truthy = false) (color : Color)
    (policies : Policies) :
    (document.recolor path side i color).components policies = document.components policies := by
  have hSame : component? policies (n.recolor [] side i color) = component? policies n := by
    have hDeclarations := declarations_recolor hHidden color
    obtain ⟨id, name, type, content, children⟩ := n
    simp only [component?, toComponent, hDeclarations]
    rfl
  rw [components_eq, components_eq, map_walk_recolor (isShallow_component? policies) hn hSame]

/-! ## Solid fills -/

/-- The colours of the solid fills with their numbers. -/
def solidFills (n : Node) : List (Color × Nat) :=
  n.content.fills.zipIdx.filterMap fun (paint, i) => paint.solid?.map (·, i)

/-- The token of a solid fill. -/
def fillToken (n : Node) (fill : Color × Nat) : Except DataFault (Key × Json) := do
  let hex ← fill.1.hexText.mapError .number
  return (n.tokenName ("-fill-" ++ ofNat fill.2), .str hex)

theorem fillTokens_eq (n : Node) : n.fillTokens = n.solidFills.mapM n.fillToken := rfl

theorem fillToken_recolor (n : Node) (side : PaintSide) (i : Nat) (color : Color) :
    (n.recolor [] side i color).fillToken = n.fillToken := by
  cases n
  rfl

theorem fillTokens_recolor_stroke (n : Node) (i : Nat) (color : Color) :
    (n.recolor [] .stroke i color).fillTokens = n.fillTokens := by
  obtain ⟨id, name, type, content, children⟩ := n
  cases content <;> rfl

theorem typographyTokens_recolor (n : Node) (side : PaintSide) (i : Nat) (color : Color) :
    (n.recolor [] side i color).typographyTokens = n.typographyTokens := by
  obtain ⟨id, name, type, content, children⟩ := n
  cases content <;> cases side <;> rfl

theorem spacingTokens_recolor (n : Node) (side : PaintSide) (i : Nat) (color : Color) :
    (n.recolor [] side i color).spacingTokens = n.spacingTokens := by
  obtain ⟨id, name, type, content, children⟩ := n
  cases content <;> cases side <;> rfl

theorem fillToken_eq_ok {n : Node} {color : Color} {i : Nat} {t : Key × Json} :
    n.fillToken (color, i) = .ok t ↔
      ∃ hex, color.hexText = .ok hex ∧ t = (n.tokenName ("-fill-" ++ ofNat i), .str hex) := by
  rw [fillToken, bind_eq_ok]
  simp only [mapError_eq_ok, pure, Except.pure, Except.ok.injEq, eq_comm (b := t)]

/-- The solid fills in front of a fill, the fill if it is solid, and those behind it, which have
greater numbers. -/
theorem solidFills_recolor {n : Node} {i : Nat} {p : Paint} (hp : n.content.fills[i]? = some p)
    {own : Color} (hOwn : p.color = some own) (color : Color) :
    ∃ front back,
      n.solidFills = front ++ (if p.type.isText "SOLID" then [(own, i)] else []) ++ back ∧
      (n.recolor [] .fill i color).solidFills =
        front ++ (if p.type.isText "SOLID" then [(color, i)] else []) ++ back ∧
      ∀ fill ∈ back, i < fill.2 := by
  obtain ⟨id, name, type, content, children⟩ := n
  change content.fills[i]? = some p at hp
  obtain ⟨front, back, rfl, -, hFills, hModify⟩ := exists_modify hp (Paint.recolor color)
  let listed (fill : Paint × Nat) : Option (Color × Nat) := fill.1.solid?.map (·, fill.2)
  have hSplit : ∀ (q : Paint) (c : Color), q.color = some c →
      (front ++ q :: back).zipIdx.filterMap listed = front.zipIdx.filterMap listed ++
        (if q.type.isText "SOLID" then [(c, front.length)] else []) ++
          (back.zipIdx (front.length + 1)).filterMap listed := by
    intro q c hColor
    rw [List.zipIdx_append, List.zipIdx_cons, Nat.zero_add, List.filterMap_append]
    cases hSolid : q.type.isText "SOLID" <;> simp [listed, Paint.solid?, hSolid, hColor]
  refine ⟨_, _, (congrArg (·.zipIdx.filterMap listed) hFills).trans (hSplit p own hOwn), ?_, ?_⟩
  · show (content.recolor .fill front.length color).fills.zipIdx.filterMap listed = _
    rw [Content.fills_recolor, hModify, hSplit (p.recolor color) color rfl]
    rfl
  · intro fill hFill
    obtain ⟨⟨q, j⟩, hMem, hListed⟩ := List.mem_filterMap.1 hFill
    obtain ⟨later, -, rfl⟩ := Option.map_eq_some_iff.1 hListed
    have hLater := (List.mem_zipIdx hMem).1
    show front.length < j
    omega

/-- Whether a node has tokens, and if not, why. -/
def tokenOutcome (n : Node) : Except DataFault Unit :=
  outcome n.fillTokens >>= fun _ => outcome n.typographyTokens

theorem outcome_addNode (tokens : DesignTokens) (n : Node) :
    outcome (addNode tokens n) = n.tokenOutcome := by
  refine outcome_bind fun fills => ?_
  cases n.typographyTokens <;> rfl

theorem outcome_fillToken {n : Node} {color : Color} (h : color.IsBounded) (i : Nat) :
    outcome (n.fillToken (color, i)) = .ok () := by
  obtain ⟨hex, hHex⟩ := Color.exists_hex_iff.2 h
  rw [fillToken_eq_ok.2 ⟨hex, hHex, rfl⟩]
  rfl

theorem tokenOutcome_recolor {n : Node} {side : PaintSide} {i : Nat} {p : Paint}
    (hp : (n.content.paints side)[i]? = some p) {own color : Color} (hOwn : p.color = some own)
    (hBounded : own.IsBounded) (hOther : color.IsBounded) :
    (n.recolor [] side i color).tokenOutcome = n.tokenOutcome := by
  rw [tokenOutcome, tokenOutcome, typographyTokens_recolor]
  congr 1
  cases side with
  | stroke => rw [fillTokens_recolor_stroke]
  | fill =>
    obtain ⟨front, back, hFills, hRecolored, -⟩ := solidFills_recolor hp hOwn color
    rw [fillTokens_eq, fillTokens_eq, fillToken_recolor, outcome_mapM, outcome_mapM n.fillToken,
      hFills, hRecolored]
    cases p.type.isText "SOLID" with
    | false => rfl
    | true =>
      simp only [if_true, List.map_append, List.map_cons, List.map_nil,
        outcome_fillToken hBounded, outcome_fillToken hOther]

/-- A stroke writes nothing, and neither does a fill that is not solid. -/
theorem fillTokens_recolor_of_not_solid {n : Node} {side : PaintSide} {i : Nat} {p : Paint}
    (hp : (n.content.paints side)[i]? = some p) {own color : Color} (hOwn : p.color = some own)
    (h : side = .fill → p.type.isText "SOLID" = false) :
    (n.recolor [] side i color).fillTokens = n.fillTokens := by
  cases side with
  | stroke => exact fillTokens_recolor_stroke n i color
  | fill =>
    obtain ⟨front, back, hFills, hRecolored, -⟩ := solidFills_recolor hp hOwn color
    rw [fillTokens_eq, fillTokens_eq, fillToken_recolor, hRecolored, hFills, h rfl]
    rfl

/-- With another colour for a solid fill, one token has another value, and those behind it have
other names. -/
theorem fillTokens_recolor {n : Node} {i : Nat} {p : Paint} (hp : n.content.fills[i]? = some p)
    (hSolid : p.type.isText "SOLID" = true) {own color : Color} (hOwn : p.color = some own)
    {hex hex' : Text} (hHex : own.hexText = .ok hex) (hHex' : color.hexText = .ok hex')
    {tokens : List (Key × Json)} (h : n.fillTokens = .ok tokens) :
    ∃ front back,
      tokens = front ++ (.text (n.name.display ++ "-fill-" ++ ofNat i), .str hex) :: back ∧
      (n.recolor [] .fill i color).fillTokens =
        .ok (front ++ (.text (n.name.display ++ "-fill-" ++ ofNat i), .str hex') :: back) ∧
      ∀ t ∈ back, (t.1 == .text (n.name.display ++ "-fill-" ++ ofNat i)) = false := by
  have hName : ∀ j, n.tokenName ("-fill-" ++ ofNat j) =
      .text (n.name.display ++ "-fill-" ++ ofNat j) := by
    intro j
    rw [tokenName, List.append_assoc]
  obtain ⟨front, back, hFills, hRecolored, hLater⟩ := solidFills_recolor hp hOwn color
  rw [hSolid, if_pos rfl, List.append_assoc, List.singleton_append] at hFills hRecolored
  rw [fillTokens_eq, hFills, mapM_append_cons_eq_ok_iff] at h
  obtain ⟨ahead, token, later, rfl, hFront, hToken, hBack⟩ := h
  obtain ⟨hexOwn, hSame, rfl⟩ := fillToken_eq_ok.1 hToken
  obtain rfl : hex = hexOwn := Except.ok.inj (hHex.symm.trans hSame)
  refine ⟨ahead, later, by rw [hName], ?_, fun t ht => ?_⟩
  · rw [fillTokens_eq, fillToken_recolor, hRecolored, mapM_append_cons_eq_ok_iff, ← hName]
    exact ⟨ahead, _, later, rfl, hFront, fillToken_eq_ok.2 ⟨hex', hHex', rfl⟩, hBack⟩
  · obtain ⟨⟨c, j⟩, hFill, hOk⟩ := exists_of_mem_mapM hBack ht
    obtain ⟨hexLater, -, rfl⟩ := fillToken_eq_ok.1 hOk
    have hj : i < j := hLater (c, j) hFill
    rw [hName, Key.text_beq_text, beq_eq_false_iff_ne, ne_eq, append_fillEnding_inj]
    omega

end Node

/-! ## Tokens -/

theorem outcome_designTokens {document document' : Node}
    (h : document'.walk.map Node.tokenOutcome = document.walk.map Node.tokenOutcome)
    (styles : OrderedMap Key Json) :
    outcome (designTokens document' styles) = outcome (designTokens document styles) := by
  rw [designTokens, designTokens]
  cases styles.entries.foldlM addStyle {} with
  | error e => rfl
  | ok published =>
    change outcome (document'.walk.foldlM addNode published) =
      outcome (document.walk.foldlM addNode published)
    rw [outcome_foldlM Node.outcome_addNode, outcome_foldlM Node.outcome_addNode, h]

/-- Tokens are the same just where their colours are, if the nodes write the same type styles and
sizes. -/
theorem tokens_eq_iff {document document' : Node} {styles : OrderedMap Key Json}
    {tokens tokens' : DesignTokens}
    (hText : document'.walk.flatMap (·.tokensOf .text) = document.walk.flatMap (·.tokensOf .text))
    (hSpacing : document'.walk.flatMap Node.spacingTokens =
      document.walk.flatMap Node.spacingTokens)
    (hTokens : designTokens document styles = .ok tokens)
    (hTokens' : designTokens document' styles = .ok tokens') :
    tokens' = tokens ↔ tokens'.colors = tokens.colors := by
  have hTypography : tokens'.typography = tokens.typography := by
    have hOld := group_designTokens .text hTokens
    rw [← hText, ← group_designTokens .text hTokens'] at hOld
    exact hOld.symm
  have hEffects : tokens'.effects = tokens.effects := by
    have hNothing : document'.walk.flatMap (·.tokensOf .effect) =
        document.walk.flatMap (·.tokensOf .effect) :=
      (List.flatMap_eq_nil_iff.2 fun _ _ => rfl).trans
        (List.flatMap_eq_nil_iff.2 fun _ _ => rfl).symm
    have hOld := group_designTokens .effect hTokens
    rw [← hNothing, ← group_designTokens .effect hTokens'] at hOld
    exact hOld.symm
  have hSizes : tokens'.spacing = tokens.spacing := by
    rw [spacing_designTokens hTokens, spacing_designTokens hTokens', hSpacing]
  obtain ⟨colors, typography, spacing, effects⟩ := tokens
  obtain ⟨colors', typography', spacing', effects'⟩ := tokens'
  cases hTypography
  cases hEffects
  cases hSizes
  simp

/-- Whether something is written under the name of a fill behind a node. -/
theorem exists_mem_behind_iff {document : Node} (h : ∀ m ∈ document.walk, m.HasTokens)
    (path : List Nat) (name : Text) (i : Nat) :
    (∃ t ∈ ((document.behind path).map (·.tokensOf .fill)).flatten,
        (t.1 == .text (name ++ "-fill-" ++ ofNat i)) = true) ↔
      ¬ ∀ m ∈ document.behind path, m.name.display = name → m.solidFill? i = none := by
  have hEach : ∀ m ∈ document.behind path, ((∃ t ∈ m.tokensOf .fill,
      (t.1 == .text (name ++ "-fill-" ++ ofNat i)) = true) ↔
        ¬ (m.name.display = name → m.solidFill? i = none)) := by
    intro m hm
    rw [exists_mem_fills_iff (h m (Node.mem_walk_of_mem_behind hm)), Classical.not_imp,
      Option.isSome_iff_ne_none]
  rw [← List.flatMap_def]
  constructor
  · rintro ⟨t, ht, hKey⟩ hNone
    obtain ⟨m, hm, hOwn⟩ := List.mem_flatMap.1 ht
    exact (hEach m hm).1 ⟨t, hOwn, hKey⟩ (hNone m hm)
  · intro hSome
    obtain ⟨m, hm⟩ := Classical.not_forall.1 hSome
    obtain ⟨hBehind, hLast⟩ := Classical.not_imp.1 hm
    obtain ⟨t, ht, hKey⟩ := (hEach m hBehind).2 hLast
    exact ⟨t, List.mem_flatMap.2 ⟨m, hBehind, ht⟩, hKey⟩

theorem isShallow_tokensOf (kind : StyleKind) : Node.IsShallow (·.tokensOf kind) := by
  intro _ _ _ _ _ _ _
  cases kind <;> rfl

theorem isShallow_spacingTokens : Node.IsShallow Node.spacingTokens :=
  fun _ _ _ _ _ _ _ => rfl

/-- Of a solid fill, the colours show the value unless a node behind it writes under its name. -/
theorem insertAll_recolor_iff {document n : Node} {path : List Nat}
    (hn : document.at? path = some n) {i : Nat} {p : Paint} (hp : n.content.fills[i]? = some p)
    (hSolid : p.type.isText "SOLID" = true) {own color : Color} (hOwn : p.color = some own)
    (hBounded : own.IsBounded) (hOther : color.IsBounded)
    (hNodes : ∀ m ∈ document.walk, m.HasTokens) (colors : TokenGroup) :
    colors.insertAll ((document.recolor path .fill i color).walk.flatMap (·.tokensOf .fill)) =
        colors.insertAll (document.walk.flatMap (·.tokensOf .fill)) ↔
      ((∀ m ∈ document.behind path, m.name.display = n.name.display → m.solidFill? i = none) →
        color.hexText = own.hexText) := by
  obtain ⟨written, hWritten⟩ :=
    Node.exists_fillTokens_iff.2 (hNodes n (Node.mem_walk_of_at? hn)).fills
  obtain ⟨hex, hHex⟩ := Color.exists_hex_iff.2 hBounded
  obtain ⟨hex', hHex'⟩ := Color.exists_hex_iff.2 hOther
  obtain ⟨front, back, rfl, hRecolored, hBack⟩ :=
    Node.fillTokens_recolor hp hSolid hOwn hHex hHex' hWritten
  obtain ⟨ahead, hOld, hNew⟩ :=
    Node.exists_map_walk_recolor (isShallow_tokensOf .fill) hn .fill i color
  have hTokens : n.tokensOf .fill =
      front ++ (.text (n.name.display ++ "-fill-" ++ ofNat i), .str hex) :: back := by
    rw [Node.tokensOf, hWritten]
    rfl
  have hTokens' : (n.recolor [] .fill i color).tokensOf .fill =
      front ++ (.text (n.name.display ++ "-fill-" ++ ofNat i), .str hex') :: back := by
    rw [Node.tokensOf, hRecolored]
    rfl
  have hSplit : ∀ (key : Key) (value : Json) (rest : List (List (Key × Json))),
      colors.insertAll (ahead ++ (front ++ (key, value) :: back) :: rest).flatten =
        ((colors.insertAll (ahead.flatten ++ front)).insert key value).insertAll
          (back ++ rest.flatten) := by
    intro key value rest
    simp only [List.flatten_append, List.flatten_cons, List.append_assoc, List.cons_append,
      OrderedMap.insertAll_append, OrderedMap.insertAll_cons]
  rw [List.flatMap_def, List.flatMap_def, hNew, hOld, hTokens, hTokens', hSplit, hSplit,
    OrderedMap.insertAll_insert_iff]
  have hLater : (∃ t ∈ back ++ ((document.behind path).map (·.tokensOf .fill)).flatten,
      (t.1 == .text (n.name.display ++ "-fill-" ++ ofNat i)) = true) ↔
        ∃ t ∈ ((document.behind path).map (·.tokensOf .fill)).flatten,
          (t.1 == .text (n.name.display ++ "-fill-" ++ ofNat i)) = true := by
    constructor
    · rintro ⟨t, ht, hKey⟩
      rcases List.mem_append.1 ht with hSame | hBehind
      · rw [hBack t hSame] at hKey
        cases hKey
      · exact ⟨t, hBehind, hKey⟩
    · rintro ⟨t, ht, hKey⟩
      exact ⟨t, List.mem_append_right back ht, hKey⟩
  rw [hLater, exists_mem_behind_iff hNodes, hHex, hHex', Json.str.injEq, Except.ok.injEq, or_comm]
  exact Decidable.imp_iff_not_or.symm

/-- The tokens show which of two colours a paint has, if it is the last solid fill with its number
under the name of its node. -/
theorem tokens_recolor_iff {document n : Node} {path : List Nat}
    (hn : document.at? path = some n) {side : PaintSide} {i : Nat} {p : Paint}
    (hp : (n.content.paints side)[i]? = some p) {own color : Color} (hOwn : p.color = some own)
    (hBounded : own.IsBounded) (hOther : color.IsBounded) {styles : OrderedMap Key Json}
    {tokens tokens' : DesignTokens} (hTokens : designTokens document styles = .ok tokens)
    (hTokens' : designTokens (document.recolor path side i color) styles = .ok tokens') :
    tokens' = tokens ↔
      (side = .fill → p.type.isText "SOLID" = true →
        (∀ m ∈ document.behind path, m.name.display = n.name.display → m.solidFill? i = none) →
          color.hexText = own.hexText) := by
  have hText : (n.recolor [] side i color).tokensOf .text = n.tokensOf .text := by
    rw [Node.tokensOf, Node.typographyTokens_recolor]
    rfl
  have hColors : tokens.colors = _ := group_designTokens .fill hTokens
  have hColors' : tokens'.colors = _ := group_designTokens .fill hTokens'
  rw [tokens_eq_iff (Node.flatMap_walk_recolor (isShallow_tokensOf .text) hn hText)
    (Node.flatMap_walk_recolor isShallow_spacingTokens hn (n.spacingTokens_recolor side i color))
    hTokens hTokens', hColors, hColors']
  by_cases hListed : side = .fill ∧ p.type.isText "SOLID" = true
  · obtain ⟨rfl, hSolid⟩ := hListed
    have hNodes := ((exists_tokens_iff document styles).1 ⟨tokens, hTokens⟩).2
    rw [insertAll_recolor_iff hn hp hSolid hOwn hBounded hOther hNodes]
    exact ⟨fun h _ _ => h, fun h => h rfl hSolid⟩
  · have hOther : side = .fill → p.type.isText "SOLID" = false := by
      intro hSide
      rw [← Bool.not_eq_true]
      exact fun hSolid => hListed ⟨hSide, hSolid⟩
    have hSame : (n.recolor [] side i color).tokensOf .fill = n.tokensOf .fill := by
      rw [Node.tokensOf, Node.fillTokens_recolor_of_not_solid hp hOwn hOther]
      rfl
    rw [Node.flatMap_walk_recolor (isShallow_tokensOf .fill) hn hSame]
    exact iff_of_true rfl fun hSide hSolid => absurd ⟨hSide, hSolid⟩ hListed

theorem Color.isBounded_black : Color.black.IsBounded := by
  have hHex : Color.black.hexText.toOption = some "#000000" := by decide +kernel
  exact Color.exists_hex_iff.1 ⟨_, eq_ok_of_toOption hHex⟩

theorem Color.isBounded_white : Color.white.IsBounded := by
  have hHex : Color.white.hexText.toOption = some "#ffffff" := by decide +kernel
  exact Color.exists_hex_iff.1 ⟨_, eq_ok_of_toOption hHex⟩

theorem Color.hexText_black_ne_white : Color.black.hexText ≠ Color.white.hexText := by
  intro h
  have hSame : Color.black.hexText.toOption ≠ Color.white.hexText.toOption := by decide +kernel
  exact hSame (congrArg Except.toOption h)

/-- A shape with a hidden fill. -/
def hiddenFill (name : Text) (color : Color) (children : List Node) : Node :=
  .mk (.str []) (.str name) .rectangle
    (.shape ⟨[⟨.str "SOLID", some color, .bool false⟩], [], none, none, none⟩) children

/-- The tokens show the colour of a hidden fill. -/
theorem not_designTokens_recolor :
    ¬ ∀ (document n : Node) (path : List Nat) (side : PaintSide) (i : Nat) (p : Paint)
      (own color : Color) (styles : OrderedMap Key Json),
      document.at? path = some n → (n.content.paints side)[i]? = some p →
        p.visible.truthy = false → p.color = some own → own.IsBounded → color.IsBounded →
          designTokens (document.recolor path side i color) styles =
            designTokens document styles := by
  intro h
  have hSame := h (hiddenFill "A" .black []) _ [] .fill 0 _ .black .white .empty rfl rfl rfl rfl
    Color.isBounded_black Color.isBounded_white
  have hRun : (designTokens (hiddenFill "A" .black []) .empty).toOption.isSome = true := by
    decide +kernel
  obtain ⟨tokens, hSome⟩ := Option.isSome_iff_exists.1 hRun
  have hTokens := eq_ok_of_toOption hSome
  have hHex := (tokens_recolor_iff rfl rfl rfl Color.isBounded_black Color.isBounded_white hTokens
    (hSame.trans hTokens)).1 rfl rfl rfl fun m hm => nomatch hm
  exact Color.hexText_black_ne_white hHex.symm

/-- Another colour of a hidden paint leaves the components as they are. It also leaves the tokens as
they are, unless there are some and the paint is the last solid fill with its number under the name
of its node; then the tokens show which of the two colours it has, by its text. -/
theorem recolor_hidden_iff {document n : Node} {path : List Nat} {side : PaintSide} {i : Nat}
    {p : Paint} {own color : Color} (hn : document.at? path = some n)
    (hp : (n.content.paints side)[i]? = some p) (hHidden : p.visible.truthy = false)
    (hOwn : p.color = some own) (hBounded : own.IsBounded) (hOther : color.IsBounded) :
    (∀ policies, (document.recolor path side i color).components policies =
      document.components policies) ∧
      ∀ styles, designTokens (document.recolor path side i color) styles =
          designTokens document styles ↔
        (side = .fill → p.type.isText "SOLID" = true →
          (∀ m ∈ document.behind path, m.name.display = n.name.display → m.solidFill? i = none) →
            (∃ tokens, designTokens document styles = .ok tokens) →
              color.hexText = own.hexText) := by
  refine ⟨fun policies => Node.components_recolor hn (fun q hq => ?_) color policies,
    fun styles => ?_⟩
  · rw [hp] at hq
    cases hq
    exact hHidden
  · have hOutcome := outcome_designTokens (Node.map_walk_recolor (fun _ _ _ _ _ _ _ => rfl) hn
      (Node.tokenOutcome_recolor hp hOwn hBounded hOther)) styles
    cases hRun : designTokens document styles with
    | error fault =>
      rw [eq_error_of_outcome hOutcome.symm hRun]
      exact iff_of_true rfl fun _ _ _ ⟨_, h⟩ => nomatch h
    | ok tokens =>
      obtain ⟨tokens', hRun'⟩ := eq_ok_of_outcome hOutcome.symm hRun
      rw [hRun', Except.ok.injEq, tokens_recolor_iff hn hp hOwn hBounded hOther hRun hRun']
      exact ⟨fun h hSide hSolid hLast _ => h hSide hSolid hLast,
        fun h hSide hSolid hLast => h hSide hSolid hLast ⟨tokens, rfl⟩⟩

/-- A black hidden fill in front of a white one of the same name. -/
def nestedHidden : Node := hiddenFill "A" .black [hiddenFill "A" .white []]

theorem recolor_hidden_nestedHidden :
    designTokens (nestedHidden.recolor [] .fill 0 .white) .empty =
        designTokens nestedHidden .empty ∧
      designTokens (nestedHidden.recolor [0] .fill 0 .black) .empty ≠
        designTokens nestedHidden .empty := by
  refine ⟨?_, fun hSame => ?_⟩
  · have hOuter : nestedHidden.at? [] = some nestedHidden := rfl
    have hFill : (nestedHidden.content.paints .fill)[0]? =
        some ⟨.str "SOLID", some .black, .bool false⟩ := rfl
    obtain ⟨-, hTokens⟩ := recolor_hidden_iff hOuter hFill rfl rfl Color.isBounded_black
      Color.isBounded_white
    refine (hTokens .empty).2 fun _ _ hLast => ?_
    have hNone := hLast (hiddenFill "A" .white []) List.mem_cons_self rfl
    cases hNone
  · have hInner : nestedHidden.at? [0] = some (hiddenFill "A" .white []) := rfl
    have hFill : ((hiddenFill "A" .white []).content.paints .fill)[0]? =
        some ⟨.str "SOLID", some .white, .bool false⟩ := rfl
    obtain ⟨-, hTokens⟩ := recolor_hidden_iff hInner hFill rfl rfl Color.isBounded_white
      Color.isBounded_black
    have hRun : (designTokens nestedHidden .empty).toOption.isSome = true := by decide +kernel
    obtain ⟨tokens, hSome⟩ := Option.isSome_iff_exists.1 hRun
    exact Color.hexText_black_ne_white ((hTokens .empty).1 hSame rfl rfl (fun m hm => nomatch hm)
      ⟨tokens, eq_ok_of_toOption hSome⟩)

end Design

end StyleScaffold
