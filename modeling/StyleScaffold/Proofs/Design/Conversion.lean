import StyleScaffold.Design.Conversion
import StyleScaffold.Proofs.Design.Style

/-!
# Nodes as stylesheets

A node is described by declarations, and these can be written in a rule. Converting the rule as a
stylesheet gives what converting the node gives.

* `exists_components_iff`: a document has components exactly when each of its components and frames
  has declarations. Their classes never fail.
* `convertStylesheet_declarations`: the rule of a node is one block, with the declarations and the
  classes of the node.
-/

namespace StyleScaffold.Design.Node

open Text Css

/-- Declarations in a rule, one on a line. -/
def ruleOf (ds : Declarations) : Text := ruleText ".n" (declarationsText [] ds)

theorem isSelector_ruleOf : IsSelector ".n" :=
  ⟨by decide, by decide, by decide⟩

theorem toComponent_eq_ok {policies : Policies} {n : Node} {c : DesignComponent} :
    n.toComponent policies = .ok c ↔
      ∃ ds classes, n.declarations = .ok ds ∧ Utility.classes policies ds = .ok classes ∧
        c = ⟨n.id, n.name, n.type, ds, classes, n.children.map label⟩ := by
  simp only [toComponent, bind_eq_ok, mapError_eq_ok, pure, Except.pure, Except.ok.injEq]
  constructor
  · rintro ⟨ds, hDeclarations, classes, hClasses, rfl⟩
    exact ⟨ds, classes, hDeclarations, hClasses, rfl⟩
  · rintro ⟨ds, classes, hDeclarations, hClasses, rfl⟩
    exact ⟨ds, hDeclarations, classes, hClasses, rfl⟩

theorem exists_toComponent_iff {policies : Policies} {n : Node} :
    (∃ c, n.toComponent policies = .ok c) ↔ ∃ ds, n.declarations = .ok ds := by
  constructor
  · rintro ⟨c, hc⟩
    obtain ⟨ds, -, hDeclarations, -, -⟩ := toComponent_eq_ok.1 hc
    exact ⟨ds, hDeclarations⟩
  · rintro ⟨ds, hDeclarations⟩
    obtain ⟨classes, hClasses⟩ := exists_classes_declarations hDeclarations policies
    exact ⟨_, toComponent_eq_ok.2 ⟨ds, classes, hDeclarations, hClasses, rfl⟩⟩

/-! ## Documents -/

theorem mem_components {policies : Policies} {document : Node} {cs : List DesignComponent}
    (h : components policies document = .ok cs) {n : Node} (hn : n ∈ document.walk)
    (hType : n.isComponent = true) {c : DesignComponent} (hc : n.toComponent policies = .ok c) :
    c ∈ cs := by
  have hMem : n ∈ document.walk.filter isComponent := List.mem_filter.2 ⟨hn, hType⟩
  have hMap := mapM_eq_ok_iff.1 h
  have hResult := List.mem_map_of_mem (f := toComponent policies) hMem
  rw [hMap, hc] at hResult
  obtain ⟨d, hd, hEq⟩ := List.mem_map.1 hResult
  cases hEq
  exact hd

theorem exists_components_iff {policies : Policies} {document : Node} :
    (∃ cs, components policies document = .ok cs) ↔
      ∀ n ∈ document.walk, n.isComponent = true → ∃ ds, n.declarations = .ok ds := by
  simp only [components, exists_mapM_eq_ok_iff, exists_toComponent_iff, List.mem_filter, and_imp]

/-! ## The rule of a node -/

/-- What is described by the declarations of a node is read from their rule again. The rule is
converted to one block, and to the declarations and the classes that the node has as a component,
alone and in every document that holds it. -/
theorem convertStylesheet_declarations (policies : Policies) {n : Node} {ds : Declarations}
    (h : n.declarations = .ok ds) :
    Css.declarations (ruleOf ds) = ds ∧
      ∃ b c, convertStylesheet policies (ruleOf ds) = .ok [b] ∧
        n.toComponent policies = .ok c ∧ b.declarations = ds ∧ c.declarations = b.declarations ∧
        c.classes = b.classes ∧
        ∀ document, n ∈ document.walk → n.isComponent = true →
          ((∃ cs, components policies document = .ok cs) ↔
              ∀ m ∈ document.walk, m.isComponent = true → ∃ es, m.declarations = .ok es) ∧
            ∀ cs, components policies document = .ok cs → c ∈ cs := by
  have hIndent : allBlank [] = true := rfl
  have hWritable := areWritable_declarations h
  obtain ⟨classes, hClasses⟩ := exists_classes_declarations h policies
  obtain ⟨b, hBlock, hRead, hNames⟩ :=
    convertStylesheet_ruleText hWritable isSelector_ruleOf hIndent hClasses
  have hComponent := toComponent_eq_ok.2 ⟨ds, classes, h, hClasses, rfl⟩
  refine ⟨hWritable.declarations_ruleText isSelector_ruleOf hIndent, b, _, hBlock, hComponent, hRead,
    hRead.symm, hNames.symm, ?_⟩
  intro document hn hType
  exact ⟨exists_components_iff, fun cs hcs => mem_components hcs hn hType hComponent⟩

/-- A white component of one pixel. -/
def whitePixel : Node :=
  let white : Color := ⟨.one, .one, .one, .one⟩
  let surface : Surface :=
    ⟨[⟨.str "SOLID", some white, .bool true⟩], [], none, some ⟨.zero, .zero, .one, .one⟩, none⟩
  .mk .null .null .component (.container surface none) []

def whitePixelEntries : List (Text × Text) :=
  [entry "background-color" "#ffffff", entry "width" "1px", entry "height" "1px"]

theorem convertStylesheet_declarations_whitePixel :
    ∃ ds b c, whitePixel.declarations = .ok ds ∧
      ds.entries = whitePixelEntries ∧
      convertStylesheet {} (ruleOf ds) = .ok [b] ∧ b.declarations = ds ∧ c.classes = b.classes ∧
      ∃ cs, components {} whitePixel = .ok cs ∧ c ∈ cs := by
  have hEntries : whitePixel.declarations.toOption.map (·.entries) = some whitePixelEntries := by
    decide +kernel
  cases h : whitePixel.declarations with
  | error fault =>
    rw [h] at hEntries
    cases hEntries
  | ok ds =>
    rw [h] at hEntries
    obtain ⟨-, b, c, hBlock, -, hRead, -, hClasses, hDocument⟩ :=
      convertStylesheet_declarations {} h
    have hWalk : whitePixel.walk = [whitePixel] := rfl
    obtain ⟨hExists, hMem⟩ := hDocument whitePixel (hWalk ▸ List.mem_singleton_self _) rfl
    have hAll : ∀ m ∈ whitePixel.walk, m.isComponent = true → ∃ es, m.declarations = .ok es := by
      intro m hm _
      rw [hWalk] at hm
      rw [List.mem_singleton.1 hm]
      exact ⟨ds, h⟩
    obtain ⟨cs, hcs⟩ := hExists.2 hAll
    exact ⟨ds, b, c, rfl, Option.some.inj hEntries, hBlock, hRead, hClasses, cs, hcs, hMem cs hcs⟩

end StyleScaffold.Design.Node
