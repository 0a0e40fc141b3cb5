import StyleScaffold.Proofs.Css.BlockDeclarations
import StyleScaffold.Proofs.Stylesheet.FirstBlock

/-!
# Rules of written declarations

Declarations that can be read from a line and hold no slash are written in a rule, one on a line.
The rule has no comment then, and no brace but its own, so it is one block
(`blocks_ruleText`) and is read as those declarations again (`AreWritable.declarations_ruleText`).
Converting it gives their classes (`convertStylesheet_ruleText`).
-/

namespace StyleScaffold

open Text Css

namespace Css

variable {selector indent body : Text} {ds : Declarations}

/-- The declarations can be read from lines, and no comment can stand in them. -/
structure AreWritable (ds : Declarations) : Prop where
  isDeclaration : ∀ d ∈ ds.entries, IsDeclaration d
  noSlash : ∀ d ∈ ds.entries, ('/' : CodePoint) ∉ d.1 ∧ ('/' : CodePoint) ∉ d.2

/-- The selector stands on one line, and has neither a brace nor a slash in it. -/
structure IsSelector (s : Text) : Prop where
  oneLine : OneLine s
  noBrace : NoBrace s
  noSlash : ('/' : CodePoint) ∉ s

theorem ruleText_eq_braced (selector body : Text) :
    ruleText selector body =
      selector ++ [.char ' '] ++ braced (.char '\n' :: (body ++ [.char '\n'])) := by
  simp [ruleText_eq, braced]

theorem blocks_ruleText (hSelector : IsSelector selector) (hBody : NoBrace body) :
    blocks (ruleText selector body) = [blockText (ruleText selector body)] := by
  have hSpace : NoBrace [CodePoint.char ' '] := by decide
  have hBreak : NoBrace [CodePoint.char '\n'] := by decide
  rw [ruleText_eq_braced]
  refine blocks_of_isOneBlock (isOneBlock_rule (hSelector.noBrace.append hSpace) ?_)
  exact nested_of_noBrace (hBreak.append (hBody.append hBreak))

/-! ## Declarations in a rule -/

theorem AreWritable.count_slash (h : AreWritable ds) (hSelector : IsSelector selector)
    (hIndent : allBlank indent = true) :
    (ruleText selector (declarationsText indent ds)).count (.char '/') = 0 := by
  have hNone : slashes ds.entries = 0 := by
    rw [slashes, List.count_eq_zero]
    intro hc
    obtain ⟨d, hd, hc⟩ := List.mem_flatMap.1 hc
    rcases List.mem_append.1 hc with hc | hc
    · exact (h.noSlash d hd).1 hc
    · exact (h.noSlash d hd).2 hc
  have hBody := count_declarationsText hIndent ds
  rw [ruleText_eq]
  simp [List.count_eq_zero.2 hSelector.noSlash, hBody, hNone]

theorem hasComment_of_count_slash {s : Text} (h : s.count (.char '/') = 0) :
    hasComment s = false := by
  have hAppend := hasComment_append_left (List.count_eq_zero.1 h) []
  rwa [List.append_nil] at hAppend

theorem AreWritable.declarations_ruleText (h : AreWritable ds) (hSelector : IsSelector selector)
    (hIndent : allBlank indent = true) :
    declarations (ruleText selector (declarationsText indent ds)) = ds :=
  Css.declarations_ruleText hSelector.oneLine hSelector.noBrace hIndent h.isDeclaration
    (hasComment_of_count_slash (h.count_slash hSelector hIndent))

end Css

/-! ## Conversion -/

theorem convertStylesheet_ruleText {policies : Policies} {ds : Declarations} {classes : List Text}
    {selector indent : Text} (h : AreWritable ds) (hSelector : IsSelector selector)
    (hIndent : allBlank indent = true) (hClasses : Utility.classes policies ds = .ok classes) :
    ∃ b, convertStylesheet policies (ruleText selector (declarationsText indent ds)) = .ok [b] ∧
      b.declarations = ds ∧ b.classes = classes := by
  have hBlocks := blocks_ruleText hSelector (noBrace_declarationsText hIndent h.isDeclaration)
  have hRead := (declarations_blockText _).trans (h.declarations_ruleText hSelector hIndent)
  generalize blockText (ruleText selector (declarationsText indent ds)) = block at hBlocks hRead
  have hBlock : convertBlock policies block = .ok ⟨blockSelector block, ds, classes⟩ :=
    convertBlock_eq_ok.2 ⟨classes, by rw [hRead]; exact hClasses, by rw [hRead]⟩
  refine ⟨⟨blockSelector block, ds, classes⟩, convertStylesheet_eq_ok_iff.2 ⟨?_, ?_⟩, rfl, rfl⟩
  · rw [hBlocks]
    exact List.cons_ne_nil block []
  · rw [hBlocks, List.map_singleton, hBlock, List.map_singleton]

end StyleScaffold
