import StyleScaffold.Proofs.Except
import StyleScaffold.Proofs.OrderedMap
import StyleScaffold.Proofs.Repetition
import StyleScaffold.Utility.Classes

/-!
# Classes of declarations that are put together

What a declaration brings in does not depend on the declarations around it, so before repetitions
are dropped the classes of a list are what its declarations bring in, one after another
(`classesOfList_eq_ok_iff`). Only the dropping of repetitions looks at more than one declaration.
Different properties can bring in the same class, because a property is trimmed before its rule is
looked up and rules share the classes they fall back to.

* `classes_insertAll`: the classes of one map behind another are those of both, without the
  repetitions; they hold none, and their order is all that the order of the declarations changes.
-/

namespace StyleScaffold.Utility

open Text Css

variable {policies : Policies} {names : List Text}

/-- The classes that a declaration brings in; none if it fails. -/
def contribution (policies : Policies) (d : Text × Text) : List Text :=
  (declarationClasses policies d).toOption.getD []

theorem classesOfList_eq_ok_iff {ds : List (Text × Text)} :
    classesOfList policies ds = .ok names ↔
      (∀ d ∈ ds, ∃ here, declarationClasses policies d = .ok here) ∧
        names = ds.flatMap (contribution policies) := by
  induction ds generalizing names with
  | nil => simp [classesOfList, eq_comm]
  | cons d ds ih =>
    have hSteps : classesOfList policies (d :: ds) = .ok names ↔
        ∃ here, declarationClasses policies d = .ok here ∧
          ∃ more, classesOfList policies ds = .ok more ∧ here ++ more = names := by
      simp [classesOfList, bind_eq_ok, pure, Except.pure]
    rw [hSteps, List.forall_mem_cons, List.flatMap_cons]
    constructor
    · rintro ⟨here, hHere, more, hMore, rfl⟩
      obtain ⟨hRest, rfl⟩ := ih.1 hMore
      exact ⟨⟨⟨here, hHere⟩, hRest⟩, by rw [contribution, hHere]; rfl⟩
    · rintro ⟨⟨⟨here, hHere⟩, hRest⟩, rfl⟩
      exact ⟨here, hHere, _, ih.2 ⟨hRest, rfl⟩, by rw [contribution, hHere]; rfl⟩

theorem classes_eq_ok_iff {ds : Declarations} :
    classes policies ds = .ok names ↔
      (∀ d ∈ ds.entries, ∃ here, declarationClasses policies d = .ok here) ∧
        names = (ds.entries.flatMap (contribution policies)).eraseDups := by
  rw [classes, map_eq_ok]
  constructor
  · rintro ⟨all, hAll, rfl⟩
    obtain ⟨hEach, rfl⟩ := classesOfList_eq_ok_iff.1 hAll
    exact ⟨hEach, rfl⟩
  · rintro ⟨hEach, rfl⟩
    exact ⟨_, classesOfList_eq_ok_iff.2 ⟨hEach, rfl⟩, rfl⟩

theorem nodup_of_classes {ds : Declarations} (h : classes policies ds = .ok names) :
    names.Nodup := by
  obtain ⟨-, rfl⟩ := classes_eq_ok_iff.1 h
  exact nodup_eraseDups _

/-- Declarations in another order have the same classes in some order. -/
theorem exists_classes_of_perm {ds es : Declarations} (hPerm : es.entries.Perm ds.entries)
    (h : classes policies ds = .ok names) :
    ∃ others, classes policies es = .ok others ∧ others.Perm names := by
  obtain ⟨hEach, rfl⟩ := classes_eq_ok_iff.1 h
  refine ⟨_, classes_eq_ok_iff.2 ⟨fun d hd => hEach d (hPerm.mem_iff.1 hd), rfl⟩, ?_⟩
  exact perm_eraseDups (hPerm.flatMap_right _)

/-- Where no property is in both maps, writing one map into the other puts its entries behind those
of the other. The classes are then found, if those of both maps are, and they are the classes of
both maps, one after another, without the repetitions. No classes hold a repetition, and
declarations in another order have the same classes in some order. -/
theorem classes_insertAll (policies : Policies) {ds es : Declarations}
    (hDisjoint : ∀ property ∈ ds.keys, property ∉ es.keys) :
    (ds.insertAll es.entries).entries = ds.entries ++ es.entries ∧
      (∀ names, classes policies (ds.insertAll es.entries) = .ok names ↔
        ∃ front back, classes policies ds = .ok front ∧ classes policies es = .ok back ∧
          names = (front ++ back).eraseDups) ∧
      ∀ (all : Declarations) names, classes policies all = .ok names → names.Nodup ∧
        ∀ others : Declarations, others.entries.Perm all.entries →
          ∃ permuted, classes policies others = .ok permuted ∧ permuted.Perm names := by
  have hEntries := OrderedMap.entries_insertAll_of_disjoint hDisjoint
  refine ⟨hEntries, ?_, ?_⟩
  · intro names
    simp only [classes_eq_ok_iff, hEntries, List.forall_mem_append, List.flatMap_append]
    constructor
    · rintro ⟨⟨hFront, hBack⟩, rfl⟩
      exact ⟨_, _, ⟨hFront, rfl⟩, ⟨hBack, rfl⟩, (eraseDups_append_eraseDups _ _).symm⟩
    · rintro ⟨_, _, ⟨hFront, rfl⟩, ⟨hBack, rfl⟩, rfl⟩
      exact ⟨⟨hFront, hBack⟩, eraseDups_append_eraseDups _ _⟩
  · intro all names h
    exact ⟨nodup_of_classes h, fun others hPerm => exists_classes_of_perm hPerm h⟩

/-- A property with blanks around it is another property for the map, but it has the same rule: two
colours fall back to one class, which stands at its first place. -/
theorem classes_insertAll_spacedColor :
    let ds : Declarations := .ofList [("color", "red"), ("gap", "8px")]
    let es : Declarations := .ofList [("display", "flex"), (" color ", "green")]
    (∀ property ∈ ds.keys, property ∉ es.keys) ∧
      classes {} ds = .ok ["text-gray-900", "gap-2"] ∧
      classes {} es = .ok ["flex", "text-gray-900"] ∧
      classes {} (ds.insertAll es.entries) = .ok ["text-gray-900", "gap-2", "flex"] := by
  intro ds es
  have hDisjoint : ∀ property ∈ ds.keys, property ∉ es.keys := by decide +kernel
  have hFront : classes {} ds = .ok ["text-gray-900", "gap-2"] :=
    eq_ok_of_toOption (by decide +kernel)
  have hBack : classes {} es = .ok ["flex", "text-gray-900"] :=
    eq_ok_of_toOption (by decide +kernel)
  refine ⟨hDisjoint, hFront, hBack, ?_⟩
  exact ((classes_insertAll {} hDisjoint).2.1 _).2 ⟨_, _, hFront, hBack, by decide +kernel⟩

end StyleScaffold.Utility
