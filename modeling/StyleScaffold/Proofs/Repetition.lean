import Mathlib.Data.List.Induction
import Mathlib.Data.List.Nodup

/-!
# Lists without their repetitions

What is left of a list when all but the first of equal elements are dropped holds no element twice
(`nodup_eraseDups`), and up to its order it only depends on what occurs in the list
(`perm_eraseDups`); the order is that of the first places (`pairwise_idxOf_eraseDups`). Repetitions may be dropped early: before elements are filtered out
(`filter_eraseDups`), before a function is applied (`eraseDups_map_eraseDups`), and in each of two
lists before these are put together (`eraseDups_append_eraseDups`).
-/

namespace StyleScaffold

variable {α : Type} [BEq α] [LawfulBEq α]

theorem filter_eraseDups (p : α → Bool) (l : List α) :
    l.eraseDups.filter p = (l.filter p).eraseDups := by
  induction hLength : l.length using Nat.strongRecOn generalizing l with
  | ind n ih =>
    subst hLength
    cases l with
    | nil => rfl
    | cons a l =>
      have hShort : (l.filter fun b => ! b == a).length < (a :: l).length :=
        Nat.lt_succ_of_le (List.length_filter_le _ _)
      rw [List.eraseDups_cons]
      cases ha : p a with
      | true =>
        rw [List.filter_cons_of_pos ha, List.filter_cons_of_pos ha, List.eraseDups_cons,
          ih _ hShort _ rfl, List.filter_filter, List.filter_filter]
        simp only [Bool.and_comm]
      | false =>
        rw [List.filter_cons_of_neg (by simp [ha]), List.filter_cons_of_neg (by simp [ha]),
          ih _ hShort _ rfl, List.filter_filter]
        refine congrArg List.eraseDups (List.filter_congr ?_)
        intro b _
        cases hb : p b with
        | false => rfl
        | true =>
          have hNe : b ≠ a := by
            rintro rfl
            rw [hb] at ha
            contradiction
          simpa using hNe

/-- Repetitions may be dropped before a function is applied as well. -/
theorem eraseDups_map_eraseDups (f : α → α) (l : List α) :
    (l.eraseDups.map f).eraseDups = (l.map f).eraseDups := by
  induction hLength : l.length using Nat.strongRecOn generalizing l with
  | ind n ih =>
    subst hLength
    cases l with
    | nil => rfl
    | cons a l =>
      let new := fun b => ! f b == f a
      have hNew : (l.filter fun b => ! b == a).filter new = l.filter new := by
        rw [List.filter_filter]
        apply List.filter_congr
        intro b _
        by_cases hb : b = a
        · simp [new, hb]
        · simp [hb]
      have hShort : (l.filter new).length < (a :: l).length :=
        Nat.lt_succ_of_le (List.length_filter_le _ _)
      rw [List.eraseDups_cons, List.map_cons, List.map_cons, List.eraseDups_cons,
        List.eraseDups_cons, List.filter_map, List.filter_map]
      refine congrArg (f a :: ·) ?_
      show (((l.filter fun b => ! b == a).eraseDups.filter new).map f).eraseDups =
        ((l.filter new).map f).eraseDups
      rw [filter_eraseDups, hNew, ih _ hShort _ rfl]

theorem nodup_eraseDups (l : List α) : l.eraseDups.Nodup := by
  induction hLength : l.length using Nat.strongRecOn generalizing l with
  | ind n ih =>
    subst hLength
    cases l with
    | nil => exact List.nodup_nil
    | cons a l =>
      have hShort : (l.filter fun b => ! b == a).length < (a :: l).length :=
        Nat.lt_succ_of_le (List.length_filter_le _ _)
      rw [List.eraseDups_cons, List.nodup_cons]
      exact ⟨by simp, ih _ hShort _ rfl⟩

theorem perm_eraseDups {l k : List α} (h : l.Perm k) : l.eraseDups.Perm k.eraseDups := by
  rw [List.perm_ext_iff_of_nodup (nodup_eraseDups l) (nodup_eraseDups k)]
  intro a
  rw [List.mem_eraseDups, List.mem_eraseDups, h.mem_iff]

/-- The last element is dropped if it occurs in front. -/
theorem eraseDups_concat (l : List α) (a : α) :
    (l ++ [a]).eraseDups = if a ∈ l then l.eraseDups else l.eraseDups ++ [a] := by
  rw [List.eraseDups_append]
  by_cases ha : a ∈ l
  · simp [List.removeAll, ha]
  · simp [List.removeAll, ha, List.eraseDups_cons]

/-- The elements stand in the order in which they occur first. -/
theorem pairwise_idxOf_eraseDups (l : List α) :
    l.eraseDups.Pairwise fun a b => l.idxOf a < l.idxOf b := by
  induction l using List.reverseRecOn with
  | nil => exact List.Pairwise.nil
  | append_singleton l c ih =>
    have hOld : l.eraseDups.Pairwise fun a b => (l ++ [c]).idxOf a < (l ++ [c]).idxOf b := by
      refine ih.imp_of_mem ?_
      intro a b ha hb hLess
      rwa [List.idxOf_append_of_mem (List.mem_eraseDups.1 ha),
        List.idxOf_append_of_mem (List.mem_eraseDups.1 hb)]
    rw [eraseDups_concat]
    split
    · exact hOld
    · rename_i hNew
      refine List.pairwise_append.2 ⟨hOld, List.pairwise_singleton _ c, ?_⟩
      intro a ha b hb
      rw [List.mem_eraseDups] at ha
      rw [List.mem_singleton] at hb
      subst hb
      rw [List.idxOf_append_of_mem ha, List.idxOf_append_of_notMem hNew]
      exact Nat.lt_add_right _ (List.idxOf_lt_length_of_mem ha)

theorem eraseDups_append_eraseDups (l k : List α) :
    (l.eraseDups ++ k.eraseDups).eraseDups = (l ++ k).eraseDups := by
  have hTwice : ∀ m : List α, m.eraseDups.eraseDups = m.eraseDups := by
    intro m
    simpa using eraseDups_map_eraseDups id m
  have hLater : k.eraseDups.removeAll l.eraseDups = (k.removeAll l).eraseDups := by
    have hMem : ∀ a, l.eraseDups.elem a = l.elem a := by
      intro a
      rw [Bool.eq_iff_iff, List.elem_iff, List.elem_iff, List.mem_eraseDups]
    simp only [List.removeAll, hMem, filter_eraseDups]
  rw [List.eraseDups_append, List.eraseDups_append, hLater, hTwice, hTwice]

end StyleScaffold
