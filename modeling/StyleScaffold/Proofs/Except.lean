/-!
# Computations that may fail

* `bind_eq_ok`, `exists_mapM_eq_ok_iff`: a sequence of steps gives a result when every step does.
* `mapM_eq_error_iff`: where every element can fail in one way only, a traversal fails in that
  way, and it does when an element fails, wherever that stands.
* `outcome_mapM`, `outcome_foldlM`: whether a run gives a result, and if not, why, is a matter of the
  outcomes of its steps.
-/

namespace StyleScaffold

variable {ε ε' α β γ : Type}

theorem bind_eq_ok {x : Except ε α} {f : α → Except ε β} {b : β} :
    x >>= f = .ok b ↔ ∃ a, x = .ok a ∧ f a = .ok b := by
  cases x with
  | error e => simp [bind, Except.bind]
  | ok a => simp [bind, Except.bind]

theorem bind_eq_error {x : Except ε α} {f : α → Except ε β} {e : ε} :
    x >>= f = .error e ↔ x = .error e ∨ ∃ a, x = .ok a ∧ f a = .error e := by
  cases x with
  | error e => simp [bind, Except.bind]
  | ok a => simp [bind, Except.bind]

theorem exists_bind_eq_ok_iff {x : Except ε α} {f : α → Except ε β} :
    (∃ b, x >>= f = .ok b) ↔ ∃ a, x = .ok a ∧ ∃ b, f a = .ok b := by
  simp only [bind_eq_ok]
  constructor
  · rintro ⟨b, a, hx, hb⟩
    exact ⟨a, hx, b, hb⟩
  · rintro ⟨a, hx, b, hb⟩
    exact ⟨b, a, hx, hb⟩

/-- Where it does not depend on the first result whether the rest gives one. -/
theorem exists_bind_iff {x : Except ε α} {f : α → Except ε β} {P : Prop}
    (h : ∀ a, (∃ b, f a = .ok b) ↔ P) : (∃ b, x >>= f = .ok b) ↔ (∃ a, x = .ok a) ∧ P := by
  simp only [exists_bind_eq_ok_iff, h, exists_and_right]

theorem exists_pure_iff {a : α} : (∃ b, (pure a : Except ε α) = .ok b) ↔ True :=
  iff_true_intro ⟨a, rfl⟩

/-- Where the other branch always gives a result. -/
theorem exists_ite_iff {c P : Prop} [Decidable c] {x y : Except ε α}
    (hThen : c → ((∃ a, x = .ok a) ↔ P)) (hElse : ¬ c → ∃ a, y = .ok a) :
    (∃ a, (if c then x else y) = .ok a) ↔ (c → P) := by
  split
  · rename_i hc
    rw [hThen hc, forall_prop_of_true hc]
  · rename_i hc
    exact iff_of_true (hElse hc) fun h => absurd h hc

theorem mapError_eq_ok {x : Except ε α} {f : ε → ε'} {a : α} :
    x.mapError f = .ok a ↔ x = .ok a := by
  cases x with
  | error e => constructor <;> intro h <;> cases h
  | ok b => constructor <;> intro h <;> cases h <;> rfl

theorem mapError_eq_error {x : Except ε α} {f : ε → ε'} {e : ε'} :
    x.mapError f = .error e ↔ ∃ cause, x = .error cause ∧ f cause = e := by
  cases x with
  | error cause =>
    constructor
    · intro h
      cases h
      exact ⟨cause, rfl, rfl⟩
    · rintro ⟨_, hCause, rfl⟩
      cases hCause
      rfl
  | ok b =>
    constructor
    · intro h
      cases h
    · rintro ⟨_, hCause, -⟩
      cases hCause

theorem map_eq_ok {x : Except ε α} {f : α → β} {b : β} :
    x.map f = .ok b ↔ ∃ a, x = .ok a ∧ f a = b := by
  cases x with
  | error e => simp [Except.map]
  | ok a => simp [Except.map]

theorem map_eq_error {x : Except ε α} {f : α → β} {e : ε} :
    x.map f = .error e ↔ x = .error e := by
  cases x with
  | error e => simp [Except.map]
  | ok a => simp [Except.map]

theorem eq_ok_of_toOption {x : Except ε α} {a : α} (h : x.toOption = some a) : x = .ok a := by
  cases x with
  | error e => cases h
  | ok b =>
    cases h
    rfl

/-! ## Traversals -/

theorem mapM_eq_ok_iff {f : α → Except ε β} {as : List α} {bs : List β} :
    as.mapM f = .ok bs ↔ as.map f = bs.map .ok := by
  induction as generalizing bs with
  | nil =>
    rw [List.mapM_nil, List.map_nil, eq_comm (a := []), List.map_eq_nil_iff]
    constructor
    · intro h
      cases h
      rfl
    · rintro rfl
      rfl
  | cons a as ih =>
    rw [List.mapM_cons, List.map_cons, bind_eq_ok]
    constructor
    · rintro ⟨b, hHead, hTail⟩
      obtain ⟨more, hMore, hEq⟩ := bind_eq_ok.1 hTail
      cases hEq
      rw [hHead, ih.1 hMore, List.map_cons]
    · intro h
      obtain ⟨b, more, rfl, hHead, hTail⟩ := List.map_eq_cons_iff.1 h.symm
      exact ⟨b, hHead.symm, bind_eq_ok.2 ⟨more, ih.2 hTail.symm, rfl⟩⟩

theorem exists_of_mem_mapM {f : α → Except ε β} {as : List α} {bs : List β}
    (h : as.mapM f = .ok bs) {b : β} (hb : b ∈ bs) : ∃ a ∈ as, f a = .ok b := by
  have hMem : (.ok b : Except ε β) ∈ as.map f := by
    rw [mapM_eq_ok_iff.1 h]
    exact List.mem_map_of_mem hb
  exact List.mem_map.1 hMem

theorem mapM_append_cons_eq_ok_iff {f : α → Except ε β} {front back : List α} {a : α}
    {bs : List β} :
    (front ++ a :: back).mapM f = .ok bs ↔ ∃ ahead b behind, bs = ahead ++ b :: behind ∧
      front.mapM f = .ok ahead ∧ f a = .ok b ∧ back.mapM f = .ok behind := by
  simp only [mapM_eq_ok_iff, List.map_append, List.map_cons]
  constructor
  · intro h
    obtain ⟨ahead, later, rfl, hAhead, hLater⟩ := List.map_eq_append_iff.1 h.symm
    obtain ⟨b, behind, rfl, hHead, hBehind⟩ := List.map_eq_cons_iff.1 hLater
    exact ⟨ahead, b, behind, rfl, hAhead.symm, hHead.symm, hBehind.symm⟩
  · rintro ⟨ahead, b, behind, rfl, hAhead, hHead, hBehind⟩
    rw [hAhead, hHead, hBehind, List.map_append, List.map_cons]

theorem exists_mapM_eq_ok_iff {f : α → Except ε β} {as : List α} :
    (∃ bs, as.mapM f = .ok bs) ↔ ∀ a ∈ as, ∃ b, f a = .ok b := by
  simp only [mapM_eq_ok_iff]
  induction as with
  | nil => exact iff_of_true ⟨[], rfl⟩ (by simp)
  | cons a as ih =>
    rw [List.forall_mem_cons, ← ih]
    constructor
    · rintro ⟨bs, h⟩
      obtain ⟨b, more, rfl, hHead, hTail⟩ := List.map_eq_cons_iff.1 h.symm
      exact ⟨⟨b, hHead.symm⟩, more, hTail.symm⟩
    · rintro ⟨⟨b, hHead⟩, more, hTail⟩
      exact ⟨b :: more, by rw [List.map_cons, List.map_cons, hHead, hTail]⟩

/-- What each result holds is put together as the elements call for it. -/
theorem flatMap_mapM {f : α → Except ε β} {g : β → List γ} {g' : α → List γ} {as : List α}
    {bs : List β} (h : as.mapM f = .ok bs) (hEach : ∀ a ∈ as, ∀ b, f a = .ok b → g b = g' a) :
    bs.flatMap g = as.flatMap g' := by
  induction as generalizing bs with
  | nil =>
    cases h
    rfl
  | cons a as ih =>
    rw [List.mapM_cons] at h
    obtain ⟨b, hHead, h⟩ := bind_eq_ok.1 h
    obtain ⟨more, hMore, h⟩ := bind_eq_ok.1 h
    cases h
    rw [List.flatMap_cons, List.flatMap_cons, hEach a List.mem_cons_self b hHead,
      ih hMore fun a ha => hEach a (List.mem_cons_of_mem _ ha)]

theorem map_mapM_eq {f : α → Except ε β} {g : β → γ} {g' : α → γ} {as : List α} {bs : List β}
    (h : as.mapM f = .ok bs) (hEach : ∀ a ∈ as, ∀ b, f a = .ok b → g b = g' a) :
    bs.map g = as.map g' := by
  rw [List.map_eq_flatMap, List.map_eq_flatMap]
  exact flatMap_mapM h fun a ha b hb => by rw [hEach a ha b hb]

theorem filterMap_mapM {f : α → Except ε β} {g : β → Option γ} {g' : α → Option γ} {as : List α}
    {bs : List β} (h : as.mapM f = .ok bs) (hEach : ∀ a ∈ as, ∀ b, f a = .ok b → g b = g' a) :
    bs.filterMap g = as.filterMap g' := by
  have hMap := congrArg (List.filterMap id) (map_mapM_eq h hEach)
  rwa [List.filterMap_map, List.filterMap_map] at hMap

/-- Where every failure is the same, it does not matter which element fails first. -/
theorem mapM_eq_error_iff {f : α → Except ε β} {cause : ε}
    (hCause : ∀ a e, f a = .error e → e = cause) {as : List α} {e : ε} :
    as.mapM f = .error e ↔ e = cause ∧ ∃ a ∈ as, f a = .error cause := by
  induction as with
  | nil => simp [pure, Except.pure]
  | cons a as ih =>
    rw [List.mapM_cons]
    cases hHead : f a with
    | error e' =>
      obtain rfl := hCause a e' hHead
      constructor
      · intro h
        cases h
        exact ⟨rfl, a, List.mem_cons_self, hHead⟩
      · rintro ⟨rfl, -⟩
        rfl
    | ok b =>
      have hTail : (do let rest ← as.mapM f; pure (b :: rest) : Except ε (List β)) = .error e ↔
          as.mapM f = .error e := by
        rw [bind_eq_error]
        simp [pure, Except.pure]
      refine hTail.trans (ih.trans (and_congr_right fun _ => ?_))
      simp [hHead]

/-- What is looked at in the results may be looked at one by one. -/
theorem map_mapM (f : α → Except ε β) (view : β → γ) (as : List α) :
    (as.mapM f).map (List.map view) = as.mapM fun a => (f a).map view := by
  induction as with
  | nil => rfl
  | cons a as ih =>
    rw [List.mapM_cons, List.mapM_cons, ← ih]
    cases f a with
    | error e => rfl
    | ok b =>
      cases as.mapM f with
      | error e => rfl
      | ok bs => rfl

/-- Where it does not depend on the state whether a step gives a result. -/
theorem exists_foldlM_iff {σ : Type} {f : σ → α → Except ε σ} {P : α → Prop} {as : List α}
    (h : ∀ s, ∀ a ∈ as, (∃ t, f s a = .ok t) ↔ P a) (s : σ) :
    (∃ t, as.foldlM f s = .ok t) ↔ ∀ a ∈ as, P a := by
  induction as generalizing s with
  | nil => exact iff_of_true ⟨s, rfl⟩ (by simp)
  | cons a as ih =>
    have hRest := ih fun s b hb => h s b (List.mem_cons_of_mem a hb)
    rw [List.foldlM_cons, List.forall_mem_cons, exists_bind_iff hRest, h s a List.mem_cons_self]

/-! ## Outcomes -/

/-- Whether a computation gives a result, and if not, why. -/
def outcome (x : Except ε α) : Except ε Unit := x.map fun _ => ()

theorem eq_ok_of_outcome {x : Except ε α} {y : Except ε β} {a : α} (h : outcome x = outcome y)
    (hx : x = .ok a) : ∃ b, y = .ok b := by
  subst hx
  cases y with
  | error e => cases h
  | ok b => exact ⟨b, rfl⟩

theorem eq_error_of_outcome {x : Except ε α} {y : Except ε β} {e : ε} (h : outcome x = outcome y)
    (hx : x = .error e) : y = .error e := by
  subst hx
  cases y with
  | error e' =>
    cases h
    rfl
  | ok b => cases h

/-- Where the outcome of the rest does not depend on the first result. -/
theorem outcome_bind {x : Except ε α} {f : α → Except ε β} {rest : Except ε Unit}
    (h : ∀ a, outcome (f a) = rest) : outcome (x >>= f) = outcome x >>= fun _ => rest := by
  cases x with
  | error e => rfl
  | ok a => exact h a

theorem outcome_mapM_cons (f : α → Except ε β) (a : α) (as : List α) :
    outcome ((a :: as).mapM f) = outcome (f a) >>= fun _ => outcome (as.mapM f) := by
  rw [List.mapM_cons]
  cases f a with
  | error e => rfl
  | ok b => cases as.mapM f <;> rfl

/-- The outcome of a traversal is a matter of the outcomes of the elements. -/
theorem outcome_mapM (f : α → Except ε β) (as : List α) :
    outcome (as.mapM f) = outcome ((as.map fun a => outcome (f a)).mapM id) := by
  induction as with
  | nil => rfl
  | cons a as ih =>
    rw [outcome_mapM_cons, List.map_cons, outcome_mapM_cons, ih]
    cases f a <;> rfl

/-- The outcome of a run does not depend on the state, if that of a step does not. -/
theorem outcome_foldlM {σ : Type} {f : σ → α → Except ε σ} {g : α → Except ε Unit}
    (h : ∀ s a, outcome (f s a) = g a) (as : List α) (s : σ) :
    outcome (as.foldlM f s) = outcome ((as.map g).mapM id) := by
  induction as generalizing s with
  | nil => rfl
  | cons a as ih =>
    rw [List.foldlM_cons, outcome_bind ih, h, List.map_cons, outcome_mapM_cons]
    cases g a <;> rfl

end StyleScaffold
