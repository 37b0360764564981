import Mathlib.Tactic.Common

/-!
# Transition systems with a partial step function

A system is a function `step : σ → α → Option σ`.  The action `a : α` carries every
choice the step depends on, so a run from a state is a list of actions; `step s a` is
`none` when `a` cannot be taken in `s`.  `AllSteps G` says of a run that each of its
steps is taken in a state and by an action that satisfy `G`, and `AllStates P` that
each state it visits satisfies `P`.
-/

universe u v w

/-- A computation that succeeds does so by its parts. -/
theorem Except.bind_eq_ok {ε : Type u} {α β : Type v} {x : Except ε α} {f : α → Except ε β}
    {b : β} :
  x.bind f = .ok b ↔ ∃ a, x = .ok a ∧ f a = .ok b
  := by
  cases x with
  | error e => simp [Except.bind]
  | ok a => simp [Except.bind]

theorem Except.map_eq_ok {ε : Type u} {α : Type v} {β : Type w} {x : Except ε α} {f : α → β}
    {b : β} :
  x.map f = .ok b ↔ ∃ a, x = .ok a ∧ f a = b
  := by
  cases x with
  | error e => simp [Except.map]
  | ok a => simp [Except.map]

namespace Transition

variable {σ : Type u} {α : Type v} (step : σ → α → Option σ)

/-- The state reached from `s` by taking the actions of a list in turn. -/
def run : σ → List α → Option σ
  | s, [] => some s
  | s, a :: as => (step s a).bind fun s' => run s' as

theorem run_cons (s : σ) (a : α) (as : List α) :
  run step s (a :: as) = (step s a).bind fun s' => run step s' as
  := rfl

/-- A run of `a :: as` is a step by `a` followed by a run of `as`. -/
theorem run_cons_eq_some {s t : σ} {a : α} {as : List α} :
  run step s (a :: as) = some t ↔ ∃ s', step s a = some s' ∧ run step s' as = some t
  := Option.bind_eq_some_iff

/-- A run of `as ++ bs` is a run of `as` followed by a run of `bs`. -/
theorem run_append (s : σ) (as bs : List α) :
  run step s (as ++ bs) = (run step s as).bind fun s' => run step s' bs
  := by
  induction as generalizing s with
  | nil => rfl
  | cons a as ih =>
      rw [List.cons_append, run_cons, run_cons, Option.bind_assoc]
      congr 1
      funext s'
      apply ih

/-- Every step of the run of a list of actions is taken where `G` holds. -/
def AllSteps (G : σ → α → Prop) : σ → List α → Prop
  | _, [] => True
  | s, a :: as => G s a ∧ ∀ s', step s a = some s' → AllSteps G s' as

/-- Every state visited by the run of a list of actions satisfies `P`. -/
def AllStates (P : σ → Prop) : σ → List α → Prop
  | s, [] => P s
  | s, a :: as => P s ∧ ∀ s', step s a = some s' → AllStates P s' as

variable {step}

/-- Whether all steps of a run meet a decidable condition is decided by the run. -/
instance decidableAllSteps {G : σ → α → Prop} [∀ s a, Decidable (G s a)] :
    ∀ (s : σ) (as : List α), Decidable (AllSteps step G s as)
  | _, [] => isTrue trivial
  | s, a :: as =>
      match h : step s a with
      | none => decidable_of_iff (G s a)
          ⟨fun hG => ⟨hG, fun _ hs' => nomatch h.symm.trans hs'⟩, And.left⟩
      | some s' =>
          have := decidableAllSteps (G := G) s' as
          decidable_of_iff (G s a ∧ AllSteps step G s' as)
            ⟨fun ⟨hG, hrest⟩ => ⟨hG, fun _ hs' => Option.some.inj (h.symm.trans hs') ▸ hrest⟩,
              fun ⟨hG, hrest⟩ => ⟨hG, hrest s' h⟩⟩

/-- A step to a known state before a run. -/
theorem AllSteps.cons {G : σ → α → Prop} {s s' : σ} {a : α} {as : List α} (hG : G s a)
    (hstep : step s a = some s') (h : AllSteps step G s' as) :
  AllSteps step G s (a :: as)
  := by
  use hG
  intro t ht
  rw [hstep] at ht
  cases ht
  apply h

/-- In a run whose steps all meet `G`, so does the step after any initial part of it. -/
theorem AllSteps.at_run {G : σ → α → Prop} {s t : σ} {a : α} {as bs : List α}
    (h : AllSteps step G s (as ++ a :: bs)) (hrun : run step s as = some t) :
  G t a
  := by
  induction as generalizing s with
  | nil =>
      cases hrun
      apply h.1
  | cons b as ih =>
      obtain ⟨s', hstep, hrun'⟩ := (run_cons_eq_some step).mp hrun
      apply ih (h.2 s' hstep) hrun'

/-- The steps of a run all meet `G` if and only if the step after every initial part of it
does. -/
theorem allSteps_iff_at_run {G : σ → α → Prop} {s : σ} {as : List α} :
  AllSteps step G s as ↔
    ∀ before a after t, as = before ++ a :: after → run step s before = some t → G t a
  := by
  constructor
  · rintro h before a after t rfl hrun
    apply h.at_run hrun
  · intro h
    induction as generalizing s with
    | nil => trivial
    | cons a as ih =>
        use h [] a as s rfl rfl
        intro s' hstep
        apply ih
        rintro before b after t rfl hrun
        apply h (a :: before) b after t rfl
        apply (run_cons_eq_some step).mpr ⟨s', hstep, hrun⟩

/-- If all states of a run satisfy `P`, so does the last one. -/
theorem AllStates.at_run {P : σ → Prop} {s t : σ} {as : List α} (h : AllStates step P s as)
    (hrun : run step s as = some t) :
  P t
  := by
  induction as generalizing s with
  | nil =>
      cases hrun
      apply h
  | cons a as ih =>
      obtain ⟨s', hstep, hrun'⟩ := (run_cons_eq_some step).mp hrun
      apply ih (h.2 s' hstep) hrun'

theorem AllStates.head {P : σ → Prop} {s : σ} {as : List α} (h : AllStates step P s as) :
  P s
  := by
  cases as with
  | nil => apply h
  | cons a as => apply h.1

/-- What holds of two properties of the same state holds along a run that has both. -/
theorem AllStates.imp₂ {P Q R : σ → Prop} {s : σ} {as : List α} (himp : ∀ s, P s → Q s → R s)
    (hP : AllStates step P s as) (hQ : AllStates step Q s as) :
  AllStates step R s as
  := by
  induction as generalizing s with
  | nil => apply himp s hP hQ
  | cons a as ih =>
      use himp s hP.1 hQ.1
      intro s' hstep
      apply ih (hP.2 s' hstep) (hQ.2 s' hstep)

theorem AllStates.imp {P Q : σ → Prop} {s : σ} {as : List α} (h : AllStates step P s as)
    (himp : ∀ s, P s → Q s) :
  AllStates step Q s as
  := by
  apply h.imp₂ _ h
  intro s hP _
  apply himp s hP

/-! ### Invariants -/

/-- Every run meets the condition that always holds. -/
theorem allSteps_of_forall {G : σ → α → Prop} (h : ∀ s a, G s a) (s : σ) (as : List α) :
  AllSteps step G s as
  := by
  induction as generalizing s with
  | nil => trivial
  | cons a as ih =>
      use h s a
      intro s' _
      apply ih

section Invariants

variable {I P : σ → Prop} {G H : σ → α → Prop}

/-- Along a run whose steps meet `G`, a property that such steps preserve and that makes
each of them meet `H` makes all of them meet `H`. -/
theorem allSteps_of_invariant
    (preserve : ∀ {s a s'}, I s → G s a → step s a = some s' → I s')
    (meet : ∀ {s a}, I s → G s a → H s a)
    {s : σ} {as : List α} (hs : I s) (hG : AllSteps step G s as) :
  AllSteps step H s as
  := by
  induction as generalizing s with
  | nil => trivial
  | cons a as ih =>
      use meet hs hG.1
      intro s' hstep
      apply ih (preserve hs hG.1 hstep) (hG.2 s' hstep)

/-- Two conditions on steps that are the same where a property holds, and of which one preserves
the property, are the same along a run. -/
theorem allSteps_iff_of_invariant
    (preserve : ∀ {s a s'}, I s → G s a → step s a = some s' → I s')
    (meet : ∀ {s a}, I s → (G s a ↔ H s a))
    {s : σ} (hs : I s) (as : List α) :
  AllSteps step G s as ↔ AllSteps step H s as
  := by
  constructor
  · apply allSteps_of_invariant preserve _ hs
    intro s a hs hG
    apply (meet hs).mp hG
  · apply allSteps_of_invariant _ _ hs
    · intro s a s' hs hH hstep
      apply preserve hs ((meet hs).mpr hH) hstep
    · intro s a hs hH
      apply (meet hs).mpr hH

/-- Along a run whose steps meet `G`, a property that such steps preserve holds in every
state visited. -/
theorem allStates_of_invariant
    (preserve : ∀ {s a s'}, I s → G s a → step s a = some s' → I s')
    (holds : ∀ {s}, I s → P s)
    {s : σ} {as : List α} (hs : I s) (hG : AllSteps step G s as) :
  AllStates step P s as
  := by
  induction as generalizing s with
  | nil => apply holds hs
  | cons a as ih =>
      use holds hs
      intro s' hstep
      apply ih (preserve hs hG.1 hstep) (hG.2 s' hstep)

/-- A property that every step preserves holds in every state visited. -/
theorem allStates_of_step
    (preserve : ∀ {s a s'}, I s → step s a = some s' → I s')
    {s : σ} (hs : I s) (as : List α) :
  AllStates step I s as
  := by
  apply allStates_of_invariant (G := fun _ _ => True) _ _ hs (allSteps_of_forall (fun _ _ => trivial) s as)
  · intro s a s' hs _ hstep
    apply preserve hs hstep
  · intro s hs
    apply hs

/-- Along a run whose states all satisfy `P`, every step meets the condition without which it
would lead to a state that does not. -/
theorem allSteps_of_allStates
    (preserve : ∀ {s a s'}, I s → step s a = some s' → I s')
    (meet : ∀ {s a}, I s → P s → (∀ s', step s a = some s' → P s') → G s a)
    {s : σ} {as : List α} (hs : I s) (hP : AllStates step P s as) :
  AllSteps step G s as
  := by
  induction as generalizing s with
  | nil => trivial
  | cons a as ih =>
      constructor
      · apply meet hs hP.1
        intro s' hstep
        apply (hP.2 s' hstep).head
      · intro s' hstep
        apply ih (preserve hs hstep) (hP.2 s' hstep)

/-- A property that every step preserves holds at the end of every run. -/
theorem run_invariant_of_step
    (preserve : ∀ {s a s'}, I s → step s a = some s' → I s')
    {s t : σ} {as : List α} (hs : I s) (hrun : run step s as = some t) :
  I t
  := by
  apply (allStates_of_step preserve hs as).at_run hrun

/-- A property holds in every state visited if and only if every step meets the condition under
which it preserves the property. -/
theorem allStates_iff_allSteps
    (preserve : ∀ {s a s'}, I s → step s a = some s' → I s')
    (meet : ∀ {s a s'}, I s → P s → step s a = some s' → (P s' ↔ G s a))
    (stuck : ∀ {s a}, step s a = none → G s a)
    {s : σ} (hs : I s) (hP : P s) (as : List α) :
  AllStates step P s as ↔ AllSteps step G s as
  := by
  constructor
  · apply allSteps_of_allStates preserve _ hs
    intro s a hs hP hnext
    cases hstep : step s a with
    | none => apply stuck hstep
    | some s' => apply (meet hs hP hstep).mp (hnext s' hstep)
  · apply allStates_of_invariant (I := fun s => I s ∧ P s) _ And.right ⟨hs, hP⟩
    rintro s a s' ⟨hs, hP⟩ hG hstep
    exact ⟨preserve hs hstep, (meet hs hP hstep).mpr hG⟩

/-- A property that a step keeps if and only if it meets a condition holds at the end of a run if
and only if it held before and all steps meet the condition. -/
theorem run_iff_allSteps
    (preserve : ∀ {s a s'}, I s → step s a = some s' → I s')
    (meet : ∀ {s a s'}, I s → step s a = some s' → (P s' ↔ P s ∧ G s a))
    {s t : σ} {as : List α} (hs : I s) (hrun : run step s as = some t) :
  P t ↔ P s ∧ AllSteps step G s as
  := by
  induction as generalizing s with
  | nil =>
      cases hrun
      simp only [AllSteps, and_true]
  | cons a as ih =>
      obtain ⟨s', hstep, hrest⟩ := (run_cons_eq_some step).mp hrun
      rw [ih (preserve hs hstep) hrest, meet hs hstep, and_assoc]
      simp only [AllSteps, hstep, Option.some.injEq, forall_eq']

end Invariants

end Transition
