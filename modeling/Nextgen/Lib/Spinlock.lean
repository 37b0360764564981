import Nextgen.Lib.Trace
import Mathlib.Logic.Function.Basic

/-!
# Sections under a spinlock

Threads take a lock by an atomic swap, work on data that all of them share, one load or store at a
time, and release the lock by a store.  A thread that finds the lock taken reads it until it is
free and then swaps again.

`Sections` is the code under the lock, and `Implements` says that a section, run alone, does what
one step of another system does, after a number of steps that is known at each of its points.  Then
the threads refine that system, whatever their interleaving: a section that has ended has taken
effect in one step, no two threads are in a section at once, and a thread in a section can end it.
-/

universe u v w x

open Transition

namespace Spinlock

/-- The code under the lock: the point at which a section for `e` starts, if it may be entered, and
the load or store at a point, with the next point unless the section ends. -/
structure Sections (σ : Type u) (ε : Type v) (κ : Type w) where
  enter : σ → ε → Option κ
  next : σ → ε → κ → Option (σ × Option κ)

/-- Where a thread is: outside, before the swap, before a load of the lock it found taken, at a
point of its section, and before the store that releases the lock. -/
inductive Pc (ε : Type v) (κ : Type w) where
  | idle
  | swap (e : ε)
  | load (e : ε)
  | inside (e : ε) (k : κ)
  | unlock
  deriving DecidableEq

/-- The thread has the lock. -/
def Pc.Holds {ε : Type v} {κ : Type w} : Pc ε κ → Prop
  | inside _ _ | unlock => True
  | _ => False

structure State (ι : Type x) (σ : Type u) (ε : Type v) (κ : Type w) where
  lock : Bool
  data : σ
  pc : ι → Pc ε κ

/-- A thread asks for a section, or makes its next step. -/
inductive Action (ι : Type x) (ε : Type v) where
  | call (i : ι) (e : ε)
  | next (i : ι)

variable {ι : Type x} {σ : Type u} {ε : Type v} {κ : Type w}

/-- The lock is free, and no thread asks for a section. -/
def State.init (data : σ) : State ι σ ε κ where
  lock := false
  data := data
  pc _ := .idle

/-- No thread is inside a section. -/
def State.Quiet (s : State ι σ ε κ) : Prop :=
  ∀ i e k, s.pc i ≠ .inside e k

section Steps

variable [DecidableEq ι]

def State.goto (s : State ι σ ε κ) (i : ι) (pc : Pc ε κ) : State ι σ ε κ :=
  { s with pc := Function.update s.pc i pc }

variable (code : Sections σ ε κ)

def step (s : State ι σ ε κ) : Action ι ε → Option (State ι σ ε κ)
  | .call i e =>
      match s.pc i with
      | .idle => some (s.goto i (.swap e))
      | _ => none
  | .next i =>
      match s.pc i with
      | .idle => none
      | .swap e =>
          -- the swap stores `true` and returns what was there
          if s.lock then some (s.goto i (.load e))
          else (code.enter s.data e).map fun k => { s.goto i (.inside e k) with lock := true }
      | .load e => some (s.goto i (if s.lock then .load e else .swap e))
      | .inside e k =>
          (code.next s.data e k).map fun (data, k) =>
            { s.goto i (match k with | some k => .inside e k | none => .unlock) with data := data }
      | .unlock => some { s.goto i .idle with lock := false }

/-- A section shows when it ends. -/
def emit (s : State ι σ ε κ) : Action ι ε → Option ε
  | .call _ _ => none
  | .next i =>
      match s.pc i with
      | .inside e k =>
          match code.next s.data e k with
          | some (_, none) => some e
          | _ => none
      | _ => none

end Steps

/-! ### Sections that implement a step -/

/-- A section that starts in a state with `I` does what `whole` does.  `Mid w e n d k` says that
the section for `e` that started in `w` has come to the point `k` with the data `d`, and ends within
`n` steps. -/
structure Implements (code : Sections σ ε κ) (whole : σ → ε → Option σ) (I : σ → Prop)
    (Mid : σ → ε → ℕ → σ → κ → Prop) : Prop where
  enter : ∀ {w e k}, I w → code.enter w e = some k → ∃ n, Mid w e n w k
  next : ∀ {w e n d k}, I w → Mid w e n d k → ∃ d' k', code.next d e k = some (d', k') ∧
    match k' with
    | some k' => ∃ m < n, Mid w e m d' k'
    | none => whole w e = some d'
  keep : ∀ {w e w'}, I w → whole w e = some w' → I w'

/-- The threads stand for the data `w` of the system that runs whole sections: it is that from
before the section that a thread is in, and otherwise the data that the threads have. -/
structure Stands (I : σ → Prop) (Mid : σ → ε → ℕ → σ → κ → Prop) (s : State ι σ ε κ) (w : σ) :
    Prop where
  inv : I w
  unique : ∀ i j, (s.pc i).Holds → (s.pc j).Holds → i = j
  lock : s.lock = true ↔ ∃ i, (s.pc i).Holds
  inside : ∀ i e k, s.pc i = .inside e k → ∃ n, Mid w e n s.data k
  quiet : s.Quiet → s.data = w

section Stands

variable {I : σ → Prop} {Mid : σ → ε → ℕ → σ → κ → Prop} {s : State ι σ ε κ} {w : σ} {i j : ι}

theorem Stands.init (h : I w) :
  Stands I Mid (State.init w : State ι σ ε κ) w
  := by
  constructor
  · exact h
  · rintro i j ⟨⟩
  · constructor
    · rintro ⟨⟩
    · rintro ⟨i, ⟨⟩⟩
  · rintro i e k ⟨⟩
  · intro _
    rfl

/-- With the lock free no thread is inside a section. -/
theorem Stands.quiet_of_free (h : Stands I Mid s w) (hlock : s.lock = false) :
  s.Quiet
  := by
  intro i e k hi
  have htaken : s.lock = true := h.lock.mpr ⟨i, by rw [hi]; trivial⟩
  cases hlock.symm.trans htaken

/-- A thread with the lock is the only one that has it. -/
theorem Stands.other (h : Stands I Mid s w) (hi : (s.pc i).Holds) (hne : j ≠ i) :
  ¬ (s.pc j).Holds
  := by
  intro hj
  exact hne (h.unique j i hj hi)

variable [DecidableEq ι] {pc : Pc ε κ}

theorem State.goto_self (s : State ι σ ε κ) (i : ι) (pc : Pc ε κ) :
  (s.goto i pc).pc i = pc
  := Function.update_self ..

theorem State.goto_of_ne (s : State ι σ ε κ) (pc : Pc ε κ) (h : j ≠ i) :
  (s.goto i pc).pc j = s.pc j
  := Function.update_of_ne h ..

/-- A thread that neither has the lock nor takes it stands where it likes. -/
theorem Stands.goto (h : Stands I Mid s w) (hold : ¬ (s.pc i).Holds) (hnew : ¬ pc.Holds) :
  Stands I Mid (s.goto i pc) w
  := by
  have hholds : ∀ j, ((s.goto i pc).pc j).Holds ↔ (s.pc j).Holds := by
    intro j
    rcases eq_or_ne j i with rfl | hne
    · rw [s.goto_self]
      exact iff_of_false hnew hold
    · rw [s.goto_of_ne pc hne]
  have hinside : ∀ j e k, (s.goto i pc).pc j = .inside e k ↔ s.pc j = .inside e k := by
    intro j e k
    rcases eq_or_ne j i with rfl | hne
    · rw [s.goto_self]
      constructor
      · rintro rfl
        exact absurd trivial hnew
      · intro hj
        rw [hj] at hold
        exact absurd trivial hold
    · rw [s.goto_of_ne pc hne]
  refine ⟨h.inv, ?_, ?_, ?_, ?_⟩
  · intro j k hj hk
    exact h.unique j k ((hholds j).mp hj) ((hholds k).mp hk)
  · exact h.lock.trans (exists_congr fun j => (hholds j).symm)
  · intro j e k hj
    exact h.inside j e k ((hinside j e k).mp hj)
  · intro hquiet
    apply h.quiet
    intro j e k hj
    exact hquiet j e k ((hinside j e k).mpr hj)

/-- The one thread that has or takes the lock moves, with what it does to the lock and the data. -/
theorem Stands.move {lock : Bool} {data w' : σ} (hw' : I w')
    (hother : ∀ j, j ≠ i → ¬ (s.pc j).Holds)
    (hlock : lock = true ↔ pc.Holds)
    (hinside : ∀ e k, pc = .inside e k → ∃ n, Mid w' e n data k)
    (hquiet : (∀ e k, pc ≠ .inside e k) → data = w') :
  Stands I Mid { s.goto i pc with lock := lock, data := data } w'
  := by
  have hself := s.goto_self i pc
  have hholds : ∀ j, ((s.goto i pc).pc j).Holds → j = i := by
    intro j hj
    by_contra hne
    rw [s.goto_of_ne pc hne] at hj
    exact hother j hne hj
  refine ⟨hw', ?_, ?_, ?_, ?_⟩
  · intro j k hj hk
    rw [hholds j hj, hholds k hk]
  · rw [hlock]
    constructor
    · intro hpc
      use i
      rw [← hself] at hpc
      exact hpc
    · rintro ⟨j, hj⟩
      obtain rfl := hholds j hj
      rw [← hself]
      exact hj
  · intro j e k hj
    have heq : (s.goto i pc).pc j = .inside e k := hj
    obtain rfl := hholds j (by rw [heq]; trivial)
    exact hinside e k (hself.symm.trans heq)
  · intro hquiet'
    apply hquiet
    intro e k hpc
    exact hquiet' i e k (hself.trans hpc)

end Stands

section Refinement

variable [DecidableEq ι] {code : Sections σ ε κ} {whole : σ → ε → Option σ} {I : σ → Prop}
  {Mid : σ → ε → ℕ → σ → κ → Prop} {s s' : State ι σ ε κ} {w : σ} {i : ι} {e : ε} {k : κ} {n : ℕ}

/-- A thread inside a section comes to its next point, or to its end. -/
theorem Implements.step_inside (himp : Implements code whole I Mid) (h : Stands I Mid s w)
    (hpc : s.pc i = .inside e k) (hmid : Mid w e n s.data k) :
  ∃ s', step code s (.next i) = some s' ∧
    ((∃ k' m, emit code s (.next i) = none ∧ s'.pc i = .inside e k' ∧ m < n ∧
        Mid w e m s'.data k' ∧ Stands I Mid s' w) ∨
      (emit code s (.next i) = some e ∧ s'.pc i = .unlock ∧ whole w e = some s'.data ∧
        Stands I Mid s' s'.data))
  := by
  have hholds : (s.pc i).Holds := by
    rw [hpc]
    trivial
  have hlock : s.lock = true := h.lock.mpr ⟨i, hholds⟩
  obtain ⟨data, k', hnext, hk'⟩ := himp.next h.inv hmid
  simp only [step, emit, hpc, hnext, Option.map_some]
  refine ⟨_, rfl, ?_⟩
  cases k' with
  | some k' =>
      left
      obtain ⟨m, hlt, hmid'⟩ := hk'
      refine ⟨k', m, rfl, s.goto_self i _, hlt, hmid', ?_⟩
      apply Stands.move h.inv (fun j => h.other hholds)
      · exact iff_of_true hlock trivial
      · rintro e' k'' ⟨⟩
        exact ⟨m, hmid'⟩
      · intro hno
        exact absurd rfl (hno e k')
  | none =>
      right
      refine ⟨rfl, s.goto_self i _, hk', ?_⟩
      apply Stands.move (himp.keep h.inv hk') (fun j => h.other hholds)
      · exact iff_of_true hlock trivial
      · rintro e' k' ⟨⟩
      · intro _
        rfl

/-- A step of a thread is matched by the section that it ends, if it ends one. -/
theorem Implements.step_matched (himp : Implements code whole I Mid) {a : Action ι ε}
    (h : Stands I Mid s w) (hstep : step code s a = some s') :
  ∃ w', run whole w (emit code s a).toList = some w' ∧ Stands I Mid s' w'
  := by
  cases a with
  | call i e =>
      rw [step] at hstep
      split at hstep
      · rename_i hpc
        cases hstep
        exact ⟨w, rfl, h.goto (by rw [hpc]; exact id) id⟩
      · cases hstep
  | next i =>
      cases hpc : s.pc i with
      | idle =>
          rw [step, hpc] at hstep
          cases hstep
      | swap e =>
          simp only [step, emit, hpc] at hstep ⊢
          refine ⟨w, rfl, ?_⟩
          split at hstep
          · cases hstep
            exact h.goto (by rw [hpc]; exact id) id
          · rename_i hlock
            obtain ⟨k, henter, rfl⟩ := Option.map_eq_some_iff.mp hstep
            have hdata := h.quiet (h.quiet_of_free (Bool.eq_false_iff.mpr hlock))
            apply Stands.move h.inv
            · intro j _ hj
              exact hlock (h.lock.mpr ⟨j, hj⟩)
            · exact iff_of_true rfl trivial
            · rintro e' k' ⟨⟩
              show ∃ n, Mid w e n s.data k
              rw [hdata] at henter ⊢
              exact himp.enter h.inv henter
            · intro hno
              exact absurd rfl (hno e k)
      | load e =>
          simp only [step, emit, hpc] at hstep ⊢
          cases hstep
          refine ⟨w, rfl, h.goto (by rw [hpc]; exact id) ?_⟩
          split <;> exact id
      | inside e k =>
          obtain ⟨n, hmid⟩ := h.inside i e k hpc
          obtain ⟨s₁, hstep₁, hcases⟩ := himp.step_inside h hpc hmid
          cases hstep.symm.trans hstep₁
          rcases hcases with ⟨_, _, hemit, -, -, -, h'⟩ | ⟨hemit, -, hwhole, h'⟩
          · rw [hemit]
            exact ⟨w, rfl, h'⟩
          · refine ⟨s'.data, ?_, h'⟩
            rw [hemit, Option.toList_some, run_cons, hwhole]
            rfl
      | unlock =>
          have hholds : (s.pc i).Holds := by
            rw [hpc]
            trivial
          simp only [step, emit, hpc] at hstep ⊢
          cases hstep
          refine ⟨w, rfl, ?_⟩
          apply Stands.move h.inv (fun j => h.other hholds)
          · exact iff_of_false Bool.false_ne_true id
          · rintro e k ⟨⟩
          · intro _
            apply h.quiet
            intro j e k hj
            have hji := h.unique j i (by rw [hj]; trivial) hholds
            rw [hji, hpc] at hj
            cases hj

end Refinement

end Spinlock
