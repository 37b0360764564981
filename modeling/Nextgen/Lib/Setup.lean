import Nextgen.Lib.Transition

/-!
# Modules that are set up once

A module has a flag that says whether it is set up.  A set-up is refused while the flag is set,
and a clean-up is there to clear it.  `Proper` says of a call that it keeps to this as seen from
outside, where it is only known whether a set-up has succeeded since the last clean-up; `Keeps` is
what is left to show of a call when set-ups are refused by the flag.
-/

universe u v

/-- What a call returns: zero, or minus one, and that because the module is set up already or for
another reason. -/
inductive Returned where
  | ok
  | refused
  | failed
  deriving DecidableEq, Repr

/-- A module whose set-ups are refused if and only if its flag is set.  The calls are set-ups and
clean-ups; one that does not return has no value. -/
structure SetupModule (σ : Type u) (α : Type v) where
  init : σ
  flag : σ → Bool
  isSetup : α → Bool
  exec : σ → α → Option (Returned × σ)
  refuses : ∀ {s a x}, isSetup a = true → flag s = true → exec s a = some x → x = (.refused, s)
  accepts : ∀ {s a x}, isSetup a = true → flag s = false → exec s a = some x → x.1 ≠ .refused

namespace SetupModule

open Transition

variable {σ : Type u} {α : Type v} (m : SetupModule σ α)

/-- The state of a module, and whether a set-up has returned zero since the last clean-up. -/
structure Tracked (σ : Type u) where
  state : σ
  done : Bool

def start : Tracked σ :=
  ⟨m.init, false⟩

def step (t : Tracked σ) (a : α) : Option (Tracked σ) :=
  (m.exec t.state a).map fun (r, s) => ⟨s, m.isSetup a && (t.done || r = .ok)⟩

/-- What a set-up does that returns `r` and leaves the state `s'`. -/
structure ProperSetup (t : Tracked σ) (r : Returned) (s' : σ) : Prop where
  failed : r ≠ .ok → m.flag s' = m.flag t.state
  ok : r = .ok → m.flag s' = true
  done : t.done = true → r ≠ .ok ∧ s' = t.state
  accepted : m.flag t.state = false → r ≠ .refused

/-- A call that returns is a proper set-up, or a clean-up that clears the flag when it returns
zero. -/
def Proper (t : Tracked σ) (a : α) : Prop :=
  ∀ r s', m.exec t.state a = some (r, s') →
    if m.isSetup a then m.ProperSetup t r s' else r = .ok → m.flag s' = false

/-- A set-up sets the flag if and only if it returns zero, and a clean-up clears it then. -/
def Keeps (s : σ) (a : α) : Prop :=
  ∀ r s', m.exec s a = some (r, s') →
    if m.isSetup a then m.flag s' = (m.flag s || r = .ok) else r = .ok → m.flag s' = false

variable {m}

theorem keeps_setup_iff {s : σ} {a : α} {x : Returned × σ} (hsetup : m.isSetup a = true)
    (hexec : m.exec s a = some x) :
  m.Keeps s a ↔ m.flag x.2 = (m.flag s || x.1 = .ok)
  := by
  obtain ⟨r, s'⟩ := x
  simp [Keeps, hsetup, hexec]

theorem keeps_cleanup_iff {s : σ} {a : α} (hsetup : m.isSetup a = false) :
  m.Keeps s a ↔ ∀ x, m.exec s a = some x → x.1 = .ok → m.flag x.2 = false
  := by
  simp [Keeps, hsetup]

/-- A set-up that is refused keeps the flag. -/
theorem keeps_of_flag {s : σ} {a : α} (hsetup : m.isSetup a = true) (hflag : m.flag s = true) :
  m.Keeps s a
  := by
  intro r s' hexec
  cases m.refuses hsetup hflag hexec
  simp [hsetup, hflag]

theorem keeps_of_proper {t : Tracked σ} {a : α} (h : m.Proper t a) :
  m.Keeps t.state a
  := by
  intro r s' hexec
  have hr := h r s' hexec
  split at hr
  · rename_i hsetup
    by_cases hok : r = .ok
    · simp [hsetup, hok, hr.ok hok]
    · simp [hsetup, hok, hr.failed hok]
  · rename_i hclean
    rw [if_neg hclean]
    apply hr

/-- While the flag is set when a set-up has succeeded, a call that keeps the flag is proper. -/
theorem proper_of_keeps {t : Tracked σ} {a : α} (hdone : t.done = true → m.flag t.state = true)
    (h : m.Keeps t.state a) :
  m.Proper t a
  := by
  intro r s' hexec
  have hr := h r s' hexec
  split at hr
  · rename_i hsetup
    rw [if_pos hsetup]
    constructor
    · intro hok
      simpa [hok] using hr
    · intro hok
      simpa [hok] using hr
    · intro hdone'
      cases m.refuses hsetup (hdone hdone') hexec
      exact ⟨nofun, rfl⟩
    · intro hflag
      apply m.accepts hsetup hflag hexec
  · rename_i hclean
    rw [if_neg hclean]
    apply hr

/-- A call that keeps the flag leaves it set when a set-up has succeeded. -/
theorem step_done {t t' : Tracked σ} {a : α} (hdone : t.done = true → m.flag t.state = true)
    (h : m.Keeps t.state a) (hstep : m.step t a = some t') :
  t'.done = true → m.flag t'.state = true
  := by
  obtain ⟨⟨r, s'⟩, hexec, rfl⟩ := Option.map_eq_some_iff.mp hstep
  have hr := h r s' hexec
  intro hdone'
  obtain ⟨hsetup, hor⟩ := Bool.and_eq_true_iff.mp hdone'
  rw [if_pos hsetup] at hr
  rw [hr]
  rcases Bool.or_eq_true_iff.mp hor with hold | hok
  · rw [hdone hold, Bool.true_or]
  · rw [hok, Bool.or_true]

/-- Along every sequence of calls, all of them are proper if and only if all keep the flag. -/
theorem allSteps_proper_iff (calls : List α) :
  AllSteps m.step m.Proper m.start calls ↔
    AllSteps m.step (fun t a => m.Keeps t.state a) m.start calls
  := by
  symm
  apply allSteps_iff_of_invariant (I := fun t => t.done = true → m.flag t.state = true)
  · intro t a t' hdone h hstep
    apply step_done hdone h hstep
  · intro t a hdone
    exact ⟨proper_of_keeps hdone, keeps_of_proper⟩
  · intro h
    cases h

end SetupModule
