import Nextgen.Lib.Transition

/-!
# Traces and refinement

The actions of a system may show: `emit s a` is the event that the action `a` shows in the
state `s`, if any.  The trace of a run is what its actions show.  A system refines another one,
whose actions are those events, along a map of states, if every step is matched by the action
that it shows, or by nothing if it shows nothing; where a state does not say which state of the
other system it stands for, a relation takes the place of the map.
-/

universe u v w x

namespace Transition

variable {σ : Type u} {α : Type v} {ε : Type w} {τ : Type x}

/-- The events that a run shows. -/
def trace (step : σ → α → Option σ) (emit : σ → α → Option ε) : σ → List α → List ε
  | _, [] => []
  | s, a :: as =>
      match step s a with
      | none => []
      | some s' => (emit s a).toList ++ trace step emit s' as

variable {step : σ → α → Option σ} {emit : σ → α → Option ε}

theorem trace_cons {s s' : σ} {a : α} (as : List α) (h : step s a = some s') :
  trace step emit s (a :: as) = (emit s a).toList ++ trace step emit s' as
  := by
  rw [trace, h]

/-- Along a map that matches every step by what it shows, the trace of a run is a run. -/
theorem run_trace {φ : σ → τ} {next : τ → ε → Option τ}
    (matched : ∀ {s a s'}, step s a = some s' →
      run next (φ s) (emit s a).toList = some (φ s'))
    {s t : σ} {as : List α} (hrun : run step s as = some t) :
  run next (φ s) (trace step emit s as) = some (φ t)
  := by
  induction as generalizing s with
  | nil =>
      cases hrun
      rfl
  | cons a as ih =>
      obtain ⟨s', hstep, hrest⟩ := (run_cons_eq_some step).mp hrun
      rw [trace_cons as hstep, run_append, matched hstep, Option.bind_some]
      apply ih hrest

end Transition
