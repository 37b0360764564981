import Nextgen.Lib.Trace
import Mathlib.Logic.Function.Basic

/-!
# The compare-and-swap loops

`cas_loop_int32` and `cas_loop_uint32`, run by any number of threads on one target while others
store to it.  A thread in the loop loads a snapshot of the target and swaps in its value if the
target still has the snapshot, and starts over if not.

`Atomic` is what the loops are for: a call writes its value in one step.  The loops refine it,
whatever the target was between the load and the swap.
-/

open Transition

universe u v

namespace CasLoop

variable {ι : Type u} {α : Type v}

/-! ### The loops -/

/-- Where a thread is: outside, before the load, before the swap with the snapshot that it
loaded, and behind the loop. -/
inductive Pc (α : Type v) where
  | idle
  | load (value : α)
  | swap (value snapshot : α)
  | leave

structure State (ι : Type u) (α : Type v) where
  target : α
  pc : ι → Pc α

/-- No thread is in the loop. -/
def State.init (target : α) : State ι α :=
  ⟨target, fun _ => .idle⟩

/-- A thread calls the loop, makes its next step in the loop, or stores to the target. -/
inductive Action (ι : Type u) (α : Type v) where
  | call (i : ι) (value : α)
  | next (i : ι)
  | store (i : ι) (value : α)

/-- `ck_pr_cas_int` and `ck_pr_cas_uint`: whether the value was swapped in, and the target. -/
def cas [DecidableEq α] (target snapshot value : α) : Bool × α :=
  if target = snapshot then (true, value) else (false, target)

section Steps

variable [DecidableEq ι]

def State.goto (s : State ι α) (i : ι) (pc : Pc α) : State ι α :=
  { s with pc := Function.update s.pc i pc }

variable [DecidableEq α]

def step (s : State ι α) : Action ι α → Option (State ι α)
  | .call i value =>
      match s.pc i with
      | .idle => some (s.goto i (.load value))
      | _ => none
  | .next i =>
      match s.pc i with
      | .idle => none
      | .load value => some (s.goto i (.swap value s.target))
      | .swap value snapshot =>
          let (swapped, target) := cas s.target snapshot value
          some { s.goto i (if swapped then .leave else .load value) with target := target }
      | .leave => some (s.goto i .idle)
  | .store i value =>
      match s.pc i with
      | .idle => some { s with target := value }
      | _ => none

/-- `cas_loop_int32`. -/
def casLoopInt32 : State ι Int32 → Action ι Int32 → Option (State ι Int32) := step

/-- `cas_loop_uint32`. -/
def casLoopUint32 : State ι UInt32 → Action ι UInt32 → Option (State ι UInt32) := step

end Steps

/-! ### Atomic stores -/

/-- What a thread does to the target, and where its calls begin and end. -/
inductive Event (α : Type v) where
  | start (value : α)
  | write (value : α)
  | ret
  | store (value : α)
  deriving DecidableEq

/-- The value that an event leaves in the target. -/
def Event.written : Event α → Option α
  | start _ => none
  | write value => some value
  | ret => none
  | store value => some value

/-- A thread has no call, one that is still to write its value, or one that has written it. -/
inductive Phase (α : Type v) where
  | idle
  | called (value : α)
  | written

/-- Threads that write in a single step. -/
structure Atomic (ι : Type u) (α : Type v) where
  target : α
  phase : ι → Phase α

section Atomic

variable [DecidableEq ι] [DecidableEq α]

def Atomic.goto (t : Atomic ι α) (i : ι) (phase : Phase α) : Atomic ι α :=
  { t with phase := Function.update t.phase i phase }

def Atomic.step (t : Atomic ι α) : ι × Event α → Option (Atomic ι α)
  | (i, .start value) =>
      match t.phase i with
      | .idle => some (t.goto i (.called value))
      | _ => none
  | (i, .write value) =>
      match t.phase i with
      | .called value' =>
          if value = value' then some { t.goto i .written with target := value } else none
      | _ => none
  | (i, .ret) =>
      match t.phase i with
      | .written => some (t.goto i .idle)
      | _ => none
  | (i, .store value) =>
      match t.phase i with
      | .idle => some { t with target := value }
      | _ => none

/-- What a step of a loop shows. -/
def emit (s : State ι α) : Action ι α → Option (ι × Event α)
  | .call i value => some (i, .start value)
  | .next i =>
      match s.pc i with
      | .swap value snapshot =>
          if (cas s.target snapshot value).1 then some (i, .write value) else none
      | .leave => some (i, .ret)
      | _ => none
  | .store i value => some (i, .store value)

def Pc.phase : Pc α → Phase α
  | idle => .idle
  | load value => .called value
  | swap value _ => .called value
  | leave => .written

def State.atomic (s : State ι α) : Atomic ι α where
  target := s.target
  phase i := (s.pc i).phase

/-- Every call that returns has shown one event of its thread since its start, the write of its
value. -/
def WritesOnce (events : List (ι × Event α)) : Prop :=
  ∀ before during after i value,
    events = before ++ (i, .start value) :: during ++ (i, .ret) :: after →
    (i, .ret) ∉ during → during.filter (·.1 = i) = [(i, .write value)]

/-- The value that the last write or store of a trace left in the target. -/
def lastWritten (target : α) (events : List (ι × Event α)) : α :=
  (events.filterMap (·.2.written)).getLastD target

/-- A step of a loop leaves in the target what it shows, and the target as it was if it shows no
write. -/
def ShowsWrites (loop : State ι α → Action ι α → Option (State ι α)) (s : State ι α)
    (a : Action ι α) : Prop :=
  ∀ s', loop s a = some s' →
    s'.target = ((emit s a).bind (·.2.written)).getD s.target

/-- A loop that refines atomic stores in a run to a state: what the steps show is a run of atomic
stores that ends with the same target, every call that returns has written its value in one step
since its start and has shown nothing else, no step changes the target without showing it, and the
target has the value of the last write or store.  A thread that is left alone returns in the next
four steps. -/
structure RefinesStore (loop : State ι α → Action ι α → Option (State ι α)) (target : α)
    (schedule : List (Action ι α)) (s : State ι α) : Prop where
  atomic : run Atomic.step (State.init target).atomic (trace loop emit (.init target) schedule)
    = some s.atomic
  writesOnce : WritesOnce (trace loop emit (.init target) schedule)
  showsWrites : AllSteps loop (ShowsWrites loop) (.init target) schedule
  target : s.target = lastWritten target (trace loop emit (.init target) schedule)
  returns : ∀ i, ∃ n ≤ 4, ∃ s', run loop s (List.replicate n (.next i)) = some s' ∧
    s'.pc i = .idle

end Atomic

/-! ### Runs of atomic stores -/

section Runs

variable [DecidableEq ι] [DecidableEq α] {t t' : Atomic ι α} {i j : ι} {e : Event α} {value : α}
  {events : List (ι × Event α)}

/-- What a thread can do. -/
theorem Atomic.step_cases (h : t.step (i, e) = some t') :
  (∃ value, e = .start value ∧ t.phase i = .idle ∧ t' = t.goto i (.called value)) ∨
    (∃ value, e = .write value ∧ t.phase i = .called value ∧
      t' = { t.goto i .written with target := value }) ∨
    (e = .ret ∧ t.phase i = .written ∧ t' = t.goto i .idle) ∨
    ∃ value, e = .store value ∧ t.phase i = .idle ∧ t' = { t with target := value }
  := by
  cases e with
  | start value =>
      rw [step] at h
      split at h
      · rename_i hphase
        cases h
        exact .inl ⟨value, rfl, hphase, rfl⟩
      · cases h
  | write value =>
      rw [step] at h
      split at h
      · rename_i value' hphase
        obtain ⟨rfl, heq⟩ := Option.ite_none_right_eq_some.mp h
        cases heq
        exact .inr (.inl ⟨value, rfl, hphase, rfl⟩)
      · cases h
  | ret =>
      rw [step] at h
      split at h
      · rename_i hphase
        cases h
        exact .inr (.inr (.inl ⟨rfl, hphase, rfl⟩))
      · cases h
  | store value =>
      rw [step] at h
      split at h
      · rename_i hphase
        cases h
        exact .inr (.inr (.inr ⟨value, rfl, hphase, rfl⟩))
      · cases h

theorem Atomic.target_step (h : t.step (i, e) = some t') :
  t'.target = e.written.getD t.target
  := by
  rcases step_cases h with ⟨value, rfl, -, rfl⟩ | ⟨value, rfl, -, rfl⟩ | ⟨rfl, -, rfl⟩ |
    ⟨value, rfl, -, rfl⟩ <;> rfl

theorem Atomic.phase_step_of_ne (hne : i ≠ j) (h : t.step (j, e) = some t') :
  t'.phase i = t.phase i
  := by
  rcases step_cases h with ⟨value, -, -, rfl⟩ | ⟨value, -, -, rfl⟩ | ⟨-, -, rfl⟩ |
    ⟨value, -, -, rfl⟩
  · apply Function.update_of_ne hne
  · apply Function.update_of_ne hne
  · apply Function.update_of_ne hne
  · rfl

theorem Atomic.target_run (h : run Atomic.step t events = some t') :
  t'.target = lastWritten t.target events
  := by
  induction events generalizing t with
  | nil =>
      cases h
      rfl
  | cons e events ih =>
      obtain ⟨s, hstep, hrest⟩ := (run_cons_eq_some _).mp h
      rw [ih hrest, target_step hstep, lastWritten, lastWritten, List.filterMap_cons]
      cases e.2.written with
      | none => rfl
      | some value => rw [Option.getD_some, List.getLastD_cons]

/-- Until it returns, a call can only write its value. -/
theorem Atomic.step_of_busy (hbusy : t.phase i ≠ .idle) (hret : (i, .ret) ≠ (j, e))
    (h : t.step (j, e) = some t') :
  (i ≠ j ∧ t'.phase i = t.phase i) ∨
    (i = j ∧ ∃ value, e = .write value ∧ t.phase i = .called value ∧ t'.phase i = .written)
  := by
  rcases eq_or_ne i j with rfl | hij
  · right
    rcases step_cases h with ⟨value, -, hidle, -⟩ | ⟨value, rfl, hcalled, rfl⟩ | ⟨rfl, -, -⟩ |
      ⟨value, -, hidle, -⟩
    · exact absurd hidle hbusy
    · exact ⟨rfl, value, rfl, hcalled, Function.update_self _ _ _⟩
    · exact absurd rfl hret
    · exact absurd hidle hbusy
  · exact .inl ⟨hij, phase_step_of_ne hij h⟩

/-- A call that has written its value shows nothing until it returns. -/
theorem Atomic.filter_of_written (hphase : t.phase i = .written)
    (h : run Atomic.step t events = some t') (hret : (i, .ret) ∉ events) :
  events.filter (·.1 = i) = []
  := by
  induction events generalizing t with
  | nil => rfl
  | cons e events ih =>
      obtain ⟨j, e⟩ := e
      obtain ⟨s, hstep, hrest⟩ := (run_cons_eq_some _).mp h
      obtain ⟨hne, hrest'⟩ := List.ne_and_not_mem_of_not_mem_cons hret
      rcases step_of_busy (by simp [hphase]) hne hstep with ⟨hij, hsame⟩ | ⟨-, _, -, hcalled, -⟩
      · rw [List.filter_cons_of_neg (by simpa using hij.symm)]
        exact ih (hsame.trans hphase) hrest hrest'
      · cases hphase.symm.trans hcalled

/-- A call shows the write of its value, and nothing else, until it is about to return. -/
theorem Atomic.filter_of_called (hphase : t.phase i = .called value)
    (h : run Atomic.step t events = some t') (hret : (i, .ret) ∉ events)
    (hphase' : t'.phase i = .written) :
  events.filter (·.1 = i) = [(i, .write value)]
  := by
  induction events generalizing t with
  | nil =>
      cases h
      cases hphase.symm.trans hphase'
  | cons e events ih =>
      obtain ⟨j, e⟩ := e
      obtain ⟨s, hstep, hrest⟩ := (run_cons_eq_some _).mp h
      obtain ⟨hne, hrest'⟩ := List.ne_and_not_mem_of_not_mem_cons hret
      rcases step_of_busy (by simp [hphase]) hne hstep with
        ⟨hij, hsame⟩ | ⟨rfl, value', rfl, hcalled, hwritten⟩
      · rw [List.filter_cons_of_neg (by simpa using hij.symm)]
        exact ih (hsame.trans hphase) hrest hrest'
      · cases hphase.symm.trans hcalled
        rw [List.filter_cons_of_pos (by simp), filter_of_written hwritten hrest hrest']

theorem Atomic.writesOnce (h : run Atomic.step t events = some t') :
  WritesOnce events
  := by
  rintro before during after i value rfl hret
  rw [run_append, run_append] at h
  obtain ⟨ready, hready, hafter⟩ := Option.bind_eq_some_iff.mp h
  obtain ⟨idle, -, hcall⟩ := Option.bind_eq_some_iff.mp hready
  obtain ⟨called, hstart, hduring⟩ := (run_cons_eq_some _).mp hcall
  obtain ⟨returned, hreturn, -⟩ := (run_cons_eq_some _).mp hafter
  rcases step_cases hstart with ⟨value', hvalue, -, rfl⟩ | ⟨_, hvalue, -⟩ | ⟨hvalue, -⟩ |
    ⟨_, hvalue, -⟩
  · cases hvalue
    rcases step_cases hreturn with ⟨_, hret', -⟩ | ⟨_, hret', -⟩ | ⟨-, hwritten, -⟩ |
      ⟨_, hret', -⟩
    · cases hret'
    · cases hret'
    · apply filter_of_called _ hduring hret hwritten
      apply Function.update_self
    · cases hret'
  · cases hvalue
  · cases hvalue
  · cases hvalue

end Runs

/-! ### The loops refine atomic stores -/

section Refinement

variable [DecidableEq ι] {s s' : State ι α} {a : Action ι α} {i : ι}

theorem State.atomic_goto (s : State ι α) (i : ι) (pc : Pc α) :
  (s.goto i pc).atomic = s.atomic.goto i pc.phase
  := by
  rw [atomic, atomic, goto, Atomic.goto]
  congr 1
  funext j
  apply Function.apply_update fun _ => Pc.phase

/-- A thread that is still in the same phase. -/
theorem State.atomic_goto_of_phase {pc : Pc α} (h : pc.phase = (s.pc i).phase) :
  (s.goto i pc).atomic = s.atomic
  := by
  rw [atomic_goto, h, Atomic.goto]
  congr 1
  apply Function.update_eq_self

variable [DecidableEq α]

/-- One event of a thread that is somewhere in the loop. -/
theorem run_event {pc : Pc α} {phase : Phase α} {e : Event α} {t : Atomic ι α}
    (hpc : s.pc i = pc) (hphase : pc.phase = phase)
    (h : s.atomic.phase i = phase → s.atomic.step (i, e) = some t) :
  run Atomic.step s.atomic [(i, e)] = some t
  := by
  have hatomic : s.atomic.phase i = phase := (congrArg Pc.phase hpc).trans hphase
  rw [run_cons, h hatomic]
  rfl

/-- A swap writes the value, or leaves the target as it was. -/
theorem step_swap {value snapshot : α} (hpc : s.pc i = .swap value snapshot) :
  (s.target = snapshot ∧ step s (.next i) = some { s.goto i .leave with target := value }) ∨
    (s.target ≠ snapshot ∧ step s (.next i) = some (s.goto i (.load value)))
  := by
  by_cases heq : s.target = snapshot
  · left
    use heq
    rw [step, hpc]
    simp only [cas, if_pos heq, if_true]
  · right
    use heq
    rw [step, hpc]
    simp only [cas, if_neg heq]
    rfl

/-- A step of a loop is matched by the event that it shows. -/
theorem step_matched (h : step s a = some s') :
  run Atomic.step s.atomic (emit s a).toList = some s'.atomic
  := by
  cases a with
  | call i value =>
      cases hpc : s.pc i with
      | idle =>
          rw [step, hpc] at h
          cases h
          rw [State.atomic_goto]
          apply run_event hpc rfl
          intro hphase
          rw [Atomic.step, hphase]
          rfl
      | load _ | swap _ _ | leave =>
          rw [step, hpc] at h
          cases h
  | next i =>
      cases hpc : s.pc i with
      | idle =>
          rw [step, hpc] at h
          cases h
      | load value =>
          rw [step, hpc] at h
          cases h
          rw [State.atomic_goto_of_phase, emit, hpc]
          · rfl
          · rw [hpc]
            rfl
      | swap value snapshot =>
          rcases step_swap hpc with ⟨heq, hstep⟩ | ⟨hne, hstep⟩
          · cases hstep.symm.trans h
            have hemit : emit s (.next i) = some (i, .write value) := by
              rw [emit, hpc]
              simp [cas, heq]
            rw [hemit]
            apply run_event hpc rfl
            intro hphase
            rw [Atomic.step, hphase]
            show (if value = value then _ else none) = _
            rw [if_pos rfl]
            exact congrArg (fun t : Atomic ι α => some { t with target := value })
              (s.atomic_goto i .leave).symm
          · -- the thread starts over and is still to write its value
            cases hstep.symm.trans h
            have hemit : emit s (.next i) = none := by
              rw [emit, hpc]
              simp [cas, hne]
            rw [hemit, State.atomic_goto_of_phase]
            · rfl
            · rw [hpc]
              rfl
      | leave =>
          rw [step, hpc] at h
          cases h
          rw [State.atomic_goto, emit, hpc]
          apply run_event hpc rfl
          intro hphase
          rw [Atomic.step, hphase]
          rfl
  | store i value =>
      cases hpc : s.pc i with
      | idle =>
          rw [step, hpc] at h
          cases h
          apply run_event hpc rfl
          intro hphase
          rw [Atomic.step, hphase]
          rfl
      | load _ | swap _ _ | leave =>
          rw [step, hpc] at h
          cases h

theorem showsWrites (s : State ι α) (a : Action ι α) :
  ShowsWrites step s a
  := by
  intro s' h
  have htarget := Atomic.target_run (step_matched h)
  cases hemit : emit s a with
  | none =>
      rw [hemit] at htarget
      exact htarget
  | some e =>
      rw [hemit, Option.toList_some, lastWritten, List.filterMap_cons] at htarget
      rw [Option.bind_some]
      cases hwritten : e.2.written with
      | none =>
          rw [hwritten] at htarget
          exact htarget
      | some value =>
          rw [hwritten] at htarget
          exact htarget

/-- A thread whose snapshot is the target swaps its value in and returns. -/
theorem returns_of_swap {value : α} (hpc : s.pc i = .swap value s.target) :
  ∃ s', run step s (List.replicate 2 (.next i)) = some s' ∧ s'.pc i = .idle
  := by
  obtain ⟨-, hstep⟩ | ⟨hne, -⟩ := step_swap hpc
  · let s' : State ι α := { s.goto i .leave with target := value }
    have hleave : s'.pc i = .leave := Function.update_self i _ _
    refine ⟨s'.goto i .idle, ?_, Function.update_self i _ _⟩
    rw [List.replicate_succ, run_cons, hstep, Option.bind_some, List.replicate_one, run_cons, step,
      hleave]
    rfl
  · cases hne rfl

/-- A thread that is about to load returns in its next three steps. -/
theorem returns_of_load {value : α} (hpc : s.pc i = .load value) :
  ∃ s', run step s (List.replicate 3 (.next i)) = some s' ∧ s'.pc i = .idle
  := by
  have hstep : step s (.next i) = some (s.goto i (.swap value s.target)) := by
    rw [step, hpc]
  rw [List.replicate_succ, run_cons, hstep, Option.bind_some]
  apply returns_of_swap
  apply Function.update_self

/-- A thread that is left alone fails to swap once at most. -/
theorem returns_alone (s : State ι α) (i : ι) :
  ∃ n ≤ 4, ∃ s', run step s (List.replicate n (.next i)) = some s' ∧ s'.pc i = .idle
  := by
  cases hpc : s.pc i with
  | idle => exact ⟨0, by decide, s, rfl, hpc⟩
  | load value => exact ⟨3, by decide, returns_of_load hpc⟩
  | swap value snapshot =>
      obtain ⟨rfl, -⟩ | ⟨-, hstep⟩ := step_swap hpc
      · exact ⟨2, by decide, returns_of_swap hpc⟩
      · refine ⟨4, by decide, ?_⟩
        rw [List.replicate_succ, run_cons, hstep, Option.bind_some]
        apply returns_of_load
        apply Function.update_self
  | leave =>
      refine ⟨1, by decide, s.goto i .idle, ?_, Function.update_self i _ _⟩
      rw [List.replicate_one, run_cons, step, hpc]
      rfl

/-- The loop on a target of any type refines atomic stores. -/
theorem step_refinesStore {target : α} {schedule : List (Action ι α)}
    (hrun : run step (State.init target) schedule = some s) :
  RefinesStore step target schedule s
  := by
  have hatomic : run Atomic.step (State.init target).atomic
      (trace step emit (State.init target) schedule) = some s.atomic :=
    run_trace (φ := State.atomic) step_matched hrun
  exact
    { atomic := hatomic
      writesOnce := Atomic.writesOnce hatomic
      showsWrites := allSteps_of_forall showsWrites _ _
      target := Atomic.target_run hatomic
      returns := returns_alone s }

end Refinement

/-- `cas_loop_int32` and `cas_loop_uint32` refine atomic stores, in any run of any threads that also
store to the target. -/
theorem casLoop_refines_store [DecidableEq ι] :
  (∀ (target : Int32) (schedule : List (Action ι Int32)) (s : State ι Int32),
      run casLoopInt32 (.init target) schedule = some s →
      RefinesStore casLoopInt32 target schedule s) ∧
    ∀ (target : UInt32) (schedule : List (Action ι UInt32)) (s : State ι UInt32),
      run casLoopUint32 (.init target) schedule = some s →
      RefinesStore casLoopUint32 target schedule s
  := by
  constructor
  · intro target schedule s hrun
    apply step_refinesStore hrun
  · intro target schedule s hrun
    apply step_refinesStore hrun

/-- The first thread loads the target, which a store changes, so that its swap fails; it loads the
target again, which a store changes and a second call changes back before the swap. -/
def changedBack (α : Type) [OfNat α 5] [OfNat α 7] [OfNat α 9] : List (Action Bool α) :=
  [.call false 5, .next false, .store true 7, .next false, .next false, .store true 9,
    .call true 7, .next true, .next true, .next true, .next false, .next false]

theorem casLoop_refines_store_changed_back :
  (∃ s, run casLoopInt32 (State.init 0) (changedBack Int32) = some s ∧ s.target = 5 ∧
      trace casLoopInt32 emit (.init 0) (changedBack Int32)
        = [(false, .start 5), (true, .store 7), (true, .store 9), (true, .start 7),
          (true, .write 7), (true, .ret), (false, .write 5), (false, .ret)] ∧
      RefinesStore casLoopInt32 0 (changedBack Int32) s) ∧
    ∃ s, run casLoopUint32 (State.init 0) (changedBack UInt32) = some s ∧ s.target = 5 ∧
      trace casLoopUint32 emit (.init 0) (changedBack UInt32)
        = [(false, .start 5), (true, .store 7), (true, .store 9), (true, .start 7),
          (true, .write 7), (true, .ret), (false, .write 5), (false, .ret)] ∧
      RefinesStore casLoopUint32 0 (changedBack UInt32) s
  := by
  constructor
  · refine ⟨_, rfl, rfl, rfl, ?_⟩
    apply casLoop_refines_store.1 _ _ _ rfl
  · refine ⟨_, rfl, rfl, rfl, ?_⟩
    apply casLoop_refines_store.2 _ _ _ rfl

end CasLoop
