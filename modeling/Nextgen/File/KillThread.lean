import Nextgen.Lib.Transition
import Mathlib.Data.Nat.Notation
import Mathlib.Logic.Function.Basic

/-!
# The kill thread of the file fuzzer

`run_test_case` of `file-freebsd.c`.  The parent forks the target, starts a thread that kills it
after a second, waits for the target, and joins the thread after that.  Nothing stops the thread
when the target ends before, so that it kills whatever process has the pid by then.
-/

open Transition

namespace KillThread

/-- What the target of a call does unless it is killed. -/
inductive Target where
  | hangs
  | ends
  deriving DecidableEq

/-- The process that has a pid, until it is reaped. -/
inductive Process where
  /-- The target of a call. -/
  | target (call : ℕ) (alive : Bool)
  /-- A process that the fuzzer has nothing to do with. -/
  | foreign (alive : Bool)
  deriving DecidableEq

/-- The process after it has ended. -/
def Process.ended : Process → Process
  | .target call _ => .target call false
  | .foreign _ => .foreign false

/-- Where the parent is in a call, with its variable `child_pid`. -/
inductive Parent where
  /-- Between two calls. -/
  | idle
  /-- Before `pthread_create`. -/
  | forked (childPid : ℕ)
  /-- Before `waitpid`. -/
  | waiting (childPid : ℕ)
  /-- Before `pthread_join`. -/
  | joining (childPid : ℕ)
  deriving DecidableEq

def Parent.childPid : Parent → Option ℕ
  | .idle => none
  | .forked pid | .waiting pid | .joining pid => some pid

/-- The kill thread of the call. -/
inductive Killer where
  | absent
  | sleeping
  | finished
  deriving DecidableEq

/-- The processes, the number of calls that have returned, the parent and the thread. -/
structure State where
  processes : ℕ → Option Process
  call : ℕ
  parent : Parent
  killer : Killer

/-- Where the first call begins. -/
def State.init : State :=
  ⟨fun _ => none, 0, .idle, .absent⟩

/-- The steps of the parent, the thread, the target and the rest of the system. -/
inductive Action where
  /-- `fork`, with the pid of the target if it succeeds. -/
  | fork (pid : Option ℕ)
  /-- `pthread_create`, whose error numbers are not negative and so are not noticed. -/
  | create (ok : Bool)
  /-- The target exits or crashes. -/
  | targetEnds
  /-- `waitpid`, which reaps the target unless it is interrupted. -/
  | wait (interrupted : Bool)
  /-- `kill`, whenever the sleep is over. -/
  | kill
  /-- `pthread_join`, and the call returns. -/
  | join
  /-- Another process gets a free pid. -/
  | spawn (pid : ℕ)
  /-- Another process ends and is reaped. -/
  | leave (pid : ℕ)

/-- A step of a sequence of calls on given targets. -/
def step (targets : List Target) (s : State) : Action → Option State
  | .fork pid =>
      if s.parent = .idle ∧ s.call < targets.length then
        match pid with
        | none => some { s with call := s.call + 1 }
        | some pid =>
            if s.processes pid = none then
              some
                { s with
                  processes := Function.update s.processes pid (some (.target s.call true))
                  parent := .forked pid }
            else none
      else none
  | .create ok =>
      match s.parent with
      | .forked pid =>
          some { s with parent := .waiting pid, killer := if ok then .sleeping else .absent }
      | _ => none
  | .targetEnds =>
      s.parent.childPid.bind fun pid =>
        if s.processes pid = some (.target s.call true) ∧ targets[s.call]? = some .ends then
          some { s with processes := Function.update s.processes pid (some (.target s.call false)) }
        else none
  | .wait interrupted =>
      match s.parent with
      | .waiting pid =>
          if interrupted then some { s with parent := .joining pid }
          else if s.processes pid = some (.target s.call false) then
            some
              { s with
                processes := Function.update s.processes pid none
                parent := .joining pid }
          else none
      | _ => none
  | .kill =>
      if s.killer = .sleeping then
        s.parent.childPid.map fun pid =>
          { s with
            processes :=
              Function.update s.processes pid ((s.processes pid).map Process.ended)
            killer := .finished }
      else none
  | .join =>
      match s.parent with
      | .joining _ =>
          -- the thread that could not be created cannot be joined
          if s.killer = .finished then
            some { s with call := s.call + 1, parent := .idle, killer := .absent }
          else none
      | _ => none
  | .spawn pid =>
      if s.processes pid = none then
        some { s with processes := Function.update s.processes pid (some (.foreign true)) }
      else none
  | .leave pid =>
      match s.processes pid with
      | some (.foreign _) => some { s with processes := Function.update s.processes pid none }
      | _ => none

/-- If the kill thread sends its signal now, then to the target of its call, which has not been
reaped. -/
def KillsOwn (targets : List Target) (s : State) : Prop :=
  step targets s .kill ≠ none → ∃ pid alive, s.parent.childPid = some pid ∧
    s.processes pid = some (.target s.call alive)

/-! ### Targets that hang -/

/-- The target is alive until the thread has sent its signal. -/
def AliveUntilKilled (s : State) : Prop :=
  match s.parent with
  | .idle => s.killer = .absent
  | .forked pid => s.killer = .absent ∧ s.processes pid = some (.target s.call true)
  | .waiting pid | .joining pid =>
      s.killer = .sleeping → s.processes pid = some (.target s.call true)

section Hanging

variable {targets : List Target} {s s' : State}

/-- What the rest of the system does to other processes does not matter. -/
theorem aliveUntilKilled_update {pid : ℕ} {process : Option Process} (h : AliveUntilKilled s)
    (hother : s.processes pid ≠ some (.target s.call true)) :
  AliveUntilKilled { s with processes := Function.update s.processes pid process }
  := by
  have hkeep : ∀ pid', s.processes pid' = some (.target s.call true) →
      Function.update s.processes pid process pid' = some (.target s.call true) := by
    intro pid' hpid'
    rw [Function.update_of_ne, hpid']
    rintro rfl
    apply hother hpid'
  unfold AliveUntilKilled at h ⊢
  cases hparent : s.parent with
  | idle =>
      simp only [hparent] at h ⊢
      apply h
  | forked childPid =>
      simp only [hparent] at h ⊢
      exact ⟨h.1, hkeep childPid h.2⟩
  | waiting childPid | joining childPid =>
      simp only [hparent] at h ⊢
      intro hsleeping
      apply hkeep childPid (h hsleeping)

/-- The target of a call is alive when the call has forked it. -/
theorem fork_aliveUntilKilled {pid : Option ℕ} (h : AliveUntilKilled s)
    (hstep : step targets s (.fork pid) = some s') :
  AliveUntilKilled s'
  := by
  simp only [step] at hstep
  split at hstep
  · rename_i hidle
    have habsent : s.killer = .absent := by
      simpa only [AliveUntilKilled, hidle.1] using h
    cases pid with
    | none =>
        cases hstep
        simpa only [AliveUntilKilled, hidle.1] using habsent
    | some pid =>
        simp only at hstep
        split at hstep
        · cases hstep
          exact ⟨habsent, Function.update_self ..⟩
        · cases hstep
  · cases hstep

/-- A target that is alive is not reaped. -/
theorem wait_aliveUntilKilled {interrupted : Bool} (h : AliveUntilKilled s)
    (hstep : step targets s (.wait interrupted) = some s') :
  AliveUntilKilled s'
  := by
  rw [step] at hstep
  split at hstep
  · rename_i pid hwaiting
    simp only [AliveUntilKilled, hwaiting] at h
    cases interrupted with
    | true =>
        cases hstep
        apply h
    | false =>
        simp only [Bool.false_eq_true, if_false] at hstep
        split at hstep
        · rename_i hended
          cases hstep
          intro hsleeping
          cases hended.symm.trans (h hsleeping)
        · cases hstep
  · cases hstep

/-- Nothing is asked of the target once the thread has sent its signal. -/
theorem kill_aliveUntilKilled (h : AliveUntilKilled s) (hstep : step targets s .kill = some s') :
  AliveUntilKilled s'
  := by
  rw [step] at hstep
  split at hstep
  · rename_i hsleeping
    obtain ⟨pid, hpid, rfl⟩ := Option.map_eq_some_iff.mp hstep
    cases hparent : s.parent with
    | idle =>
        rw [hparent] at hpid
        cases hpid
    | forked childPid =>
        simp only [AliveUntilKilled, hparent] at h
        cases hsleeping.symm.trans h.1
    | waiting childPid | joining childPid =>
        simp only [AliveUntilKilled]
        nofun
  · cases hstep

/-- When all targets hang, the target of a call is alive until it is killed. -/
theorem step_aliveUntilKilled (hhang : ∀ t ∈ targets, t = .hangs) {a : Action}
    (h : AliveUntilKilled s) (hstep : step targets s a = some s') :
  AliveUntilKilled s'
  := by
  cases a with
  | fork pid => apply fork_aliveUntilKilled h hstep
  | create ok =>
      rw [step] at hstep
      split at hstep
      · rename_i pid hforked
        cases hstep
        simp only [AliveUntilKilled, hforked] at h
        intro _
        apply h.2
      · cases hstep
  | targetEnds =>
      -- no target ends by itself
      obtain ⟨pid, -, hstep⟩ := Option.bind_eq_some_iff.mp hstep
      split at hstep
      · rename_i hends
        cases hhang .ends (List.mem_of_getElem? hends.2)
      · cases hstep
  | wait interrupted => apply wait_aliveUntilKilled h hstep
  | kill => apply kill_aliveUntilKilled h hstep
  | join =>
      rw [step] at hstep
      split at hstep
      · split at hstep
        · cases hstep
          rfl
        · cases hstep
      · cases hstep
  | spawn pid =>
      rw [step] at hstep
      split at hstep
      · rename_i hfree
        cases hstep
        apply aliveUntilKilled_update h
        rw [hfree]
        nofun
      · cases hstep
  | leave pid =>
      rw [step] at hstep
      split at hstep
      · rename_i alive hforeign
        cases hstep
        apply aliveUntilKilled_update h
        rw [hforeign]
        nofun
      · cases hstep

theorem killsOwn_of_aliveUntilKilled (h : AliveUntilKilled s) :
  KillsOwn targets s
  := by
  intro hkill
  rw [step] at hkill
  split at hkill
  · rename_i hsleeping
    unfold AliveUntilKilled at h
    cases hparent : s.parent with
    | idle => simp [hparent, Parent.childPid] at hkill
    | forked pid => simp [hparent, hsleeping] at h
    | waiting pid | joining pid =>
        simp only [hparent] at h
        exact ⟨pid, true, rfl, h hsleeping⟩
  · cases hkill rfl

end Hanging

/-! ### A target that ends -/

/-- Before a call of a number, without any process. -/
def State.before (call : ℕ) : State :=
  ⟨fun _ => none, call, .idle, .absent⟩

/-- A call whose target is killed in time. -/
def killedCall : List Action :=
  [.fork (some 1), .create true, .kill, .wait false, .join]

/-- A call whose target ends and is reaped while the thread sleeps. -/
def earlyEnd : List Action :=
  [.fork (some 1), .create true, .targetEnds, .wait false]

theorem run_killedCall {targets : List Target} {call : ℕ} (h : call < targets.length) :
  run (step targets) (State.before call) killedCall = some (State.before (call + 1))
  := by
  simp [run, killedCall, step, State.before, h, Parent.childPid, Process.ended]

/-- Any number of calls can have their targets killed in time. -/
theorem run_killedCalls {targets : List Target} {call : ℕ} (h : call ≤ targets.length) :
  run (step targets) State.init (List.replicate call killedCall).flatten = some (State.before call)
  := by
  induction call with
  | zero => rfl
  | succ call ih =>
      rw [List.replicate_succ', List.flatten_append, run_append, ih (Nat.le_of_succ_le h),
        List.flatten_singleton]
      apply run_killedCall h

/-- The thread of a call whose target ends early has no process to kill. -/
theorem not_killsOwn_earlyEnd {targets : List Target} {call : ℕ} (hlt : call < targets.length)
    (hends : targets[call] = .ends) :
  ∃ s, run (step targets) (State.before call) earlyEnd = some s ∧ ¬ KillsOwn targets s
  := by
  let s : State := ⟨fun _ => none, call, .joining 1, .sleeping⟩
  have hrun : run (step targets) (State.before call) earlyEnd = some s := by
    simp [run, earlyEnd, step, State.before, hlt, hends, Parent.childPid, s]
  use s, hrun
  intro hkills
  obtain ⟨pid, alive, -, hprocess⟩ := hkills nofun
  cases hprocess

/-- For every sequence of calls, the kill thread signals only targets of its own call that have not
been reaped, in every schedule, if and only if all targets hang. -/
theorem killsOwn_iff (targets : List Target) :
  (∀ schedule, AllStates (step targets) (KillsOwn targets) State.init schedule) ↔
    ∀ t ∈ targets, t = .hangs
  := by
  constructor
  · intro hall t ht
    cases t with
    | hangs => rfl
    | ends =>
        obtain ⟨call, hlt, hends⟩ := List.getElem_of_mem ht
        obtain ⟨s, hearly, hnot⟩ := not_killsOwn_earlyEnd hlt hends
        have hrun := run_append (step targets) State.init
          (List.replicate call killedCall).flatten earlyEnd
        rw [run_killedCalls (Nat.le_of_lt hlt), Option.bind_some, hearly] at hrun
        cases hnot ((hall _).at_run hrun)
  · intro hhang schedule
    have hinit : AliveUntilKilled State.init := rfl
    have hall : AllStates (step targets) AliveUntilKilled State.init schedule :=
      allStates_of_step (step_aliveUntilKilled hhang) hinit schedule
    apply hall.imp
    intro s h
    apply killsOwn_of_aliveUntilKilled h

/-- A target that exits is reaped, its pid goes to another process, and the thread kills that. -/
theorem killsOwn_not_ends :
  ¬ AllStates (step [.ends]) (KillsOwn [.ends]) State.init
    [.fork (some 1), .create true, .targetEnds, .wait false, .spawn 1]
  := by
  intro hall
  obtain ⟨pid, alive, hpid, hprocess⟩ := hall.at_run rfl nofun
  cases hpid
  cases hprocess

end KillThread
