import Nextgen.Syscall.FuzzLoop

/-!
# The alarm of a test

`test_syscall` arms an alarm for a system call that may block.  The alarm is never cancelled, so
that it may go off at any later moment until it has gone off once or is armed again.
-/

universe u

open Transition Epoch
open Syscall (YesNo)

namespace FuzzLoop

/-- A child with its alarm.  `needAlarm` is that of the child context, `begun` says that the
first statement of `test_syscall` has been executed, `test` counts the calls of `test_syscall`,
and `pending` is the test whose alarm has not gone off. -/
structure Alarmed (S : Type u) where
  child : Child S
  needAlarm : YesNo
  begun : Bool
  test : ℕ
  pending : Option ℕ
  deriving DecidableEq

/-- The child makes its next call, where `need` is the `need_alarm` of the entry that
`pick_syscall` picks; it catches a signal other than `SIGALRM`; or its alarm goes off. -/
inductive AlarmAction (S : Type u) where
  | exec (o : Outcome S) (ok stop : Bool) (need : YesNo)
  | signal (o : Outcome S) (done : ℕ)
  | sigalrm (o : Outcome S) (done : ℕ)

variable {S : Type u}

/-- The first statement of `test_syscall`. -/
def Alarmed.arm (s : Alarmed S) : Alarmed S :=
  { s with
    begun := true
    test := s.test + 1
    pending := if s.needAlarm = .yes then some (s.test + 1) else s.pending }

/-- A step of the child or of its alarm. -/
def alarmStep (s : Alarmed S) : AlarmAction S → Option (Alarmed S)
  | .exec o ok stop need =>
      if s.child.pc = .testAlarm ∧ s.begun = false then some s.arm
      else (exec s.child o ok stop).map fun child =>
        { s with
          child := child
          begun := false
          needAlarm := if s.child.pc = .pickSyscall ∧ ok then need else s.needAlarm }
  | .signal o done =>
      (step s.child (.signal o done)).map fun child => { s with child := child, begun := false }
  | .sigalrm o done =>
      if s.pending = none then none
      else (step s.child (.signal o done)).map fun child =>
        { s with child := child, begun := false, pending := none }

/-- A child with the context of `init_child_context` that enters `start_syscall_child`. -/
def Alarmed.init (t : ThreadCtx S) : Alarmed S :=
  ⟨enter .dumb .yes t, .yes, false, 0, none⟩

/-- When `SIGALRM` is delivered, the child is inside the system call of the test that armed the
alarm. -/
def Timely (s : Alarmed S) : Prop :=
  ∀ o done s', alarmStep s (.sigalrm o done) = some s' →
    s.child.pc = .testCall ∧ s.pending = some s.test

/-- No test is begun that needs an alarm. -/
def NoAlarm (s : Alarmed S) : AlarmAction S → Prop
  | .exec _ _ _ _ => s.child.pc = .testAlarm → s.begun = false → s.needAlarm = .no
  | .signal _ _ | .sigalrm _ _ => True

instance : ∀ (s : Alarmed S) (a : AlarmAction S), Decidable (NoAlarm s a)
  | s, .exec _ _ _ _ => inferInstanceAs
      (Decidable (s.child.pc = .testAlarm → s.begun = false → s.needAlarm = .no))
  | _, .signal _ _ | _, .sigalrm _ _ => isTrue trivial

/-! ### When the alarm can go off -/

/-- The points of the program that are reached without a call of `setjmp`. -/
def Pc.withoutJump : Pc → Bool
  | .entry | .getChild | .setjmp | .exitStart | .exitCleanup | .exitStopAll | .exitCleanThread
  | .exitRelease | .exited => true
  | _ => false

/-- The jump buffer is set in the loop. -/
def JumpReady (s : Alarmed S) : Prop :=
  s.child.jumpSet = true ∨ s.child.pc.withoutJump = true

section Steps

variable {s s' : Alarmed S} {a : AlarmAction S}

theorem exec_jumpReady {c c' : Child S} {o : Outcome S} {ok stop : Bool}
    (h : c.jumpSet = true ∨ c.pc.withoutJump = true) (hexec : exec c o ok stop = some c') :
  c'.jumpSet = true ∨ c'.pc.withoutJump = true
  := by
  have hfollows := exec_follows hexec
  rcases h with hset | hpc
  · left
    rw [hfollows.jumpSet, hset, Bool.true_or]
  · rw [hfollows.pc, hfollows.jumpSet, Child.next]
    revert hpc
    cases c.pc
    case setjmp =>
      intro _
      left
      apply Bool.or_true
    case getChild =>
      intro _
      right
      cases ok <;> rfl
    case entry | exitStart | exitCleanup | exitStopAll | exitCleanThread | exitRelease | exited =>
      intro _
      right
      rfl
    all_goals
      intro hpc
      cases hpc

theorem alarmStep_jumpReady (h : JumpReady s) (hstep : alarmStep s a = some s') :
  JumpReady s'
  := by
  cases a with
  | exec o ok stop need =>
      simp only [alarmStep] at hstep
      split at hstep
      · cases hstep
        apply h
      · obtain ⟨child, hexec, rfl⟩ := Option.map_eq_some_iff.mp hstep
        apply exec_jumpReady h hexec
  | signal o done =>
      obtain ⟨child, hsignal, rfl⟩ := Option.map_eq_some_iff.mp hstep
      obtain ⟨-, -, -, hset, -⟩ := signal_follows hsignal
      exact .inl hset
  | sigalrm o done =>
      simp only [alarmStep] at hstep
      split at hstep
      · cases hstep
      · obtain ⟨child, hsignal, rfl⟩ := Option.map_eq_some_iff.mp hstep
        obtain ⟨-, -, -, hset, -⟩ := signal_follows hsignal
        exact .inl hset

/-- An alarm that has been armed can go off before the system call is entered. -/
theorem not_timely_arm (h : JumpReady s) (o : Outcome S) (hpc : s.child.pc = .testAlarm)
    (hneed : s.needAlarm = .yes) :
  ¬ Timely s.arm
  := by
  intro htimely
  have hset : s.child.jumpSet = true := by
    rcases h with hset | hwithout
    · apply hset
    · rw [hpc] at hwithout
      cases hwithout
  have hstep : alarmStep s.arm (.sigalrm o 0) ≠ none := by
    simp [alarmStep, Alarmed.arm, hneed, step, hset, hpc]
  obtain ⟨s', hs'⟩ := Option.ne_none_iff_exists'.mp hstep
  have htest := (htimely o 0 s' hs').1
  cases hpc.symm.trans htest

/-- Without a test that needs an alarm, none is armed. -/
theorem alarmStep_pending (h : s.pending = none) (hno : NoAlarm s a)
    (hstep : alarmStep s a = some s') :
  s'.pending = none
  := by
  cases a with
  | exec o ok stop need =>
      simp only [alarmStep] at hstep
      split at hstep
      · rename_i harm
        cases hstep
        rw [Alarmed.arm, hno harm.1 harm.2, h]
        rfl
      · obtain ⟨child, -, rfl⟩ := Option.map_eq_some_iff.mp hstep
        apply h
  | signal o done =>
      obtain ⟨child, -, rfl⟩ := Option.map_eq_some_iff.mp hstep
      apply h
  | sigalrm o done =>
      rw [alarmStep, if_pos h] at hstep
      cases hstep

end Steps

/-! ### Runs -/

/-- Along a run of a child, `SIGALRM` can only be delivered inside the system call of the test
that armed the alarm, if and only if the run begins no test that needs an alarm. -/
theorem timely_iff (t : ThreadCtx S) (actions : List (AlarmAction S)) :
  AllStates alarmStep Timely (Alarmed.init t) actions ↔
    AllSteps alarmStep NoAlarm (Alarmed.init t) actions
  := by
  constructor
  · intro htimely
    have hinit : JumpReady (Alarmed.init t) := .inr rfl
    apply allSteps_of_allStates alarmStep_jumpReady _ hinit htimely
    intro s a hready _ hnext
    cases a with
    | exec o ok stop need =>
        intro hpc hbegun
        cases hneed : s.needAlarm with
        | no => rfl
        | yes =>
            cases not_timely_arm hready o hpc hneed (hnext s.arm (if_pos ⟨hpc, hbegun⟩))
    | signal o done => trivial
    | sigalrm o done => trivial
  · intro hno
    have hinit : (Alarmed.init t).pending = none := rfl
    apply allStates_of_invariant alarmStep_pending _ hinit hno
    intro s hpending o done s' hstep
    rw [alarmStep, if_pos hpending] at hstep
    cases hstep

/-- A child that tests a system call that returns before its alarm goes off, and then generates
the arguments of its next test. -/
def earlyRun : List (AlarmAction ℕ) :=
  List.replicate 24 (.exec ⟨true, true, 0⟩ true false .yes)

/-- The alarm of the first test can go off while the arguments of the second are generated. -/
theorem timely_not_early :
  ¬ AllStates alarmStep Timely (Alarmed.init newThread) earlyRun
  := by
  intro hall
  let t₁ : ThreadCtx ℕ := ⟨some (.ptr 0 :: .null :: List.replicate 6 .uninit), 1, 8⟩
  let s : Alarmed ℕ := ⟨⟨.dumb, .generateArguments, some t₁, .yes, true⟩, .yes, false, 1, some 1⟩
  have hrun : run alarmStep (Alarmed.init newThread) earlyRun = some s := by
    decide +kernel
  cases (hall.at_run hrun ⟨true, true, 0⟩ 0 _ rfl).1

end FuzzLoop
