import Nextgen.Syscall.FuzzLoop

/-!
# Results of tests

The calls that `start_syscall_child` makes, counted.  The block after `setjmp` logs a result and
frees arguments whenever `did_jump` is `NX_YES`.  That is the value zero, which the context of a
new child holds, and nothing ever resets it.
-/

universe u

open Transition Epoch

namespace FuzzLoop

/-- The numbers of calls of `log_results` and of `free_old_arguments` made, of executions of
`test_syscall` that have ended, and of calls of `generate_test_case` that have succeeded. -/
structure Tally where
  logged : ℕ
  tested : ℕ
  freed : ℕ
  generated : ℕ
  deriving DecidableEq

/-- A child with its calls counted. -/
structure Counted (S : Type u) where
  child : Child S
  tally : Tally
  deriving DecidableEq

variable {S : Type u}

/-- One if the call at a point of the program has been entered. -/
def Action.entered : Action S → ℕ
  | .exec _ _ _ => 1
  | .signal _ done => if 0 < done then 1 else 0

/-- One if the call has returned with the given success. -/
def Action.returned (success : Bool) : Action S → ℕ
  | .exec _ ok _ => if ok = success then 1 else 0
  | .signal _ _ => 0

/-- The calls of `log_results` made in a step. -/
def Action.logged (a : Action S) : Pc → ℕ
  | .jumpLog | .logResults => a.entered
  | _ => 0

/-- The executions of `test_syscall` that end in a step.  It returns without a system call when
there is no entry. -/
def Action.tested (a : Action S) : Pc → ℕ
  | .testAlarm => a.returned false
  | .testCall => a.entered
  | _ => 0

/-- The calls of `free_old_arguments` made in a step. -/
def Action.freed (a : Action S) : Pc → ℕ
  | .jumpFree | .freeArguments => a.entered
  | _ => 0

/-- The calls of `generate_test_case`, of which `log_arguments` is the last one, that succeed in a
step. -/
def Action.generated (a : Action S) : Pc → ℕ
  | .logArguments => a.returned true
  | _ => 0

/-- Count a step at a point of the program. -/
def Tally.count (t : Tally) (a : Action S) (pc : Pc) : Tally where
  logged := t.logged + a.logged pc
  tested := t.tested + a.tested pc
  freed := t.freed + a.freed pc
  generated := t.generated + a.generated pc

/-- A step of the child, counted. -/
def countedStep (s : Counted S) (a : Action S) : Option (Counted S) :=
  (step s.child a).map fun child => ⟨child, s.tally.count a s.child.pc⟩

/-- A child with the context of `init_child_context`, whose `did_jump` is zero, that enters
`start_syscall_child`. -/
def Counted.init (t : ThreadCtx S) : Counted S :=
  ⟨enter .dumb .yes t, 0, 0, 0, 0⟩

/-- At the test of the loop, every test that has ended has one logged result, and every test
case that was generated has been freed. -/
def OneResult (s : Counted S) : Prop :=
  s.child.pc = .loopTest →
    s.tally.logged = s.tally.tested ∧ s.tally.freed = s.tally.generated

/-! ### The block after the jump runs ahead -/

/-- The number by which the logged results exceed the tests that have ended, at least. -/
def logAhead : Pc → ℕ
  | .jumpFree | .jumpStop | .leaveStop | .loopTest | .loopStart | .pickSyscall
  | .generateArguments | .mutateArguments | .logArguments | .loopStop | .testAlarm | .testCall
  | .freeArguments => 1
  | _ => 0

/-- The number by which the calls of `free_old_arguments` exceed the test cases generated, at
least. -/
def freeAhead : Pc → ℕ
  | .jumpStop | .leaveStop | .loopTest | .loopStart | .pickSyscall | .generateArguments
  | .mutateArguments | .logArguments => 1
  | _ => 0

/-- A child in dumb mode whose `did_jump` is `NX_YES` runs ahead with its logging and freeing. -/
structure Ahead (s : Counted S) : Prop where
  mode : s.child.mode = .dumb
  didJump : s.child.didJump = .yes
  logged : s.tally.tested + logAhead s.child.pc ≤ s.tally.logged
  freed : s.tally.generated + freeAhead s.child.pc ≤ s.tally.freed

/-- A step from one point of the program to another counts enough calls for the child to be ahead
there as well. -/
def Action.Keeps (a : Action S) (pc pc' : Pc) : Prop :=
  a.tested pc + logAhead pc' ≤ logAhead pc + a.logged pc ∧
    a.generated pc + freeAhead pc' ≤ freeAhead pc + a.freed pc

section Steps

variable {s s' : Child S} {o : Outcome S} {ok stop : Bool}

theorem exec_keeps (hmode : s.mode = .dumb) (hjump : s.didJump = .yes)
    (h : exec s o ok stop = some s') :
  (Action.exec o ok stop).Keeps s.pc s'.pc
  := by
  rw [(exec_follows h).pc, Child.next, hmode, hjump]
  cases s.pc
  all_goals
    cases ok <;> cases stop <;>
      exact ⟨Nat.le_of_ble_eq_true rfl, Nat.le_of_ble_eq_true rfl⟩

/-- A signal leads to the test of `did_jump`, where the child need not be ahead. -/
theorem signal_keeps (hmode : s.mode = .dumb) {done : ℕ}
    (h : step s (.signal o done) = some s') :
  (Action.signal o done).Keeps s.pc s'.pc
  := by
  rw [(signal_follows h).1, hmode]
  cases s.pc
  all_goals
    cases done <;> exact ⟨Nat.le_of_ble_eq_true rfl, Nat.le_of_ble_eq_true rfl⟩

/-- Nothing resets `did_jump`. -/
theorem step_didJump {a : Action S} (hjump : s.didJump = .yes) (h : step s a = some s') :
  s'.mode = s.mode ∧ s'.didJump = .yes
  := by
  cases a with
  | exec o ok stop =>
      have hfollows := exec_follows h
      exact ⟨hfollows.mode, hfollows.didJump.trans hjump⟩
  | signal o done =>
      obtain ⟨-, hmode, hjump', -, -⟩ := signal_follows h
      exact ⟨hmode, hjump'⟩

end Steps

theorem countedStep_ahead {s s' : Counted S} {a : Action S} (h : Ahead s)
    (hstep : countedStep s a = some s') :
  Ahead s'
  := by
  obtain ⟨child, hchild, rfl⟩ := Option.map_eq_some_iff.mp hstep
  obtain ⟨hmode, hjump⟩ := step_didJump h.didJump hchild
  obtain ⟨hlog, hfree⟩ : a.Keeps s.child.pc child.pc := by
    cases a with
    | exec o ok stop => apply exec_keeps h.mode h.didJump hchild
    | signal o done => apply signal_keeps h.mode hchild
  have hlogged := h.logged
  have hfreed := h.freed
  refine ⟨hmode.trans h.mode, hjump, ?_, ?_⟩
  · simp only [Tally.count]
    omega
  · simp only [Tally.count]
    omega

/-! ### Runs -/

/-- A run of a child that starts with the context of `init_child_context` has one logged result
for each test, and one call of `free_old_arguments` for each test case, if and only if it never
comes to the test of the loop. -/
theorem oneResult_iff (t : ThreadCtx S) (actions : List (Action S)) :
  AllStates countedStep OneResult (Counted.init t) actions ↔
    AllStates countedStep (fun s => s.child.pc ≠ .loopTest) (Counted.init t) actions
  := by
  have hinit : Ahead (Counted.init t) := ⟨rfl, rfl, Nat.le_refl 0, Nat.le_refl 0⟩
  have hahead : AllStates countedStep Ahead (Counted.init t) actions :=
    allStates_of_step countedStep_ahead hinit actions
  constructor
  · intro hone
    apply hahead.imp₂ _ hone
    intro s h hone hpc
    have hlogged := h.logged
    rw [hpc, (hone hpc).1] at hlogged
    apply Nat.not_succ_le_self _ hlogged
  · intro hnever
    apply hahead.imp₂ _ hnever
    intro s _ hne hpc
    cases hne hpc

/-- A new child up to its first test of the loop, at which a result has been logged and arguments
have been freed, but no test has been made. -/
theorem oneResult_not_first :
  ¬ AllStates countedStep OneResult (Counted.init newThread)
    (List.replicate 9 (.exec ⟨true, true, 0⟩ true false))
  := by
  intro hall
  let t₁ : ThreadCtx ℕ := ⟨some (.null :: .null :: List.replicate 6 .uninit), 0, 8⟩
  let s : Counted ℕ := ⟨⟨.dumb, .loopTest, some t₁, .yes, true⟩, 1, 0, 1, 0⟩
  have hrun : run countedStep (Counted.init newThread)
      (List.replicate 9 (.exec ⟨true, true, 0⟩ true false)) = some s := by
    decide +kernel
  cases (hall.at_run hrun rfl).1

end FuzzLoop
