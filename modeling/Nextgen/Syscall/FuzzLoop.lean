import Nextgen.Concurrent.Epoch
import Nextgen.Syscall.Entry

/-!
# The loop of a fuzzing child

`start_syscall_child` and `start_smart_syscall_child`, with `exit_child`, as programs over
the epoch sections of the child's thread.  A signal that the child catches returns control
to the point after `setjmp` with `did_jump` set, whatever the child was doing; it may also
arrive inside `epoch_start`, `epoch_stop` or `stop_all_sections`, when only a part of their
stores have been made.
-/

universe u

open Transition Epoch
open Syscall (YesNo)

namespace FuzzLoop

/-- Dumb mode runs `start_syscall_child`, smart mode `start_smart_syscall_child`. -/
inductive Mode where
  | dumb
  | smart
  deriving DecidableEq, Repr

/-- The next call a fuzzing child makes. -/
inductive Pc where
  /-- From the start of the function to `setjmp`. -/
  | entry | getChild | setjmp
  /-- The test of `did_jump` and the block under it. -/
  | resumed | jumpStart | jumpLog | jumpFree | jumpStop
  /-- The last `epoch_stop` before the loop, and the test of the loop. -/
  | leaveStop | loopTest
  /-- The section of the loop around `generate_test_case`. -/
  | loopStart | pickSyscall | generateArguments | mutateArguments | logArguments | loopStop
  /-- `test_syscall`, up to its system call and in it. -/
  | testAlarm | testCall
  /-- The end of the body of the loop. -/
  | logResults | freeArguments
  /-- `exit_child`. -/
  | exitStart | exitCleanup | exitStopAll | exitCleanThread | exitRelease | exited
  deriving DecidableEq, Repr

/-- The points at which `epoch_start` is called. -/
def Pc.isStart : Pc → Bool
  | .entry | .jumpStart | .loopStart | .exitStart => true
  | _ => false

/-- The points at which `epoch_stop` is called. -/
def Pc.isStop : Pc → Bool
  | .jumpStop | .leaveStop | .loopStop => true
  | _ => false

/-- The point to which `setjmp` returns. -/
def resumePoint : Mode → Pc
  | .dumb => .resumed
  | .smart => .leaveStop

/-- A fuzzing child.  Its thread is `none` once `clean_thread` has freed it; `jumpSet` says
that `setjmp` has been called. -/
structure Child (S : Type u) where
  mode : Mode
  pc : Pc
  thread : Option (ThreadCtx S)
  didJump : YesNo
  jumpSet : Bool
  deriving DecidableEq

/-- The child makes its next call, which succeeds or not, or finds `stop` set or not; or it
catches a signal after `done` of the stores of that call. -/
inductive Action (S : Type u) where
  | exec (o : Outcome S) (ok stop : Bool)
  | signal (o : Outcome S) (done : ℕ)

variable {S : Type u}

/-! ### The program -/

/-- `init_syscall_child`, `none` when it exits the child.  The probes it injects in smart mode
never fail. -/
def initSyscallChild (t : ThreadCtx S) (o : Outcome S) : Except Fault (Option (ThreadCtx S)) :=
  (epochStart t o).bind fun (rtrn, t) =>
    if rtrn = -1 then .ok none else (epochStop t).map fun (_, t) => some t

/-- Call `epoch_start`, whose result is not looked at, and go on at `next`. -/
def startAt (s : Child S) (o : Outcome S) (next : Pc) : Option (Child S) :=
  match s.thread with
  | none => none
  | some t =>
      match epochStart t o with
      | .error _ => none
      | .ok (_, t) => some { s with thread := some t, pc := next }

/-- Call `epoch_stop` and go on at `next`. -/
def stopAt (s : Child S) (next : Pc) : Option (Child S) :=
  match s.thread with
  | none => none
  | some t =>
      match epochStop t with
      | .error _ => none
      | .ok (_, t) => some { s with thread := some t, pc := next }

/-- Make a call that exits the child when it fails, and otherwise go on at `next`. -/
def callAt (s : Child S) (ok : Bool) (next : Pc) : Option (Child S) :=
  some { s with pc := if ok then next else .exitStart }

/-- The next call of the child. -/
def exec (s : Child S) (o : Outcome S) (ok stop : Bool) : Option (Child S) :=
  match s.pc with
  | .entry => startAt s o .getChild
  | .getChild => callAt s ok .setjmp
  -- `setjmp` returns zero, and one after `longjmp` with the value zero, so never below zero
  | .setjmp => some { s with pc := resumePoint s.mode, jumpSet := true }
  | .resumed =>
      some { s with pc := if s.didJump = .yes then .jumpStart else .leaveStop }
  | .jumpStart => startAt s o .jumpLog
  | .jumpLog => callAt s ok .jumpFree
  | .jumpFree => callAt s ok .jumpStop
  | .jumpStop => stopAt s .leaveStop
  | .leaveStop => stopAt s .loopTest
  | .loopTest =>
      let body : Pc := match s.mode with
        | .dumb => .loopStart
        | .smart => .loopTest
      some { s with pc := if stop then .exitStart else body }
  | .loopStart => startAt s o .pickSyscall
  | .pickSyscall => callAt s ok .generateArguments
  | .generateArguments => callAt s ok .mutateArguments
  | .mutateArguments => callAt s ok .logArguments
  | .logArguments => callAt s ok .loopStop
  | .loopStop => stopAt s .testAlarm
  | .testAlarm => callAt s ok .testCall
  | .testCall => some { s with pc := .logResults }
  | .logResults => callAt s ok .freeArguments
  | .freeArguments => some { s with pc := .loopTest }
  | .exitStart => startAt s o .exitCleanup
  -- a missing child context and a failed clean-up both go to the label `exit`
  | .exitCleanup => some { s with pc := .exitStopAll }
  | .exitStopAll =>
      match s.thread with
      | none => none
      | some t =>
          match stopAllSections t with
          | .error _ => none
          | .ok (_, t) => some { s with thread := some t, pc := .exitCleanThread }
  | .exitCleanThread => some { s with thread := none, pc := .exitRelease }
  | .exitRelease => some { s with pc := .exited }
  | .exited => none

/-- The thread after `done` of the stores of the call at a program point: `epoch_start` stores
the section before it counts it, `epoch_stop` discounts the section before it ends it, and
`stop_all_sections` ends the sections before it resets the counter. -/
def interrupted (pc : Pc) (o : Outcome S) (done : ℕ) (t : ThreadCtx S) : ThreadCtx S :=
  if pc.isStart ∧ 0 < done then
    match epochStart t o with
    | .error _ => t
    | .ok (_, t') => { t' with sectionCount := t.sectionCount }
  else if pc.isStop ∧ 0 < done then
    { t with sectionCount := u32 (t.sectionCount + (2 ^ 32 - 1)) }
  else if pc = .exitStopAll then
    match stopSections (min done t.sectionCount) 0 t with
    | .error _ => t
    | .ok (_, t') => t'
  else t

/-- A step of the child.  `child_signal_handler` is taken to find the context of the child itself,
in which it sets `did_jump` and through which it jumps. -/
def step (s : Child S) : Action S → Option (Child S)
  | .exec o ok stop => exec s o ok stop
  | .signal o done =>
      if s.jumpSet ∧ s.pc ≠ .exited then
        some { s with
          pc := resumePoint s.mode
          thread := s.thread.map (interrupted s.pc o done)
          didJump := .yes }
      else none

/-! ### Control flow -/

/-- Where the child goes on after the call at its point of the program. -/
def Child.next (s : Child S) (ok stop : Bool) : Pc :=
  let unlessFailed (next : Pc) : Pc := if ok then next else .exitStart
  match s.pc with
  | .entry => .getChild
  | .getChild => unlessFailed .setjmp
  | .setjmp => resumePoint s.mode
  | .resumed => if s.didJump = .yes then .jumpStart else .leaveStop
  | .jumpStart => .jumpLog
  | .jumpLog => unlessFailed .jumpFree
  | .jumpFree => unlessFailed .jumpStop
  | .jumpStop => .leaveStop
  | .leaveStop => .loopTest
  | .loopTest =>
      let body : Pc := match s.mode with
        | .dumb => .loopStart
        | .smart => .loopTest
      if stop then .exitStart else body
  | .loopStart => .pickSyscall
  | .pickSyscall => unlessFailed .generateArguments
  | .generateArguments => unlessFailed .mutateArguments
  | .mutateArguments => unlessFailed .logArguments
  | .logArguments => unlessFailed .loopStop
  | .loopStop => .testAlarm
  | .testAlarm => unlessFailed .testCall
  | .testCall => .logResults
  | .logResults => unlessFailed .freeArguments
  | .freeArguments => .loopTest
  | .exitStart => .exitCleanup
  | .exitCleanup => .exitStopAll
  | .exitStopAll => .exitCleanThread
  | .exitCleanThread => .exitRelease
  | .exitRelease | .exited => .exited

/-- What a call does to a child beside its thread. -/
structure Follows (s : Child S) (ok stop : Bool) (s' : Child S) : Prop where
  pc : s'.pc = s.next ok stop
  mode : s'.mode = s.mode
  didJump : s'.didJump = s.didJump
  jumpSet : s'.jumpSet = (s.jumpSet || s.pc == .setjmp)

section Follows

variable {s s' : Child S} {o : Outcome S} {ok stop : Bool}

theorem startAt_follows {next : Pc} (h : startAt s o next = some s') :
  s'.pc = next ∧ s'.mode = s.mode ∧ s'.didJump = s.didJump ∧ s'.jumpSet = s.jumpSet
  := by
  rw [startAt] at h
  split at h
  · cases h
  · split at h
    · cases h
    · cases h
      exact ⟨rfl, rfl, rfl, rfl⟩

theorem stopAt_follows {next : Pc} (h : stopAt s next = some s') :
  s'.pc = next ∧ s'.mode = s.mode ∧ s'.didJump = s.didJump ∧ s'.jumpSet = s.jumpSet
  := by
  rw [stopAt] at h
  split at h
  · cases h
  · split at h
    · cases h
    · cases h
      exact ⟨rfl, rfl, rfl, rfl⟩

theorem exec_follows (h : exec s o ok stop = some s') :
  Follows s ok stop s'
  := by
  have follows_of_eq : s.pc ≠ .setjmp → s'.pc = s.next ok stop ∧ s'.mode = s.mode ∧
      s'.didJump = s.didJump ∧ s'.jumpSet = s.jumpSet → Follows s ok stop s' := by
    rintro hpc ⟨h₁, h₂, h₃, h₄⟩
    refine ⟨h₁, h₂, h₃, ?_⟩
    rw [h₄, beq_false_of_ne hpc, Bool.or_false]
  cases hpc : s.pc
  all_goals simp only [exec, hpc] at h
  case setjmp =>
    cases h
    constructor
    · rw [Child.next, hpc]
    · rfl
    · rfl
    · rw [hpc, beq_self_eq_true, Bool.or_true]
  case entry | jumpStart | loopStart | exitStart =>
    apply follows_of_eq (by rw [hpc]; decide)
    rw [Child.next, hpc]
    apply startAt_follows h
  case jumpStop | leaveStop | loopStop =>
    apply follows_of_eq (by rw [hpc]; decide)
    rw [Child.next, hpc]
    apply stopAt_follows h
  case exitStopAll =>
    apply follows_of_eq (by rw [hpc]; decide)
    split at h
    · cases h
    · split at h
      · cases h
      · cases h
        rw [Child.next, hpc]
        exact ⟨rfl, rfl, rfl, rfl⟩
  case exited => cases h
  all_goals
    apply follows_of_eq (by rw [hpc]; decide)
    cases h
    rw [Child.next, hpc]
    exact ⟨rfl, rfl, rfl, rfl⟩

/-- What a signal does to a child beside its thread. -/
theorem signal_follows {done : ℕ} (h : step s (.signal o done) = some s') :
  s'.pc = resumePoint s.mode ∧ s'.mode = s.mode ∧ s'.didJump = .yes ∧ s'.jumpSet = true ∧
    s.jumpSet = true
  := by
  simp only [step] at h
  split at h
  · rename_i hset
    cases h
    exact ⟨rfl, rfl, rfl, hset.1, hset.1⟩
  · cases h

end Follows

/-! ### Balanced sections -/

/-- No `epoch_stop` is executed while `section_count` is zero, and it is zero at the test of
the loop. -/
def Balanced (s : Child S) : Prop :=
  (s.pc.isStop → ∃ t, s.thread = some t ∧ t.sectionCount ≠ 0) ∧
    (s.pc = .loopTest → ∃ t, s.thread = some t ∧ t.sectionCount = 0)

/-- No allocation of `epoch_start` fails before `exit_child`, and a signal finds exactly one
section counted. -/
def OneSection (s : Child S) : Action S → Prop
  | .exec o _ _ => s.pc.isStart → s.pc ≠ .exitStart → o.allocOk = true ∧ o.reallocOk = true
  | .signal o done =>
      match s.thread with
      | none => False
      | some t => (interrupted s.pc o done t).sectionCount = 1

instance : ∀ (s : Child S) (a : Action S), Decidable (OneSection s a)
  | s, .exec o _ _ => inferInstanceAs
      (Decidable (s.pc.isStart → s.pc ≠ .exitStart → o.allocOk = true ∧ o.reallocOk = true))
  | ⟨_, _, none, _, _⟩, .signal _ _ => isFalse id
  | ⟨_, pc, some t, _, _⟩, .signal o done =>
      inferInstanceAs (Decidable ((interrupted pc o done t).sectionCount = 1))

/-- The number of sections that are to be counted at a point of the program.  `exit_child`
ends them whatever their number. -/
def depth : Pc → Option ℕ
  | .entry => some 0
  | .getChild | .setjmp | .resumed | .jumpStart => some 1
  | .jumpLog | .jumpFree | .jumpStop => some 2
  | .leaveStop => some 1
  | .loopTest | .loopStart => some 0
  | .pickSyscall | .generateArguments | .mutateArguments | .logArguments | .loopStop => some 1
  | .testAlarm | .testCall | .logResults | .freeArguments => some 0
  | .exitStart | .exitCleanup | .exitStopAll | .exitCleanThread | .exitRelease | .exited => none

/-- The thread counts the sections that are to be counted. -/
def Inv (s : Child S) : Prop :=
  ∀ d, depth s.pc = some d → ∃ t, s.thread = some t ∧ t.sectionCount = d

section Steps

variable {s s' : Child S} {o : Outcome S} {next : Pc} {d : ℕ}

theorem inv_of_depth_none (h : depth s.pc = none) :
  Inv s
  := by
  intro d hd
  rw [h] at hd
  cases hd

/-- The invariant does not depend on `did_jump` and on the jump buffer, and follows from one
point of the program to another with the same number of sections. -/
theorem Inv.goto (h : Inv s) (hdepth : depth next = depth s.pc ∨ depth next = none)
    (didJump : YesNo) (jumpSet : Bool) :
  Inv { s with pc := next, didJump := didJump, jumpSet := jumpSet }
  := by
  intro d hd
  rcases hdepth with hdepth | hdepth
  · apply h d (hdepth.symm.trans hd)
  · cases hdepth.symm.trans hd

theorem callAt_inv {ok : Bool} (h : Inv s) (hdepth : depth next = depth s.pc)
    (hcall : callAt s ok next = some s') :
  Inv s'
  := by
  cases hcall
  apply h.goto
  cases ok with
  | true => exact .inl hdepth
  | false => exact .inr rfl

theorem startAt_inv (h : Inv s) (halloc : o.allocOk = true) (hrealloc : o.reallocOk = true)
    (hd : depth s.pc = some d) (hnext : depth next = some (d + 1)) (hlt : d + 1 < 2 ^ 32)
    (hcall : startAt s o next = some s') :
  Inv s'
  := by
  obtain ⟨t, ht, hcount⟩ := h d hd
  simp only [startAt, ht] at hcall
  split at hcall
  · cases hcall
  · rename_i rtrn t' hstart
    cases hcall
    intro e he
    cases hnext.symm.trans he
    use t', rfl
    rw [epochStart_sectionCount halloc hrealloc hstart, hcount, u32_of_lt hlt]

theorem stopAt_inv (h : Inv s) (hd : depth s.pc = some (d + 1)) (hnext : depth next = some d)
    (hlt : d < 2 ^ 32) (hcall : stopAt s next = some s') :
  Inv s'
  := by
  obtain ⟨t, ht, hcount⟩ := h (d + 1) hd
  simp only [stopAt, ht] at hcall
  split at hcall
  · cases hcall
  · rename_i cell t' hstop
    cases hcall
    intro e he
    cases hnext.symm.trans he
    use t', rfl
    rw [epochStop_sectionCount hstop, hcount, u32_pred hlt]

/-- The calls of `exit_child` stay in it. -/
theorem startAt_exit (hnext : depth next = none) (hcall : startAt s o next = some s') :
  Inv s'
  := by
  rw [startAt] at hcall
  split at hcall
  · cases hcall
  · split at hcall
    · cases hcall
    · cases hcall
      apply inv_of_depth_none hnext

/-- A call keeps the number of sections in step with the point of the program. -/
theorem exec_inv {ok stop : Bool} (h : Inv s) (hone : OneSection s (.exec o ok stop))
    (hexec : exec s o ok stop = some s') :
  Inv s'
  := by
  have hdepth : ∀ {pc : Pc}, s.pc = pc → depth s.pc = depth pc := by
    intro pc hpc
    rw [hpc]
  have halloc : ∀ {pc : Pc}, s.pc = pc → pc.isStart → pc ≠ .exitStart →
      o.allocOk = true ∧ o.reallocOk = true := by
    intro pc hpc
    rw [← hpc]
    apply hone
  cases hpc : s.pc
  all_goals simp only [exec, hpc] at hexec
  case entry | jumpStart | loopStart =>
    obtain ⟨ha, hr⟩ := halloc hpc rfl (by decide)
    apply startAt_inv h ha hr (hdepth hpc) rfl (by decide) hexec
  case jumpStop | leaveStop | loopStop =>
    apply stopAt_inv h (hdepth hpc) rfl (by decide) hexec
  case getChild | jumpLog | jumpFree | pickSyscall | generateArguments | mutateArguments
      | logArguments | testAlarm | logResults =>
    apply callAt_inv h _ hexec
    exact (hdepth hpc).symm
  case setjmp =>
    cases hexec
    apply h.goto
    rw [hdepth hpc]
    cases s.mode <;> exact .inl rfl
  case resumed =>
    cases hexec
    apply h.goto
    rw [hdepth hpc]
    split <;> exact .inl rfl
  case loopTest =>
    cases hexec
    apply h.goto
    rw [hdepth hpc]
    cases stop with
    | true => exact .inr rfl
    | false => cases s.mode <;> exact .inl rfl
  case testCall | freeArguments =>
    cases hexec
    apply h.goto
    exact .inl (hdepth hpc).symm
  case exitStart => apply startAt_exit rfl hexec
  case exitStopAll =>
    split at hexec
    · cases hexec
    · split at hexec
      · cases hexec
      · cases hexec
        apply inv_of_depth_none rfl
  case exitCleanup | exitCleanThread | exitRelease =>
    cases hexec
    apply inv_of_depth_none rfl
  case exited => cases hexec

/-- A signal that finds one section counted leads to a point where one is to be counted. -/
theorem signal_inv {done : ℕ} (hone : OneSection s (.signal o done))
    (hstep : step s (.signal o done) = some s') :
  Inv s'
  := by
  simp only [step] at hstep
  split at hstep
  · cases hstep
    intro d hd
    have hresume : depth (resumePoint s.mode) = some 1 := by
      cases s.mode <;> rfl
    cases hresume.symm.trans hd
    cases hthread : s.thread with
    | none =>
        rw [OneSection, hthread] at hone
        cases hone
    | some t =>
        rw [OneSection, hthread] at hone
        exact ⟨_, rfl, hone⟩
  · cases hstep

theorem step_inv {a : Action S} (h : Inv s) (hone : OneSection s a)
    (hstep : step s a = some s') :
  Inv s'
  := by
  cases a with
  | exec o ok stop => apply exec_inv h hone hstep
  | signal o done => apply signal_inv hone hstep

theorem Inv.balanced (h : Inv s) :
  Balanced s
  := by
  constructor
  · intro hstop
    obtain ⟨d, hd, hpos⟩ : ∃ d, depth s.pc = some d ∧ d ≠ 0 := by
      revert hstop
      cases s.pc <;> simp [depth, Pc.isStop]
    obtain ⟨t, ht, hcount⟩ := h d hd
    use t, ht
    rw [hcount]
    apply hpos
  · intro hpc
    apply h 0
    rw [hpc]
    rfl

end Steps

/-! ### Runs of a child -/

/-- A child that enters the function of its mode. -/
def enter (mode : Mode) (didJump : YesNo) (t : ThreadCtx S) : Child S :=
  ⟨mode, .entry, some t, didJump, false⟩

/-- `init_syscall_child` ends the section it begins. -/
theorem initSyscallChild_sectionCount {threadOk recordOk sectionOk : Bool}
    {t t' : ThreadCtx S} {o : Outcome S}
    (hthread : initThread threadOk recordOk sectionOk = .ok (some t))
    (hchild : initSyscallChild t o = .ok (some t')) :
  t'.sectionCount = 0
  := by
  have hinv := initThread_inv hthread
  obtain ⟨⟨rtrn, t₁⟩, hstart, hchild⟩ := Except.bind_eq_ok.mp hchild
  cases halloc : o.allocOk with
  | true =>
      obtain ⟨t₂, ht₂, hinv₂⟩ := epochStart_success hinv (by simp) halloc
      cases ht₂.symm.trans hstart
      obtain ⟨t₃, ht₃, hinv₃⟩ := epochStop_last hinv₂ rfl
      simp only [ht₃] at hchild
      cases hchild
      apply hinv₃.sectionCount
  | false =>
      obtain ⟨t₂, ht₂, -⟩ := epochStart_failure hinv (by simp) halloc
      cases ht₂.symm.trans hstart
      cases hchild

/-- In a run of either function in which no allocation of `epoch_start` fails and every
signal finds exactly one section counted, `epoch_stop` is never executed with none counted
and none is counted at the test of the loop. -/
theorem sections_balanced {threadOk recordOk sectionOk : Bool}
    {t t' : ThreadCtx S} {o : Outcome S}
    (hthread : initThread threadOk recordOk sectionOk = .ok (some t))
    (hchild : initSyscallChild t o = .ok (some t')) (mode : Mode) (didJump : YesNo)
    (actions : List (Action S)) (hone : AllSteps step OneSection (enter mode didJump t') actions) :
  AllStates step Balanced (enter mode didJump t') actions
  := by
  apply allStates_of_invariant step_inv Inv.balanced _ hone
  intro d hd
  cases hd
  use t', rfl
  apply initSyscallChild_sectionCount hthread hchild

/-- The thread of a child after `init_syscall_child`, when all allocations succeed. -/
def newThread : ThreadCtx ℕ :=
  ⟨some (.null :: List.replicate 7 .uninit), 0, 8⟩

theorem newThread_init :
  ∃ t : ThreadCtx ℕ, initThread true true true = .ok (some t) ∧
    initSyscallChild t ⟨true, true, 0⟩ = .ok (some newThread)
  := ⟨⟨some (List.replicate 8 .uninit), 0, 8⟩, rfl, by decide +kernel⟩

/-- A child whose allocations succeed, started and interrupted while it generates arguments,
up to its second test of the loop. -/
def interruptedRun : List (Action ℕ) :=
  let next : Action ℕ := .exec ⟨true, true, 0⟩ true false
  List.replicate 12 next ++ [.signal ⟨true, true, 0⟩ 0] ++ List.replicate 6 next

theorem sections_balanced_interrupted :
  ∃ t t' : ThreadCtx ℕ, initThread true true true = .ok (some t) ∧
    initSyscallChild t ⟨true, true, 0⟩ = .ok (some t') ∧
    (run step (enter .dumb .yes t') interruptedRun).map Child.pc = some .loopTest ∧
    AllStates step Balanced (enter .dumb .yes t') interruptedRun
  := by
  obtain ⟨t, hthread, hchild⟩ := newThread_init
  use t, newThread, hthread, hchild, by decide +kernel
  apply sections_balanced hthread hchild
  decide +kernel

/-- A child interrupted in the system call it tests. -/
def crashedRun : List (Action ℕ) :=
  let next : Action ℕ := .exec ⟨true, true, 0⟩ true false
  List.replicate 17 next ++ [.signal ⟨true, true, 0⟩ 0] ++ List.replicate 5 next

/-- After a signal in the tested system call the last `epoch_stop` before the loop is
executed with no section counted. -/
theorem sections_unbalanced_crashed :
  ∃ t t' : ThreadCtx ℕ, initThread true true true = .ok (some t) ∧
    initSyscallChild t ⟨true, true, 0⟩ = .ok (some t') ∧
    ¬ AllStates step Balanced (enter .dumb .yes t') crashedRun
  := by
  obtain ⟨t, hthread, hchild⟩ := newThread_init
  use t, newThread, hthread, hchild
  intro hall
  let t₁ : ThreadCtx ℕ := ⟨some (.null :: .null :: List.replicate 6 .uninit), 0, 8⟩
  let s : Child ℕ := ⟨.dumb, .leaveStop, some t₁, .yes, true⟩
  have hrun : run step (enter .dumb .yes newThread) crashedRun = some s := by
    decide +kernel
  obtain ⟨t₀, ht₀, hcount⟩ := (hall.at_run hrun).1 rfl
  cases ht₀
  apply hcount
  rfl

end FuzzLoop
