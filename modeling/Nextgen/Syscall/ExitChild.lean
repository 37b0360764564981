import Nextgen.Lib.ListUpdate
import Nextgen.Concurrent.StopAll
import Nextgen.Syscall.Children

/-!
# How a child gives up

`exit_child`, and the steps of a child that call it when they fail.  After its label `exit` the
function uses the thread and the context of the child whether or not there are any.
-/

universe u

open Epoch ListUpdate
open Children (EMPTY getChildIndexNumber)

namespace ExitChild

/-- A child process: the `thread` it passes to `exit_child`, null before `init_thread` has
succeeded; the sections that are open in it; the pids of the slots and the counter that all
children share; its pid; and the slot that `create_child` chose for it. -/
structure Process (S : Type u) where
  thread : Option (ThreadCtx S)
  opened : List S
  slots : List ℕ
  runningChildren : ℕ
  pid : ℕ
  slot : ℕ
  allocated : ∀ t ∈ thread, Allocated t
  pid_ne : pid ≠ EMPTY

/-- What `exit_child` has done when it comes to `_exit`. -/
structure Exited (S : Type u) where
  slots : List ℕ
  runningChildren : ℕ
  ended : List (Cell S)

variable {S : Type u}

/-- The sections that `exit_child` ends. -/
def endSections (t : ThreadCtx S) (o : Outcome S) : Except Fault (List (Cell S)) :=
  (epochStart t o).bind fun (_, t) => (stopAllSections t).map Prod.fst

/-- `exit_child`.  Without a context, and when the probes cannot be cleaned up, it goes to its
label `exit`. -/
def exitChild (s : Process S) (o : Outcome S) : Except Fault (Exited S) :=
  match s.thread with
  | none => .error .nullPointer
  | some t =>
      (endSections t o).bind fun ended =>
        match getChildIndexNumber s.slots s.pid with
        | none => .error .nullPointer
        | some i => .ok
            { slots := s.slots.set i EMPTY
              runningChildren := u32 (s.runningChildren + (2 ^ 32 - 1))
              ended := ended }

/-- The steps of a child that call `exit_child` when they fail: the write to the pipe in
`create_child`, `init_thread`, the calls of `init_syscall_child`, and those of
`start_syscall_child`, `start_smart_syscall_child` and `generate_test_case`. -/
inductive Failure (S : Type u) where
  | write
  | initThread (threadOk recordOk sectionOk : Bool)
  | epochStart (o : Outcome S)
  | injectKernelProbes
  | getChild
  | setjmp
  | pickSyscall
  | generateArguments
  | mutateArguments
  | getEntry
  | logArguments
  | testSyscall
  | logResults
  | freeOldArguments

/-- A process with another thread. -/
def Process.withThread (s : Process S) (thread : Option (ThreadCtx S))
    (h : ∀ t ∈ thread, Allocated t) : Process S :=
  { s with thread := thread, allocated := h }

/-- The failure of `epoch_start`. -/
def failedStart (s : Process S) (o : Outcome S) : Option (Except Fault (Process S)) :=
  match hthread : s.thread with
  | none => none
  | some t =>
      match hstart : epochStart t o with
      | .error fault => some (.error fault)
      | .ok (rtrn, t') =>
          if rtrn = -1 then
            some (.ok (s.withThread (some t') (by
              rintro _ ⟨⟩
              apply epochStart_allocated (s.allocated t hthread) hstart)))
          else none

/-- The process that calls `exit_child` because a step fails, `none` if the step does not fail. -/
def failed (s : Process S) : Failure S → Option (Except Fault (Process S))
  | .initThread threadOk recordOk sectionOk =>
      match initThread (S := S) threadOk recordOk sectionOk with
      | .error fault => some (.error fault)
      | .ok none => some (.ok (s.withThread none nofun))
      | .ok (some _) => none
  | .epochStart o => failedStart s o
  | .getChild => if getChildIndexNumber s.slots s.pid = none then some (.ok s) else none
  | _ => some (.ok s)

/-- A step that fails, and the call of `exit_child` that results. -/
def giveUp (s : Process S) (f : Failure S) (o : Outcome S) : Option (Except Fault (Exited S)) :=
  (failed s f).map fun r => r.bind fun s => exitChild s o

/-- The child came to `_exit`, its slot is empty, the counter was decremented once, and all open
sections were ended, that of `exit_child` included. -/
structure Released (s : Process S) (o : Outcome S) (e : Exited S) : Prop where
  slots : e.slots = s.slots.set s.slot EMPTY
  runningChildren : e.runningChildren = u32 (s.runningChildren + (2 ^ 32 - 1))
  opened : ∀ sec ∈ s.opened, .ptr sec ∈ e.ended
  began : o.allocOk = true → .ptr o.began ∈ e.ended

/-- The step is not the one that makes the thread. -/
def Failure.hasThread : Failure S → Prop
  | .initThread _ _ _ => False
  | _ => True

/-- The first slot with the pid of the child is its own, and its thread holds its sections. -/
def Releasable (s : Process S) : Prop :=
  getChildIndexNumber s.slots s.pid = some s.slot ∧
    ∃ t cells, s.thread = some t ∧ Holds t s.opened cells

section Release

variable {s : Process S} {o : Outcome S}

/-- Emptying one slot in use is emptying another only if they are the same. -/
theorem eq_of_set_empty {slots : List ℕ} {i j pid : ℕ} (hi : slots[i]? = some pid)
    (hpid : pid ≠ EMPTY) (h : slots.set i EMPTY = slots.set j EMPTY) :
  i = j
  := by
  by_contra hne
  have hget := congrArg (·[i]?) h
  obtain ⟨hlt, -⟩ := List.getElem?_eq_some_iff.mp hi
  simp only [List.getElem?_set_self hlt, List.getElem?_set_ne (Ne.symm hne), hi] at hget
  apply hpid (Option.some.inj hget).symm

/-- What `exit_child` has done when it comes to `_exit`. -/
theorem exitChild_eq_ok {e : Exited S} (h : exitChild s o = .ok e) :
  ∃ t rtrn t₁ t₂ i, s.thread = some t ∧ epochStart t o = .ok (rtrn, t₁) ∧
    stopAllSections t₁ = .ok (e.ended, t₂) ∧ getChildIndexNumber s.slots s.pid = some i ∧
      e.slots = s.slots.set i EMPTY
  := by
  rw [exitChild] at h
  split at h
  · cases h
  · rename_i t hthread
    obtain ⟨ended, hended, h⟩ := Except.bind_eq_ok.mp h
    obtain ⟨⟨rtrn, t₁⟩, hstart, hended⟩ := Except.bind_eq_ok.mp hended
    obtain ⟨⟨ended', t₂⟩, hstop, rfl⟩ := Except.map_eq_ok.mp hended
    split at h
    · cases h
    · rename_i i hi
      cases h
      exact ⟨t, rtrn, t₁, t₂, i, hthread, hstart, hstop, hi, rfl⟩

/-- `exit_child` releases the child if and only if it finds its slot, and its thread holds the
open sections. -/
theorem exitChild_released_iff (hfresh : o.began ∉ s.opened) :
  (∃ e, exitChild s o = .ok e ∧ Released s o e) ↔ Releasable s
  := by
  constructor
  · rintro ⟨e, hexit, hreleased⟩
    obtain ⟨t, rtrn, t₁, t₂, i, hthread, hstart, hstop, hi, hslots⟩ := exitChild_eq_ok hexit
    obtain ⟨⟨pid, hget, hbeq⟩, -⟩ := findIdx?_eq_some_iff.mp hi
    rw [beq_iff_eq.mp hbeq] at hget
    have hslot := eq_of_set_empty hget s.pid_ne (hslots.symm.trans hreleased.slots)
    rw [hslot] at hi
    obtain ⟨cells, hholds⟩ := holds_of_stopAll (s.allocated t hthread) hstart hstop hfresh
      hreleased.opened
    exact ⟨hi, t, cells, hthread, hholds⟩
  · rintro ⟨hslot, t, cells, hthread, hholds⟩
    obtain ⟨rtrn, t₁, ended, t₂, hstart, hstop, hopened, hbegan⟩ :=
      hholds.stopAll (s.allocated t hthread) o
    use ⟨s.slots.set s.slot EMPTY, u32 (s.runningChildren + (2 ^ 32 - 1)), ended⟩
    constructor
    · simp only [exitChild, hthread, endSections, hstart, Except.bind, hstop, Except.map, hslot]
    · exact ⟨rfl, rfl, hopened, hbegan⟩

theorem failedStart_eq_some {r : Except Fault (Process S)} (h : failedStart s o = some r) :
  ∃ t, s.thread = some t ∧
    ((∃ fault, epochStart t o = .error fault ∧ r = .error fault) ∨
      ∃ t' hbuf, epochStart t o = .ok (-1, t') ∧ r = .ok (s.withThread (some t') hbuf))
  := by
  rw [failedStart] at h
  split at h
  · cases h
  · rename_i t hthread
    use t, hthread
    split at h
    · rename_i fault hstart
      cases h
      exact .inl ⟨fault, hstart, rfl⟩
    · rename_i rtrn t' hstart
      split at h
      · rename_i hrtrn
        subst hrtrn
        cases h
        exact .inr ⟨t', _, hstart, rfl⟩
      · cases h

/-- The array holds the open sections after a failed `epoch_start` if and only if it did before. -/
theorem failedStart_released_iff {r : Except Fault (Process S)} {o' : Outcome S}
    (hfresh : o.began ∉ s.opened) (h : failedStart s o' = some r) :
  (∃ e, (r.bind fun s => exitChild s o) = .ok e ∧ Released s o e) ↔ Releasable s
  := by
  obtain ⟨t, hthread, ⟨fault, hstart, rfl⟩ | ⟨t', hbuf, hstart, rfl⟩⟩ := failedStart_eq_some h
  · constructor
    · rintro ⟨e, hexit, -⟩
      cases hexit
    · rintro ⟨-, t₀, cells, hthread', hholds⟩
      cases hthread.symm.trans hthread'
      obtain ⟨rtrn, t₁, -, -, hok, -⟩ := hholds.stopAll (s.allocated t hthread) o'
      cases hstart.symm.trans hok
  · have hiff := exitChild_released_iff (s := s.withThread (some t') hbuf) (o := o) hfresh
    have hreleased : ∀ e, Released (s.withThread (some t') hbuf) o e ↔ Released s o e := by
      intro e
      constructor
      · rintro ⟨h₁, h₂, h₃, h₄⟩
        exact ⟨h₁, h₂, h₃, h₄⟩
      · rintro ⟨h₁, h₂, h₃, h₄⟩
        exact ⟨h₁, h₂, h₃, h₄⟩
    simp only [hreleased] at hiff
    apply hiff.trans
    have hholds := epochStart_holds_iff s.opened (s.allocated t hthread) hstart
    constructor
    · rintro ⟨hslot, _, cells, ⟨⟩, hcells⟩
      obtain ⟨cells', hcells'⟩ := hholds.mp ⟨cells, hcells⟩
      exact ⟨hslot, t, cells', hthread, hcells'⟩
    · rintro ⟨hslot, t₀, cells, hthread', hcells⟩
      cases hthread.symm.trans hthread'
      obtain ⟨cells', hcells'⟩ := hholds.mpr ⟨cells, hcells⟩
      exact ⟨hslot, t', cells', rfl, hcells'⟩

/-- When a step of a child fails, the child is released if and only if the step is not the one
that makes its thread, the first slot with its pid is its own, and its thread holds the sections
that are open. -/
theorem released_iff {f : Failure S} {r : Except Fault (Exited S)} (hfresh : o.began ∉ s.opened)
    (h : giveUp s f o = some r) :
  (∃ e, r = .ok e ∧ Released s o e) ↔ f.hasThread ∧ Releasable s
  := by
  obtain ⟨r', hfailed, rfl⟩ := Option.map_eq_some_iff.mp h
  cases f
  case initThread threadOk recordOk sectionOk =>
    constructor
    · rintro ⟨e, hexit, -⟩
      simp only [failed] at hfailed
      split at hfailed
      · cases hfailed
        cases hexit
      · cases hfailed
        cases hexit
      · cases hfailed
    · rintro ⟨hthread, -⟩
      cases hthread
  case epochStart o' =>
    rw [failedStart_released_iff hfresh hfailed]
    simp only [Failure.hasThread, true_and]
  case getChild =>
    simp only [failed] at hfailed
    split at hfailed
    · cases hfailed
      simp only [Except.bind, exitChild_released_iff hfresh, Failure.hasThread, true_and]
    · cases hfailed
  all_goals
    cases hfailed
    simp only [Except.bind, exitChild_released_iff hfresh, Failure.hasThread, true_and]

end Release

/-- A child with one section open, in the second of two slots. -/
def oneSection : Process ℕ where
  thread := some ⟨some (.ptr 1 :: List.replicate 7 .uninit), 1, 8⟩
  opened := [1]
  slots := [EMPTY, 7]
  runningChildren := 1
  pid := 7
  slot := 1
  allocated := by
    rintro _ ⟨⟩
    constructor
    · decide
    · rintro _ ⟨⟩
      rfl
  pid_ne := by decide

theorem released_generateArguments :
  ∃ e, giveUp oneSection .generateArguments ⟨true, true, 2⟩ = some (.ok e) ∧
    Released oneSection ⟨true, true, 2⟩ e
  := by
  have hgive : ∃ r, giveUp oneSection .generateArguments ⟨true, true, 2⟩ = some r := ⟨_, rfl⟩
  obtain ⟨r, hr⟩ := hgive
  obtain ⟨e, rfl, hreleased⟩ := (released_iff (by decide) hr).mpr
    ⟨trivial, by decide +kernel, _, _, rfl, rfl, by decide, by decide, by decide⟩
  exact ⟨e, hr, hreleased⟩

/-- A child whose thread cannot be allocated: `exit_child` uses the null thread. -/
theorem released_not_initThread :
  ∃ r, giveUp (oneSection.withThread none nofun) (.initThread false true true) ⟨true, true, 2⟩
      = some r ∧
    ¬ ∃ e, r = .ok e ∧ Released (oneSection.withThread none nofun) ⟨true, true, 2⟩ e
  := by
  refine ⟨_, rfl, ?_⟩
  rintro ⟨e, hexit, -⟩
  cases hexit

end ExitChild
