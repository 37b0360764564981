import Nextgen.Syscall.FuzzLoop
import Nextgen.Syscall.Arguments
import Nextgen.Syscall.Signals

/-!
# The test case in the context of a child

`pick_syscall` stores the fields of the entry it draws one after the other, and
`generate_arguments` makes the arguments one after the other.  A signal may arrive between two
stores, and `free_old_arguments` then reads what has been stored so far.  The context lies in
shared memory and belongs to a slot of the array of children: the next child of the slot finds it
as the last one left it.

`child_signal_handler` writes to the context that it finds by the pid that comes with the signal.
That may be the context of another child, and the child may find its own context written to by the
handler of another.  What a child does that jumps through a `return_jump` that it has not set is
not defined.
-/

universe u

open Transition Epoch
open Syscall (YesNo Entry Generator Symbol ARG_LIMIT)
open Signals (Signal)

namespace FuzzLoop

/-- A syscall table after `build_syscall_table`: every entry has a generator and a context for
each of its arguments and for no others. -/
structure SysTable where
  entries : List Entry
  nonempty : 0 < entries.length
  generators : ∀ e ∈ entries, e.args.length = e.totalArgs
  bounded : ∀ e ∈ entries, e.totalArgs ≤ ARG_LIMIT

/-- The part of `struct child_ctx` that describes a test case and its result.  `args` has, for
each element of `arg_value_array`, the generator that made it last. -/
structure Selection where
  syscallName : Option String
  syscallNumber : ℕ
  totalArgs : ℕ
  syscallSymbol : Option Symbol
  needAlarm : YesNo
  hadError : YesNo
  retValue : ℤ
  sigNum : Option Signal
  args : List (Option Generator)
  deriving DecidableEq

namespace Selection

/-- The context of `init_child_context`, which is zero-filled. -/
def init : Selection :=
  ⟨none, 0, 0, none, .yes, .yes, 0, none, List.replicate ARG_LIMIT none⟩

/-- Make stores in their order. -/
def store (c : Selection) (stores : List (Selection → Selection)) : Selection :=
  stores.foldl (fun c store => store c) c

/-- The stores of `pick_syscall`. -/
def pickStores (e : Entry) (num : ℕ) : List (Selection → Selection) :=
  [fun c => { c with syscallName := some e.syscallName },
    fun c => { c with syscallNumber := num },
    fun c => { c with totalArgs := e.totalArgs },
    fun c => { c with syscallSymbol := some e.syscallSymbol },
    fun c => { c with needAlarm := e.needAlarm },
    fun c => { c with hadError := .no }]

/-- The context after the first `done` stores of `pick_syscall`. -/
def pick (c : Selection) (e : Entry) (num done : ℕ) : Selection :=
  c.store ((pickStores e num).take done)

/-- The context after the first `done` rounds of the loop of `generate_arguments`. -/
def generate (c : Selection) (e : Entry) (done : ℕ) : Selection :=
  c.store ((List.range done).map fun i c => { c with args := c.args.set i (e.generator i) })

/-- The end of `test_syscall`. -/
def tested (c : Selection) (ret : ℤ) : Selection :=
  { c with retValue := ret, hadError := if ret < 0 then .yes else c.hadError }

/-- The assignments of `child_signal_handler`, but for that to `did_jump`. -/
def signalled (c : Selection) (sig : Signal) : Selection :=
  match sig with
  | .sigalrm => { c with hadError := .no, retValue := 0, sigNum := some sig }
  | _ => { c with hadError := .yes, retValue := -1, sigNum := some sig }

/-- `total_args` is a number of arguments that the entry has contexts for. -/
def Inside (table : SysTable) (c : Selection) : Prop :=
  ∀ e, table.entries[c.syscallNumber]? = some e → c.totalArgs ≤ e.totalArgs

instance (table : SysTable) (c : Selection) : Decidable (c.Inside table) :=
  decidable_of_iff (∀ e ∈ table.entries[c.syscallNumber]?, c.totalArgs ≤ e.totalArgs) Iff.rfl

/-- The call at a point of the program, which draws `num`, makes `done` arguments before it
fails, and gets `ret` from the system call.  It is `none` when it calls or reads through a null
pointer. -/
def exec (table : SysTable) (pc : Pc) (ok : Bool) (num done : ℕ) (ret : ℤ) (c : Selection) :
    Option Selection :=
  match pc with
  | .pickSyscall =>
      if ok then table.entries[num]?.map fun e => c.pick e num (pickStores e num).length
      else some c
  | .generateArguments =>
      table.entries[c.syscallNumber]?.bind fun e =>
        let made := if ok then c.totalArgs else min done c.totalArgs
        if made ≤ e.args.length then some (c.generate e made) else none
  | .testCall => some (c.tested ret)
  | .logArguments | .freeArguments | .jumpFree => if c.Inside table then some c else none
  | _ => some c

/-- The context when a signal arrives in the call at a point of the program. -/
def interrupt (table : SysTable) (pc : Pc) (num done : ℕ) (c : Selection) : Option Selection :=
  match pc with
  | .pickSyscall => table.entries[num]?.map fun e => c.pick e num done
  | .generateArguments =>
      table.entries[c.syscallNumber]?.map fun e => c.generate e (min done c.totalArgs)
  | _ => some c

end Selection

/-- A slot: its child, and the context that the children of the slot use one after the other.  A
child is `lost` when it has jumped through a `return_jump` that it has not set. -/
structure Slot (S : Type u) where
  child : Child S
  ctx : Selection
  lost : Bool
  deriving DecidableEq

/-- The child of a slot makes its next call; or it catches a signal after `done` of the stores of
that call, and the handler finds the context of the slot, or does not and the child is lost; or
the handler of another child finds the context of the slot; or the parent puts a new child in the
slot after it has exited. -/
inductive SlotAction (S : Type u) where
  | exec (o : Outcome S) (ok stop : Bool) (num done : ℕ) (ret : ℤ)
  | signal (o : Outcome S) (num done : ℕ) (sig : Signal)
  | stray (num done : ℕ)
  | mark (sig : Signal)
  | respawn (t : ThreadCtx S)

variable {S : Type u}

/-- The assignments of `child_signal_handler` to the context of a slot. -/
def Slot.mark (s : Slot S) (sig : Signal) : Slot S :=
  { s with ctx := s.ctx.signalled sig, child := { s.child with didJump := .yes } }

/-- A step of a slot.  `did_jump`, which also lies in the context, is never reset. -/
def slotStep (table : SysTable) (s : Slot S) : SlotAction S → Option (Slot S)
  | .exec o ok stop num done ret =>
      if s.lost then none
      else
        (exec s.child o ok stop).bind fun child =>
          (s.ctx.exec table s.child.pc ok num done ret).map fun ctx => ⟨child, ctx, false⟩
  | .signal o num done sig =>
      if s.lost then none
      else
        (step s.child (.signal o done)).bind fun child =>
          (s.ctx.interrupt table s.child.pc num done).map fun ctx =>
            ⟨child, ctx.signalled sig, false⟩
  | .stray num done =>
      if s.lost ∨ s.child.pc = .exited then none
      else
        (s.ctx.interrupt table s.child.pc num done).map fun ctx => ⟨s.child, ctx, true⟩
  | .mark sig => some (s.mark sig)
  | .respawn t =>
      if s.lost = false ∧ s.child.pc = .exited then
        some ⟨enter s.child.mode s.child.didJump t, s.ctx, false⟩
      else none

/-- A slot with the context of `init_child_context` and its first child. -/
def Slot.init (mode : Mode) (t : ThreadCtx S) : Slot S :=
  ⟨enter mode .yes t, .init, false⟩

section Steps

variable {table : SysTable} {s s' : Slot S}

theorem slotStep_exec {o : Outcome S} {ok stop : Bool} {num done : ℕ} {ret : ℤ}
    (h : slotStep table s (.exec o ok stop num done ret) = some s') :
  ∃ child ctx, exec s.child o ok stop = some child ∧
    s.ctx.exec table s.child.pc ok num done ret = some ctx ∧ s' = ⟨child, ctx, false⟩
  := by
  obtain ⟨-, h⟩ := Option.ite_none_left_eq_some.mp h
  obtain ⟨child, hchild, h⟩ := Option.bind_eq_some_iff.mp h
  obtain ⟨ctx, hctx, rfl⟩ := Option.map_eq_some_iff.mp h
  exact ⟨child, ctx, hchild, hctx, rfl⟩

theorem slotStep_signal {o : Outcome S} {num done : ℕ} {sig : Signal}
    (h : slotStep table s (.signal o num done sig) = some s') :
  ∃ child ctx, step s.child (.signal o done) = some child ∧
    s.ctx.interrupt table s.child.pc num done = some ctx ∧
    s' = ⟨child, ctx.signalled sig, false⟩
  := by
  obtain ⟨-, h⟩ := Option.ite_none_left_eq_some.mp h
  obtain ⟨child, hchild, h⟩ := Option.bind_eq_some_iff.mp h
  obtain ⟨ctx, hctx, rfl⟩ := Option.map_eq_some_iff.mp h
  exact ⟨child, ctx, hchild, hctx, rfl⟩

theorem slotStep_stray {num done : ℕ} (h : slotStep table s (.stray num done) = some s') :
  ∃ ctx, s.ctx.interrupt table s.child.pc num done = some ctx ∧ s' = ⟨s.child, ctx, true⟩
  := by
  obtain ⟨-, h⟩ := Option.ite_none_left_eq_some.mp h
  obtain ⟨ctx, hctx, rfl⟩ := Option.map_eq_some_iff.mp h
  exact ⟨ctx, hctx, rfl⟩

theorem slotStep_respawn {t : ThreadCtx S} (h : slotStep table s (.respawn t) = some s') :
  s' = ⟨enter s.child.mode s.child.didJump t, s.ctx, false⟩
  := by
  obtain ⟨-, h⟩ := Option.ite_none_right_eq_some.mp h
  exact (Option.some.inj h).symm

end Steps

/-! ### The stores one by one -/

namespace Selection

variable {c c' : Selection} {e : Entry} {num done : ℕ}

theorem pick_syscallNumber :
  (c.pick e num done).syscallNumber = if 2 ≤ done then num else c.syscallNumber
  := by
  match done with
  | 0 | 1 | 2 | 3 | 4 | 5 => rfl
  | _ + 6 => simp [pick, pickStores, store]

theorem pick_totalArgs :
  (c.pick e num done).totalArgs = if 3 ≤ done then e.totalArgs else c.totalArgs
  := by
  match done with
  | 0 | 1 | 2 | 3 | 4 | 5 => rfl
  | _ + 6 => simp [pick, pickStores, store]

theorem pick_args :
  (c.pick e num done).args = c.args
  := by
  match done with
  | 0 | 1 | 2 | 3 | 4 | 5 => rfl
  | _ + 6 => simp [pick, pickStores, store]

theorem generate_succ :
  c.generate e (done + 1)
    = { c.generate e done with args := (c.generate e done).args.set done (e.generator done) }
  := by
  simp [generate, store, List.range_succ]

/-- `generate_arguments` writes to the arguments only. -/
theorem generate_frame (c : Selection) (e : Entry) (done : ℕ) :
  ∃ args, args.length = c.args.length ∧ c.generate e done = { c with args := args }
  := by
  induction done with
  | zero => exact ⟨c.args, rfl, rfl⟩
  | succ done ih =>
      obtain ⟨args, hlength, hgenerate⟩ := ih
      use args.set done (e.generator done)
      constructor
      · rw [List.length_set, hlength]
      · rw [generate_succ, hgenerate]

/-- Every argument that has been made was made by the generator of its place. -/
theorem generate_args (hle : done ≤ c.args.length) :
  ∀ i < done, (c.generate e done).args[i]? = some (e.generator i)
  := by
  induction done with
  | zero => simp
  | succ done ih =>
      intro i hi
      rw [generate_succ]
      have hlt : done < (c.generate e done).args.length := by
        obtain ⟨args, hlength, hgenerate⟩ := generate_frame c e done
        rw [hgenerate, hlength]
        omega
      by_cases heq : i = done
      · rw [heq, List.getElem?_set_self hlt]
      · rw [List.getElem?_set_ne (Ne.symm heq)]
        apply ih (by omega) i (by omega)

end Selection

/-! ### One entry at a time -/

namespace Pc

/-- The points of the loop between `pick_syscall` and the next test of the loop. -/
def isSelected : Pc → Bool
  | .generateArguments | .mutateArguments | .logArguments | .loopStop | .testAlarm | .testCall
  | .logResults | .freeArguments => true
  | _ => false

/-- Those after `generate_arguments`. -/
def isGenerated : Pc → Bool
  | .mutateArguments | .logArguments | .loopStop | .testAlarm | .testCall | .logResults
  | .freeArguments => true
  | _ => false

/-- Those before the system call returns. -/
def isUntested : Pc → Bool
  | .generateArguments | .mutateArguments | .logArguments | .loopStop | .testAlarm | .testCall =>
      true
  | _ => false

end Pc

/-- All fields of a test case are those of one entry. -/
structure Selection.Selects (c : Selection) (e : Entry) : Prop where
  syscallName : c.syscallName = some e.syscallName
  totalArgs : c.totalArgs = e.totalArgs
  syscallSymbol : c.syscallSymbol = some e.syscallSymbol
  needAlarm : c.needAlarm = e.needAlarm

/-- The arguments of a test case were made by the generators of an entry. -/
def Selection.MadeBy (c : Selection) (e : Entry) : Prop :=
  ∀ i < c.totalArgs, ∃ g, e.generator i = some g ∧ c.args[i]? = some (some g)

/-- The error flag says whether the result is an error. -/
def Selection.Truthful (c : Selection) : Prop :=
  c.hadError = .yes ↔ c.retValue < 0

/-- The number in the context is that of an entry, and from `pick_syscall` to the next test of
the loop the context describes a test case of that entry. -/
structure Consistent (table : SysTable) (s : Slot S) : Prop where
  args : s.ctx.args.length = ARG_LIMIT
  entry : ∃ e ∈ table.entries[s.ctx.syscallNumber]?,
    (s.child.pc.isSelected → s.ctx.Selects e) ∧ (s.child.pc.isGenerated → s.ctx.MadeBy e)
  untested : s.child.pc.isUntested → s.ctx.hadError = .no
  result : s.child.pc = .logResults → s.ctx.Truthful

section Consistent

variable {table : SysTable} {s s' : Slot S}

/-- Outside of the loop only the number matters. -/
theorem Consistent.of_outside (hargs : s.ctx.args.length = ARG_LIMIT)
    (hnumber : s.ctx.syscallNumber < table.entries.length)
    (hpc : s.child.pc.isSelected = false) :
  Consistent table s
  := by
  have hgenerated : s.child.pc.isGenerated = false := by
    revert hpc
    cases s.child.pc <;> decide
  have huntested : s.child.pc.isUntested = false := by
    revert hpc
    cases s.child.pc <;> decide
  refine ⟨hargs, ⟨_, List.getElem?_eq_getElem hnumber, ?_, ?_⟩, ?_, ?_⟩
  · simp [hpc]
  · simp [hgenerated]
  · simp [huntested]
  · intro hresults
    rw [hresults] at hpc
    cases hpc

theorem Consistent.number_lt (h : Consistent table s) :
  s.ctx.syscallNumber < table.entries.length
  := by
  obtain ⟨e, he, -⟩ := h.entry
  apply (List.getElem?_eq_some_iff.mp he).1

/-- The points of the program from which a call leads into the loop or on in it. -/
theorem next_stays {c : Child S} (ok stop : Bool) (hpick : c.pc ≠ .pickSyscall)
    (hgenerate : c.pc ≠ .generateArguments) (htest : c.pc ≠ .testCall) :
  ((c.next ok stop).isSelected → c.pc.isSelected) ∧
    ((c.next ok stop).isGenerated → c.pc.isGenerated) ∧
    ((c.next ok stop).isUntested → c.pc.isUntested) ∧ c.next ok stop ≠ .logResults
  := by
  obtain ⟨mode, pc, thread, didJump, jumpSet⟩ := c
  -- one case for each program point and each outcome of the tests made there
  cases pc <;> cases mode <;> cases didJump <;> cases ok <;> cases stop <;>
    simp_all [Child.next, Pc.isSelected, Pc.isGenerated, Pc.isUntested, resumePoint]

/-- A call that leaves the context and leads to a point where no more is known of it. -/
theorem Consistent.goto {child : Child S} (h : Consistent table s)
    (hselected : child.pc.isSelected → s.child.pc.isSelected)
    (hgenerated : child.pc.isGenerated → s.child.pc.isGenerated)
    (huntested : child.pc.isUntested → s.child.pc.isUntested) (hresult : child.pc ≠ .logResults) :
  Consistent table ⟨child, s.ctx, false⟩
  := by
  obtain ⟨e, he, hselects, hmade⟩ := h.entry
  refine ⟨h.args, ⟨e, he, ?_, ?_⟩, ?_, ?_⟩
  · intro hpc
    apply hselects (hselected hpc)
  · intro hpc
    apply hmade (hgenerated hpc)
  · intro hpc
    apply h.untested (huntested hpc)
  · intro hpc
    cases hresult hpc

/-- `pick_syscall` describes the entry it draws. -/
theorem Consistent.pick {child : Child S} {e : Entry} {num : ℕ} (h : Consistent table s)
    (he : table.entries[num]? = some e) (hpc : child.pc = .generateArguments) :
  Consistent table ⟨child, s.ctx.pick e num (Selection.pickStores e num).length, false⟩
  := by
  refine ⟨h.args, ⟨e, he, ?_, ?_⟩, ?_, ?_⟩
  · intro _
    exact ⟨rfl, rfl, rfl, rfl⟩
  · intro hgenerated
    rw [hpc] at hgenerated
    cases hgenerated
  · intro _
    rfl
  · intro hresults
    cases hpc.symm.trans hresults

/-- `generate_arguments` calls the generators of the entry that was picked. -/
theorem Consistent.generate {child : Child S} {e : Entry} (h : Consistent table s)
    (he : table.entries[s.ctx.syscallNumber]? = some e)
    (hat : s.child.pc = .generateArguments) (hpc : child.pc = .mutateArguments) :
  Consistent table ⟨child, s.ctx.generate e s.ctx.totalArgs, false⟩
  := by
  have hmem : e ∈ table.entries := List.mem_of_getElem? he
  obtain ⟨e', he', hselects, -⟩ := h.entry
  cases he.symm.trans he'
  have hselects := hselects (by rw [hat]; rfl)
  have hbound : s.ctx.totalArgs ≤ s.ctx.args.length := by
    rw [h.args, hselects.totalArgs]
    apply table.bounded e hmem
  have hargs := Selection.generate_args (e := e) hbound
  obtain ⟨args, hlength, hgenerate⟩ :=
    Selection.generate_frame s.ctx e s.ctx.totalArgs
  rw [hgenerate] at hargs ⊢
  refine ⟨hlength.trans h.args, ⟨e, he, ?_, ?_⟩, ?_, ?_⟩
  · intro _
    exact ⟨hselects.syscallName, hselects.totalArgs, hselects.syscallSymbol, hselects.needAlarm⟩
  · intro _ i hi
    have hlt : i < e.args.length := by
      rw [table.generators e hmem, ← hselects.totalArgs]
      exact hi
    use e.args[i].2
    constructor
    · rw [Entry.generator, List.getElem?_eq_getElem hlt, Option.map_some]
    · rw [hargs i hi, Entry.generator, List.getElem?_eq_getElem hlt, Option.map_some]
  · intro _
    apply h.untested
    rw [hat]
    rfl
  · intro hresults
    cases hpc.symm.trans hresults

/-- `test_syscall` sets the error flag, which `pick_syscall` has cleared, for a result that is
an error. -/
theorem Consistent.tested {child : Child S} (h : Consistent table s)
    (hat : s.child.pc = .testCall) (hpc : child.pc = .logResults) (ret : ℤ) :
  Consistent table ⟨child, s.ctx.tested ret, false⟩
  := by
  obtain ⟨e, he, hselects, hmade⟩ := h.entry
  have hselects := hselects (by rw [hat]; rfl)
  refine ⟨h.args, ⟨e, he, ?_, ?_⟩, ?_, ?_⟩
  · intro _
    exact ⟨hselects.syscallName, hselects.totalArgs, hselects.syscallSymbol, hselects.needAlarm⟩
  · intro _
    apply hmade
    rw [hat]
    rfl
  · intro huntested
    rw [hpc] at huntested
    cases huntested
  · intro _
    have hno := h.untested (by rw [hat]; rfl)
    by_cases hret : ret < 0
    · simp [Selection.Truthful, Selection.tested, hret]
    · simp [Selection.Truthful, Selection.tested, hret, hno]

/-- A call elsewhere only reads the context. -/
theorem Selection.exec_eq_self {pc : Pc} {ok : Bool} {num done : ℕ} {ret : ℤ} {c c' : Selection}
    (hpick : pc ≠ .pickSyscall) (hgenerate : pc ≠ .generateArguments) (htest : pc ≠ .testCall)
    (h : c.exec table pc ok num done ret = some c') :
  c' = c
  := by
  cases pc
  case pickSyscall => cases hpick rfl
  case generateArguments => cases hgenerate rfl
  case testCall => cases htest rfl
  case logArguments | freeArguments | jumpFree =>
    obtain ⟨-, h⟩ := Option.ite_none_right_eq_some.mp h
    cases h
    rfl
  all_goals
    cases h
    rfl

theorem Consistent.exec {o : Outcome S} {ok stop : Bool} {num done : ℕ} {ret : ℤ}
    (h : Consistent table s) (hstep : slotStep table s (.exec o ok stop num done ret) = some s') :
  Consistent table s'
  := by
  obtain ⟨child, ctx, hchild, hctx, rfl⟩ := slotStep_exec hstep
  have hpc := (exec_follows hchild).pc
  by_cases hpick : s.child.pc = .pickSyscall
  · rw [Child.next, hpick] at hpc
    rw [hpick] at hctx
    cases ok with
    | true =>
        obtain ⟨e, he, rfl⟩ := Option.map_eq_some_iff.mp hctx
        apply h.pick he hpc
    | false =>
        cases hctx
        have houtside : child.pc.isSelected = false := by
          rw [hpc]
          rfl
        exact Consistent.of_outside h.args h.number_lt houtside
  by_cases hgenerate : s.child.pc = .generateArguments
  · rw [Child.next, hgenerate] at hpc
    rw [hgenerate] at hctx
    obtain ⟨e, he, hctx⟩ := Option.bind_eq_some_iff.mp hctx
    obtain ⟨-, hctx⟩ := Option.ite_none_right_eq_some.mp hctx
    cases hctx
    cases ok with
    | true => apply h.generate he hgenerate hpc
    | false =>
        obtain ⟨args, hlength, hframe⟩ :=
          Selection.generate_frame s.ctx e (min done s.ctx.totalArgs)
        have houtside : child.pc.isSelected = false := by
          rw [hpc]
          rfl
        simp only [Bool.false_eq_true, if_false, hframe]
        exact Consistent.of_outside (hlength.trans h.args) h.number_lt houtside
  by_cases htest : s.child.pc = .testCall
  · rw [Child.next, htest] at hpc
    rw [htest] at hctx
    cases hctx
    apply h.tested htest hpc
  · cases Selection.exec_eq_self hpick hgenerate htest hctx
    obtain ⟨hselected, hgenerated, huntested, hresult⟩ :=
      next_stays ok stop hpick hgenerate htest
    rw [← hpc] at hselected hgenerated huntested hresult
    apply h.goto hselected hgenerated huntested hresult

/-- Where a signal arrives, a part of the stores of the call there has been made. -/
theorem Selection.interrupt_cases {pc : Pc} {num done : ℕ} {c c' : Selection}
    (h : c.interrupt table pc num done = some c') :
  (pc = .pickSyscall ∧ ∃ e, table.entries[num]? = some e ∧ c' = c.pick e num done) ∨
    pc ≠ .pickSyscall ∧ ∃ args, args.length = c.args.length ∧
      (pc ≠ .generateArguments → args = c.args) ∧ c' = { c with args := args }
  := by
  by_cases hpick : pc = .pickSyscall
  · rw [hpick] at h
    obtain ⟨e, he, rfl⟩ := Option.map_eq_some_iff.mp h
    exact .inl ⟨hpick, e, he, rfl⟩
  · refine .inr ⟨hpick, ?_⟩
    by_cases hgenerate : pc = .generateArguments
    · rw [hgenerate] at h
      obtain ⟨e, -, rfl⟩ := Option.map_eq_some_iff.mp h
      obtain ⟨args, hlength, hframe⟩ := generate_frame c e (min done c.totalArgs)
      exact ⟨args, hlength, fun hne => absurd hgenerate hne, hframe⟩
    · use c.args, rfl, fun _ => rfl
      cases pc
      case pickSyscall => cases hpick rfl
      case generateArguments => cases hgenerate rfl
      all_goals
        cases h
        rfl

/-- The handler writes the error flag and the result only. -/
theorem Selection.signalled_frame (c : Selection) (sig : Signal) :
  (c.signalled sig).syscallNumber = c.syscallNumber ∧ (c.signalled sig).totalArgs = c.totalArgs ∧
    (c.signalled sig).args = c.args
  := by
  cases sig <;> exact ⟨rfl, rfl, rfl⟩

theorem Consistent.signal {o : Outcome S} {num done : ℕ} {sig : Signal}
    (h : Consistent table s) (hstep : slotStep table s (.signal o num done sig) = some s') :
  Consistent table s'
  := by
  obtain ⟨child, ctx, hchild, hctx, rfl⟩ := slotStep_signal hstep
  obtain ⟨hnumber, -, hargs⟩ := ctx.signalled_frame sig
  have houtside : child.pc.isSelected = false := by
    rw [(signal_follows hchild).1]
    cases s.child.mode <;> rfl
  rcases Selection.interrupt_cases hctx with ⟨-, e, he, rfl⟩ | ⟨-, args, hlength, -, rfl⟩
  · apply Consistent.of_outside _ _ houtside
    · rw [hargs, Selection.pick_args, h.args]
    · rw [hnumber, Selection.pick_syscallNumber]
      split
      · apply (List.getElem?_eq_some_iff.mp he).1
      · apply h.number_lt
  · apply Consistent.of_outside _ _ houtside
    · rw [hargs]
      apply hlength.trans h.args
    · rw [hnumber]
      apply h.number_lt

/-- A child that is lost leaves the stores that it has made. -/
theorem Consistent.stray {num done : ℕ} (h : Consistent table s)
    (hstep : slotStep table s (.stray num done) = some s') :
  Consistent table s'
  := by
  obtain ⟨ctx, hctx, rfl⟩ := slotStep_stray hstep
  obtain ⟨hpick, e, he, rfl⟩ | ⟨-, args, hlength, hargs, rfl⟩ := Selection.interrupt_cases hctx
  · apply Consistent.of_outside (Selection.pick_args.symm ▸ h.args)
    · show Selection.syscallNumber (Selection.pick _ e num done) < _
      rw [Selection.pick_syscallNumber]
      split
      · apply (List.getElem?_eq_some_iff.mp he).1
      · apply h.number_lt
    · show s.child.pc.isSelected = false
      rw [hpick]
      rfl
  · obtain ⟨e, he, hselects, hmade⟩ := h.entry
    refine ⟨hlength.trans h.args, ⟨e, he, ?_, ?_⟩, h.untested, h.result⟩
    · intro hpc
      obtain ⟨hname, htotal, hsymbol, halarm⟩ := hselects hpc
      exact ⟨hname, htotal, hsymbol, halarm⟩
    · intro hpc
      have hsame : args = s.ctx.args := by
        apply hargs
        rintro heq
        cases (congrArg Pc.isGenerated heq).symm.trans hpc
      rw [hsame]
      apply hmade hpc

/-- No step of the child of a slot or of the parent leaves a test case that is of no entry. -/
theorem Consistent.step {a : SlotAction S} (h : Consistent table s)
    (hstep : slotStep table s a = some s') (hmark : ∀ sig, a ≠ .mark sig) :
  Consistent table s'
  := by
  cases a with
  | exec o ok stop num done ret => apply h.exec hstep
  | signal o num done sig => apply h.signal hstep
  | stray num done => apply h.stray hstep
  | mark sig => cases hmark sig rfl
  | respawn t =>
      rw [slotStep_respawn hstep]
      exact Consistent.of_outside h.args h.number_lt rfl

end Consistent

/-! ### A torn test case -/

/-- The number that `pick_syscall` has drawn, and the number of stores that the child has made, when
it catches a signal. -/
def SlotAction.caught : SlotAction S → Option (ℕ × ℕ)
  | .signal _ num done _ | .stray num done => some (num, done)
  | .exec _ _ _ _ _ _ | .mark _ | .respawn _ => none

/-- No signal arrives between the store of `syscall_number` and that of `total_args` when the
entry that is picked has fewer arguments than `total_args` says. -/
def Untorn (table : SysTable) (s : Slot S) (a : SlotAction S) : Prop :=
  slotStep table s a ≠ none → s.child.pc = .pickSyscall →
    ∀ num, a.caught = some (num, 2) → ∀ e ∈ table.entries[num]?, s.ctx.totalArgs ≤ e.totalArgs

section Torn

variable {table : SysTable} {s s' : Slot S}

namespace Selection

variable {c c' : Selection} {e : Entry} {num done : ℕ}

theorem inside_congr (hnumber : c'.syscallNumber = c.syscallNumber)
    (htotal : c'.totalArgs = c.totalArgs) :
  c'.Inside table ↔ c.Inside table
  := by
  rw [Inside, Inside, hnumber, htotal]

/-- After some of the stores of `pick_syscall`, `total_args` may be that of the last entry and
`syscall_number` that of the next one, but not the other way around. -/
theorem pick_inside_iff (h : c.Inside table) (he : table.entries[num]? = some e) :
  (c.pick e num done).Inside table ↔ (done = 2 → c.totalArgs ≤ e.totalArgs)
  := by
  rw [Inside, pick_syscallNumber, pick_totalArgs]
  rcases Nat.lt_trichotomy done 2 with hlt | rfl | hgt
  · rw [if_neg (by omega), if_neg (by omega)]
    exact iff_of_true h (by omega)
  · simp [he]
  · rw [if_pos (by omega), if_pos (by omega)]
    simp [he]
    omega

/-- A call that picks an entry stores all of it, and no other call stores the number or
`total_args`. -/
theorem exec_cases {pc : Pc} {ok : Bool} {ret : ℤ}
    (h : c.exec table pc ok num done ret = some c') :
  (pc = .pickSyscall ∧ ok = true ∧ ∃ e, table.entries[num]? = some e ∧
      c' = c.pick e num (pickStores e num).length) ∨
    c'.syscallNumber = c.syscallNumber ∧ c'.totalArgs = c.totalArgs
  := by
  by_cases hpick : pc = .pickSyscall
  · subst hpick
    cases ok with
    | true =>
        obtain ⟨e, he, rfl⟩ := Option.map_eq_some_iff.mp h
        exact .inl ⟨rfl, rfl, e, he, rfl⟩
    | false =>
        cases h
        exact .inr ⟨rfl, rfl⟩
  right
  by_cases hgenerate : pc = .generateArguments
  · subst hgenerate
    obtain ⟨e, -, h⟩ := Option.bind_eq_some_iff.mp h
    obtain ⟨-, h⟩ := Option.ite_none_right_eq_some.mp h
    cases h
    obtain ⟨args, -, hframe⟩ := generate_frame c e
      (if ok then c.totalArgs else min done c.totalArgs)
    rw [hframe]
    exact ⟨rfl, rfl⟩
  by_cases htest : pc = .testCall
  · subst htest
    cases h
    exact ⟨rfl, rfl⟩
  · cases exec_eq_self hpick hgenerate htest h
    exact ⟨rfl, rfl⟩

end Selection

/-- A child that catches a signal leaves the stores that it has made. -/
theorem interrupt_inside_iff {num done : ℕ} {c : Selection} (h : s.ctx.Inside table)
    (hctx : s.ctx.interrupt table s.child.pc num done = some c) :
  c.Inside table ↔ (s.child.pc = .pickSyscall → done = 2 →
    ∀ e ∈ table.entries[num]?, s.ctx.totalArgs ≤ e.totalArgs)
  := by
  rcases Selection.interrupt_cases hctx with ⟨hpick, e, he, rfl⟩ | ⟨hpick, args, -, -, rfl⟩
  · rw [Selection.pick_inside_iff h he]
    simp [hpick, he]
  · apply iff_of_true h
    intro hat
    cases hpick hat

theorem step_inside_iff {a : SlotAction S} (h : s.ctx.Inside table)
    (hstep : slotStep table s a = some s') :
  s'.ctx.Inside table ↔ Untorn table s a
  := by
  have huntorn : ∀ num done, a.caught = some (num, done) →
      ((s.child.pc = .pickSyscall → done = 2 →
        ∀ e ∈ table.entries[num]?, s.ctx.totalArgs ≤ e.totalArgs) ↔ Untorn table s a) := by
    intro num done hcaught
    constructor
    · rintro hle - hpick num' hcaught'
      cases hcaught.symm.trans hcaught'
      exact hle hpick rfl
    · rintro hle hpick rfl
      exact hle (by simp [hstep]) hpick num hcaught
  cases a with
  | exec o ok stop num done ret =>
      obtain ⟨child, ctx, -, hctx, rfl⟩ := slotStep_exec hstep
      refine iff_of_true ?_ (by rintro - - _ ⟨⟩)
      rcases Selection.exec_cases hctx with ⟨-, -, e, he, rfl⟩ | ⟨hnumber, htotal⟩
      · apply (Selection.pick_inside_iff h he).mpr
        intro hdone
        cases hdone
      · apply (Selection.inside_congr hnumber htotal).mpr h
  | signal o num done sig =>
      obtain ⟨child, ctx, -, hctx, rfl⟩ := slotStep_signal hstep
      obtain ⟨hnumber, htotal, -⟩ := ctx.signalled_frame sig
      rw [Selection.inside_congr hnumber htotal, interrupt_inside_iff h hctx, huntorn _ _ rfl]
  | stray num done =>
      obtain ⟨ctx, hctx, rfl⟩ := slotStep_stray hstep
      rw [interrupt_inside_iff h hctx, huntorn _ _ rfl]
  | mark sig =>
      cases hstep
      obtain ⟨hnumber, htotal, -⟩ := s.ctx.signalled_frame sig
      exact iff_of_true ((Selection.inside_congr hnumber htotal).mpr h) (by rintro - - _ ⟨⟩)
  | respawn t =>
      rw [slotStep_respawn hstep]
      exact iff_of_true h (by rintro - - _ ⟨⟩)

end Torn

/-- In the life of a slot, `free_old_arguments` and `log_arguments` would at all times read only
contexts that the entry has, if and only if no signal arrives between the store of the number
and the store of `total_args` while an entry with fewer arguments than the last one is picked. -/
theorem contexts_read_iff (table : SysTable) (mode : Mode) (t : ThreadCtx S)
    (actions : List (SlotAction S)) :
  AllStates (slotStep table) (fun s => s.ctx.Inside table) (Slot.init mode t) actions
    ↔ AllSteps (slotStep table) (Untorn table) (Slot.init mode t) actions
  := by
  apply allStates_iff_allSteps (I := fun _ => True)
  · intros
    trivial
  · intro s a s' _ h hstep
    apply step_inside_iff h hstep
  · intro s a hstep hne
    cases hne hstep
  · trivial
  · intro e _
    apply Nat.zero_le

/-- The points outside of the loop that a child of a slot with a torn test case gets to. -/
def Pc.isRecovering : Pc → Bool
  | .entry | .getChild | .setjmp | .resumed | .jumpStart | .jumpLog | .jumpFree
  | .exitStart | .exitCleanup | .exitStopAll | .exitCleanThread | .exitRelease | .exited => true
  | _ => false

/-- A slot whose child in dumb mode is yet to free a torn test case. -/
structure Stuck (table : SysTable) (s : Slot S) : Prop where
  mode : s.child.mode = .dumb
  didJump : s.child.didJump = .yes
  torn : ¬ s.ctx.Inside table
  pc : s.child.pc.isRecovering = true

section Stuck

variable {table : SysTable} {s s' : Slot S}

/-- A call of a child that has yet to free its test case leads out of the loop or fails, unless
it frees the test case. -/
theorem next_isRecovering {c : Child S} {ok stop : Bool} (hmode : c.mode = .dumb)
    (hjump : c.didJump = .yes) (hpc : c.pc.isRecovering = true) (hfree : c.pc ≠ .jumpFree) :
  (c.next ok stop).isRecovering = true
  := by
  obtain ⟨mode, pc, thread, didJump, jumpSet⟩ := c
  cases hmode
  cases hjump
  cases pc <;> cases ok <;> first | rfl | cases hfree rfl | cases hpc

theorem Stuck.exec {o : Outcome S} {ok stop : Bool} {num done : ℕ} {ret : ℤ}
    (h : Stuck table s) (hstep : slotStep table s (.exec o ok stop num done ret) = some s') :
  Stuck table s'
  := by
  obtain ⟨child, ctx, hchild, hctx, rfl⟩ := slotStep_exec hstep
  have hfollows := exec_follows hchild
  have hfree : s.child.pc ≠ .jumpFree := by
    intro hat
    rw [hat] at hctx
    obtain ⟨hinside, -⟩ := Option.ite_none_right_eq_some.mp hctx
    cases h.torn hinside
  refine ⟨?_, ?_, ?_, ?_⟩
  · rw [hfollows.mode, h.mode]
  · rw [hfollows.didJump, h.didJump]
  · rcases Selection.exec_cases hctx with ⟨hpick, -⟩ | ⟨hnumber, htotal⟩
    · cases h.pc.symm.trans (congrArg Pc.isRecovering hpick)
    · rw [Selection.inside_congr hnumber htotal]
      apply h.torn
  · rw [hfollows.pc]
    apply next_isRecovering h.mode h.didJump h.pc hfree

/-- A signal that a child catches before it has freed a torn test case leaves it torn. -/
theorem Stuck.interrupt {num done : ℕ} {c : Selection} (h : Stuck table s)
    (hctx : s.ctx.interrupt table s.child.pc num done = some c) :
  ¬ c.Inside table
  := by
  rcases Selection.interrupt_cases hctx with ⟨hpick, -⟩ | ⟨-, args, -, -, rfl⟩
  · cases h.pc.symm.trans (congrArg Pc.isRecovering hpick)
  · apply h.torn

theorem Stuck.step {a : SlotAction S} (h : Stuck table s) (hstep : slotStep table s a = some s') :
  Stuck table s'
  := by
  cases a with
  | exec o ok stop num done ret => apply h.exec hstep
  | signal o num done sig =>
      obtain ⟨child, ctx, hchild, hctx, rfl⟩ := slotStep_signal hstep
      obtain ⟨hpc, hmode, hjump, -⟩ := signal_follows hchild
      obtain ⟨hnumber, htotal, -⟩ := ctx.signalled_frame sig
      refine ⟨hmode.trans h.mode, hjump, ?_, ?_⟩
      · rw [Selection.inside_congr hnumber htotal]
        apply h.interrupt hctx
      · rw [hpc, h.mode]
        rfl
  | stray num done =>
      obtain ⟨ctx, hctx, rfl⟩ := slotStep_stray hstep
      exact ⟨h.mode, h.didJump, h.interrupt hctx, h.pc⟩
  | mark sig =>
      cases hstep
      obtain ⟨hnumber, htotal, -⟩ := s.ctx.signalled_frame sig
      refine ⟨h.mode, rfl, ?_, h.pc⟩
      rw [Slot.mark, Selection.inside_congr hnumber htotal]
      apply h.torn
  | respawn t =>
      rw [slotStep_respawn hstep]
      exact ⟨h.mode, h.didJump, h.torn, rfl⟩

end Stuck

end FuzzLoop
