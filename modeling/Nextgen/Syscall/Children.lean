import Nextgen.Concurrent.Epoch

/-!
# The children of the main loop

The parent of `start_main_syscall_loop` and `create_child`, its handler of `SIGCHLD` and any
number of fuzzing children share the array of child slots and the counter
`running_children`.  Every access to either is a step of its own.  The parent's handler
suspends the parent's other code, and a child may be killed between any two of its steps.

A child is never forgotten: its record says how far it came, and whether it is alive, has
terminated or has been reaped, so that its pid may be given to another child.
-/

open Transition
open Epoch (u32)

namespace Children

/-- `enum child_state`, the pid of a slot that no child uses. -/
abbrev EMPTY : ℕ := 0

/-- How far a child has come in the part of `create_child` that it executes and in
`exit_child`.  `lookup` is at an index of `get_child_index_number`, and `found` has the
slot whose context `get_child` returned. -/
inductive Stage where
  | forked
  | stored
  | added
  | running
  | lookup (index : ℕ)
  | found (slot : ℕ)
  | emptied
  | decremented
  deriving DecidableEq, Repr

/-- The status that `waitpid` sees. -/
inductive Life where
  | alive
  | exited
  | killed
  | reaped
  deriving DecidableEq, Repr

/-- A child, the slot that `create_child` chose for it, and whether it has written the byte
its parent waits for. -/
structure Child where
  pid : ℕ
  slot : ℕ
  stage : Stage
  wrote : Bool
  life : Life
  deriving DecidableEq, Repr

/-- The next step of the parent in `start_main_syscall_loop` or `create_child`.  `read` waits
for the child of an index, and `returned` has the value of `create_child`. -/
inductive ParentPc where
  | test
  | scan (index : ℕ)
  | pipe (slot : ℕ)
  | fork (slot : ℕ)
  | read (child : ℕ)
  | returned (rtrn : ℤ)
  | done
  deriving DecidableEq, Repr

/-- The next step of `child_exit_handler`. -/
inductive HandlerPc where
  | wait
  | lookup (pid index : ℕ)
  | clear (slot pid : ℕ)
  deriving DecidableEq, Repr

/-- The parent, its children and what they share.  `entered` is the number of children there
were when `create_child` was called last. -/
structure State where
  slots : List ℕ
  runningChildren : ℕ
  parent : ParentPc
  entered : ℕ
  handler : Option HandlerPc
  children : List Child
  deriving DecidableEq, Repr

/-- What the calls made by the parent return: whether they succeed, whether `stop` is set, and
the pid of a new child. -/
structure Outcome where
  ok : Bool
  stop : Bool
  pid : ℕ
  deriving Repr

/-- A step: of the parent; the start of its handler, a return of `waitpid` in it with or
without a child, or another step of it; of a child; or the death of a child by a signal. -/
inductive Action where
  | parent (o : Outcome)
  | sigchld
  | waitpid (child : Option ℕ)
  | handler
  | child (index : ℕ) (ok : Bool)
  | kill (index : ℕ)
  deriving Repr

/-- Before `start_main_syscall_loop`. -/
def State.init (totalChildren : ℕ) : State where
  slots := List.replicate totalChildren EMPTY
  runningChildren := 0
  parent := .test
  entered := 0
  handler := none
  children := []

/-- `get_child_index_number`, which `get_child` uses, on an array that does not change. -/
def getChildIndexNumber (slots : List ℕ) (pid : ℕ) : Option ℕ :=
  slots.findIdx? (· == pid)

/-! ### Steps -/

/-- A step of the parent outside its handler. -/
def parentStep (s : State) (o : Outcome) : Option State :=
  match s.parent with
  | .test =>
      if o.stop then some { s with parent := .done }
      else if s.runningChildren < s.slots.length then
        some { s with parent := .scan 0, entered := s.children.length }
      else some s
  | .scan i =>
      match s.slots[i]? with
      -- the loop ends without an empty slot
      | none => some { s with parent := .returned 0 }
      | some pid =>
          if !o.ok then some { s with parent := .returned (-1) }
          else if pid ≠ EMPTY then some { s with parent := .scan (i + 1) }
          else some { s with parent := .pipe i }
  | .pipe i =>
      some { s with parent := if o.ok then .fork i else .returned (-1) }
  | .fork i =>
      if !o.ok then some { s with parent := .returned (-1) }
      -- the pid of a process that has not been reaped is not given out again
      else if o.pid ≠ 0 ∧ ∀ c ∈ s.children, c.life ≠ .reaped → c.pid ≠ o.pid then
        some { s with
          parent := .read s.children.length
          children := s.children ++ [⟨o.pid, i, .forked, false, .alive⟩] }
      else none
  | .read k =>
      match s.children[k]? with
      | none => none
      | some c =>
          -- a signal interrupts `read`; the parent has the other end of the pipe open too, so
          -- that the death of the child does not end it
          if !o.ok then some { s with parent := .returned (-1) }
          else if c.wrote then some { s with parent := .returned 0 }
          else none
  | .returned rtrn => some { s with parent := if rtrn < 0 then .done else .test }
  | .done => none

/-- Replace the child of index `k`. -/
@[simps]
def State.setChild (s : State) (k : ℕ) (c : Child) : State :=
  { s with children := s.children.set k c }

/-- A return of `waitpid` in the handler. -/
def waitpidStep (s : State) : Option ℕ → Option State
  | none =>
      if ∀ c ∈ s.children, c.life = .alive ∨ c.life = .reaped then
        some { s with handler := none }
      else none
  | some k =>
      match s.children[k]? with
      | none => none
      | some c =>
          let reaped := s.setChild k { c with life := .reaped }
          match c.life with
          | .exited => some { reaped with handler := some (.lookup c.pid 0) }
          | .killed => some reaped
          | .alive | .reaped => none

/-- A step of the handler after `waitpid`: `get_child_ctx_from_pid` and `set_child_pid`. -/
def handlerStep (s : State) : HandlerPc → Option State
  | .wait => none
  | .lookup pid j =>
      match s.slots[j]? with
      | none => some { s with handler := none }
      | some p =>
          some { s with handler := some (if p = pid then .clear j pid else .lookup pid (j + 1)) }
  | .clear i _ => some { s with slots := s.slots.set i EMPTY, handler := some .wait }

/-- A step of the child `c` of index `k`. -/
def childStep (s : State) (k : ℕ) (c : Child) (ok : Bool) : Option State :=
  match c.stage with
  | .forked =>
      let s := s.setChild k { c with stage := .stored }
      some { s with slots := s.slots.set c.slot c.pid }
  | .stored =>
      let s := s.setChild k { c with stage := .added }
      some { s with runningChildren := u32 (s.runningChildren + 1) }
  | .added =>
      if ok then some (s.setChild k { c with stage := .running, wrote := true })
      else some (s.setChild k { c with stage := .lookup 0 })
  | .running => some (s.setChild k { c with stage := .lookup 0 })
  | .lookup j =>
      match s.slots[j]? with
      -- the child goes on with a null context, which kills it
      | none => none
      | some p =>
          let stage := if p = c.pid then .found j else .lookup (j + 1)
          some (s.setChild k { c with stage := stage })
  | .found i =>
      let s := s.setChild k { c with stage := .emptied }
      some { s with slots := s.slots.set i EMPTY }
  | .emptied =>
      let s := s.setChild k { c with stage := .decremented }
      some { s with runningChildren := u32 (s.runningChildren + (2 ^ 32 - 1)) }
  | .decremented => some (s.setChild k { c with life := .exited })

/-- A step of the parent, of its handler or of a child. -/
def step (s : State) : Action → Option State
  | .parent o => if s.handler = none then parentStep s o else none
  | .sigchld => if s.handler = none then some { s with handler := some .wait } else none
  | .waitpid child => if s.handler = some .wait then waitpidStep s child else none
  | .handler => s.handler.bind (handlerStep s)
  | .child k ok =>
      match s.children[k]? with
      | none => none
      | some c => if c.life = .alive then childStep s k c ok else none
  | .kill k =>
      match s.children[k]? with
      | none => none
      | some c => if c.life = .alive then some (s.setChild k { c with life := .killed }) else none

/-- What each action does, and when it can be taken. -/
theorem step_cases {s s' : State} {a : Action} (h : step s a = some s') :
  match a with
  | .parent o => s.handler = none ∧ parentStep s o = some s'
  | .sigchld => s.handler = none ∧ { s with handler := some .wait } = s'
  | .waitpid child => s.handler = some .wait ∧ waitpidStep s child = some s'
  | .handler => ∃ pc, s.handler = some pc ∧ handlerStep s pc = some s'
  | .child k ok => ∃ c, s.children[k]? = some c ∧ c.life = .alive ∧ childStep s k c ok = some s'
  | .kill k => ∃ c, s.children[k]? = some c ∧ c.life = .alive ∧
      s.setChild k { c with life := .killed } = s'
  := by
  cases a with
  | parent o => exact Option.ite_none_right_eq_some.mp h
  | sigchld =>
      obtain ⟨hhandler, heq⟩ := Option.ite_none_right_eq_some.mp h
      exact ⟨hhandler, Option.some.inj heq⟩
  | waitpid child => exact Option.ite_none_right_eq_some.mp h
  | handler => exact Option.bind_eq_some_iff.mp h
  | child k ok =>
      rw [step] at h
      split at h
      · cases h
      · rename_i c hk
        exact ⟨c, hk, Option.ite_none_right_eq_some.mp h⟩
  | kill k =>
      rw [step] at h
      split at h
      · cases h
      · rename_i c hk
        obtain ⟨halive, heq⟩ := Option.ite_none_right_eq_some.mp h
        exact ⟨c, hk, halive, Option.some.inj heq⟩

end Children
