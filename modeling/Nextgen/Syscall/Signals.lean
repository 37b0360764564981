import Nextgen.Lib.ListUpdate
import Nextgen.Concurrent.Epoch
import Nextgen.Syscall.Children
import Nextgen.Syscall.Entry

/-!
# The signal handler of a child

`child_signal_handler` looks for the context of the child in the array that all children share,
by the pid that the system gives with the signal.  For a fault or a timer that need not be the
pid of the process that received the signal.
-/

open Children (EMPTY)
open Epoch (Fault)
open ListUpdate
open Syscall (YesNo)

namespace Signals

/-- The signals that a child catches. -/
inductive Signal where
  | sigbus
  | sigsegv
  | sigalrm
  deriving DecidableEq, Repr

/-- The part of `struct child_ctx` that the handler writes, with the pid. -/
structure Context where
  pid : ℤ
  hadError : YesNo
  retValue : ℤ
  didJump : YesNo
  sigNum : Option Signal
  deriving DecidableEq, Repr

/-- `get_child_ctx_from_pid`: the first slot with a pid. -/
def getChildCtxFromPid (children : List Context) (pid : ℤ) : Option ℕ :=
  children.findIdx? (·.pid == pid)

/-- The context after the assignments for a signal. -/
def Context.signalled (c : Context) (sig : Signal) : Context :=
  match sig with
  | .sigalrm => { c with hadError := .no, retValue := 0, didJump := .yes, sigNum := some sig }
  | _ => { c with hadError := .yes, retValue := -1, didJump := .yes, sigNum := some sig }

/-- The contexts after the handler, and the slot through whose `return_jump` it jumps. -/
structure Handled where
  children : List Context
  jump : ℕ
  deriving DecidableEq, Repr

/-- `child_signal_handler`, which does not check whether it found a context. -/
def childSignalHandler (children : List Context) (sig : Signal) (siPid : ℤ) :
    Except Fault Handled :=
  match getChildCtxFromPid children siPid with
  | none => .error .nullPointer
  | some i => .ok ⟨children.modify i (·.signalled sig), i⟩

/-- The handler writes to the context of a slot, leaves all others and jumps through that
context. -/
def TouchesOwn (children : List Context) (i : ℕ) (sig : Signal) (siPid : ℤ) : Prop :=
  ∃ handled, childSignalHandler children sig siPid = .ok handled ∧ handled.jump = i ∧
    handled.children[i]? = children[i]?.map (·.signalled sig) ∧
      ∀ j ≠ i, handled.children[j]? = children[j]?

/-! ### Which context is found -/

section Handler

variable {children : List Context} {i : ℕ} {sig : Signal} {siPid : ℤ}

theorem childSignalHandler_eq_ok {handled : Handled}
    (h : childSignalHandler children sig siPid = .ok handled) :
  getChildCtxFromPid children siPid = some handled.jump ∧
    handled.children = children.modify handled.jump (·.signalled sig)
  := by
  rw [childSignalHandler] at h
  split at h
  · cases h
  · rename_i j hfound
    cases h
    exact ⟨hfound, rfl⟩

/-- The handler touches the context that it finds, and no other. -/
theorem touchesOwn_iff_found :
  TouchesOwn children i sig siPid ↔ getChildCtxFromPid children siPid = some i
  := by
  constructor
  · rintro ⟨handled, hok, rfl, -⟩
    apply (childSignalHandler_eq_ok hok).1
  · intro hfound
    use ⟨children.modify i (·.signalled sig), i⟩
    refine ⟨?_, rfl, ?_, ?_⟩
    · rw [childSignalHandler, hfound]
    · apply List.getElem?_modify_eq
    · intro j hne
      apply List.getElem?_modify_ne _ _ hne.symm

/-- For a child with a slot, the handler touches its own context only, if and only if the signal
came with the pid of the child and no slot before its own has that pid. -/
theorem touchesOwn_iff {c : Context} (hslot : children[i]? = some c) (sig : Signal) (siPid : ℤ) :
  TouchesOwn children i sig siPid ↔
    siPid = c.pid ∧ ∀ j < i, ∀ d, children[j]? = some d → d.pid ≠ c.pid
  := by
  rw [touchesOwn_iff_found, getChildCtxFromPid, findIdx?_eq_some_iff]
  simp only [hslot, beq_iff_eq]
  constructor
  · rintro ⟨⟨d, hd, rfl⟩, hbefore⟩
    cases hd
    exact ⟨rfl, hbefore⟩
  · rintro ⟨rfl, hbefore⟩
    exact ⟨⟨c, rfl, rfl⟩, hbefore⟩

end Handler

/-- A context of `init_child_context` after its slot was taken by a child. -/
def newContext (pid : ℤ) : Context :=
  ⟨pid, .yes, 0, .yes, none⟩

theorem touchesOwn_own :
  TouchesOwn [newContext EMPTY, newContext 7] 1 .sigalrm 7
  := by
  apply (touchesOwn_iff (c := newContext 7) rfl .sigalrm 7).mpr
  use rfl
  intro j hj d hd
  cases Nat.lt_one_iff.mp hj
  cases hd
  decide

/-- A fault of the child in the second slot, with zero for the pid, is written to the first slot,
which is empty. -/
theorem touchesOwn_not_empty :
  ¬ TouchesOwn [newContext EMPTY, newContext 7] 1 .sigsegv 0
  := by
  rintro ⟨handled, hok, hjump, -⟩
  cases hok
  cases hjump

end Signals
