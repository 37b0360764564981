import Nextgen.Syscall.Children
import Nextgen.Syscall.Selection

/-!
# The test cases of all children

The slots of the array of children with the pids that they hold.  `child_signal_handler` runs in
the child that catches a signal and looks for the slot that holds the pid which comes with the
signal, `si_pid`: that of the process that has sent the signal, and zero for a fault or a timer.
If that is not the slot of the child, the handler writes to the context of another child, or
through a null pointer, and the child jumps through a `return_jump` that it has not set.  A run
ends there.
-/

universe u

open Transition Epoch ListUpdate
open Children (EMPTY)
open Signals (Signal getChildCtxFromPid childSignalHandler)

namespace FuzzLoop

/-- A slot of the array of children. -/
structure PidSlot (S : Type u) where
  pid : ℤ
  slot : Slot S
  deriving DecidableEq

/-- The child of a slot makes its next call, or catches a signal that comes with a pid; or the
parent puts a new child in a slot. -/
inductive SlotsAction (S : Type u) where
  | exec (i : ℕ) (o : Outcome S) (ok stop : Bool) (num done : ℕ) (ret : ℤ)
  | signal (i : ℕ) (o : Outcome S) (num done : ℕ) (sig : Signal) (siPid : ℤ)
  | respawn (i : ℕ) (pid : ℤ) (t : ThreadCtx S)

variable {S : Type u}

/-- The part of the context of a slot that the handler writes, with the pid. -/
def PidSlot.context (p : PidSlot S) : Signals.Context :=
  ⟨p.pid, p.slot.ctx.hadError, p.slot.ctx.retValue, p.slot.child.didJump, p.slot.ctx.sigNum⟩

/-- The slot whose context `child_signal_handler` finds. -/
def found (slots : List (PidSlot S)) (siPid : ℤ) : Option ℕ :=
  getChildCtxFromPid (slots.map PidSlot.context) siPid

/-- The handler finds the context of the child that has caught the signal, which has set its
`return_jump`. -/
def FindsOwn (slots : List (PidSlot S)) (i : ℕ) (p : PidSlot S) (siPid : ℤ) : Prop :=
  found slots siPid = some i ∧ p.slot.child.jumpSet = true

instance (slots : List (PidSlot S)) (i : ℕ) (p : PidSlot S) (siPid : ℤ) :
    Decidable (FindsOwn slots i p siPid) :=
  inferInstanceAs (Decidable (_ ∧ _))

/-- The child of a slot catches a signal. -/
def catchSignal (table : SysTable) (slots : List (PidSlot S)) (i : ℕ) (p : PidSlot S)
    (o : Outcome S) (num done : ℕ) (sig : Signal) (siPid : ℤ) : Option (List (PidSlot S)) :=
  if FindsOwn slots i p siPid then
    (slotStep table p.slot (.signal o num done sig)).map fun slot => slots.set i { p with slot }
  else
    (slotStep table p.slot (.stray num done)).map fun slot =>
      let slots' := slots.set i { p with slot }
      match found slots siPid with
      | none => slots'
      | some j => slots'.modify j fun q => { q with slot := q.slot.mark sig }

/-- A slot that has had no child yet. -/
def PidSlot.init (mode : Mode) : PidSlot S :=
  ⟨EMPTY, ⟨⟨mode, .exited, none, .yes, false⟩, .init, false⟩⟩

section Steps

variable {table : SysTable} {slots slots' : List (PidSlot S)} {a : SlotsAction S} {i j : ℕ}
  {p q : PidSlot S} {o : Outcome S} {num done : ℕ} {sig : Signal} {siPid : ℤ}

/-- What a signal does that a child catches. -/
theorem catchSignal_cases (h : catchSignal table slots i p o num done sig siPid = some slots') :
  (FindsOwn slots i p siPid ∧ ∃ slot, slotStep table p.slot (.signal o num done sig) = some slot ∧
      slots' = slots.set i { p with slot }) ∨
    (¬ FindsOwn slots i p siPid ∧ ∃ slot, slotStep table p.slot (.stray num done) = some slot ∧
      ((found slots siPid = none ∧ slots' = slots.set i { p with slot }) ∨
        ∃ j, found slots siPid = some j ∧ slots' = (slots.set i { p with slot }).modify j
          fun q => { q with slot := q.slot.mark sig }))
  := by
  rw [catchSignal] at h
  split at h
  · rename_i hown
    obtain ⟨slot, hslot, rfl⟩ := Option.map_eq_some_iff.mp h
    exact .inl ⟨hown, slot, hslot, rfl⟩
  · rename_i hown
    obtain ⟨slot, hslot, rfl⟩ := Option.map_eq_some_iff.mp h
    refine .inr ⟨hown, slot, hslot, ?_⟩
    split
    · rename_i hfound
      exact .inl ⟨hfound, rfl⟩
    · rename_i j hfound
      exact .inr ⟨j, hfound, rfl⟩

/-- The handler finds a slot by its pid alone. -/
theorem found_set {slot : Slot S} (hp : slots[i]? = some p) :
  found (slots.set i { p with slot }) siPid = found slots siPid
  := by
  have hfound : ∀ slots : List (PidSlot S),
      found slots siPid = (slots.map PidSlot.pid).findIdx? (· == siPid) := by
    intro slots
    rw [found, getChildCtxFromPid, List.findIdx?_map, List.findIdx?_map]
    rfl
  rw [hfound, hfound, List.map_set, set_eq_self]
  rw [List.getElem?_map, hp]
  rfl

/-- What the handler writes to the context of a slot. -/
theorem context_mark (sig : Signal) (q : PidSlot S) :
  PidSlot.context { q with slot := q.slot.mark sig } = q.context.signalled sig
  := by
  cases sig <;> rfl

/-- A signal that a child catches changes the contexts as `child_signal_handler` does, after the
stores that the child has made. -/
theorem catchSignal_handler (hp : slots[i]? = some p)
    (h : catchSignal table slots i p o num done sig siPid = some slots') :
  ∃ ctx, p.slot.ctx.interrupt table p.slot.child.pc num done = some ctx ∧
    childSignalHandler
        ((slots.set i { p with slot := { p.slot with ctx } }).map PidSlot.context) sig siPid
      = match found slots siPid with
        | none => .error .nullPointer
        | some j => .ok ⟨slots'.map PidSlot.context, j⟩
  := by
  have hhandler : ∀ slot : Slot S,
      childSignalHandler ((slots.set i { p with slot }).map PidSlot.context) sig siPid
        = match found slots siPid with
          | none => .error .nullPointer
          | some j => .ok ⟨((slots.set i { p with slot }).map PidSlot.context).modify j
              (·.signalled sig), j⟩ := by
    intro slot
    have hfound : found (slots.set i { p with slot }) siPid = found slots siPid := found_set hp
    rw [← hfound]
    rfl
  obtain ⟨hown, slot, hslot, rfl⟩ | ⟨-, slot, hslot, hmarked⟩ := catchSignal_cases h
  · obtain ⟨child, ctx, hchild, hctx, rfl⟩ := slotStep_signal hslot
    refine ⟨ctx, hctx, ?_⟩
    obtain ⟨-, -, hdidJump, -⟩ := signal_follows hchild
    rw [hhandler, hown.1]
    simp only
    rw [List.map_set, List.map_set, modify_set, ← context_mark]
    simp only [PidSlot.context, Slot.mark, hdidJump]
  · obtain ⟨ctx, hctx, rfl⟩ := slotStep_stray hslot
    refine ⟨ctx, hctx, ?_⟩
    obtain ⟨hnone, -⟩ | ⟨j, hj, rfl⟩ := hmarked
    · simp only [hhandler, hnone]
    · rw [hhandler, hj]
      simp only
      rw [map_modify (f := PidSlot.context) (h := (·.signalled sig)) (context_mark sig),
        List.map_set, List.map_set]
      rfl

end Steps

/-! ### The test cases are consistent -/

section Consistent

variable {table : SysTable} {slots slots' : List (PidSlot S)} {a : SlotsAction S}

end Consistent

/-- The child of a slot makes some calls, which succeed.  The first entry of the table is picked,
and zero is returned by its system call. -/
def calls (i n : ℕ) : List (SlotsAction ℕ) :=
  List.replicate n (.exec i ⟨true, true, 0⟩ true false 0 0 0)

end FuzzLoop
