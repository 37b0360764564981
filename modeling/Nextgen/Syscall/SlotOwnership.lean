import Nextgen.Syscall.ChildCounter

/-!
# The children that the slots belong to

`child_exit_handler` empties the slot of a child it reaps only if the child exited, and a
child that exits has emptied its slot itself.  A child that is killed leaves its pid behind,
and once it is reaped the pid may be given to a child in another slot.  As long as no pid of
a killed child is left in a slot when it is reaped, each slot belongs to one child that can
still be reaped, and `get_child` returns to each child the slot that was chosen for it.
-/

open Transition ListUpdate

namespace Children

/-- The child has its pid in a slot, from its store to the one of `exit_child`. -/
def Stage.holdsSlot (stage : Stage) : Bool :=
  stage.hasStored && !stage.hasEmptied

/-- No two slots have the same pid, every pid in a slot is that of a child that has not been
reaped, and every live child that announced itself is returned its own slot. -/
structure OwnsSlots (s : State) : Prop where
  distinct : ∀ i j p : ℕ, s.slots[i]? = some p → s.slots[j]? = some p → p ≠ EMPTY → i = j
  unreaped : ∀ p ∈ s.slots, p ≠ EMPTY → ∃ c ∈ s.children, c.pid = p ∧ c.life ≠ .reaped
  getChild : ∀ c ∈ s.children, c.life = .alive → c.stage.holdsSlot →
    getChildIndexNumber s.slots c.pid = some c.slot

/-- A killed child is reaped only when no slot has its pid. -/
def ReapsReleased (s : State) : Action → Prop
  | .waitpid (some k) => ∀ c ∈ s.children[k]?, c.life = .killed → c.pid ∉ s.slots
  | _ => True

instance : ∀ (s : State) (a : Action), Decidable (ReapsReleased s a)
  | s, .waitpid (some k) =>
      inferInstanceAs (Decidable (∀ c ∈ s.children[k]?, c.life = .killed → c.pid ∉ s.slots))
  | _, .waitpid none | _, .parent _ | _, .sigchld | _, .handler | _, .child _ _ | _, .kill _ =>
      isTrue trivial

/-- The slots in use and the children that hold one correspond. -/
structure Owned (slots : List ℕ) (children : List Child) : Prop where
  holder : ∀ i p : ℕ, slots[i]? = some p → p ≠ EMPTY → ∃ (k : ℕ) (c : Child),
    children[k]? = some c ∧ c.life ≠ .reaped ∧ c.pid = p ∧ c.slot = i ∧ c.stage.holdsSlot
  holds : ∀ (k : ℕ) (c : Child), children[k]? = some c → c.life ≠ .reaped →
    c.stage.holdsSlot → slots[c.slot]? = some c.pid
  exited : ∀ (k : ℕ) (c : Child), children[k]? = some c → c.life = .exited →
    c.stage = .decremented

section Owned

variable {slots : List ℕ} {children : List Child} {k : ℕ} {c c' : Child}

/-- The only child to be reaped with the pid of a slot in use is its holder. -/
theorem Owned.slot_eq (h : Owned slots children) (hroster : Roster children) {i : ℕ}
    (hk : children[k]? = some c) (hlife : c.life ≠ .reaped) (hi : slots[i]? = some c.pid) :
  c.slot = i ∧ c.stage.holdsSlot
  := by
  obtain ⟨l, d, hd, hdlife, hpid, hslot, hholds⟩ := h.holder i c.pid hi (hroster.pid_ne k c hk)
  cases hroster.unique l k d c hd hk hdlife hlife hpid
  cases hd.symm.trans hk
  exact ⟨hslot, hholds⟩

/-- A change of a child that keeps its slot, or keeps without one. -/
theorem Owned.set (h : Owned slots children) (c' : Child) (hk : children[k]? = some c)
    (hpid : c'.pid = c.pid) (hslot : c'.slot = c.slot)
    (hholds : c'.stage.holdsSlot = c.stage.holdsSlot)
    (hlife : c'.life = .reaped ↔ c.life = .reaped)
    (hexited : c'.life = .exited → c'.stage = .decremented) :
  Owned slots (children.set k c')
  := by
  constructor
  · intro i p hi hp
    obtain ⟨l, d, hd, hdlife, hdpid, hdslot, hdholds⟩ := h.holder i p hi hp
    use l
    rcases eq_or_ne k l with rfl | hne
    · cases hk.symm.trans hd
      use c'
      rw [List.getElem?_set_self', hk, hpid, hslot, hholds]
      exact ⟨rfl, mt hlife.mp hdlife, hdpid, hdslot, hdholds⟩
    · use d
      rw [List.getElem?_set_ne hne]
      exact ⟨hd, hdlife, hdpid, hdslot, hdholds⟩
  · intro l d hd hdlife hdholds
    rcases getElem?_set_some hd with ⟨-, rfl⟩ | ⟨-, hd⟩
    · rw [hslot, hpid]
      apply h.holds k c hk (mt hlife.mpr hdlife)
      rw [← hholds]
      apply hdholds
    · apply h.holds l d hd hdlife hdholds
  · intro l d hd hdlife
    rcases getElem?_set_some hd with ⟨-, rfl⟩ | ⟨-, hd⟩
    · apply hexited hdlife
    · apply h.exited l d hd hdlife

/-- A child that is reaped when no slot has its pid. -/
theorem Owned.reap (h : Owned slots children) (hk : children[k]? = some c)
    (hfree : c.pid ∉ slots) :
  Owned slots (children.set k { c with life := .reaped })
  := by
  constructor
  · intro i p hi hp
    obtain ⟨l, d, hd, hdlife, hdpid, hdslot, hdholds⟩ := h.holder i p hi hp
    use l, d
    rw [List.getElem?_set_ne]
    · exact ⟨hd, hdlife, hdpid, hdslot, hdholds⟩
    · rintro rfl
      cases hk.symm.trans hd
      apply hfree
      rw [hdpid]
      apply List.mem_of_getElem? hi
  · intro l d hd hdlife hdholds
    rcases getElem?_set_some hd with ⟨-, rfl⟩ | ⟨-, hd⟩
    · cases hdlife rfl
    · apply h.holds l d hd hdlife hdholds
  · intro l d hd hdlife
    rcases getElem?_set_some hd with ⟨-, rfl⟩ | ⟨-, hd⟩
    · cases hdlife
    · apply h.exited l d hd hdlife

/-- A child that stores its pid in its empty slot. -/
theorem Owned.store (h : Owned slots children) (hroster : Roster children)
    (hk : children[k]? = some c) (halive : c.life = .alive)
    (hslot : slots[c.slot]? = some EMPTY) :
  Owned (slots.set c.slot c.pid) (children.set k { c with stage := .stored })
  := by
  constructor
  · intro i p hi hp
    rcases getElem?_set_some hi with ⟨rfl, rfl⟩ | ⟨hne, hi⟩
    · use k, { c with stage := .stored }
      rw [List.getElem?_set_self', hk]
      exact ⟨rfl, by simp [halive], rfl, rfl, rfl⟩
    · obtain ⟨l, d, hd, hdlife, hdpid, hdslot, hdholds⟩ := h.holder i p hi hp
      use l, d
      rw [List.getElem?_set_ne]
      · exact ⟨hd, hdlife, hdpid, hdslot, hdholds⟩
      · rintro rfl
        cases hk.symm.trans hd
        apply hne hdslot.symm
  · intro l d hd hdlife hdholds
    rcases getElem?_set_some hd with ⟨-, rfl⟩ | ⟨-, hd⟩
    · rw [List.getElem?_set_self', hslot]
      rfl
    · have hdslot := h.holds l d hd hdlife hdholds
      rw [List.getElem?_set_ne, hdslot]
      intro heq
      rw [heq, hdslot] at hslot
      apply hroster.pid_ne l d hd (Option.some.inj hslot)
  · intro l d hd hdlife
    rcases getElem?_set_some hd with ⟨-, rfl⟩ | ⟨-, hd⟩
    · cases halive.symm.trans hdlife
    · apply h.exited l d hd hdlife

/-- A child that empties the slot it found, which is its own. -/
theorem Owned.release (h : Owned slots children) (hroster : Roster children)
    (hk : children[k]? = some c) (halive : c.life = .alive) {i : ℕ}
    (hi : slots[i]? = some c.pid) :
  Owned (slots.set i EMPTY) (children.set k { c with stage := .emptied })
  := by
  have hunreaped : c.life ≠ .reaped := by
    simp [halive]
  obtain ⟨rfl, -⟩ := h.slot_eq hroster hk hunreaped hi
  constructor
  · intro j p hj hp
    rcases getElem?_set_some hj with ⟨-, rfl⟩ | ⟨hne, hj⟩
    · cases hp rfl
    · obtain ⟨l, d, hd, hdlife, hdpid, hdslot, hdholds⟩ := h.holder j p hj hp
      use l, d
      rw [List.getElem?_set_ne]
      · exact ⟨hd, hdlife, hdpid, hdslot, hdholds⟩
      · rintro rfl
        cases hk.symm.trans hd
        apply hne hdslot.symm
  · intro l d hd hdlife hdholds
    rcases getElem?_set_some hd with ⟨-, rfl⟩ | ⟨hne, hd⟩
    · cases hdholds
    · have hdslot := h.holds l d hd hdlife hdholds
      rw [List.getElem?_set_ne, hdslot]
      intro heq
      rw [heq, hdslot] at hi
      apply hne
      apply hroster.unique l k d c hd hk hdlife hunreaped (Option.some.inj hi)
  · intro l d hd hdlife
    rcases getElem?_set_some hd with ⟨-, rfl⟩ | ⟨-, hd⟩
    · cases halive.symm.trans hdlife
    · apply h.exited l d hd hdlife

/-- A new child holds no slot. -/
theorem Owned.fork (h : Owned slots children) (pid slot : ℕ) :
  Owned slots (children ++ [⟨pid, slot, .forked, false, .alive⟩])
  := by
  constructor
  · intro i p hi hp
    obtain ⟨l, d, hd, hrest⟩ := h.holder i p hi hp
    use l, d
    rw [List.getElem?_append_left (List.getElem?_eq_some_iff.mp hd).1]
    exact ⟨hd, hrest⟩
  · intro l d hd hdlife hdholds
    rcases getElem?_concat_some hd with hd | ⟨-, rfl⟩
    · apply h.holds l d hd hdlife hdholds
    · cases hdholds
  · intro l d hd hdlife
    rcases getElem?_concat_some hd with hd | ⟨-, rfl⟩
    · apply h.exited l d hd hdlife
    · cases hdlife

end Owned

/-! ### Steps -/

section Steps

variable {s s' : State} {total k : ℕ} {c : Child}

theorem childStep_owned {ok : Bool} (hinv : Inv total s) (h : Owned s.slots s.children)
    (hk : s.children[k]? = some c) (halive : c.life = .alive)
    (hstep : childStep s k c ok = some s') :
  Owned s'.slots s'.children
  := by
  -- most steps of a child concern neither its slot nor its life
  have hstage : ∀ {stage : Stage} {wrote : Bool}, stage.holdsSlot = c.stage.holdsSlot →
      Owned s.slots (s.children.set k { c with stage := stage, wrote := wrote }) := by
    intro stage wrote hholds
    apply h.set { c with stage := stage, wrote := wrote } hk rfl rfl hholds Iff.rfl
    intro hexited
    cases halive.symm.trans hexited
  cases hc : c.stage with
  | forked =>
      simp only [childStep, hc] at hstep
      cases hstep
      apply h.store hinv.roster hk halive
      apply hinv.slotMarks.forked k c hk halive
      simp [hc, Stage.hasStored]
  | found i =>
      simp only [childStep, hc] at hstep
      cases hstep
      apply h.release hinv.roster hk halive
      apply hinv.slotMarks.found k c i hk halive hc
  | decremented =>
      simp only [childStep, hc] at hstep
      cases hstep
      apply h.set { c with stage := .decremented, life := .exited } hk rfl rfl
      · rw [hc]
      · simp [halive]
      · intro _
        rfl
  | stored | running | emptied =>
      simp only [childStep, hc] at hstep
      cases hstep
      apply hstage
      rw [hc]
      rfl
  | added =>
      simp only [childStep, hc] at hstep
      split at hstep <;> cases hstep
      all_goals
        apply hstage
        rw [hc]
        rfl
  | lookup j =>
      simp only [childStep, hc] at hstep
      split at hstep
      · cases hstep
      · cases hstep
        apply hstage
        rw [hc]
        split <;> rfl

theorem waitpidStep_owned {child : Option ℕ} (hinv : Inv total s)
    (h : Owned s.slots s.children) (hreaps : ReapsReleased s (.waitpid child))
    (hstep : waitpidStep s child = some s') :
  Owned s'.slots s'.children
  := by
  cases child with
  | none =>
      rw [waitpidStep] at hstep
      split at hstep <;> cases hstep
      apply h
  | some k =>
      simp only [waitpidStep] at hstep
      split at hstep
      · cases hstep
      · rename_i c hk
        split at hstep
        · rename_i hlife
          cases hstep
          apply h.reap hk
          -- a child that exited emptied its slot before
          intro hmem
          obtain ⟨i, hi⟩ := List.mem_iff_getElem?.mp hmem
          have hunreaped : c.life ≠ .reaped := by
            simp [hlife]
          have hholds := (h.slot_eq hinv.roster hk hunreaped hi).2
          rw [h.exited k c hk hlife] at hholds
          cases hholds
        · rename_i hlife
          cases hstep
          apply h.reap hk (hreaps c hk hlife)
        · cases hstep
        · cases hstep

/-- A handler that looks for the pid of a child that is gone finds no slot. -/
theorem handlerStep_owned {pc : HandlerPc} (hinv : Inv total s) (h : Owned s.slots s.children)
    (hpc : s.handler = some pc) (hstep : handlerStep s pc = some s') :
  Owned s'.slots s'.children
  := by
  cases pc with
  | wait => cases hstep
  | lookup pid j =>
      simp only [handlerStep] at hstep
      split at hstep <;> cases hstep
      all_goals apply h
  | clear i pid =>
      have hmarks := hinv.handlerMarks
      rw [hpc] at hmarks
      obtain ⟨hi, hpid, hvacant⟩ := hmarks
      obtain ⟨l, d, hd, hdlife, hdpid, -⟩ := h.holder i pid hi hpid
      cases hvacant l d hd hdlife hdpid

theorem parentStep_owned {o : Outcome} (h : Owned s.slots s.children)
    (hstep : parentStep s o = some s') :
  Owned s'.slots s'.children
  := by
  have hsame : s'.slots = s.slots ∧ s'.children = s.children →
      Owned s'.slots s'.children := by
    rintro ⟨hslots, hchildren⟩
    rw [hslots, hchildren]
    apply h
  cases hpc : s.parent with
  | fork i =>
      simp only [parentStep, hpc] at hstep
      split at hstep
      · cases hstep
        apply h
      · split at hstep <;> cases hstep
        apply h.fork
  | test | scan i | read k =>
      simp only [parentStep, hpc] at hstep
      apply hsame
      split at hstep
      all_goals grind
  | pipe i | returned rtrn =>
      simp only [parentStep, hpc] at hstep
      cases hstep
      apply h
  | done =>
      simp only [parentStep, hpc] at hstep
      cases hstep

theorem step_owned {a : Action} (hinv : Inv total s) (h : Owned s.slots s.children)
    (hreaps : ReapsReleased s a) (hstep : step s a = some s') :
  Owned s'.slots s'.children
  := by
  have hcases := step_cases hstep
  cases a with
  | parent o =>
      obtain ⟨-, hstep⟩ := hcases
      apply parentStep_owned h hstep
  | sigchld =>
      obtain ⟨-, rfl⟩ := hcases
      apply h
  | waitpid child =>
      obtain ⟨-, hstep⟩ := hcases
      apply waitpidStep_owned hinv h hreaps hstep
  | handler =>
      obtain ⟨pc, hpc, hstep⟩ := hcases
      apply handlerStep_owned hinv h hpc hstep
  | child k ok =>
      obtain ⟨c, hk, halive, hstep⟩ := hcases
      apply childStep_owned hinv h hk halive hstep
  | kill k =>
      obtain ⟨c, hk, halive, rfl⟩ := hcases
      apply h.set { c with life := .killed } hk rfl rfl rfl
      · simp [halive]
      · intro hexited
        cases hexited

theorem Owned.ownsSlots (hinv : Inv total s) (h : Owned s.slots s.children) :
  OwnsSlots s
  := by
  have hdistinct : ∀ i j p : ℕ, s.slots[i]? = some p → s.slots[j]? = some p → p ≠ EMPTY →
      i = j := by
    intro i j p hi hj hp
    obtain ⟨k, c, hk, hlife, rfl, rfl, -⟩ := h.holder i p hi hp
    apply (h.slot_eq hinv.roster hk hlife hj).1
  constructor
  · apply hdistinct
  · intro p hp hne
    obtain ⟨i, hi⟩ := List.mem_iff_getElem?.mp hp
    obtain ⟨k, c, hk, hlife, hpid, -⟩ := h.holder i p hi hne
    exact ⟨c, List.mem_of_getElem? hk, hpid, hlife⟩
  · intro c hc halive hholds
    obtain ⟨k, hk⟩ := List.mem_iff_getElem?.mp hc
    have hslot := h.holds k c hk (by simp [halive]) hholds
    have hpid := hinv.roster.pid_ne k c hk
    apply findIdx?_eq_some_iff.mpr
    constructor
    · exact ⟨c.pid, hslot, beq_self_eq_true _⟩
    · intro j hj p hp hbeq
      rw [beq_iff_eq.mp hbeq] at hp
      apply Nat.ne_of_lt hj (hdistinct j c.slot c.pid hp hslot hpid)

end Steps

/-- In every run in which a killed child is reaped only when no slot has its pid, the slots
belong to the children they were chosen for. -/
theorem slots_owned {total : ℕ} (htotal : total < 2 ^ 32) (actions : List Action)
    (hreaps : AllSteps step ReapsReleased (State.init total) actions) :
  AllStates step OwnsSlots (State.init total) actions
  := by
  have hpreserve : ∀ {s a s'}, Inv total s ∧ Owned s.slots s.children → ReapsReleased s a →
      step s a = some s' → Inv total s' ∧ Owned s'.slots s'.children := by
    rintro s a s' ⟨hinv, howned⟩ hreaps hstep
    exact ⟨step_inv htotal hinv hstep, step_owned hinv howned hreaps hstep⟩
  have hholds : ∀ {s}, Inv total s ∧ Owned s.slots s.children → OwnsSlots s := by
    rintro s ⟨hinv, howned⟩
    apply howned.ownsSlots hinv
  apply allStates_of_invariant hpreserve hholds _ hreaps
  use init_inv total
  constructor
  · intro i p hi hp
    cases hp (List.eq_of_mem_replicate (List.mem_of_getElem? hi))
  · intro k c hk
    cases hk
  · intro k c hk
    cases hk

/-- A child is killed when it has emptied its slot, reaped, and its pid given to another. -/
def releasedRun : List Action :=
  createChild 0 0 7 ++ List.replicate 3 (.child 0 true) ++
    [.kill 0, .sigchld, .waitpid (some 0), .waitpid none] ++ createChild 1 0 7

theorem slots_owned_released :
  (run step (State.init 2) releasedRun).map State.slots = some [7, EMPTY] ∧
    AllStates step OwnsSlots (State.init 2) releasedRun
  := by
  constructor
  · decide
  · apply slots_owned
    · decide
    · decide

/-- A child is killed and reaped, and its pid given to another. -/
def killedRun : List Action :=
  createChild 0 0 7 ++ [.kill 0, .sigchld, .waitpid (some 0), .waitpid none] ++
    createChild 1 1 7

/-- The pid of a killed child stays in its slot: another child that is given the pid is in
two slots, and `get_child` returns to it the wrong one. -/
theorem slots_not_owned_killed :
  ¬ AllStates step OwnsSlots (State.init 2) killedRun
  := by
  intro hall
  let c : Child := ⟨7, 1, .running, true, .alive⟩
  let s : State := ⟨[7, 7], 2, .test, 1, none, [⟨7, 0, .running, true, .reaped⟩, c]⟩
  have hrun : run step (State.init 2) killedRun = some s := by
    decide
  have hget := (hall.at_run hrun).getChild c (by decide) rfl rfl
  cases hget

end Children
