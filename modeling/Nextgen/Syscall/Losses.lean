import Nextgen.Syscall.ChildCounter

/-!
# Children that are lost

A child that is killed by a signal does not get to `exit_child`, and `child_exit_handler` does
nothing for it.  So the counter `running_children` counts it for ever, and there is one child less
that the parent will have.  When as many children are lost as there are slots, the parent never
creates another one.

A child that is killed before it has written its byte stops the parent at once: the parent waits in
`read`, and gives up when a signal interrupts that.
-/

open Transition ListUpdate

namespace Children

/-- The child is counted by `running_children`. -/
def Stage.isCounted (stage : Stage) : Bool :=
  stage.hasAdded && !stage.hasDecremented

/-- The child is counted, and will not be able to change that. -/
def Child.isLost (c : Child) : Bool :=
  c.life != .alive && c.stage.isCounted

/-- The child is counted, and alive. -/
def Child.isActive (c : Child) : Bool :=
  c.life == .alive && c.stage.isCounted

/-! ### What a step does to the children -/

/-- Nothing happens to a child that is not alive but that it is reaped. -/
def Evolves (c c' : Child) : Prop :=
  c.life ≠ .alive → c'.life ≠ .alive ∧ c'.stage = c.stage ∧ c'.wrote = c.wrote

section Steps

variable {s s' : State} {a : Action} {k : ℕ} {c : Child}

/-- A step leaves the children alone, does something to one of them, or creates one. -/
inductive Touches (s s' : State) : Prop where
  | none (h : s'.children = s.children)
  | one {k : ℕ} {c c' : Child} (hk : s.children[k]? = some c)
      (h : s'.children = s.children.set k c') (hevolves : Evolves c c')
  | new {i : ℕ} {c : Child} (hparent : s.parent = .fork i) (h : s'.children = s.children ++ [c])

theorem parentStep_touches {o : Outcome} (h : parentStep s o = some s') :
  Touches s s'
  := by
  cases hparent : s.parent with
  | fork i =>
      simp only [parentStep, hparent] at h
      split at h
      · cases h
        exact .none rfl
      · obtain ⟨-, h⟩ := Option.ite_none_right_eq_some.mp h
        cases h
        exact .new hparent rfl
  | _ =>
      simp only [parentStep, hparent] at h
      repeat' split at h
      all_goals cases h
      all_goals exact .none rfl

theorem waitpidStep_touches {child : Option ℕ} (h : waitpidStep s child = some s') :
  s'.parent = s.parent ∧ Touches s s'
  := by
  cases child with
  | none =>
      obtain ⟨-, h⟩ := Option.ite_none_right_eq_some.mp h
      cases h
      exact ⟨rfl, .none rfl⟩
  | some k =>
      simp only [waitpidStep] at h
      split at h
      · cases h
      · rename_i c hk
        have hreaped : Evolves c { c with life := .reaped } := by
          intro _
          exact ⟨by rintro ⟨⟩, rfl, rfl⟩
        split at h
        all_goals cases h
        · exact ⟨rfl, .one hk rfl hreaped⟩
        · exact ⟨rfl, .one hk rfl hreaped⟩

theorem handlerStep_touches {pc : HandlerPc} (h : handlerStep s pc = some s') :
  s'.parent = s.parent ∧ Touches s s'
  := by
  cases pc with
  | wait => cases h
  | lookup pid j =>
      simp only [handlerStep] at h
      split at h
      · cases h
        exact ⟨rfl, .none rfl⟩
      · cases h
        exact ⟨rfl, .none rfl⟩
  | clear i pid =>
      cases h
      exact ⟨rfl, .none rfl⟩

theorem childStep_touches {ok : Bool} (hk : s.children[k]? = some c) (halive : c.life = .alive)
    (h : childStep s k c ok = some s') :
  s'.parent = s.parent ∧ Touches s s'
  := by
  have hone (c' : Child) (hchildren : s'.children = s.children.set k c') : Touches s s' :=
    .one hk hchildren (fun hdead => (hdead halive).elim)
  cases hstage : c.stage with
  | lookup j =>
      simp only [childStep, hstage] at h
      split at h
      all_goals cases h
      exact ⟨rfl, hone _ rfl⟩
  | added =>
      simp only [childStep, hstage] at h
      split at h
      all_goals cases h
      · exact ⟨rfl, hone _ rfl⟩
      · exact ⟨rfl, hone _ rfl⟩
  | _ =>
      simp only [childStep, hstage] at h
      cases h
      exact ⟨rfl, hone _ rfl⟩

/-- Only its own steps move the parent. -/
theorem step_touches (h : step s a = some s') :
  (s'.parent = s.parent ∨ ∃ o, parentStep s o = some s') ∧ Touches s s'
  := by
  have hcases := step_cases h
  cases a with
  | parent o => exact ⟨.inr ⟨o, hcases.2⟩, parentStep_touches hcases.2⟩
  | sigchld =>
      obtain ⟨-, rfl⟩ := hcases
      exact ⟨.inl rfl, .none rfl⟩
  | waitpid child => exact (waitpidStep_touches hcases.2).imp_left .inl
  | handler =>
      obtain ⟨pc, -, hstep⟩ := hcases
      exact (handlerStep_touches hstep).imp_left .inl
  | child k ok =>
      obtain ⟨c, hk, halive, hstep⟩ := hcases
      exact (childStep_touches hk halive hstep).imp_left .inl
  | kill k =>
      obtain ⟨c, hk, halive, rfl⟩ := hcases
      exact ⟨.inl rfl, .one hk rfl (fun hdead => (hdead halive).elim)⟩

/-- A child that is lost stays lost. -/
theorem Evolves.isLost {c' : Child} (h : Evolves c c') (hlost : c.isLost = true) :
  c'.isLost = true
  := by
  obtain ⟨hdead, hcounted⟩ := (Bool.and_eq_true _ _).mp hlost
  obtain ⟨hdead', hstage, -⟩ := h (by simpa using hdead)
  rw [Child.isLost, hstage, hcounted]
  simpa using hdead'

theorem lost_le (h : step s a = some s') :
  s.children.countP Child.isLost ≤ s'.children.countP Child.isLost
  := by
  cases (step_touches h).2 with
  | none hchildren => exact Nat.le_of_eq (congrArg _ hchildren.symm)
  | one hk hchildren hevolves =>
      rename_i k c c'
      have hcount := countP_set Child.isLost (b := c') hk
      have hlost : c.isLost.toNat ≤ c'.isLost.toNat := by
        cases hc : c.isLost with
        | false => exact Nat.zero_le _
        | true => exact Nat.le_of_eq (congrArg _ (hevolves.isLost hc).symm)
      rw [hchildren]
      omega
  | new _ hchildren =>
      rw [hchildren, List.countP_append]
      exact Nat.le_add_right _ _

/-- A child that is dead stays dead, and writes no byte any more. -/
theorem dead_stays (h : step s a = some s') (hk : s.children[k]? = some c)
    (hdead : c.life ≠ .alive) :
  ∃ c', s'.children[k]? = some c' ∧ c'.life ≠ .alive ∧ c'.wrote = c.wrote
  := by
  have hlt : k < s.children.length := (List.getElem?_eq_some_iff.mp hk).1
  cases (step_touches h).2 with
  | none hchildren =>
      rw [hchildren]
      exact ⟨c, hk, hdead, rfl⟩
  | one hl hchildren hevolves =>
      rename_i l d d'
      rw [hchildren]
      rcases eq_or_ne l k with rfl | hne
      · cases hk.symm.trans hl
        obtain ⟨hdead', -, hwrote⟩ := hevolves hdead
        exact ⟨d', List.getElem?_set_self hlt, hdead', hwrote⟩
      · rw [List.getElem?_set_ne hne]
        exact ⟨c, hk, hdead, rfl⟩
  | new _ hchildren =>
      rw [hchildren, List.getElem?_append_left hlt]
      exact ⟨c, hk, hdead, rfl⟩

/-- Children are created at one point only. -/
theorem length_children (h : step s a = some s') (hparent : ∀ i, s.parent ≠ .fork i) :
  s'.children.length = s.children.length
  := by
  cases (step_touches h).2 with
  | none hchildren => rw [hchildren]
  | one _ hchildren _ => rw [hchildren, List.length_set]
  | new hfork _ => cases hparent _ hfork

end Steps

/-! ### The counter -/

/-- Every child that has incremented the counter has decremented it, is active or is lost. -/
theorem countP_hasAdded (children : List Child) :
  children.countP (·.stage.hasAdded) = children.countP (·.stage.hasDecremented) +
    children.countP Child.isActive + children.countP Child.isLost
  := by
  induction children with
  | nil => rfl
  | cons c children ih =>
      obtain ⟨pid, slot, stage, wrote, life⟩ := c
      simp only [List.countP_cons, Child.isActive, Child.isLost, Stage.isCounted] at ih ⊢
      cases stage <;> cases life <;> simp [Stage.hasAdded, Stage.hasDecremented] at ih ⊢ <;> omega

theorem Inv.active_add_lost {total : ℕ} {s : State} (h : Inv total s) :
  s.children.countP Child.isActive + s.children.countP Child.isLost = s.runningChildren
  := by
  have hcounter := h.ledger.counter
  rw [countP_hasAdded] at hcounter
  omega

/-- A child is created in the only slot and killed, and the parent goes on. -/
def lostRun : List Action :=
  List.replicate 4 (.parent ⟨true, false, 7⟩) ++ List.replicate 3 (.child 0 true) ++
    List.replicate 2 (.parent ⟨true, false, 0⟩) ++ [.kill 0, .sigchld, .waitpid (some 0)]

/-- In every run the active and the lost children together are no more than the slots. -/
theorem active_add_lost_le {total : ℕ} (htotal : total < 2 ^ 32) (actions : List Action) :
  AllStates step (fun s => s.children.countP Child.isActive + s.children.countP Child.isLost
    = s.runningChildren ∧ s.runningChildren ≤ total) (State.init total) actions
  := by
  refine (allStates_of_step (step_inv htotal) (init_inv total) actions).imp ?_
  intro s h
  exact ⟨h.active_add_lost, h.room.le⟩

theorem active_add_lost_le_one :
  AllStates step (fun s => s.children.countP Child.isActive + s.children.countP Child.isLost
    = s.runningChildren ∧ s.runningChildren ≤ 1) (State.init 1) lostRun
  :=
  active_add_lost_le (by decide) lostRun

/-- Once as many children are lost as there are slots, no child is ever created again, whatever
the parent, its handler and the children do. -/
theorem no_child_after_losses {total : ℕ} (htotal : total < 2 ^ 32) {actions : List Action}
    {s : State} (hrun : run step (State.init total) actions = some s)
    (hlost : total ≤ s.children.countP Child.isLost) (later : List Action) :
  AllStates step (fun s' => s'.children.length = s.children.length) s later
  := by
  have hinv : Inv total s := run_invariant_of_step (step_inv htotal) (init_inv total) hrun
  let I (s' : State) : Prop := Inv total s' ∧ total ≤ s'.children.countP Child.isLost ∧
    s'.children.length = s.children.length
  have hkeep : ∀ {s₁ a s₂}, I s₁ → step s₁ a = some s₂ → I s₂ := by
    rintro s₁ a s₂ ⟨hinv₁, hlost₁, hlength⟩ hstep
    have hnofork : ∀ i, s₁.parent ≠ .fork i := by
      intro i hparent
      have hmarks := hinv₁.parentMarks
      rw [hparent] at hmarks
      have hcounter := hmarks.2.1
      rw [hinv₁.length, ← hinv₁.active_add_lost] at hcounter
      omega
    exact ⟨step_inv htotal hinv₁ hstep, Nat.le_trans hlost₁ (lost_le hstep),
      (length_children hstep hnofork).trans hlength⟩
  refine (allStates_of_step (I := I) hkeep ⟨hinv, hlost, rfl⟩ later).imp ?_
  intro s' h
  exact h.2.2

theorem no_child_after_losses_one :
  ∃ s, run step (State.init 1) lostRun = some s ∧
    AllStates step (fun s' => s'.children.length = s.children.length) s
      [.waitpid none, .parent ⟨true, false, 8⟩]
  := by
  obtain ⟨s, hrun, hlost⟩ : ∃ s, run step (State.init 1) lostRun = some s ∧
      1 ≤ s.children.countP Child.isLost := ⟨_, rfl, by decide⟩
  exact ⟨s, hrun, no_child_after_losses (by decide) hrun hlost _⟩

/-! ### A child that dies before it has written its byte -/

/-- The parent waits for the byte of the child of index `k`, or has given up. -/
def WaitsOrQuits (k : ℕ) (pc : ParentPc) : Prop :=
  pc = .read k ∨ pc = .returned (-1) ∨ pc = .done

section Stall

variable {s s' : State} {k : ℕ} {c : Child}

theorem WaitsOrQuits.step {o : Outcome} (h : WaitsOrQuits k s.parent) (hk : s.children[k]? = some c)
    (hwrote : c.wrote = false) (hstep : parentStep s o = some s') :
  WaitsOrQuits k s'.parent
  := by
  rcases h with hparent | hparent | hparent
  · simp only [parentStep, hparent, hk, hwrote, Bool.false_eq_true, if_false] at hstep
    obtain ⟨-, hstep⟩ := Option.ite_none_right_eq_some.mp hstep
    cases hstep
    exact .inr (.inl rfl)
  · simp only [parentStep, hparent] at hstep
    cases hstep
    exact .inr (.inr rfl)
  · simp only [parentStep, hparent] at hstep
    cases hstep

end Stall

/-- When the child that the parent waits for is dead and has not written its byte, the parent
creates no child any more: it waits, or it gives up. -/
theorem parent_waits_for_dead {s : State} {k : ℕ} {c : Child} (hparent : s.parent = .read k)
    (hk : s.children[k]? = some c) (hdead : c.life ≠ .alive) (hwrote : c.wrote = false)
    (later : List Action) :
  AllStates step (fun s' => WaitsOrQuits k s'.parent ∧ s'.children.length = s.children.length)
    s later
  := by
  let I (s' : State) : Prop := (∃ c', s'.children[k]? = some c' ∧ c'.life ≠ .alive ∧
    c'.wrote = false) ∧ WaitsOrQuits k s'.parent ∧ s'.children.length = s.children.length
  have hkeep : ∀ {s₁ a s₂}, I s₁ → step s₁ a = some s₂ → I s₂ := by
    rintro s₁ a s₂ ⟨⟨c₁, hk₁, hdead₁, hwrote₁⟩, hwaits, hlength⟩ hstep
    obtain ⟨c₂, hk₂, hdead₂, hwrote₂⟩ := dead_stays hstep hk₁ hdead₁
    refine ⟨⟨c₂, hk₂, hdead₂, hwrote₂.trans hwrote₁⟩, ?_, ?_⟩
    · rcases (step_touches hstep).1 with heq | ⟨o, hmove⟩
      · rw [heq]
        exact hwaits
      · exact hwaits.step hk₁ hwrote₁ hmove
    · refine (length_children hstep ?_).trans hlength
      rintro i heq
      rw [heq] at hwaits
      rcases hwaits with h | h | h <;> cases h
  refine (allStates_of_step (I := I) hkeep ⟨⟨c, hk, hdead, hwrote⟩, .inl hparent, rfl⟩ later).imp ?_
  intro s' h
  exact h.2

/-- The child is killed right after `fork`. -/
theorem parent_waits_for_dead_one :
  ∃ s, run step (State.init 1) (List.replicate 4 (.parent ⟨true, false, 7⟩) ++ [.kill 0]) = some s ∧
    AllStates step (fun s' => WaitsOrQuits 0 s'.parent ∧ s'.children.length = s.children.length) s
      [.sigchld, .waitpid (some 0), .waitpid none, .parent ⟨false, false, 0⟩]
  :=
  ⟨_, rfl, parent_waits_for_dead (c := ⟨7, 0, .forked, false, .killed⟩) rfl rfl (by decide) rfl _⟩

end Children
