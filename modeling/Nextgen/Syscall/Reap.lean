import Nextgen.Syscall.Children
import Nextgen.Lib.ListUpdate

/-!
# Reaping and killing children

`child_exit_handler` and `kill_all_children`, each run to its end on an array of child slots
that nothing else changes meanwhile.
-/

open ListUpdate

namespace Children

/-! ### `child_exit_handler` -/

/-- The status of a terminated child: the value it gave to `_exit`, or the signal that ended
it. -/
inductive Status where
  | exited (code : ℕ)
  | signalled (sig : ℕ)
  deriving DecidableEq, Repr

/-- The macro `WIFEXITED`. -/
def Status.wifexited : Status → Bool
  | exited _ => true
  | signalled _ => false

/-- A terminated child that has not been reaped. -/
structure Zombie where
  pid : ℕ
  status : Status
  deriving DecidableEq, Repr

/-- The terminated children in the order in which `waitpid` returns them.  They are different
processes, and no process has the pid zero. -/
structure Queue where
  zombies : List Zombie
  distinct : (zombies.map Zombie.pid).Nodup
  positive : ∀ z ∈ zombies, z.pid ≠ EMPTY

/-- The slots when `child_exit_handler` returns, the children it reaped, and those that are
left. -/
structure Handled where
  slots : List ℕ
  reaped : List Zombie
  left : List Zombie
  deriving DecidableEq, Repr

/-- A child is reaped before all this happens. -/
def Handled.reap (h : Handled) (z : Zombie) : Handled := { h with reaped := z :: h.reaped }

/-- `get_child_ctx_from_pid`, the same search as that of `get_child_index_number`. -/
def getChildCtxFromPid (slots : List ℕ) (pid : ℕ) : Option ℕ := getChildIndexNumber slots pid

/-- `child_exit_handler`.  Every round of its loop reaps the first of the terminated
children. -/
def childExitHandler (slots : List ℕ) : List Zombie → Handled
  | [] => ⟨slots, [], []⟩
  | z :: queue =>
      if z.status.wifexited then
        match getChildCtxFromPid slots z.pid with
        -- returns from the handler, not only from this round
        | none => ⟨slots, [z], queue⟩
        | some i => (childExitHandler (slots.set i EMPTY) queue).reap z
      else (childExitHandler slots queue).reap z

/-- No terminated child is left, and no slot has the pid of one that was reaped. -/
def Handled.Drained (h : Handled) : Prop := h.left = [] ∧ ∀ z ∈ h.reaped, z.pid ∉ h.slots

/-- A child that a signal ended is in no slot.  One that called `_exit` is in at most one, and
in one unless it is the last of the queue. -/
structure Drainable (slots : List ℕ) (queue : List Zombie) : Prop where
  signalled : ∀ z ∈ queue, z.status.wifexited = false → z.pid ∉ slots
  single : ∀ z ∈ queue, z.status.wifexited = true → slots.count z.pid ≤ 1
  present : ∀ z ∈ queue.dropLast, z.status.wifexited = true → z.pid ∈ slots

theorem getChildCtxFromPid_eq_none {slots : List ℕ} {pid : ℕ} :
  getChildCtxFromPid slots pid = none ↔ pid ∉ slots
  := by
  rw [getChildCtxFromPid, getChildIndexNumber, List.findIdx?_eq_none_iff]
  constructor
  · intro h hmem
    simpa using h pid hmem
  · rintro h p hp
    simp only [beq_eq_false_iff_ne]
    rintro rfl
    exact h hp

/-- Emptying the slot that was found takes away one occurrence of the pid, and of no other
pid. -/
theorem count_set_found {slots : List ℕ} {pid i : ℕ}
    (hfound : getChildCtxFromPid slots pid = some i) :
  (∀ p, p ≠ EMPTY → p ≠ pid → (slots.set i EMPTY).count p = slots.count p) ∧
    (pid ≠ EMPTY → (slots.set i EMPTY).count pid + 1 = slots.count pid)
  := by
  obtain ⟨⟨q, hi, hq⟩, -⟩ := findIdx?_eq_some_iff.mp hfound
  obtain rfl := beq_iff_eq.mp hq
  constructor
  · intro p hp hne
    have h := countP_set (· == p) (b := EMPTY) hi
    rw [beq_false_of_ne hne.symm, beq_false_of_ne hp.symm] at h
    exact h
  · intro hpid
    have h := countP_set (· == q) (b := EMPTY) hi
    rw [beq_self_eq_true, beq_false_of_ne hpid.symm] at h
    exact h

/-- The handler changes no slot of a child that is not in the queue. -/
theorem count_childExitHandler {p : ℕ} (hp : p ≠ EMPTY) (queue : List Zombie)
    (hother : p ∉ queue.map Zombie.pid) (slots : List ℕ) :
  (childExitHandler slots queue).slots.count p = slots.count p
  := by
  induction queue generalizing slots with
  | nil => rfl
  | cons z queue ih =>
      obtain ⟨hz, hqueue⟩ := List.ne_and_not_mem_of_not_mem_cons hother
      rw [childExitHandler]
      split
      · split
        · rfl
        · rename_i i hfound
          rw [Handled.reap, ih hqueue, (count_set_found hfound).1 p hp hz]
      · rw [Handled.reap, ih hqueue]

/-- One round of the handler for a child that a signal ended. -/
theorem drained_of_signalled {slots : List ℕ} {z : Zombie} {queue : List Zombie}
    (hz : z.status.wifexited = false) (hpid : z.pid ≠ EMPTY)
    (hother : z.pid ∉ queue.map Zombie.pid) :
  (childExitHandler slots (z :: queue)).Drained ↔
    z.pid ∉ slots ∧ (childExitHandler slots queue).Drained
  := by
  have hcount := count_childExitHandler hpid queue hother slots
  have hmem : z.pid ∉ (childExitHandler slots queue).slots ↔ z.pid ∉ slots := by
    rw [← List.count_eq_zero, ← List.count_eq_zero, hcount]
  rw [childExitHandler, hz, if_neg Bool.false_ne_true, Handled.Drained, Handled.Drained,
    Handled.reap, List.forall_mem_cons, hmem]
  tauto

/-- One round of the handler for a child in a slot that called `_exit`. -/
theorem drained_of_found {slots : List ℕ} {z : Zombie} {queue : List Zombie} {i : ℕ}
    (hz : z.status.wifexited = true) (hpid : z.pid ≠ EMPTY)
    (hother : z.pid ∉ queue.map Zombie.pid) (hfound : getChildCtxFromPid slots z.pid = some i) :
  (childExitHandler slots (z :: queue)).Drained ↔
    slots.count z.pid ≤ 1 ∧ (childExitHandler (slots.set i EMPTY) queue).Drained
  := by
  have hcount := count_childExitHandler hpid queue hother (slots.set i EMPTY)
  have hset := (count_set_found hfound).2 hpid
  have hmem : z.pid ∉ (childExitHandler (slots.set i EMPTY) queue).slots ↔
      slots.count z.pid ≤ 1 := by
    rw [← List.count_eq_zero, hcount]
    omega
  rw [childExitHandler, hz, if_pos rfl, hfound, Handled.Drained, Handled.Drained]
  simp only [Handled.reap]
  rw [List.forall_mem_cons, hmem]
  tauto

/-- The handler returns at a child in no slot that called `_exit`. -/
theorem drained_of_not_mem {slots : List ℕ} {z : Zombie} {queue : List Zombie}
    (hz : z.status.wifexited = true) (hslots : z.pid ∉ slots) :
  (childExitHandler slots (z :: queue)).Drained ↔ queue = []
  := by
  rw [childExitHandler, hz, if_pos rfl, getChildCtxFromPid_eq_none.mpr hslots, Handled.Drained]
  simpa using fun _ => hslots

theorem drainable_nil (slots : List ℕ) :
  Drainable slots []
  := ⟨by simp, by simp, by simp⟩

theorem drainable_cons {slots : List ℕ} {z : Zombie} {queue : List Zombie} :
  Drainable slots (z :: queue) ↔
    (z.status.wifexited = false → z.pid ∉ slots) ∧
    (z.status.wifexited = true → slots.count z.pid ≤ 1 ∧ (queue ≠ [] → z.pid ∈ slots)) ∧
    Drainable slots queue
  := by
  constructor
  · intro h
    have ⟨hsig, hsigs⟩ := List.forall_mem_cons.mp h.signalled
    have ⟨hone, hones⟩ := List.forall_mem_cons.mp h.single
    use hsig
    constructor
    · intro hz
      use hone hz
      intro hne
      apply h.present z _ hz
      rw [List.dropLast_cons_of_ne_nil hne]
      apply List.mem_cons_self
    · use hsigs, hones
      intro y hy
      apply h.present y
      rw [List.dropLast_cons_of_ne_nil (List.ne_nil_of_mem (List.dropLast_subset _ hy))]
      apply List.mem_cons_of_mem _ hy
  · rintro ⟨hsig, hexited, h⟩
    use List.forall_mem_cons.mpr ⟨hsig, h.signalled⟩,
      List.forall_mem_cons.mpr ⟨fun hz => (hexited hz).1, h.single⟩
    intro y hy hyexited
    rcases eq_or_ne queue [] with rfl | hne
    · cases hy
    · rw [List.dropLast_cons_of_ne_nil hne] at hy
      rcases List.mem_cons.mp hy with rfl | hy
      · apply (hexited hyexited).2 hne
      · apply h.present y hy hyexited

/-- `Drainable` depends on the number of slots of each child in the queue only. -/
theorem Drainable.congr {slots slots' : List ℕ} {queue : List Zombie}
    (hcount : ∀ z ∈ queue, slots'.count z.pid = slots.count z.pid)
    (h : Drainable slots queue) :
  Drainable slots' queue
  := by
  have hmem : ∀ z ∈ queue, z.pid ∈ slots' ↔ z.pid ∈ slots := by
    intro z hz
    rw [← List.count_pos_iff, ← List.count_pos_iff, hcount z hz]
  constructor
  · intro z hz hsig
    rw [hmem z hz]
    apply h.signalled z hz hsig
  · intro z hz hexited
    rw [hcount z hz]
    apply h.single z hz hexited
  · intro z hz hexited
    rw [hmem z (List.dropLast_subset _ hz)]
    apply h.present z hz hexited

/-- `child_exit_handler` reaps all terminated children and leaves none of their pids in a
slot exactly when each child that a signal ended is in no slot, and each that called `_exit`
is in at most one, and in one unless it is reaped last. -/
theorem drained_iff_drainable (slots : List ℕ) (q : Queue) :
  (childExitHandler slots q.zombies).Drained ↔ Drainable slots q.zombies
  := by
  obtain ⟨queue, hdistinct, hpositive⟩ := q
  show (childExitHandler slots queue).Drained ↔ Drainable slots queue
  induction queue generalizing slots with
  | nil => simp [childExitHandler, Handled.Drained, drainable_nil]
  | cons z queue ih =>
      obtain ⟨hother, hdistinct⟩ := List.nodup_cons.mp hdistinct
      obtain ⟨hpid, hpositive⟩ := List.forall_mem_cons.mp hpositive
      rw [drainable_cons]
      cases hz : z.status.wifexited with
      | false =>
          rw [drained_of_signalled hz hpid hother, ih slots hdistinct hpositive]
          simp
      | true =>
          cases hfound : getChildCtxFromPid slots z.pid with
          | none =>
              have hslots := getChildCtxFromPid_eq_none.mp hfound
              rw [drained_of_not_mem hz hslots]
              constructor
              · rintro rfl
                simp [List.count_eq_zero_of_not_mem hslots, drainable_nil]
              · rintro ⟨-, hpresent, -⟩
                by_contra hne
                exact hslots ((hpresent rfl).2 hne)
          | some i =>
              have hslots : z.pid ∈ slots := by
                by_contra h
                rw [getChildCtxFromPid_eq_none.mpr h] at hfound
                cases hfound
              have hcount : ∀ y ∈ queue,
                  (slots.set i EMPTY).count y.pid = slots.count y.pid := by
                intro y hy
                apply (count_set_found hfound).1 y.pid (hpositive y hy)
                intro heq
                exact hother (heq ▸ List.mem_map_of_mem hy)
              rw [drained_of_found hz hpid hother hfound, ih _ hdistinct hpositive]
              constructor
              · rintro ⟨hone, h⟩
                use by simp, fun _ => ⟨hone, fun _ => hslots⟩
                apply h.congr fun y hy => (hcount y hy).symm
              · rintro ⟨-, hone, h⟩
                use (hone rfl).1
                apply h.congr hcount

/-- Two children called `exit_child`, which emptied their slots, before the handler runs. -/
def exitedTwice : Queue where
  zombies := [⟨7, .exited 0⟩, ⟨8, .exited 0⟩]
  distinct := by decide
  positive := by decide

/-- Of two children that emptied their slots themselves the handler reaps one. -/
theorem not_drained_exitedTwice :
  (childExitHandler [EMPTY, EMPTY] exitedTwice.zombies).left = [⟨8, .exited 0⟩] ∧
    ¬ (childExitHandler [EMPTY, EMPTY] exitedTwice.zombies).Drained
  := ⟨rfl, fun h => by cases h.1⟩

/-! ### `kill_all_children` -/

/-- `kill_all_children`: the pids that `kill` is called with to send `SIGKILL`, in order.
`fails` tells for which of them it returns a negative value. -/
def killAllChildren (fails : ℕ → Bool) : List ℕ → List ℕ
  | [] => []
  | pid :: slots => if fails pid then [pid] else pid :: killAllChildren fails slots

/-- Every pid in a slot is signalled once, and nothing else is. -/
def HitsChildren (slots targets : List ℕ) : Prop :=
  ∀ p, targets.count p = if p ∈ slots ∧ p ≠ EMPTY then 1 else 0

/-- `used` are the slots up to and with the first whose pid cannot be signalled, `rest` are
those after it. -/
structure UpToFailure (fails : ℕ → Bool) (slots used rest : List ℕ) : Prop where
  split : slots = used ++ rest
  before : ∀ p ∈ used.dropLast, fails p = false
  stop : rest = [] ∨ ∃ p, used.getLast? = some p ∧ fails p = true

theorem UpToFailure.cons {fails : ℕ → Bool} {slots used rest : List ℕ} {pid : ℕ}
    (hpid : fails pid = false) (h : UpToFailure fails slots used rest) :
  UpToFailure fails (pid :: slots) (pid :: used) rest
  := by
  constructor
  · rw [h.split, List.cons_append]
  · cases used with
    | nil => simp
    | cons q used =>
        rw [List.dropLast_cons_cons]
        exact List.forall_mem_cons.mpr ⟨hpid, h.before⟩
  · apply h.stop.imp_right
    rintro ⟨p, hlast, hfails⟩
    use p
    rw [List.getLast?_cons, hlast]
    use rfl

/-- `kill_all_children` signals all slots up to and with the first failure. -/
theorem killAllChildren_upToFailure (fails : ℕ → Bool) (slots : List ℕ) :
  ∃ rest, UpToFailure fails slots (killAllChildren fails slots) rest
  := by
  induction slots with
  | nil => exact ⟨[], rfl, by simp [killAllChildren], .inl rfl⟩
  | cons pid slots ih =>
      rw [killAllChildren]
      split
      · rename_i hfails
        exact ⟨slots, rfl, by simp, .inr ⟨pid, rfl, hfails⟩⟩
      · rename_i hfails
        obtain ⟨rest, h⟩ := ih
        exact ⟨rest, h.cons (eq_false_of_ne_true hfails)⟩

/-- There is one way to split the slots at the first failure. -/
theorem UpToFailure.eq_killAllChildren {fails : ℕ → Bool} {slots used rest : List ℕ}
    (h : UpToFailure fails slots used rest) :
  used = killAllChildren fails slots
  := by
  induction slots generalizing used with
  | nil =>
      have hused := List.append_eq_nil_iff.mp h.split.symm
      rw [hused.1, killAllChildren]
  | cons pid slots ih =>
      obtain ⟨hsplit, hbefore, hstop⟩ := h
      cases used with
      | nil =>
          obtain rfl | ⟨p, hlast, -⟩ := hstop
          · cases hsplit
          · cases hlast
      | cons q used =>
          obtain ⟨rfl, hslots⟩ := List.cons.inj hsplit
          rw [killAllChildren]
          cases used with
          | nil =>
              split
              · rfl
              · rename_i hfails
                obtain rfl | ⟨p, hlast, hp⟩ := hstop
                · rw [hslots]
                  rfl
                · cases hlast
                  exact absurd hp hfails
          | cons r used =>
              rw [List.dropLast_cons_cons] at hbefore
              obtain ⟨hpid, hbefore⟩ := List.forall_mem_cons.mp hbefore
              rw [if_neg (ne_true_of_eq_false hpid), ← ih ⟨hslots, hbefore, ?_⟩]
              rwa [List.getLast?_cons_cons] at hstop

/-- `kill_all_children` signals every child once and nothing else exactly when the slots up
to and with the first failure have different pids, none of them is empty, and no other pid
is in a slot after them. -/
theorem hitsChildren_iff (fails : ℕ → Bool) (slots : List ℕ) :
  HitsChildren slots (killAllChildren fails slots) ↔
    ∃ used rest, UpToFailure fails slots used rest ∧ used.Nodup ∧ EMPTY ∉ used ∧
      ∀ p ∈ rest, p = EMPTY ∨ p ∈ used
  := by
  constructor
  · intro hhits
    obtain ⟨rest, h⟩ := killAllChildren_upToFailure fails slots
    refine ⟨_, rest, h, ?_, ?_, ?_⟩
    · rw [List.nodup_iff_count]
      intro p
      rw [hhits p]
      split <;> omega
    · rw [← List.count_eq_zero, hhits]
      simp
    · intro p hp
      by_cases hempty : p = EMPTY
      · exact .inl hempty
      · have hslots : p ∈ slots := by
          rw [h.split]
          apply List.mem_append_right _ hp
        have hone := hhits p
        rw [if_pos ⟨hslots, hempty⟩] at hone
        exact .inr (List.count_pos_iff.mp (hone ▸ Nat.one_pos))
  · rintro ⟨used, rest, h, hnodup, hempty, hrest⟩ p
    rw [← h.eq_killAllChildren, hnodup.count]
    have hmem : p ∈ used ↔ p ∈ slots ∧ p ≠ EMPTY := by
      rw [h.split, List.mem_append]
      constructor
      · intro hp
        exact ⟨.inl hp, fun heq => hempty (heq ▸ hp)⟩
      · rintro ⟨hp | hp, hne⟩
        · exact hp
        · apply (hrest p hp).resolve_left hne
    simp only [hmem]

/-- An empty slot before that of a child: the caller's process group is signalled. -/
theorem not_hitsChildren_empty :
  killAllChildren (fun _ => false) [EMPTY, 7] = [0, 7] ∧
    ¬ HitsChildren [EMPTY, 7] (killAllChildren (fun _ => false) [EMPTY, 7])
  := by
  use rfl
  intro h
  cases h EMPTY

end Children
