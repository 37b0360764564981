import Nextgen.Lib.ListUpdate
import Nextgen.Syscall.Children

/-!
# The counter of running children

Whatever the parent, its handler and its children do, `running_children` stays between zero
and the number of slots, and `create_child` finds an empty slot whenever it is called.  The
slots in use are accounted for by the children that stored their pids and those that emptied
a slot; the counter, by those that incremented it and those that decremented it.  The pipe
keeps the parent from looking at either while a child is between its store and its increment.
-/

open Transition ListUpdate
open Epoch (u32)

namespace Children

/-! ### The invariant -/

/-- The child has stored its pid in its slot. -/
def Stage.hasStored : Stage → Bool
  | .forked => false
  | _ => true

/-- The child has incremented the counter. -/
def Stage.hasAdded : Stage → Bool
  | .forked | .stored => false
  | _ => true

/-- The child has emptied a slot in `exit_child`. -/
def Stage.hasEmptied : Stage → Bool
  | .emptied | .decremented => true
  | _ => false

/-- The child has decremented the counter. -/
def Stage.hasDecremented : Stage → Bool
  | .decremented => true
  | _ => false

/-- All children have incremented the counter. -/
def AllAdded (children : List Child) : Prop :=
  ∀ (k : ℕ) (c : Child), children[k]? = some c → c.stage.hasAdded

/-- No child that could still be reaped has the pid. -/
def Vacant (children : List Child) (pid : ℕ) : Prop :=
  ∀ (k : ℕ) (c : Child), children[k]? = some c → c.life ≠ .reaped → c.pid ≠ pid

/-- Every slot in use was taken by a child, and each child empties at most one; the counter is
the number of increments less that of decrements. -/
structure Ledger (slots : List ℕ) (counter : ℕ) (children : List Child) : Prop where
  occupied : slots.countP (· != EMPTY) + children.countP (·.stage.hasEmptied)
    ≤ children.countP (·.stage.hasStored)
  counter : counter + children.countP (·.stage.hasDecremented)
    = children.countP (·.stage.hasAdded)

/-- Two children that can be reaped have different pids, a child writes its byte after it
incremented the counter, and at most one child has not done so. -/
structure Roster (children : List Child) : Prop where
  pid_ne : ∀ (k : ℕ) (c : Child), children[k]? = some c → c.pid ≠ EMPTY
  unique : ∀ (k l : ℕ) (c d : Child), children[k]? = some c → children[l]? = some d →
    c.life ≠ .reaped → d.life ≠ .reaped → c.pid = d.pid → k = l
  wrote : ∀ (k : ℕ) (c : Child), children[k]? = some c → c.wrote → c.stage.hasAdded
  pending : ∀ (k l : ℕ) (c d : Child), children[k]? = some c → children[l]? = some d →
    ¬ c.stage.hasAdded → ¬ d.stage.hasAdded → k = l

/-- The slot of a child that has not stored its pid is empty, and the slot that a child found
in `exit_child` has its pid. -/
structure SlotMarks (slots : List ℕ) (children : List Child) : Prop where
  forked : ∀ (k : ℕ) (c : Child), children[k]? = some c → c.life = .alive → ¬ c.stage.hasStored →
    slots[c.slot]? = some EMPTY
  found : ∀ (k : ℕ) (c : Child) (i : ℕ), children[k]? = some c → c.life = .alive → c.stage = .found i →
    slots[i]? = some c.pid

/-- The handler looks for the pid of a child that is gone. -/
def HandlerMarks (slots : List ℕ) (children : List Child) : Option HandlerPc → Prop
  | some (.lookup pid _) => pid ≠ EMPTY ∧ Vacant children pid
  | some (.clear i pid) => slots[i]? = some pid ∧ pid ≠ EMPTY ∧ Vacant children pid
  | _ => True

/-- The counter leaves room for a child that has not incremented it. -/
structure Room (total counter : ℕ) (children : List Child) : Prop where
  le : counter ≤ total
  pending : ¬ AllAdded children → counter < total

/-- While the parent looks for a slot there is an empty one ahead, and no child of an earlier
call is still to increment the counter. -/
def ParentMarks (slots : List ℕ) (counter entered : ℕ) (children : List Child) :
    ParentPc → Prop
  | .test => AllAdded children
  | .scan i => AllAdded children ∧ counter < slots.length ∧ children.length = entered ∧
      ∃ j, i ≤ j ∧ slots[j]? = some EMPTY
  | .pipe i | .fork i => AllAdded children ∧ counter < slots.length ∧
      children.length = entered ∧ slots[i]? = some EMPTY
  | .read i => (∀ (k : ℕ) (c : Child), children[k]? = some c → ¬ c.stage.hasAdded → k = i) ∧
      children.length = entered + 1
  | .returned rtrn => rtrn < 0 ∨ AllAdded children ∧ children.length = entered + 1
  | .done => True

/-- What holds between any two steps. -/
structure Inv (total : ℕ) (s : State) : Prop where
  length : s.slots.length = total
  ledger : Ledger s.slots s.runningChildren s.children
  roster : Roster s.children
  slotMarks : SlotMarks s.slots s.children
  handlerMarks : HandlerMarks s.slots s.children s.handler
  room : Room total s.runningChildren s.children
  parentMarks : ParentMarks s.slots s.runningChildren s.entered s.children s.parent

/-! ### Updates of one child -/

section Child

variable {slots : List ℕ} {counter entered total k : ℕ} {children : List Child} {c c' : Child}

theorem Ledger.set {slots' : List ℕ} {counter' : ℕ} (h : Ledger slots counter children)
    (c' : Child) (hk : children[k]? = some c)
    (hoccupied : slots'.countP (· != EMPTY) + c'.stage.hasEmptied.toNat + c.stage.hasStored.toNat
      ≤ slots.countP (· != EMPTY) + c.stage.hasEmptied.toNat + c'.stage.hasStored.toNat)
    (hcounter : counter' + c'.stage.hasDecremented.toNat + c.stage.hasAdded.toNat
      = counter + c.stage.hasDecremented.toNat + c'.stage.hasAdded.toNat) :
  Ledger slots' counter' (children.set k c')
  := by
  have hset := fun p : Child → Bool => countP_set p (b := c') hk
  constructor
  · have hemptied := hset (·.stage.hasEmptied)
    have hstored := hset (·.stage.hasStored)
    have := h.occupied
    omega
  · have hdecremented := hset (·.stage.hasDecremented)
    have hadded := hset (·.stage.hasAdded)
    have := h.counter
    omega

theorem Roster.set (h : Roster children) (c' : Child) (hk : children[k]? = some c)
    (hpid : c'.pid = c.pid)
    (hlife : c.life = .reaped → c'.life = .reaped)
    (hadded : c.stage.hasAdded → c'.stage.hasAdded)
    (hwrote : c'.wrote → c'.stage.hasAdded) :
  Roster (children.set k c')
  := by
  -- every child of the new list has the pid of one of the old list at the same index
  have hold : ∀ {l : ℕ} {d : Child}, (children.set k c')[l]? = some d → ∃ d₀ : Child, children[l]? = some d₀ ∧
      d.pid = d₀.pid ∧ (d.life ≠ .reaped → d₀.life ≠ .reaped) ∧
      (¬ d.stage.hasAdded → ¬ d₀.stage.hasAdded) := by
    intro l d hd
    rcases getElem?_set_some hd with ⟨rfl, rfl⟩ | ⟨-, hd⟩
    · exact ⟨c, hk, hpid, mt hlife, mt hadded⟩
    · exact ⟨d, hd, rfl, id, id⟩
  constructor
  · intro l d hd
    obtain ⟨d₀, hd₀, hpid₀, -⟩ := hold hd
    rw [hpid₀]
    apply h.pid_ne l d₀ hd₀
  · intro l m d e hd he hdlife helife heq
    obtain ⟨d₀, hd₀, hdpid, hdlife₀, -⟩ := hold hd
    obtain ⟨e₀, he₀, hepid, helife₀, -⟩ := hold he
    apply h.unique l m d₀ e₀ hd₀ he₀ (hdlife₀ hdlife) (helife₀ helife)
    rw [← hdpid, ← hepid, heq]
  · intro l d hd
    rcases getElem?_set_some hd with ⟨-, rfl⟩ | ⟨-, hd⟩
    · apply hwrote
    · apply h.wrote l d hd
  · intro l m d e hd he hdadded headded
    obtain ⟨d₀, hd₀, -, -, hdadded₀⟩ := hold hd
    obtain ⟨e₀, he₀, -, -, headded₀⟩ := hold he
    apply h.pending l m d₀ e₀ hd₀ he₀ (hdadded₀ hdadded) (headded₀ headded)

/-- The child that has not incremented the counter is the only one. -/
theorem Roster.allAdded_set (h : Roster children) (hk : children[k]? = some c)
    (hpending : ¬ c.stage.hasAdded) (hadded : c'.stage.hasAdded) :
  AllAdded (children.set k c')
  := by
  intro l d hd
  rcases getElem?_set_some hd with ⟨-, rfl⟩ | ⟨hne, hd⟩
  · apply hadded
  · by_contra hnot
    apply hne
    apply h.pending l k d c hd hk hnot hpending

theorem AllAdded.set (h : AllAdded children)
    (hadded : c'.stage.hasAdded) :
  AllAdded (children.set k c')
  := by
  intro l d hd
  rcases getElem?_set_some hd with ⟨-, rfl⟩ | ⟨-, hd⟩
  · apply hadded
  · apply h l d hd

theorem Vacant.set {pid : ℕ} (h : Vacant children pid) (hk : children[k]? = some c)
    (hpid : c'.pid = c.pid) (hlife : c.life = .reaped → c'.life = .reaped) :
  Vacant (children.set k c') pid
  := by
  intro l d hd hdlife
  rcases getElem?_set_some hd with ⟨-, rfl⟩ | ⟨-, hd⟩
  · rw [hpid]
    apply h k c hk (mt hlife hdlife)
  · apply h l d hd hdlife

theorem Room.set {counter' : ℕ} (h : Room total counter children)
    (hk : children[k]? = some c) (hadded : c.stage.hasAdded → c'.stage.hasAdded)
    (hle : counter' ≤ counter) :
  Room total counter' (children.set k c')
  := by
  constructor
  · apply Nat.le_trans hle h.le
  · intro hnot
    apply Nat.lt_of_le_of_lt hle
    apply h.pending
    intro hall
    apply hnot
    apply hall.set (hadded (hall k c hk))

/-- The parent's marks survive a change that empties slots and counts down, and, as long as
some child has not incremented the counter, any change. -/
theorem ParentMarks.mono {slots' : List ℕ} {counter' : ℕ} {children' : List Child}
    {pc : ParentPc} (h : ParentMarks slots counter entered children pc)
    (hslots : slots'.length = slots.length) (hchildren : children'.length = children.length)
    (hpending : ∀ (k : ℕ) (c' : Child), children'[k]? = some c' → ¬ c'.stage.hasAdded →
      ∃ c : Child, children[k]? = some c ∧ ¬ c.stage.hasAdded)
    (hmono : AllAdded children → counter' ≤ counter ∧
      ∀ j : ℕ, slots[j]? = some EMPTY → slots'[j]? = some EMPTY) :
  ParentMarks slots' counter' entered children' pc
  := by
  have hall : AllAdded children → AllAdded children' := by
    intro hall l d hd
    by_contra hnot
    obtain ⟨c, hc, hcnot⟩ := hpending l d hd hnot
    apply hcnot (hall l c hc)
  cases pc with
  | test => apply hall h
  | scan i =>
      obtain ⟨hadd, hlt, hlen, j, hij, hj⟩ := h
      obtain ⟨hle, hempty⟩ := hmono hadd
      rw [ParentMarks, hslots, hchildren]
      exact ⟨hall hadd, Nat.lt_of_le_of_lt hle hlt, hlen, j, hij, hempty j hj⟩
  | pipe i | fork i =>
      obtain ⟨hadd, hlt, hlen, hi⟩ := h
      obtain ⟨hle, hempty⟩ := hmono hadd
      rw [ParentMarks, hslots, hchildren]
      exact ⟨hall hadd, Nat.lt_of_le_of_lt hle hlt, hlen, hempty i hi⟩
  | read i =>
      obtain ⟨hread, hlen⟩ := h
      constructor
      · intro l d hd hnot
        obtain ⟨c, hc, hcnot⟩ := hpending l d hd hnot
        apply hread l c hc hcnot
      · rw [hchildren, hlen]
  | returned rtrn =>
      rcases h with hneg | ⟨hadd, hlen⟩
      · exact .inl hneg
      · right
        rw [hchildren]
        exact ⟨hall hadd, hlen⟩
  | done => trivial

theorem ParentMarks.set {slots' : List ℕ} {counter' : ℕ} {pc : ParentPc}
    (h : ParentMarks slots counter entered children pc) (hk : children[k]? = some c)
    (hadded : c.stage.hasAdded → c'.stage.hasAdded) (hlength : slots'.length = slots.length)
    (hmono : c.stage.hasAdded → counter' ≤ counter ∧
      ∀ j : ℕ, slots[j]? = some EMPTY → slots'[j]? = some EMPTY) :
  ParentMarks slots' counter' entered (children.set k c') pc
  := by
  apply h.mono hlength List.length_set
  · intro l d hd hnot
    rcases getElem?_set_some hd with ⟨rfl, rfl⟩ | ⟨-, hd⟩
    · exact ⟨c, hk, mt hadded hnot⟩
    · exact ⟨d, hd, hnot⟩
  · intro hall
    apply hmono (hall k c hk)

theorem HandlerMarks.set {slots' : List ℕ} {handler : Option HandlerPc}
    (h : HandlerMarks slots children handler) (c' : Child) (hk : children[k]? = some c)
    (hpid : c'.pid = c.pid) (hlife : c.life = .reaped → c'.life = .reaped)
    (hslots : ∀ i p : ℕ, slots[i]? = some p → p ≠ EMPTY → Vacant children p →
      slots'[i]? = some p) :
  HandlerMarks slots' (children.set k c') handler
  := by
  rcases handler with _ | (_ | ⟨pid, j⟩ | ⟨i, pid⟩)
  · trivial
  · trivial
  · exact ⟨h.1, h.2.set hk hpid hlife⟩
  · obtain ⟨hi, hpos, hvacant⟩ := h
    exact ⟨hslots i pid hi hpos hvacant, hpos, hvacant.set hk hpid hlife⟩

theorem SlotMarks.set (h : SlotMarks slots children) (c' : Child) (hk : children[k]? = some c)
    (hslot : c'.slot = c.slot) (halive : c'.life = .alive → c.life = .alive)
    (hstored : c.stage.hasStored → c'.stage.hasStored)
    (hfound : ∀ i, c'.life = .alive → c'.stage = .found i → slots[i]? = some c'.pid) :
  SlotMarks slots (children.set k c')
  := by
  constructor
  · intro l d hd hlife hnot
    rcases getElem?_set_some hd with ⟨-, rfl⟩ | ⟨-, hd⟩
    · rw [hslot]
      apply h.forked k c hk (halive hlife) (mt hstored hnot)
    · apply h.forked l d hd hlife hnot
  · intro l d i hd hlife hstage
    rcases getElem?_set_some hd with ⟨-, rfl⟩ | ⟨-, hd⟩
    · apply hfound i hlife hstage
    · apply h.found l d i hd hlife hstage

theorem getElem?_set_empty {i j : ℕ} (h : slots[j]? = some EMPTY) :
  (slots.set i EMPTY)[j]? = some EMPTY
  := by
  rcases eq_or_ne i j with rfl | hne
  · rw [List.getElem?_set_self', h]
    rfl
  · rw [List.getElem?_set_ne hne, h]

/-- A slot that no child has found can be emptied. -/
theorem SlotMarks.empty {i : ℕ} (h : SlotMarks slots children)
    (hi : ∀ (k : ℕ) (c : Child), children[k]? = some c → c.life = .alive → c.stage ≠ .found i) :
  SlotMarks (slots.set i EMPTY) children
  := by
  constructor
  · intro l d hd hlife hnot
    apply getElem?_set_empty (h.forked l d hd hlife hnot)
  · intro l d j hd hlife hstage
    rcases eq_or_ne i j with rfl | hne
    · cases hi l d hd hlife hstage
    · rw [List.getElem?_set_ne hne]
      apply h.found l d j hd hlife hstage

/-- Emptying a slot that is in use. -/
theorem countP_set_empty {i p : ℕ} (hi : slots[i]? = some p) (hp : p ≠ EMPTY) :
  (slots.set i EMPTY).countP (· != EMPTY) + 1 = slots.countP (· != EMPTY)
  := by
  have hcount := countP_set (· != EMPTY) (b := EMPTY) hi
  have hne : (p != EMPTY) = true := bne_iff_ne.mpr hp
  simpa only [hne, Bool.toNat_true, bne_self_eq_false, Bool.toNat_false, Nat.add_zero] using hcount

end Child

/-! ### Steps of a child -/

section ChildSteps

variable {s s' : State} {total k : ℕ} {c c' : Child}

/-- A change of one child that neither the slots nor the counter show. -/
structure Quiet (slots : List ℕ) (c c' : Child) : Prop where
  pid : c'.pid = c.pid
  slot : c'.slot = c.slot
  stored : c'.stage.hasStored = c.stage.hasStored
  added : c'.stage.hasAdded = c.stage.hasAdded
  emptied : c'.stage.hasEmptied = c.stage.hasEmptied
  decremented : c'.stage.hasDecremented = c.stage.hasDecremented
  wrote : c'.wrote → c'.stage.hasAdded
  reaped : c.life = .reaped → c'.life = .reaped
  alive : c'.life = .alive → c.life = .alive
  found : ∀ i, c'.life = .alive → c'.stage = .found i → slots[i]? = some c'.pid

theorem Inv.quiet (h : Inv total s) (hk : s.children[k]? = some c) (hquiet : Quiet s.slots c c') :
  Inv total (s.setChild k c')
  := by
  have hadded : c.stage.hasAdded → c'.stage.hasAdded := by
    rw [hquiet.added]
    apply id
  constructor
  · apply h.length
  · apply h.ledger.set c' hk
    · apply Nat.le_of_eq
      rw [hquiet.emptied, hquiet.stored, State.setChild_slots]
    · rw [hquiet.decremented, hquiet.added, State.setChild_runningChildren]
  · apply h.roster.set c' hk hquiet.pid hquiet.reaped hadded hquiet.wrote
  · apply h.slotMarks.set c' hk hquiet.slot hquiet.alive _ hquiet.found
    rw [hquiet.stored]
    apply id
  · apply h.handlerMarks.set c' hk hquiet.pid hquiet.reaped
    intro i p hi _ _
    apply hi
  · apply h.room.set hk hadded (Nat.le_refl _)
  · apply h.parentMarks.set hk hadded rfl
    intro _
    exact ⟨Nat.le_refl _, fun _ hj => hj⟩

/-- A child that stores its pid in its slot. -/
theorem Inv.store (h : Inv total s) (hk : s.children[k]? = some c) (halive : c.life = .alive)
    (hstage : c.stage = .forked) :
  Inv total { s.setChild k { c with stage := .stored } with slots := s.slots.set c.slot c.pid }
  := by
  have hslot : s.slots[c.slot]? = some EMPTY := by
    apply h.slotMarks.forked k c hk halive
    simp [hstage, Stage.hasStored]
  have hpid := h.roster.pid_ne k c hk
  have hnot : ¬ c.stage.hasAdded := by
    simp [hstage, Stage.hasAdded]
  have hother : ∀ {i p : ℕ}, s.slots[i]? = some p → p ≠ EMPTY →
      (s.slots.set c.slot c.pid)[i]? = some p := by
    intro i p hi hp
    rw [List.getElem?_set_ne, hi]
    rintro rfl
    cases hslot.symm.trans hi
    apply hp rfl
  have hslots := countP_set (· != EMPTY) (b := c.pid) hslot
  simp only [bne_self_eq_false, bne_iff_ne.mpr hpid, Bool.toNat_true, Bool.toNat_false] at hslots
  constructor
  · rw [List.length_set]
    apply h.length
  · apply h.ledger.set { c with stage := .stored } hk
    · simp [hstage, Stage.hasStored, Stage.hasEmptied]
      omega
    · simp [hstage, Stage.hasAdded, Stage.hasDecremented]
  · apply h.roster.set { c with stage := .stored } hk rfl id
    · intro hadded
      cases hnot hadded
    · intro hwrote
      cases hnot (h.roster.wrote k c hk hwrote)
  · constructor
    · intro l d hd hlife hdstored
      rcases getElem?_set_some hd with ⟨-, rfl⟩ | ⟨hne, hd⟩
      · cases hdstored rfl
      · -- no other child is still to store its pid
        have hdadded : ¬ d.stage.hasAdded := by
          intro hdadded
          revert hdadded hdstored
          cases d.stage <;> simp [Stage.hasAdded, Stage.hasStored]
        cases hne (h.roster.pending l k d c hd hk hdadded hnot)
    · intro l d i hd hlife hfound
      rcases getElem?_set_some hd with ⟨-, rfl⟩ | ⟨-, hd⟩
      · cases hfound
      · apply hother (h.slotMarks.found l d i hd hlife hfound) (h.roster.pid_ne l d hd)
  · apply h.handlerMarks.set { c with stage := .stored } hk rfl id
    intro i p hi hp _
    apply hother hi hp
  · apply h.room.set hk _ (Nat.le_refl _)
    intro hadded
    cases hnot hadded
  · apply h.parentMarks.set hk _ List.length_set
    · intro hadded
      cases hnot hadded
    · intro hadded
      cases hnot hadded

/-- A child that increments the counter, which its parent left room for. -/
theorem Inv.add (h : Inv total s) (htotal : total < 2 ^ 32) (hk : s.children[k]? = some c)
    (hstage : c.stage = .stored) :
  Inv total { s.setChild k { c with stage := .added } with
    runningChildren := u32 (s.runningChildren + 1) }
  := by
  have hnot : ¬ c.stage.hasAdded := by
    simp [hstage, Stage.hasAdded]
  have hlt : s.runningChildren < total := by
    apply h.room.pending
    intro hall
    apply hnot (hall k c hk)
  have hu32 : u32 (s.runningChildren + 1) = s.runningChildren + 1 := by
    apply Epoch.u32_of_lt
    omega
  rw [hu32]
  constructor
  · apply h.length
  · apply h.ledger.set { c with stage := .added } hk
    · simp [hstage, Stage.hasStored, Stage.hasEmptied]
    · simp [hstage, Stage.hasAdded, Stage.hasDecremented]
  · apply h.roster.set { c with stage := .added } hk rfl id
    · intro _
      rfl
    · intro _
      rfl
  · apply h.slotMarks.set { c with stage := .added } hk rfl id
    · intro _
      rfl
    · intro i _ hfound
      cases hfound
  · apply h.handlerMarks.set { c with stage := .added } hk rfl id
    intro i p hi _ _
    apply hi
  · constructor
    · apply hlt
    · intro hnotall
      apply absurd (h.roster.allAdded_set hk hnot rfl) hnotall
  · apply h.parentMarks.set hk _ rfl
    · intro hadded
      cases hnot hadded
    · intro hadded
      cases hnot hadded

/-- A child that empties the slot it found. -/
theorem Inv.release {i : ℕ} (h : Inv total s) (hk : s.children[k]? = some c) (halive : c.life = .alive)
    (hstage : c.stage = .found i) :
  Inv total { s.setChild k { c with stage := .emptied } with slots := s.slots.set i EMPTY }
  := by
  have hi := h.slotMarks.found k c i hk halive hstage
  have hpid := h.roster.pid_ne k c hk
  have hunreaped : c.life ≠ .reaped := by
    simp [halive]
  have hslots := countP_set_empty hi hpid
  constructor
  · rw [List.length_set]
    apply h.length
  · apply h.ledger.set { c with stage := .emptied } hk
    · simp [hstage, Stage.hasStored, Stage.hasEmptied]
      omega
    · simp [hstage, Stage.hasAdded, Stage.hasDecremented]
  · apply h.roster.set { c with stage := .emptied } hk rfl id
    · intro _
      rfl
    · intro _
      rfl
  · apply SlotMarks.empty
    · apply h.slotMarks.set { c with stage := .emptied } hk rfl id
      · intro _
        rfl
      · intro j _ hfound
        cases hfound
    · intro l d hd hlife hfound
      rcases getElem?_set_some hd with ⟨-, rfl⟩ | ⟨hne, hd⟩
      · cases hfound
      · apply hne
        have hd' := h.slotMarks.found l d i hd hlife hfound
        apply h.roster.unique l k d c hd hk _ hunreaped
        · apply Option.some.inj (hd'.symm.trans hi)
        · simp [hlife]
  · apply h.handlerMarks.set { c with stage := .emptied } hk rfl id
    intro j p hj _ hvacant
    rw [List.getElem?_set_ne, hj]
    rintro rfl
    apply hvacant k c hk hunreaped
    apply Option.some.inj (hi.symm.trans hj)
  · apply h.room.set hk _ (Nat.le_refl _)
    intro _
    rfl
  · apply h.parentMarks.set hk _ List.length_set
    · intro _
      exact ⟨Nat.le_refl _, fun _ hj => getElem?_set_empty hj⟩
    · intro _
      rfl

/-- A child that emptied its slot is counted. -/
theorem Inv.counter_pos (h : Inv total s) (hk : s.children[k]? = some c) (hstage : c.stage = .emptied) :
  0 < s.runningChildren
  := by
  have hset := fun p : Child → Bool => countP_set p (b := { c with stage := .decremented }) hk
  have hadded := hset (·.stage.hasAdded)
  have hdecremented := hset (·.stage.hasDecremented)
  have hmono : (s.children.set k { c with stage := .decremented }).countP (·.stage.hasDecremented)
      ≤ (s.children.set k { c with stage := .decremented }).countP (·.stage.hasAdded) := by
    apply List.countP_mono_left
    intro d _
    cases d.stage <;> simp [Stage.hasAdded, Stage.hasDecremented]
  have hcounter := h.ledger.counter
  simp only [hstage] at hadded hdecremented
  have h₁ : Stage.emptied.hasAdded.toNat = 1 := rfl
  have h₂ : Stage.emptied.hasDecremented.toNat = 0 := rfl
  have h₃ : Stage.decremented.hasAdded.toNat = 1 := rfl
  have h₄ : Stage.decremented.hasDecremented.toNat = 1 := rfl
  omega

/-- A child that decrements the counter. -/
theorem Inv.decrement (h : Inv total s) (htotal : total < 2 ^ 32)
    (hk : s.children[k]? = some c) (hstage : c.stage = .emptied) :
  Inv total { s.setChild k { c with stage := .decremented } with
    runningChildren := u32 (s.runningChildren + (2 ^ 32 - 1)) }
  := by
  obtain ⟨n, hn⟩ := Nat.exists_eq_add_one.mpr (h.counter_pos hk hstage)
  have hle := h.room.le
  have hu32 : u32 (s.runningChildren + (2 ^ 32 - 1)) = n := by
    rw [hn]
    apply Epoch.u32_pred
    omega
  rw [hu32]
  have hpred : n ≤ s.runningChildren := by
    rw [hn]
    apply Nat.le_succ
  constructor
  · apply h.length
  · apply h.ledger.set { c with stage := .decremented } hk
    · simp [hstage, Stage.hasStored, Stage.hasEmptied]
    · simp [hstage, Stage.hasAdded, Stage.hasDecremented]
      omega
  · apply h.roster.set { c with stage := .decremented } hk rfl id
    · intro _
      rfl
    · intro _
      rfl
  · apply h.slotMarks.set { c with stage := .decremented } hk rfl id
    · intro _
      rfl
    · intro i _ hfound
      cases hfound
  · apply h.handlerMarks.set { c with stage := .decremented } hk rfl id
    intro i p hi _ _
    apply hi
  · apply h.room.set hk _ hpred
    intro _
    rfl
  · apply h.parentMarks.set hk _ rfl
    · intro _
      exact ⟨hpred, fun _ hj => hj⟩
    · intro _
      rfl

/-- A child on its way between the counter and the slot it will empty. -/
theorem Quiet.stage (slots : List ℕ) {wrote : Bool} {stage : Stage}
    (hc : c.stage.hasAdded ∧ ¬ c.stage.hasEmptied) (hstage : stage.hasAdded ∧ ¬ stage.hasEmptied)
    (hfound : ∀ i, stage = .found i → slots[i]? = some c.pid) :
  Quiet slots c { c with stage := stage, wrote := wrote }
  := by
  have hflags : ∀ {st : Stage}, st.hasAdded ∧ ¬ st.hasEmptied →
      st.hasStored = true ∧ st.hasAdded = true ∧ st.hasEmptied = false ∧
        st.hasDecremented = false := by
    intro st
    cases st <;> simp [Stage.hasStored, Stage.hasAdded, Stage.hasEmptied, Stage.hasDecremented]
  obtain ⟨hstored, hadded, hemptied, hdecremented⟩ := hflags hc
  obtain ⟨hstored', hadded', hemptied', hdecremented'⟩ := hflags hstage
  constructor
  case stored => exact hstored'.trans hstored.symm
  case added => exact hadded'.trans hadded.symm
  case emptied => exact hemptied'.trans hemptied.symm
  case decremented => exact hdecremented'.trans hdecremented.symm
  case wrote => exact fun _ => hadded'
  case found => exact fun i _ => hfound i
  case pid | slot => rfl
  case reaped | alive => exact id

/-- The death of a child, or its end. -/
theorem Inv.quiet_life {life : Life} (h : Inv total s) (hk : s.children[k]? = some c)
    (halive : life ≠ .alive) (hreaped : c.life ≠ .reaped ∨ life = .reaped) :
  Inv total (s.setChild k { c with life := life })
  := by
  apply h.quiet hk
  constructor
  case wrote => apply h.roster.wrote k c hk
  case reaped =>
    intro hlife
    rcases hreaped with hreaped | hreaped
    · cases hreaped hlife
    · apply hreaped
  case alive =>
    intro hlife
    cases halive hlife
  case found =>
    intro i hlife
    cases halive hlife
  all_goals rfl

theorem childStep_inv {ok : Bool} (h : Inv total s) (htotal : total < 2 ^ 32)
    (hk : s.children[k]? = some c) (halive : c.life = .alive)
    (hstep : childStep s k c ok = some s') :
  Inv total s'
  := by
  cases hstage : c.stage with
  | forked =>
      simp only [childStep, hstage, Option.some.injEq] at hstep
      subst hstep
      apply h.store hk halive hstage
  | stored =>
      simp only [childStep, hstage, Option.some.injEq] at hstep
      subst hstep
      apply h.add htotal hk hstage
  | added =>
      simp only [childStep, hstage] at hstep
      have hc : c.stage.hasAdded ∧ ¬ c.stage.hasEmptied := by
        simp [hstage, Stage.hasAdded, Stage.hasEmptied]
      cases ok with
      | true =>
          cases hstep
          apply h.quiet hk (Quiet.stage s.slots hc (by decide) _)
          intro i hfound
          cases hfound
      | false =>
          cases hstep
          apply h.quiet hk (Quiet.stage s.slots hc (by decide) _)
          intro i hfound
          cases hfound
  | running =>
      simp only [childStep, hstage, Option.some.injEq] at hstep
      subst hstep
      have hc : c.stage.hasAdded ∧ ¬ c.stage.hasEmptied := by
        simp [hstage, Stage.hasAdded, Stage.hasEmptied]
      apply h.quiet hk (Quiet.stage s.slots hc (by decide) _)
      intro i hfound
      cases hfound
  | lookup j =>
      simp only [childStep, hstage] at hstep
      have hc : c.stage.hasAdded ∧ ¬ c.stage.hasEmptied := by
        simp [hstage, Stage.hasAdded, Stage.hasEmptied]
      split at hstep
      · cases hstep
      · rename_i p hj
        cases hstep
        apply h.quiet hk (Quiet.stage s.slots hc _ _)
        · split <;> simp [Stage.hasAdded, Stage.hasEmptied]
        · intro i hfound
          split at hfound
          · rename_i hp
            cases hfound
            rw [hj, hp]
          · cases hfound
  | found i =>
      simp only [childStep, hstage, Option.some.injEq] at hstep
      subst hstep
      apply h.release hk halive hstage
  | emptied =>
      simp only [childStep, hstage, Option.some.injEq] at hstep
      subst hstep
      apply h.decrement htotal hk hstage
  | decremented =>
      simp only [childStep, hstage, Option.some.injEq] at hstep
      subst hstep
      rw [← hstage]
      apply h.quiet_life hk
      · decide
      · left
        simp [halive]

end ChildSteps

/-! ### Steps of the parent -/

section ParentSteps

variable {s s' : State} {total k : ℕ} {o : Outcome}

theorem Inv.setHandler {handler : Option HandlerPc} (h : Inv total s)
    (hmarks : HandlerMarks s.slots s.children handler) :
  Inv total { s with handler := handler }
  := ⟨h.length, h.ledger, h.roster, h.slotMarks, hmarks, h.room, h.parentMarks⟩

theorem Inv.setParent {pc : ParentPc} {entered : ℕ} (h : Inv total s)
    (hmarks : ParentMarks s.slots s.runningChildren entered s.children pc) :
  Inv total { s with parent := pc, entered := entered }
  := ⟨h.length, h.ledger, h.roster, h.slotMarks, h.handlerMarks, h.room, hmarks⟩

theorem waitpidStep_inv {child : Option ℕ} (h : Inv total s)
    (hstep : waitpidStep s child = some s') :
  Inv total s'
  := by
  cases child with
  | none =>
      rw [waitpidStep] at hstep
      split at hstep
      · cases hstep
        apply h.setHandler
        trivial
      · cases hstep
  | some k =>
      simp only [waitpidStep] at hstep
      split at hstep
      · cases hstep
      · rename_i c hk
        have hreap : Inv total (s.setChild k { c with life := .reaped }) := by
          apply h.quiet_life hk (by decide)
          exact .inr rfl
        split at hstep
        · rename_i hlife
          cases hstep
          apply hreap.setHandler
          use h.roster.pid_ne k c hk
          intro l d hd hdlife hpid
          rcases getElem?_set_some hd with ⟨-, rfl⟩ | ⟨hne, hd⟩
          · cases hdlife rfl
          · apply hne
            apply h.roster.unique l k d c hd hk hdlife _ hpid
            simp [hlife]
        · cases hstep
          apply hreap
        · cases hstep
        · cases hstep

theorem handlerStep_inv {pc : HandlerPc} (h : Inv total s) (hpc : s.handler = some pc)
    (hstep : handlerStep s pc = some s') :
  Inv total s'
  := by
  have hmarks := h.handlerMarks
  rw [hpc] at hmarks
  cases pc with
  | wait => cases hstep
  | lookup pid j =>
      simp only [handlerStep] at hstep
      split at hstep
      · cases hstep
        apply h.setHandler
        trivial
      · rename_i p hj
        cases hstep
        apply h.setHandler
        split
        · rename_i hp
          rw [hp] at hj
          exact ⟨hj, hmarks⟩
        · exact hmarks
  | clear i pid =>
      obtain ⟨hi, hpid, hvacant⟩ := hmarks
      cases hstep
      constructor
      · rw [List.length_set]
        apply h.length
      · constructor
        · have := countP_set_empty hi hpid
          have := h.ledger.occupied
          simp only
          omega
        · apply h.ledger.counter
      · apply h.roster
      · apply h.slotMarks.empty
        intro l d hd hlife hfound
        have hd' := h.slotMarks.found l d i hd hlife hfound
        apply hvacant l d hd
        · simp [hlife]
        · apply Option.some.inj (hd'.symm.trans hi)
      · trivial
      · apply h.room
      · apply h.parentMarks.mono List.length_set rfl
        · intro l d hd hnot
          use d
        · intro _
          exact ⟨Nat.le_refl _, fun _ hj => getElem?_set_empty hj⟩

/-- When all children are counted, there are no more slots in use than the counter says. -/
theorem Ledger.occupied_le {slots : List ℕ} {counter : ℕ} {children : List Child}
    (h : Ledger slots counter children) (hall : AllAdded children) :
  slots.countP (· != EMPTY) ≤ counter
  := by
  have hadded : children.countP (·.stage.hasAdded) = children.length := by
    apply List.countP_eq_length.mpr
    intro c hc
    obtain ⟨k, hk⟩ := List.mem_iff_getElem?.mp hc
    apply hall k c hk
  have hstored : children.countP (·.stage.hasStored) ≤ children.length :=
    List.countP_le_length
  have hemptied : children.countP (·.stage.hasDecremented)
      ≤ children.countP (·.stage.hasEmptied) := by
    apply List.countP_mono_left
    intro c _
    cases c.stage <;> simp [Stage.hasEmptied, Stage.hasDecremented]
  have := h.occupied
  have := h.counter
  omega

/-- An array with fewer slots in use than slots has an empty one. -/
theorem exists_empty {slots : List ℕ} (h : slots.countP (· != EMPTY) < slots.length) :
  ∃ j : ℕ, slots[j]? = some EMPTY
  := by
  by_contra hnone
  apply Nat.ne_of_lt h
  apply List.countP_eq_length.mpr
  intro p hp
  obtain ⟨j, hj⟩ := List.mem_iff_getElem?.mp hp
  apply bne_iff_ne.mpr
  rintro rfl
  apply hnone ⟨j, hj⟩

/-- A child is forked for an empty slot, with a pid that no child to be reaped has. -/
theorem Inv.fork {i : ℕ} (h : Inv total s) (hpc : s.parent = .fork i)
    (hhandler : s.handler = none) (hpid : o.pid ≠ 0)
    (hfresh : ∀ c ∈ s.children, c.life ≠ .reaped → c.pid ≠ o.pid) :
  Inv total { s with
    parent := .read s.children.length
    children := s.children ++ [⟨o.pid, i, .forked, false, .alive⟩] }
  := by
  obtain ⟨hall, hlt, hlen, hi⟩ : AllAdded s.children ∧ s.runningChildren < s.slots.length ∧
      s.children.length = s.entered ∧ s.slots[i]? = some EMPTY := by
    have := h.parentMarks
    rwa [hpc] at this
  have hfresh' : ∀ (l : ℕ) (d : Child), s.children[l]? = some d → d.life ≠ .reaped →
      d.pid ≠ o.pid := by
    intro l d hd
    apply hfresh d (List.mem_of_getElem? hd)
  have hpending : ∀ (l : ℕ) (d : Child),
      (s.children ++ [⟨o.pid, i, .forked, false, .alive⟩])[l]? = some d →
        ¬ d.stage.hasAdded → l = s.children.length := by
    intro l d hd hnot
    rcases getElem?_concat_some hd with hd | ⟨hl, -⟩
    · cases hnot (hall l d hd)
    · apply hl
  constructor
  · apply h.length
  · constructor
    · simpa [Stage.hasStored, Stage.hasEmptied] using h.ledger.occupied
    · simpa [Stage.hasAdded, Stage.hasDecremented] using h.ledger.counter
  · constructor
    · intro l d hd
      rcases getElem?_concat_some hd with hd | ⟨-, rfl⟩
      · apply h.roster.pid_ne l d hd
      · apply hpid
    · intro l m d e hd he hdlife helife heq
      rcases getElem?_concat_some hd with hd | ⟨rfl, rfl⟩
      · rcases getElem?_concat_some he with he | ⟨-, rfl⟩
        · apply h.roster.unique l m d e hd he hdlife helife heq
        · cases hfresh' l d hd hdlife heq
      · rcases getElem?_concat_some he with he | ⟨rfl, -⟩
        · cases hfresh' m e he helife heq.symm
        · rfl
    · intro l d hd hwrote
      rcases getElem?_concat_some hd with hd | ⟨-, rfl⟩
      · apply h.roster.wrote l d hd hwrote
      · cases hwrote
    · intro l m d e hd he hdnot henot
      rw [hpending l d hd hdnot, hpending m e he henot]
  · constructor
    · intro l d hd hlife hnot
      rcases getElem?_concat_some hd with hd | ⟨-, rfl⟩
      · apply h.slotMarks.forked l d hd hlife hnot
      · apply hi
    · intro l d j hd hlife hfound
      rcases getElem?_concat_some hd with hd | ⟨-, rfl⟩
      · apply h.slotMarks.found l d j hd hlife hfound
      · cases hfound
  · simp only [hhandler]
    trivial
  · constructor
    · apply h.room.le
    · intro _
      rw [← h.length]
      apply hlt
  · constructor
    · apply hpending
    · rw [List.length_append, hlen, List.length_singleton]

/-- When the counter is less than the number of slots, there is an empty slot to scan for. -/
theorem Inv.test (h : Inv total s) (hpc : s.parent = .test)
    (hstep : parentStep s o = some s') :
  Inv total s'
  := by
  have hall := h.parentMarks
  rw [hpc] at hall
  simp only [parentStep, hpc] at hstep
  split at hstep
  · cases hstep
    apply h.setParent
    trivial
  · split at hstep
    · rename_i hlt
      cases hstep
      apply h.setParent
      have hused := h.ledger.occupied_le hall
      obtain ⟨j, hj⟩ := exists_empty (Nat.lt_of_le_of_lt hused hlt)
      exact ⟨hall, hlt, rfl, j, Nat.zero_le j, hj⟩
    · cases hstep
      apply h

/-- A scan stops at an empty slot, or goes on to the one that is ahead. -/
theorem Inv.scan {i : ℕ} (h : Inv total s) (hpc : s.parent = .scan i)
    (hstep : parentStep s o = some s') :
  Inv total s'
  := by
  have hmarks := h.parentMarks
  rw [hpc] at hmarks
  obtain ⟨hall, hlt, hlen, j, hij, hj⟩ := hmarks
  simp only [parentStep, hpc] at hstep
  split at hstep
  · rename_i hi
    -- the scan cannot run off the array, which has an empty slot ahead
    rw [List.getElem?_eq_none_iff] at hi
    have := (List.getElem?_eq_some_iff.mp hj).1
    omega
  · rename_i pid hi
    split at hstep
    · cases hstep
      apply h.setParent
      exact .inl (by decide)
    · split at hstep
      · rename_i hpid
        cases hstep
        apply h.setParent
        have hne : i ≠ j := by
          rintro rfl
          apply hpid
          apply Option.some.inj (hi.symm.trans hj)
        exact ⟨hall, hlt, hlen, j, by omega, hj⟩
      · rename_i hpid
        cases hstep
        apply h.setParent
        rw [not_not.mp hpid] at hi
        exact ⟨hall, hlt, hlen, hi⟩

/-- After the byte of the last child has been read, all children are counted. -/
theorem Inv.read (h : Inv total s) (hpc : s.parent = .read k)
    (hstep : parentStep s o = some s') :
  Inv total s'
  := by
  have hmarks := h.parentMarks
  rw [hpc] at hmarks
  obtain ⟨hread, hlen⟩ := hmarks
  simp only [parentStep, hpc] at hstep
  split at hstep
  · cases hstep
  · rename_i c hk
    split at hstep
    · cases hstep
      apply h.setParent
      exact .inl (by decide)
    · split at hstep
      · rename_i hwrote
        cases hstep
        apply h.setParent
        right
        constructor
        · -- the byte comes from the only child that could be missing
          intro l d hd
          by_contra hnot
          rw [hread l d hd hnot] at hd
          cases hk.symm.trans hd
          apply hnot (h.roster.wrote k c hk hwrote)
        · apply hlen
      · cases hstep

theorem parentStep_inv (h : Inv total s) (hhandler : s.handler = none)
    (hstep : parentStep s o = some s') :
  Inv total s'
  := by
  have hmarks := h.parentMarks
  cases hpc : s.parent with
  | test => apply h.test hpc hstep
  | scan i => apply h.scan hpc hstep
  | pipe i =>
      simp only [parentStep, hpc] at hstep
      rw [hpc] at hmarks
      cases hstep
      apply h.setParent
      split
      · apply hmarks
      · exact .inl (by decide)
  | fork i =>
      simp only [parentStep, hpc] at hstep
      split at hstep
      · cases hstep
        apply h.setParent
        exact .inl (by decide)
      · split at hstep
        · rename_i hfresh
          cases hstep
          apply h.fork hpc hhandler hfresh.1 hfresh.2
        · cases hstep
  | read k => apply h.read hpc hstep
  | returned rtrn =>
      simp only [parentStep, hpc] at hstep
      rw [hpc] at hmarks
      cases hstep
      apply h.setParent
      split
      · trivial
      · rename_i hnonneg
        rcases hmarks with hneg | ⟨hall, -⟩
        · cases hnonneg hneg
        · apply hall
  | done =>
      simp only [parentStep, hpc] at hstep
      cases hstep

end ParentSteps

/-! ### Runs -/

/-- A step of the parent, of its handler or of a child keeps the invariant. -/
theorem step_inv {s s' : State} {total : ℕ} {a : Action} (htotal : total < 2 ^ 32)
    (h : Inv total s) (hstep : step s a = some s') :
  Inv total s'
  := by
  have hcases := step_cases hstep
  cases a with
  | parent o =>
      obtain ⟨hhandler, hstep⟩ := hcases
      apply parentStep_inv h hhandler hstep
  | sigchld =>
      obtain ⟨-, rfl⟩ := hcases
      apply h.setHandler
      trivial
  | waitpid child =>
      obtain ⟨-, hstep⟩ := hcases
      apply waitpidStep_inv h hstep
  | handler =>
      obtain ⟨pc, hpc, hstep⟩ := hcases
      apply handlerStep_inv h hpc hstep
  | child k ok =>
      obtain ⟨c, hk, halive, hstep⟩ := hcases
      apply childStep_inv h htotal hk halive hstep
  | kill k =>
      obtain ⟨c, hk, halive, rfl⟩ := hcases
      apply h.quiet_life hk (by decide)
      left
      simp [halive]

theorem init_inv (total : ℕ) :
  Inv total (State.init total)
  := by
  constructor
  · apply List.length_replicate
  · constructor <;> simp [State.init]
  · constructor <;> simp [State.init]
  · constructor <;> simp [State.init]
  · trivial
  · constructor
    · apply Nat.zero_le
    · intro hnot
      apply absurd _ hnot
      intro k c hk
      cases hk
  · intro k c hk
    cases hk

/-- The parent gets from a scan to an empty slot that is ahead, unless a call fails. -/
theorem exists_run_scan {s : State} {o : Outcome} {i j : ℕ} (hok : o.ok = true)
    (hhandler : s.handler = none) (hpc : s.parent = .scan i) (hij : i ≤ j)
    (hj : s.slots[j]? = some EMPTY) :
  ∃ n ≤ j + 1 - i, ∃ k, run step s (List.replicate n (.parent o)) =
    some { s with parent := .pipe k } ∧ s.slots[k]? = some EMPTY
  := by
  -- on the distance to the empty slot
  induction hd : j - i generalizing s i with
  | zero =>
      obtain rfl : i = j := by omega
      refine ⟨1, by omega, i, ?_, hj⟩
      simp [run, step, parentStep, hhandler, hpc, hj, hok]
  | succ d ih =>
      have hlt : i < s.slots.length := by
        have := (List.getElem?_eq_some_iff.mp hj).1
        omega
      have hi := List.getElem?_eq_getElem hlt
      by_cases hempty : s.slots[i] = EMPTY
      · refine ⟨1, by omega, i, ?_, ?_⟩
        · simp [run, step, parentStep, hhandler, hpc, hi, hok, hempty]
        · rw [hi, hempty]
      · have hstep : step s (.parent o) = some { s with parent := .scan (i + 1) } := by
          simp [step, parentStep, hhandler, hpc, hi, hok, hempty]
        obtain ⟨n, hn, k, hrun, hk⟩ :=
          ih (s := { s with parent := .scan (i + 1) }) hhandler rfl (by omega) hj (by omega)
        refine ⟨n + 1, by omega, k, ?_, hk⟩
        rw [List.replicate_succ, run_cons, hstep, Option.bind_some]
        exact hrun

/-- The counter stays between zero and the number of slots, a scan for an empty slot has one
ahead of it and gets to one, and `create_child` returns zero only after it forked exactly one
child. -/
structure CountsChildren (total : ℕ) (s : State) : Prop where
  counter_le : s.runningChildren ≤ total
  decrement : ∀ c ∈ s.children, c.life = .alive → c.stage = .emptied → s.runningChildren ≠ 0
  scan : ∀ i, s.parent = .scan i → ∃ j, i ≤ j ∧ j < total ∧ s.slots[j]? = some EMPTY
  reaches : ∀ i o, s.parent = .scan i → s.handler = none → o.ok = true →
    ∃ n ≤ total, ∃ j, run step s (List.replicate n (.parent o)) =
      some { s with parent := .pipe j } ∧ s.slots[j]? = some EMPTY
  created : s.parent = .returned 0 → s.children.length = s.entered + 1

theorem Inv.countsChildren {s : State} {total : ℕ} (h : Inv total s) :
  CountsChildren total s
  := by
  have hmarks := h.parentMarks
  constructor
  · apply h.room.le
  · intro c hc _ hstage
    obtain ⟨k, hk⟩ := List.mem_iff_getElem?.mp hc
    apply Nat.ne_of_gt (h.counter_pos hk hstage)
  · intro i hpc
    rw [hpc] at hmarks
    obtain ⟨-, -, -, j, hij, hj⟩ := hmarks
    use j, hij
    rw [← h.length]
    exact ⟨(List.getElem?_eq_some_iff.mp hj).1, hj⟩
  · intro i o hpc hhandler hok
    rw [hpc] at hmarks
    obtain ⟨-, -, -, j, hij, hj⟩ := hmarks
    obtain ⟨n, hn, hreaches⟩ := exists_run_scan hok hhandler hpc hij hj
    have hlt := (List.getElem?_eq_some_iff.mp hj).1
    rw [h.length] at hlt
    exact ⟨n, by omega, hreaches⟩
  · intro hpc
    rw [hpc] at hmarks
    rcases hmarks with hneg | ⟨-, hlen⟩
    · cases hneg
    · apply hlen

/-- In every run of the parent, its handler and its children, with any number of slots that
fits the counter's type. -/
theorem runningChildren_counts {total : ℕ} (htotal : total < 2 ^ 32) (actions : List Action) :
  AllStates step (CountsChildren total) (State.init total) actions
  := by
  have hpreserve : ∀ {s a s'}, Inv total s → True → step s a = some s' → Inv total s' := by
    intro s a s' h _ hstep
    apply step_inv htotal h hstep
  apply allStates_of_invariant hpreserve Inv.countsChildren (init_inv total)
  apply allSteps_of_forall
  intro _ _
  trivial

/-- Create a child with a pid in the slot of an index, the first empty one. -/
def createChild (index slot pid : ℕ) : List Action :=
  List.replicate (slot + 4) (.parent ⟨true, false, pid⟩) ++
    List.replicate 3 (.child index true) ++ List.replicate 2 (.parent ⟨true, false, pid⟩)

/-- A child exits, and the next one is created in its slot. -/
def secondChild : List Action :=
  createChild 0 0 7 ++ List.replicate 5 (.child 0 true) ++ createChild 1 0 8

theorem runningChildren_counts_secondChild :
  (run step (State.init 2) secondChild).map (fun s => (s.runningChildren, s.slots)) =
    some (1, [8, EMPTY]) ∧
    AllStates step (CountsChildren 2) (State.init 2) secondChild
  := by
  constructor
  · decide
  · apply runningChildren_counts
    decide

end Children
