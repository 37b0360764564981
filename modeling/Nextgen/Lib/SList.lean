import Mathlib.Data.List.Nodup
import Mathlib.Logic.Function.Basic
import Mathlib.Tactic.Common

/-!
# Singly linked lists in a heap

A heap of list cells is a function `next : β → Option β`, the link of every cell, with
`none` for the null pointer; a list is the pointer to its first cell.  `Chain next head l`
says that following the links from `head` visits the cells of `l` in order and then
reaches null.  The operations are those of an intrusive list whose elements may sit on
several lists that share one link per cell: each of them reads and writes `next` only at
cells of the list it works on.

The loops, `predecessor`, `find` and `foreach`, take a bound on the number of cells they visit.
On a chain every bound from its length on gives the same result.

`Walk` is the invariant of a search that reads one link at a time while cells are inserted at
the head of its list and removed from it: as long as neither the cell it stands at nor the one
it looks for is removed, it gets to that cell.
-/

universe u v

namespace SList

variable {β : Type u}

/-- Following the links from `head` visits the cells of the list in order and ends in
null. -/
def Chain (next : β → Option β) : Option β → List β → Prop
  | head, [] => head = none
  | head, b :: l => head = some b ∧ Chain next (next b) l

section Chains

variable {next : β → Option β}

@[simp]
theorem chain_nil {head : Option β} :
  Chain next head [] ↔ head = none
  := Iff.rfl

/-- The first cell of a chain is the one its head points to. -/
theorem Chain.head_eq {head : Option β} :
  ∀ {l : List β}, Chain next head l → head = l.head?
  | [], h => h
  | _ :: _, h => h.1

/-- A head determines its chain. -/
theorem Chain.unique {head : Option β} {l m : List β} (hl : Chain next head l)
    (hm : Chain next head m) :
  l = m
  := by
  induction l generalizing head m with
  | nil =>
      rw [chain_nil] at hl
      subst hl
      cases m with
      | nil => rfl
      | cons c m => cases hm.1
  | cons b l ih =>
      obtain ⟨rfl, hl⟩ := hl
      cases m with
      | nil => cases hm
      | cons c m =>
          obtain ⟨hc, hm⟩ := hm
          cases hc
          rw [ih hl hm]

/-- The chain from a cell of a chain is the rest of the chain from that cell on. -/
theorem Chain.suffix {b : β} {head : Option β} {p q : List β} (h : Chain next head (p ++ b :: q)) :
  Chain next (some b) (b :: q)
  := by
  induction p generalizing head with
  | nil => exact ⟨rfl, h.2⟩
  | cons c p ih => apply ih h.2

/-- The link of a cell of a chain points to the cell after it. -/
theorem Chain.next_eq {head : Option β} {p q : List β} {b : β}
    (h : Chain next head (p ++ b :: q)) :
  next b = q.head?
  := h.suffix.2.head_eq

/-- No cell occurs twice on a chain. -/
theorem Chain.nodup {head : Option β} {l : List β} (h : Chain next head l) :
  l.Nodup
  := by
  induction l generalizing head with
  | nil => apply List.nodup_nil
  | cons b l ih =>
      apply List.nodup_cons.mpr
      constructor
      · -- a second occurrence of `b` would make the rest of the chain shorter than itself
        intro hb
        obtain ⟨p, q, rfl⟩ := List.append_of_mem hb
        have hsame : q = p ++ b :: q := Chain.unique h.2.suffix.2 h.2
        have hlen := congrArg List.length hsame
        simp only [List.length_append, List.length_cons] at hlen
        omega
      · apply ih h.2

/-- Writes off a chain keep the chain. -/
theorem Chain.congr {next' : β → Option β} {head : Option β} {l : List β}
    (h : Chain next head l) (heq : ∀ b ∈ l, next' b = next b) :
  Chain next' head l
  := by
  induction l generalizing head with
  | nil => apply h
  | cons b l ih =>
      use h.1
      rw [heq b List.mem_cons_self]
      apply ih h.2
      intro c hc
      apply heq c (List.mem_cons_of_mem b hc)

end Chains

/-! ### Search -/

/-- The loop that walks from `cur` to the first cell that satisfies `p`.  It has no result
when it reaches null, or when it has visited `bound` cells. -/
def find (next : β → Option β) (p : β → Bool) : ℕ → Option β → Option β
  | 0, _ => none
  | _ + 1, none => none
  | bound + 1, some cur => if p cur then some cur else find next p bound (next cur)

/-- On a chain the search finds the first cell that satisfies `p`. -/
theorem find_chain {next : β → Option β} {p : β → Bool} {bound : ℕ} {head : Option β} {l : List β}
    (h : Chain next head l) (hlen : l.length ≤ bound) :
  find next p bound head = l.find? p
  := by
  induction l generalizing head bound with
  | nil =>
      rw [chain_nil] at h
      subst h
      cases bound <;> rfl
  | cons b l ih =>
      obtain ⟨rfl, h⟩ := h
      obtain ⟨bound, rfl⟩ := Nat.exists_eq_add_of_le' hlen
      rw [List.length_cons, ← Nat.add_assoc, find, ih h (Nat.le_add_left l.length bound),
        List.find?_cons]
      cases p b <;> rfl

/-- The loop that visits the cells from `cur` on with a state, until its body ends it. -/
def foreach {σ ε : Type v} (next : β → Option β) (body : σ → β → Except ε σ) :
    ℕ → Option β → σ → Except ε σ
  | 0, _, s => .ok s
  | _ + 1, none, s => .ok s
  | bound + 1, some cur, s => (body s cur).bind fun s => foreach next body bound (next cur) s

/-- A property of the cells visited and the state that the body of a loop keeps holds when the
loop gets to the end of its chain, and when the body ends it. -/
theorem foreach_rule {σ ε : Type v} {next : β → Option β} {body : σ → β → Except ε σ}
    {I : List β → σ → Prop} {bound : ℕ} {head : Option β} {done l : List β} {s : σ}
    (h : Chain next head l) (hlen : l.length ≤ bound) (hinit : I done s)
    (hbody : ∀ {visited b s s'}, visited ++ [b] <+: done ++ l → I visited s →
      body s b = .ok s' → I (visited ++ [b]) s') :
  (∀ s', foreach next body bound head s = .ok s' → I (done ++ l) s') ∧
    ∀ e, foreach next body bound head s = .error e →
      ∃ visited b s', visited ++ [b] <+: done ++ l ∧ I visited s' ∧ body s' b = .error e
  := by
  induction l generalizing head bound done s with
  | nil =>
      rw [chain_nil] at h
      subst h
      have hend : foreach next body bound none s = .ok s := by
        cases bound <;> rfl
      rw [hend, List.append_nil]
      constructor
      · rintro s' ⟨⟩
        apply hinit
      · rintro e ⟨⟩
  | cons b l ih =>
      obtain ⟨rfl, h⟩ := h
      obtain ⟨bound, rfl⟩ := Nat.exists_eq_add_of_le' hlen
      rw [List.length_cons, ← Nat.add_assoc, foreach]
      have happend : done ++ b :: l = done ++ [b] ++ l := List.append_cons done b l
      have hvisited : done ++ [b] <+: done ++ [b] ++ l := List.prefix_append _ l
      rw [happend] at hbody ⊢
      cases hstep : body s b with
      | error e =>
          constructor
          · rintro s' ⟨⟩
          · rintro e' ⟨⟩
            exact ⟨done, b, s, hvisited, hinit, hstep⟩
      | ok s₁ =>
          apply ih h (Nat.le_add_left l.length bound) (hbody hvisited hinit hstep) hbody

/-! ### Walks along a list that changes -/

/-- A walk that has visited `n` cells stands at `cur` with its target further along the list, and
visits no more than `total` cells in all. -/
def Walk (l : List β) (n total : ℕ) (target cur : β) : Prop :=
  ∃ behind rest, l = behind ++ cur :: rest ∧ target ∈ rest ∧ n + rest.length ≤ total

section Walks

variable {next : β → Option β} {head : Option β} {l : List β} {n total : ℕ} {target cur c : β}

/-- The walk from the head of a chain starts at its target or towards it. -/
theorem Walk.first (hl : Chain next head l) (htarget : target ∈ l) (hlen : l.length ≤ total) :
  ∃ c, head = some c ∧ c ∈ l ∧ (c = target ∨ Walk l 1 total target c)
  := by
  obtain ⟨c, rest, rfl⟩ := List.exists_cons_of_ne_nil (List.ne_nil_of_mem htarget)
  use c, hl.1, List.mem_cons_self
  rcases List.mem_cons.mp htarget with rfl | htarget
  · left
    rfl
  · right
    use [], rest, rfl, htarget
    rw [Nat.add_comm]
    apply hlen

/-- The next cell of a walk is its target or closer to it. -/
theorem Walk.forward (hl : Chain next head l) (h : Walk l n total target cur) :
  n < total ∧ ∃ c, next cur = some c ∧ c ∈ l ∧ (c = target ∨ Walk l (n + 1) total target c)
  := by
  obtain ⟨behind, rest, rfl, htarget, hlen⟩ := h
  obtain ⟨c, rest, rfl⟩ := List.exists_cons_of_ne_nil (List.ne_nil_of_mem htarget)
  rw [List.length_cons] at hlen
  constructor
  · omega
  · use c, hl.next_eq, by simp
    rcases List.mem_cons.mp htarget with rfl | htarget
    · left
      rfl
    · right
      use behind ++ [cur], rest, by simp, htarget
      omega

/-- A cell inserted at the head of the list is behind the walk. -/
theorem Walk.cons (h : Walk l n total target cur) (c : β) :
  Walk (c :: l) n total target cur
  := by
  obtain ⟨behind, rest, rfl, htarget, hlen⟩ := h
  exact ⟨c :: behind, rest, rfl, htarget, hlen⟩

/-- The removal of another cell makes no walk longer. -/
theorem Walk.erase [DecidableEq β] (h : Walk l n total target cur) (hcur : c ≠ cur)
    (htarget : c ≠ target) :
  Walk (l.erase c) n total target cur
  := by
  obtain ⟨behind, rest, rfl, hmem, hlen⟩ := h
  by_cases hc : c ∈ behind
  · rw [List.erase_append_left _ hc]
    exact ⟨behind.erase c, rest, rfl, hmem, hlen⟩
  · rw [List.erase_append_right _ hc, List.erase_cons_tail (by simpa using hcur.symm)]
    use behind, rest.erase c, rfl, (List.mem_erase_of_ne htarget.symm).mpr hmem
    have := List.length_erase_le (a := c) (l := rest)
    omega

end Walks

variable [DecidableEq β]

/-- Writing the link of a cell off a chain keeps the chain. -/
theorem Chain.update {next : β → Option β} {head : Option β} {l : List β} {c : β}
    (h : Chain next head l) (hc : c ∉ l) (x : Option β) :
  Chain (Function.update next c x) head l
  := by
  apply h.congr
  intro b hb
  apply Function.update_of_ne
  rintro rfl
  apply hc hb

/-! ### Insertion at the head -/

/-- Insert a cell at the head of a list: its link becomes the old head. -/
def insertHead (next : β → Option β) (head : Option β) (elm : β) :
    (β → Option β) × Option β :=
  (Function.update next elm head, some elm)

theorem insertHead_chain {next : β → Option β} {head : Option β} {l : List β} {elm : β}
    (h : Chain next head l) (helm : elm ∉ l) :
  Chain (insertHead next head elm).1 (insertHead next head elm).2 (elm :: l)
  := by
  use rfl
  simp only [insertHead, Function.update_self]
  apply h.update helm

/-! ### Removal -/

/-- The loop that walks from `cur` to the cell whose link is `elm`.  It has no result when
it follows null, or when it has visited `bound` cells. -/
def predecessor (next : β → Option β) (elm : β) : ℕ → Option β → Option β
  | 0, _ => none
  | _ + 1, none => none
  | bound + 1, some cur =>
      if next cur = some elm then some cur else predecessor next elm bound (next cur)

/-- One round of the walk to the predecessor: it ends at the cell whose link is `elm`, and goes on
from the next cell otherwise. -/
theorem predecessor_eq_some {next : β → Option β} {elm cur c : β} {bound : ℕ}
    (h : predecessor next elm bound (some cur) = some c) :
  (next cur = some elm ∧ c = cur) ∨
    ∃ m cur', m < bound ∧ next cur ≠ some elm ∧ next cur = some cur' ∧
      predecessor next elm m (some cur') = some c
  := by
  cases bound with
  | zero => cases h
  | succ m =>
      rw [predecessor] at h
      split at h
      · rename_i hnext
        exact .inl ⟨hnext, (Option.some.inj h).symm⟩
      · rename_i hne
        right
        cases hcur : next cur with
        | none =>
            rw [hcur] at h
            cases m <;> cases h
        | some cur' =>
            rw [hcur] at h hne
            exact ⟨m, cur', Nat.lt_succ_self m, hne, rfl, h⟩

/-- Unlink the cell after `cur`. -/
def removeAfter (next : β → Option β) (cur : β) : β → Option β :=
  Function.update next cur ((next cur).bind next)

/-- Unlink a cell: at the head by moving the head, elsewhere by a walk to its
predecessor. -/
def remove (bound : ℕ) (next : β → Option β) (head : Option β) (elm : β) :
    Option ((β → Option β) × Option β) :=
  if head = some elm then some (next, next elm)
  else (predecessor next elm bound head).map fun cur => (removeAfter next cur, head)

/-- The walk to the predecessor of a cell other than the first finds a cell of the chain,
and unlinking after it erases the cell from the chain. -/
theorem predecessor_chain {next : β → Option β} {elm : β} {bound : ℕ} {head : Option β} {l : List β}
    (h : Chain next head l) (helm : elm ∈ l) (hne : head ≠ some elm) (hlen : l.length ≤ bound) :
  ∃ cur, predecessor next elm bound head = some cur ∧ cur ∈ l ∧
    Chain (removeAfter next cur) head (l.erase elm)
  := by
  induction l generalizing head bound with
  | nil => cases helm
  | cons b l ih =>
      have hbl : b ∉ l := (List.nodup_cons.mp h.nodup).1
      obtain ⟨rfl, h⟩ := h
      obtain ⟨bound, rfl⟩ := Nat.exists_eq_add_of_le' hlen
      rw [List.length_cons, ← Nat.add_assoc]
      have hbe : b ≠ elm := fun e => hne (congrArg some e)
      have helml : elm ∈ l := (List.mem_cons.mp helm).resolve_left hbe.symm
      have herase : (b :: l).erase elm = b :: l.erase elm := by
        rw [List.erase_cons_tail]
        simpa using hbe
      by_cases hnext : next b = some elm
      · use b
        simp only [predecessor, hnext, ↓reduceIte, List.mem_cons, true_or, true_and]
        -- the chain after `b` starts with `elm`, so unlinking after `b` skips `elm`
        obtain ⟨m, rfl⟩ : ∃ m, l = elm :: m := by
          rw [h.head_eq] at hnext
          apply List.head?_eq_some_iff.mp hnext
        rw [herase, List.erase_cons_head]
        use rfl
        simp only [removeAfter, Function.update_self, hnext, Option.bind_some]
        apply h.2.update
        apply List.not_mem_of_not_mem_cons hbl
      · obtain ⟨cur, hcur, hmem, hchain⟩ := ih h helml hnext (Nat.le_add_left l.length bound)
        use cur
        simp only [predecessor, hnext, ↓reduceIte, hcur, true_and]
        use List.mem_cons_of_mem b hmem
        rw [herase]
        use rfl
        have hcb : b ≠ cur := by
          rintro rfl
          apply hbl hmem
        rw [removeAfter, Function.update_of_ne hcb]
        apply hchain

/-- Unlinking a cell of a chain erases it from the chain, and writes no link off the
chain. -/
theorem remove_chain {bound : ℕ} {next : β → Option β} {head : Option β} {l : List β} {elm : β}
    (h : Chain next head l) (helm : elm ∈ l) (hlen : l.length ≤ bound) :
  ∃ next' head', remove bound next head elm = some (next', head') ∧
    Chain next' head' (l.erase elm) ∧ ∀ b ∉ l, next' b = next b
  := by
  by_cases hhead : head = some elm
  · obtain ⟨m, rfl⟩ : ∃ m, l = elm :: m := by
      rw [h.head_eq] at hhead
      apply List.head?_eq_some_iff.mp hhead
    use next, next elm
    simp only [remove, hhead, ↓reduceIte, List.erase_cons_head, true_and]
    exact ⟨h.2, fun _ _ => trivial⟩
  · obtain ⟨cur, hcur, hmem, hchain⟩ := predecessor_chain h helm hhead hlen
    use removeAfter next cur, head
    simp only [remove, hhead, ↓reduceIte, hcur, Option.map_some, true_and]
    use hchain
    intro b hb
    apply Function.update_of_ne
    rintro rfl
    apply hb hmem

/-! ### Moving a cell to another list -/

/-- Unlinking a cell from one of two disjoint chains and inserting it at the head of the
other leaves two chains, with the cell moved. -/
theorem move_chain {bound : ℕ} {next : β → Option β} {src dst : Option β} {l m : List β} {elm : β}
    (hl : Chain next src l) (hm : Chain next dst m) (hdisjoint : l.Disjoint m)
    (helm : elm ∈ l) (hlen : l.length ≤ bound) :
  ∃ next' src', remove bound next src elm = some (next', src') ∧
    Chain (insertHead next' dst elm).1 src' (l.erase elm) ∧
    Chain (insertHead next' dst elm).1 (insertHead next' dst elm).2 (elm :: m)
  := by
  obtain ⟨next', src', hremove, hchain, hframe⟩ := remove_chain hl helm hlen
  use next', src', hremove
  constructor
  · apply hchain.update
    rw [hl.nodup.mem_erase_iff]
    simp
  · apply insertHead_chain _ (hdisjoint helm)
    -- the removal writes links of `l` only
    apply hm.congr
    intro b hb
    apply hframe
    intro hb'
    apply hdisjoint hb' hb

end SList
