import Nextgen.Resource.Cached

/-!
# The search of the free functions

The `free_*_cached` functions walk along the allocated list of a pool without its lock, while
other processes move blocks between the two lists of the pool.  Here a step is one read of the
head of the list or of the link of a block, or one section of `memGetSharedBlock` or
`memFreeSharedBlock` under the lock.

A search that stands at a block which another process frees goes on along the free list.  If no
block is freed while a search stands at it, and no block is taken for another, then every search
stays on the allocated list, gets to the block of its caller after visiting at most as many
blocks as the pool has, and frees it.
-/

universe u v

open SList Transition
open SharedPool (Partition Pool Represents memFreeSharedBlock memFreeSharedBlock_release)
open CachedResource (Kind Releases pairPool pairPool_represents)

namespace ResourceSearch

/-! ### Processes -/

/-- What a process is doing: nothing in a free function, the body of the search loop at a block
that does not match, after visiting a number of blocks, or about to free the block it found. -/
inductive Local (β : Type u) (V : Type) where
  | idle
  | visiting (v : V) (mBlk : β) (visited : ℕ)
  | found (v : V) (mBlk : β)

/-- The block whose link a search is going to read. -/
def Local.standsAt {β : Type u} {V : Type} : Local β V → Option β
  | .visiting _ mBlk _ => some mBlk
  | _ => none

/-- The pool, who holds which block, and what the processes are doing. -/
structure World (β : Type u) (π : Type v) (V : Type) extends SharedPool.World β π where
  search : π → Local β V

/-- A step of a process: a pass of the get function, the call of the free function with the read
of the head of the list, the read of a link, or `mem_free_shared_block`. -/
inductive Action (π : Type v) (V : Type) where
  | get (p : π)
  | head (p : π) (v : V)
  | next (p : π)
  | free (p : π)

section Steps

variable {β : Type u} {π : Type v} (kind : Kind) (value : β → kind.Value)

/-- What a search does with the pointer it has read: at null the function returns. -/
def visit (v : kind.Value) (visited : ℕ) : Option β → Local β kind.Value
  | none => .idle
  | some mBlk => if kind.found v (value mBlk) then .found v mBlk else .visiting v mBlk visited

/-- The process holds a block that stores the value. -/
def Holds (w : World β π kind.Value) (p : π) (v : kind.Value) : Prop :=
  (p, v) ∈ w.held.map fun (q, b) => (q, value b)

variable [DecidableEq β] [DecidableEq π]

/-- The search of a process has read a pointer. -/
def read (w : World β π kind.Value) (p : π) (v : kind.Value) (visited : ℕ) (cur : Option β) :
    World β π kind.Value where
  toWorld := w.toWorld
  search := Function.update w.search p (visit kind value v visited cur)

instance (w : World β π kind.Value) (p : π) (v : kind.Value) : Decidable (Holds kind value w p v) :=
  inferInstanceAs (Decidable ((p, v) ∈ _))

/-- One step.  A free function is called with a value that its caller holds. -/
def step (w : World β π kind.Value) : Action π kind.Value → Option (World β π kind.Value)
  | .get p =>
      match w.search p with
      | .idle => (SharedPool.step w.toWorld (.get p)).map fun s => { w with toWorld := s }
      | _ => none
  | .head p v =>
      match w.search p with
      | .idle =>
          if Holds kind value w p v then some (read kind value w p v 1 w.pool.allocatedList)
          else none
      | _ => none
  | .next p =>
      match w.search p with
      | .visiting v mBlk visited =>
          some (read kind value w p v (visited + 1) (w.pool.sleNext mBlk))
      | _ => none
  | .free p =>
      match w.search p with
      | .found _ mBlk =>
          (memFreeSharedBlock (some mBlk) w.pool).map fun pool =>
            { pool := pool
              held := w.held.erase (p, mBlk)
              search := Function.update w.search p .idle }
      | _ => none

/-- The block is on the allocated list. -/
def OnAllocatedList (pool : Pool β) (b : β) : Prop :=
  ∃ allocated, Chain pool.sleNext pool.allocatedList allocated ∧ b ∈ allocated

/-- A read of a search gives a block on the allocated list, and not null; a search visits no more
blocks than the pool has; and what it frees is a block of the caller that stores the value and is
on the allocated list. -/
def Safe (w : World β π kind.Value) : Action π kind.Value → Prop
  | .get _ => True
  | .head p v =>
      match w.search p with
      | .idle => Holds kind value w p v →
          ∃ b, w.pool.allocatedList = some b ∧ OnAllocatedList w.pool b
      | _ => True
  | .next p =>
      match w.search p with
      | .visiting _ mBlk visited => visited < w.pool.blockCount ∧
          ∃ b, w.pool.sleNext mBlk = some b ∧ OnAllocatedList w.pool b
      | _ => True
  | .free p =>
      match w.search p with
      | .found v mBlk => OnAllocatedList w.pool mBlk ∧ (p, mBlk) ∈ w.held ∧ value mBlk = v ∧
          ∃ pool', memFreeSharedBlock (some mBlk) w.pool = some pool' ∧ Releases w.pool pool' mBlk
      | _ => True

/-- No block is freed while a search stands at it. -/
def Undisturbed (w : World β π kind.Value) : Action π kind.Value → Prop
  | .free p =>
      match w.search p with
      | .found _ mBlk => ∀ q, (w.search q).standsAt ≠ some mBlk
      | _ => True
  | _ => True

/-- The search for the value of a block takes no other block for it. -/
def Distinguishable (blocks : List β) : Prop :=
  ∀ b ∈ blocks, ∀ c ∈ blocks, kind.found (value b) (value c) → c = b

end Steps

/-! ### The invariant -/

section Invariant

variable {β : Type u} {π : Type v} (kind : Kind) (value : β → kind.Value)

/-- What a process is doing is on course: its search is on the allocated list on the way to a
block that it holds and that stores the value, or has got there. -/
def OnCourse (total : ℕ) (held : List (π × β)) (allocated : List β) (p : π) :
    Local β kind.Value → Prop
  | .idle => True
  | .visiting v mBlk visited =>
      ∃ t, (p, t) ∈ held ∧ value t = v ∧ Walk allocated visited total t mBlk
  | .found v mBlk => (p, mBlk) ∈ held ∧ value mBlk = v

/-- The pool is partitioned, and all searches are on course. -/
structure Inv (blocks : List β) (w : World β π kind.Value) (P : Partition β) : Prop where
  shared : SharedPool.Inv blocks w.toWorld P
  search : ∀ p, OnCourse kind value blocks.length w.held P.allocated p (w.search p)

variable {kind value} {blocks allocated : List β} {held : List (π × β)} {p q : π} {b c t : β}
  {v : kind.Value} {total n : ℕ} {l : Local β kind.Value}

/-- A search that reads a pointer to its target, or to a block on the way there, is on course. -/
theorem OnCourse.visit (hdistinguishable : Distinguishable kind value blocks)
    (ht : t ∈ blocks) (hc : c ∈ blocks) (hheld : (p, t) ∈ held) (hv : value t = v)
    (hwalk : c = t ∨ Walk allocated n total t c) :
  OnCourse kind value total held allocated p (ResourceSearch.visit kind value v n (some c))
  := by
  subst hv
  rw [ResourceSearch.visit]
  split
  · rename_i hfound
    obtain rfl := hdistinguishable t ht c hc hfound
    exact ⟨hheld, rfl⟩
  · rename_i hfound
    rcases hwalk with rfl | hwalk
    · cases hfound (kind.found_self (value c))
    · exact ⟨t, hheld, rfl, hwalk⟩

/-- A block that a process gets is behind all searches. -/
theorem OnCourse.get (h : OnCourse kind value total held allocated p l) (q : π) (b : β) :
  OnCourse kind value total ((q, b) :: held) (b :: allocated) p l
  := by
  cases l with
  | idle => trivial
  | visiting v mBlk visited =>
      obtain ⟨t, ht, hv, hwalk⟩ := h
      exact ⟨t, List.mem_cons_of_mem _ ht, hv, hwalk.cons b⟩
  | found v mBlk => exact ⟨List.mem_cons_of_mem _ h.1, h.2⟩

/-- In a list without repetitions of blocks a block has one holder. -/
theorem ne_of_holders (hnodup : (held.map Prod.snd).Nodup) (hb : (p, b) ∈ held) (ht : (q, t) ∈ held)
    (hpq : q ≠ p) :
  b ≠ t
  := by
  rintro rfl
  apply hpq
  apply congrArg Prod.fst (List.inj_on_of_nodup_map hnodup ht hb rfl)

variable [DecidableEq β] [DecidableEq π]

/-- A block that a process frees is in the way of no search that does not stand at it. -/
theorem OnCourse.free (h : OnCourse kind value total held allocated q l)
    (hnodup : (held.map Prod.snd).Nodup) (hb : (p, b) ∈ held) (hpq : q ≠ p)
    (hstands : l.standsAt ≠ some b) :
  OnCourse kind value total (held.erase (p, b)) (allocated.erase b) q l
  := by
  have hkept : ∀ {t}, (q, t) ∈ held → (q, t) ∈ held.erase (p, b) := by
    intro t ht
    apply (List.mem_erase_of_ne _).mpr ht
    intro heq
    apply hpq (congrArg Prod.fst heq)
  cases l with
  | idle => trivial
  | visiting v mBlk visited =>
      obtain ⟨t, ht, hv, hwalk⟩ := h
      use t, hkept ht, hv
      apply hwalk.erase
      · rintro rfl
        apply hstands rfl
      · apply ne_of_holders hnodup hb ht hpq
  | found v mBlk => exact ⟨hkept h.1, h.2⟩

end Invariant

/-! ### Steps and runs -/

section Runs

variable {β : Type u} {π : Type v} {kind : Kind} {value : β → kind.Value} {blocks : List β}
  {w w' : World β π kind.Value} {P : Partition β} {p : π} {b c t mBlk : β} {v : kind.Value} {n : ℕ}

/-- A held block is allocated. -/
theorem Inv.mem_allocated (h : Inv kind value blocks w P) (hb : (p, b) ∈ w.held) :
  b ∈ P.allocated
  := h.shared.held.mem_iff.mp (List.mem_map_of_mem hb)

/-- An allocated block is one of the pool. -/
theorem Inv.mem_blocks (h : Inv kind value blocks w P) (hb : b ∈ P.allocated) :
  b ∈ blocks
  := h.shared.blocks.mem_iff.mp (List.mem_append_right P.free hb)

theorem Inv.blockCount_eq (h : Inv kind value blocks w P) :
  w.pool.blockCount = blocks.length
  := by
  rw [← h.shared.represents.block_count, h.shared.blocks.length_eq]

/-- An allocated block is on the allocated list. -/
theorem Inv.onAllocatedList (h : Inv kind value blocks w P) (hb : b ∈ P.allocated) :
  OnAllocatedList w.pool b
  := ⟨P.allocated, h.shared.represents.allocated_chain, hb⟩

/-- The head of the list is a block on the way to one that the caller holds and that stores the
value. -/
theorem Inv.read_head (h : Inv kind value blocks w P) (hholds : Holds kind value w p v) :
  ∃ t c, (p, t) ∈ w.held ∧ value t = v ∧ w.pool.allocatedList = some c ∧ c ∈ P.allocated ∧
    (c = t ∨ Walk P.allocated 1 blocks.length t c)
  := by
  obtain ⟨⟨_, t⟩, ht, heq⟩ := List.mem_map.mp hholds
  obtain ⟨rfl, rfl⟩ := Prod.mk.inj heq
  have hlen := h.shared.represents.allocated_length_le
  rw [h.blockCount_eq] at hlen
  obtain ⟨c, hhead, hc, hwalk⟩ :=
    Walk.first h.shared.represents.allocated_chain (h.mem_allocated ht) hlen
  exact ⟨t, c, ht, rfl, hhead, hc, hwalk⟩

/-- The link of a block at which a search stands is a block further along the way. -/
theorem Inv.read_next (h : Inv kind value blocks w P) (hsearch : w.search p = .visiting v mBlk n) :
  n < blocks.length ∧ ∃ t c, (p, t) ∈ w.held ∧ value t = v ∧ w.pool.sleNext mBlk = some c ∧
    c ∈ P.allocated ∧ (c = t ∨ Walk P.allocated (n + 1) blocks.length t c)
  := by
  have hcourse := h.search p
  rw [hsearch] at hcourse
  obtain ⟨t, ht, hv, hwalk⟩ := hcourse
  obtain ⟨hn, c, hnext, hc, hwalk⟩ := hwalk.forward h.shared.represents.allocated_chain
  exact ⟨hn, t, c, ht, hv, hnext, hc, hwalk⟩

/-- A block that a search has found is one that the caller holds and that stores the value. -/
theorem Inv.found (h : Inv kind value blocks w P) (hsearch : w.search p = .found v mBlk) :
  (p, mBlk) ∈ w.held ∧ value mBlk = v
  := by
  have hcourse := h.search p
  rw [hsearch] at hcourse
  apply hcourse

/-- While all searches are on course every step is safe. -/
theorem Inv.safe [DecidableEq β] (h : Inv kind value blocks w P) (a : Action π kind.Value) :
  Safe kind value w a
  := by
  cases a with
  | get p => trivial
  | head p v =>
      simp only [Safe]
      split
      · intro hholds
        obtain ⟨t, c, -, -, hhead, hc, -⟩ := h.read_head hholds
        exact ⟨c, hhead, h.onAllocatedList hc⟩
      · trivial
  | next p =>
      simp only [Safe]
      split
      · rename_i hsearch
        obtain ⟨hn, t, c, -, -, hnext, hc, -⟩ := h.read_next hsearch
        rw [h.blockCount_eq]
        exact ⟨hn, c, hnext, h.onAllocatedList hc⟩
      · trivial
  | free p =>
      simp only [Safe]
      split
      · rename_i mBlk hsearch
        obtain ⟨hheld, hv⟩ := h.found hsearch
        have hmem := h.mem_allocated hheld
        obtain ⟨pool', hfree, hrep⟩ := memFreeSharedBlock_release h.shared.represents hmem
        exact ⟨h.onAllocatedList hmem, hheld, hv, pool', hfree, P, hmem, h.shared.represents, hrep⟩
      · trivial

/-- A read of a pointer to the target of a search, or to a block on the way there, keeps all
searches on course. -/
theorem Inv.read [DecidableEq π] (h : Inv kind value blocks w P)
    (hdistinguishable : Distinguishable kind value blocks) (ht : (p, t) ∈ w.held) (hv : value t = v)
    (hc : c ∈ P.allocated) (hwalk : c = t ∨ Walk P.allocated n blocks.length t c) :
  Inv kind value blocks (ResourceSearch.read kind value w p v n (some c)) P
  := by
  use h.shared
  intro q
  by_cases hq : q = p
  · subst hq
    simp only [ResourceSearch.read, Function.update_self]
    apply OnCourse.visit hdistinguishable (h.mem_blocks (h.mem_allocated ht)) (h.mem_blocks hc) ht hv
      hwalk
  · simp only [ResourceSearch.read, Function.update_of_ne hq]
    apply h.search q

variable [DecidableEq β] [DecidableEq π]

/-- A pass of the get function keeps all searches on course. -/
theorem step_get (h : Inv kind value blocks w P)
    (hstep : step kind value w (.get p) = some w') :
  ∃ P', Inv kind value blocks w' P'
  := by
  simp only [step] at hstep
  split at hstep
  · rcases hfree : P.free with _ | ⟨b, free⟩
    · rw [SharedPool.step_get_empty h.shared hfree p, Option.map_some] at hstep
      cases hstep
      exact ⟨P, h⟩
    · obtain ⟨s, hs, hheld, hshared⟩ := SharedPool.step_get_allocate h.shared hfree p
      rw [hs, Option.map_some] at hstep
      cases hstep
      use P.allocate hfree, hshared
      intro q
      rw [hheld]
      apply (h.search q).get p b
  · cases hstep

/-- The release of a block at which no search stands keeps all searches on course. -/
theorem step_free (h : Inv kind value blocks w P) (hquiet : Undisturbed kind w (.free p))
    (hstep : step kind value w (.free p) = some w') :
  ∃ P', Inv kind value blocks w' P'
  := by
  simp only [step] at hstep
  split at hstep
  · rename_i v mBlk hsearch
    simp only [Undisturbed, hsearch] at hquiet
    obtain ⟨hheld, -⟩ := h.found hsearch
    obtain ⟨pool', hmem, hfree, hshared⟩ := h.shared.release hheld
    rw [hfree, Option.map_some] at hstep
    cases hstep
    use P.release hmem, hshared
    intro q
    by_cases hq : q = p
    · subst hq
      simp only [Function.update_self]
      trivial
    · simp only [Function.update_of_ne hq]
      apply (h.search q).free h.shared.held_nodup hheld hq (hquiet q)
  · cases hstep

/-- Every undisturbed step keeps all searches on course. -/
theorem step_inv {a : Action π kind.Value} (hdistinguishable : Distinguishable kind value blocks)
    (h : ∃ P, Inv kind value blocks w P) (hquiet : Undisturbed kind w a)
    (hstep : step kind value w a = some w') :
  ∃ P, Inv kind value blocks w' P
  := by
  obtain ⟨P, h⟩ := h
  cases a with
  | get p => apply step_get h hstep
  | head p v =>
      simp only [step] at hstep
      split at hstep
      · split at hstep
        · rename_i hholds
          cases hstep
          obtain ⟨t, c, ht, hv, hhead, hc, hwalk⟩ := h.read_head hholds
          use P
          rw [hhead]
          apply h.read hdistinguishable ht hv hc hwalk
        · cases hstep
      · cases hstep
  | next p =>
      simp only [step] at hstep
      split at hstep
      · rename_i hsearch
        cases hstep
        obtain ⟨-, t, c, ht, hv, hnext, hc, hwalk⟩ := h.read_next hsearch
        use P
        rw [hnext]
        apply h.read hdistinguishable ht hv hc hwalk
      · cases hstep
  | free p => apply step_free h hquiet hstep

/-- The reads of a search that nothing interrupts lead to the first block that it finds. -/
theorem run_next {l : List β} {cur : Option β} (hchain : Chain w.pool.sleNext cur l)
    (hsearch : w.search p = visit kind value v n cur)
    (hfind : l.find? (fun b => kind.found v (value b)) = some b) :
  ∃ k w', run (step kind value) w (List.replicate k (.next p)) = some w' ∧
    w'.toWorld = w.toWorld ∧ w'.search p = .found v b
  := by
  induction l generalizing cur n w with
  | nil => cases hfind
  | cons a l ih =>
      obtain ⟨rfl, hchain⟩ := hchain
      rw [visit] at hsearch
      cases hfound : kind.found v (value a) with
      | true =>
          simp only [List.find?_cons, hfound] at hfind
          cases hfind
          rw [if_pos hfound] at hsearch
          exact ⟨0, w, rfl, rfl, hsearch⟩
      | false =>
          simp only [List.find?_cons, hfound] at hfind
          rw [if_neg (by simp [hfound])] at hsearch
          have hstep : step kind value w (.next p)
              = some (read kind value w p v (n + 1) (w.pool.sleNext a)) := by
            simp only [step, hsearch]
          obtain ⟨k, w', hrun, hworld, hsearch'⟩ :=
            ih (w := read kind value w p v (n + 1) (w.pool.sleNext a)) hchain
              (Function.update_self ..) hfind
          use k + 1, w'
          rw [List.replicate_succ, run_cons, hstep, Option.bind_some]
          exact ⟨hrun, hworld, hsearch'⟩

/-- A search that nothing interrupts does what the free function does. -/
theorem run_search (h : SharedPool.Inv blocks w.toWorld P) (hidle : w.search p = .idle)
    (hholds : Holds kind value w p v) :
  ∃ k w', run (step kind value) w (.head p v :: (List.replicate k (.next p) ++ [.free p])) = some w' ∧
    CachedResource.freeInterface kind value w.pool v = some (0, w'.pool) ∧ w'.search p = .idle
  := by
  obtain ⟨b, hfind⟩ : ∃ b, P.allocated.find? (fun b => kind.found v (value b)) = some b := by
    obtain ⟨⟨_, t⟩, ht, heq⟩ := List.mem_map.mp hholds
    obtain ⟨rfl, rfl⟩ := Prod.mk.inj heq
    apply CachedResource.exists_find? kind value
    apply h.held.mem_iff.mp (List.mem_map_of_mem ht)
  have hhead : step kind value w (.head p v)
      = some (read kind value w p v 1 w.pool.allocatedList) := by
    simp only [step, hidle, if_pos hholds]
  obtain ⟨k, w₁, hrun, hworld, hsearch⟩ :=
    run_next (w := read kind value w p v 1 w.pool.allocatedList)
      h.represents.allocated_chain (Function.update_self ..) hfind
  obtain ⟨pool', hfree, -⟩ := memFreeSharedBlock_release h.represents (List.mem_of_find?_eq_some hfind)
  have hpool : w₁.pool = w.pool := congrArg SharedPool.World.pool hworld
  have hlast : step kind value w₁ (.free p) = some
      { pool := pool'
        held := w₁.held.erase (p, b)
        search := Function.update w₁.search p .idle } := by
    simp only [step, hsearch, hpool, hfree, Option.map_some]
  use k, { pool := pool', held := w₁.held.erase (p, b), search := Function.update w₁.search p .idle }
  refine ⟨?_, ?_, Function.update_self ..⟩
  · rw [run_cons, hhead, Option.bind_some, run_append, hrun, Option.bind_some, run_cons, hlast]
    rfl
  · rw [CachedResource.freeInterface_eq, CachedResource.freeCached,
      find_chain h.represents.allocated_chain h.represents.allocated_length_le, hfind]
    simp only [hfree, Option.map_some]

/-- On a pool whose blocks are distinguishable, in every interleaving of the steps of any
processes in which no block is freed while a search stands at it, every step is safe: searches
visit blocks on the allocated list only, at most as many as the pool has, get to the block of
their caller, and free it while it is on the allocated list. -/
theorem search_safe {pool : Pool β} (h : Represents pool P) (hallocated : P.allocated = [])
    (hdistinguishable : Distinguishable kind value P.blocks) {schedule : List (Action π kind.Value)}
    (hquiet : AllSteps (step kind value) (Undisturbed kind) ⟨⟨pool, []⟩, fun _ => .idle⟩ schedule) :
  AllSteps (step kind value) (Safe kind value) ⟨⟨pool, []⟩, fun _ => .idle⟩ schedule
  := by
  have hinit : ∃ Q, Inv (π := π) kind value P.blocks ⟨⟨pool, []⟩, fun _ => .idle⟩ Q := by
    refine ⟨P, ⟨h, List.Perm.refl _, ?_⟩, fun _ => trivial⟩
    rw [hallocated]
    apply List.Perm.refl
  apply allSteps_of_invariant (step_inv hdistinguishable) _ hinit hquiet
  rintro w a ⟨Q, hw⟩ -
  apply hw.safe a

end Runs

/-- The descriptors three and four. -/
def pairDescs (b : Bool) : Int32 :=
  if b then 4 else 3

/-- Two processes, no block of `pairPool` taken, and no search going on. -/
def pairWorld : World Bool Bool Int32 :=
  ⟨⟨pairPool, []⟩, fun _ => .idle⟩

/-- A process searches past the block of another one, which frees it afterwards. -/
theorem search_safe_in_turn :
  AllSteps (step .desc pairDescs) (Safe .desc pairDescs) pairWorld
    [.get false, .get true, .head false (pairDescs false), .next false, .free false,
      .head true (pairDescs true), .free true]
  := by
  apply search_safe pairPool_represents rfl
  · rintro (_ | _) - (_ | _) - hfound
    · rfl
    · cases hfound
    · cases hfound
    · rfl
  · apply AllSteps.cons trivial rfl
    apply AllSteps.cons trivial rfl
    apply AllSteps.cons trivial rfl
    apply AllSteps.cons trivial rfl
    apply AllSteps.cons _ rfl
    · apply AllSteps.cons trivial rfl
      refine AllSteps.cons ?_ rfl trivial
      rintro (_ | _) hstands
      · cases hstands
      · cases hstands
    · rintro (_ | _) hstands
      · cases hstands
      · cases hstands

/-- A process frees the block at which the search of another one stands, and that search then
reads null before it got to its block. -/
theorem search_unsafe_freed :
  ¬ AllSteps (step .desc pairDescs) (Safe .desc pairDescs) pairWorld
    [.get false, .get true, .head false (pairDescs false), .head true (pairDescs true),
      .free true, .next false]
  := by
  rintro ⟨-, h⟩
  obtain ⟨-, h⟩ := h _ rfl
  obtain ⟨-, h⟩ := h _ rfl
  obtain ⟨-, h⟩ := h _ rfl
  obtain ⟨-, h⟩ := h _ rfl
  obtain ⟨⟨-, b, hb, -⟩, -⟩ := h _ rfl
  cases hb

end ResourceSearch
