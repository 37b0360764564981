import Nextgen.Lib.ListUpdate
import Nextgen.Lib.SList
import Nextgen.Lib.Transition
import Mathlib.Data.List.Perm.Basic
import Mathlib.Data.List.Lattice

/-!
# The shared memory pool

The pool of `memory.c`: blocks of shared memory, each with one `sle_next` link, on two
singly linked lists `free_list` and `allocated_list`.  `memCreateSharedPool` maps the
blocks and puts them on the free list, one pass of `memGetSharedBlock` moves the first
free block to the allocated list, and `memFreeSharedBlock` moves a block back.

`Partition` is what the pool is for: the blocks in two lists without a common block.  A
pool represents a partition when the chains of its two lists are the lists of the
partition, and the two operations refine those of the partition.  `step` runs the
operations of any number of processes, each section under the lock as one step.
-/

universe u v

open ListUpdate SList Transition

namespace SharedPool

variable {β : Type u}

/-! ### The pool and its operations -/

/-- `struct mem_pool_shared` with the `ptr` and `sle_next` fields of the memory blocks. -/
structure Pool (β : Type u) where
  blockSize : ℕ
  blockCount : ℕ
  freeList : Option β
  allocatedList : Option β
  ptr : β → Option β
  sleNext : β → Option β

/-- The system call `mmap` for anonymous shared memory: given the mapped addresses, it
fails or maps an address that is not mapped yet. -/
structure Mmap (β : Type u) where
  map : List β → Option β
  fresh : ∀ {mapped : List β} {a : β}, map mapped = some a → a ∉ mapped

/-- What `memCreateSharedPool` maps: the pool, a memory block, or the memory a block
points to. -/
inductive Mapping (β : Type u) where
  | pool (a : β)
  | block (a : β)
  | data (a : β)

/-- The address of a mapping. -/
def Mapping.address : Mapping β → β
  | .pool a => a
  | .block a => a
  | .data a => a

/-- The memory block a mapping created. -/
def Mapping.block? : Mapping β → Option β
  | .block a => some a
  | _ => none

/-- The memory blocks of a list of mappings. -/
def blocksOf (mappings : List (Mapping β)) : List β :=
  mappings.filterMap Mapping.block?

/-- The addresses mapped before the call and by the call. -/
def addresses (mapped : List β) (mappings : List (Mapping β)) : List β :=
  mappings.map Mapping.address ++ mapped

/-- The loop of `mem_create_shared_pool`: map a block and its memory, and insert the block
at the head of the free list. -/
def createBlocks [DecidableEq β] (mmap : Mmap β) (mapped : List β) :
    ℕ → Pool β → List (Mapping β) → Option (Pool β) × List (Mapping β)
  | 0, pool, mappings => (some pool, mappings)
  | count + 1, pool, mappings =>
      match mmap.map (addresses mapped mappings) with
      | none => (none, mappings)
      | some block =>
          match mmap.map (addresses mapped (.block block :: mappings)) with
          | none => (none, .block block :: mappings)
          | some data =>
              let (next, free) := insertHead pool.sleNext pool.freeList block
              createBlocks mmap mapped count
                { pool with
                  freeList := free
                  ptr := Function.update pool.ptr block (some data)
                  sleNext := next }
                (.data data :: .block block :: mappings)

/-- `mem_create_shared_pool`, with the mappings it made. -/
def memCreateSharedPool [DecidableEq β] (mmap : Mmap β) (mapped : List β) (blockSize blockCount : ℕ) :
    Option (Pool β) × List (Mapping β) :=
  if blockSize = 0 then (none, [])
  else if blockCount = 0 then (none, [])
  else
    match mmap.map mapped with
    | none => (none, [])
    | some pool =>
        createBlocks mmap mapped blockCount
          { blockSize := blockSize
            blockCount := blockCount
            freeList := none
            allocatedList := none
            ptr := fun _ => none
            sleNext := fun _ => none }
          [.pool pool]

/-- One pass through the loop of `mem_get_shared_block`, from taking the lock to releasing
it: the block it returns, or `none` when the free list is empty and the loop goes on. -/
def memGetSharedBlock [DecidableEq β] (pool : Pool β) : Option (Option β × Pool β) :=
  match pool.freeList with
  | none => some (none, pool)
  | some block => do
      let (next, free) ← remove pool.blockCount pool.sleNext pool.freeList block
      let (next, allocated) := insertHead next pool.allocatedList block
      some (some block,
        { pool with freeList := free, allocatedList := allocated, sleNext := next })

/-- `mem_free_shared_block`: a null block is refused, any other is unlinked from the
allocated list and inserted at the head of the free list. -/
def memFreeSharedBlock [DecidableEq β] (block : Option β) (pool : Pool β) : Option (Pool β) :=
  match block with
  | none => some pool
  | some block => do
      let (next, allocated) ← remove pool.blockCount pool.sleNext pool.allocatedList block
      let (next, free) := insertHead next pool.freeList block
      some { pool with freeList := free, allocatedList := allocated, sleNext := next }

/-! ### Partitions -/

/-- The blocks of a pool in two lists, the free and the allocated ones, each block once. -/
structure Partition (β : Type u) where
  free : List β
  allocated : List β
  nodup : (free ++ allocated).Nodup

namespace Partition

theorem free_nodup (P : Partition β) :
  P.free.Nodup
  := P.nodup.of_append_left

theorem allocated_nodup (P : Partition β) :
  P.allocated.Nodup
  := P.nodup.of_append_right

theorem disjoint (P : Partition β) :
  P.free.Disjoint P.allocated
  := List.disjoint_of_nodup_append P.nodup

/-- The blocks of a partition. -/
def blocks (P : Partition β) : List β :=
  P.free ++ P.allocated

/-- Move a block between the two lists; both ends keep the blocks the partition has. -/
def move (P : Partition β) (free allocated : List β) (h : (free ++ allocated).Perm P.blocks) :
    Partition β where
  free := free
  allocated := allocated
  nodup := h.nodup_iff.mpr P.nodup

theorem move_blocks {P : Partition β} {free allocated : List β}
    (h : (free ++ allocated).Perm P.blocks) :
  (P.move free allocated h).blocks.Perm P.blocks
  := h

/-- Allocate the first free block. -/
def allocate (P : Partition β) {b : β} {free : List β} (h : P.free = b :: free) :
    Partition β :=
  P.move free (b :: P.allocated) (by
    rw [blocks, h]
    apply List.perm_middle)

/-- Free an allocated block. -/
def release [DecidableEq β] (P : Partition β) {b : β} (h : b ∈ P.allocated) : Partition β :=
  P.move (b :: P.free) (P.allocated.erase b) (by
    apply List.perm_middle.symm.trans
    apply List.Perm.append_left
    apply (List.perm_cons_erase h).symm)

theorem allocate_blocks (P : Partition β) {b : β} {free : List β} (h : P.free = b :: free) :
  (P.allocate h).blocks.Perm P.blocks
  := move_blocks _

theorem release_blocks [DecidableEq β] (P : Partition β) {b : β} (h : b ∈ P.allocated) :
  (P.release h).blocks.Perm P.blocks
  := move_blocks _

end Partition

/-- The chains from the two lists of the pool are the two lists of the partition, which has
as many blocks as the pool. -/
structure Represents (pool : Pool β) (P : Partition β) : Prop where
  free_chain : Chain pool.sleNext pool.freeList P.free
  allocated_chain : Chain pool.sleNext pool.allocatedList P.allocated
  block_count : P.blocks.length = pool.blockCount

section Refinement

variable {pool : Pool β} {P : Partition β}

theorem Represents.free_length_le (h : Represents pool P) :
  P.free.length ≤ pool.blockCount
  := by
  rw [← h.block_count, Partition.blocks, List.length_append]
  omega

theorem Represents.allocated_length_le (h : Represents pool P) :
  P.allocated.length ≤ pool.blockCount
  := by
  rw [← h.block_count, Partition.blocks, List.length_append]
  omega

variable [DecidableEq β]

/-- With no free block a pass of `memGetSharedBlock` leaves the pool as it is. -/
theorem memGetSharedBlock_empty (h : Represents pool P) (hfree : P.free = []) :
  memGetSharedBlock pool = some (none, pool)
  := by
  have hhead : pool.freeList = none := by
    rw [h.free_chain.head_eq, hfree]
    rfl
  simp only [memGetSharedBlock, hhead]

/-- With a free block a pass of `memGetSharedBlock` returns the first one, and the pool then
represents the partition with that block allocated. -/
theorem memGetSharedBlock_allocate (h : Represents pool P) {b : β} {free : List β}
    (hfree : P.free = b :: free) :
  ∃ pool', memGetSharedBlock pool = some (some b, pool') ∧ Represents pool' (P.allocate hfree)
  := by
  have hhead : pool.freeList = some b := by
    rw [h.free_chain.head_eq, hfree]
    rfl
  have hmem : b ∈ P.free := by
    rw [hfree]
    apply List.mem_cons_self
  obtain ⟨next, head, hremove, hchain, hchain'⟩ :=
    move_chain h.free_chain h.allocated_chain P.disjoint hmem h.free_length_le
  rw [hfree, List.erase_cons_head] at hchain
  rw [hhead] at hremove
  simp only [memGetSharedBlock, hhead, hremove, Option.bind_eq_bind, Option.bind_some]
  refine ⟨_, rfl, hchain, hchain', ?_⟩
  rw [(P.allocate_blocks hfree).length_eq, h.block_count]

/-- Freeing an allocated block succeeds, and the pool then represents the partition with
that block free. -/
theorem memFreeSharedBlock_release (h : Represents pool P) {b : β} (hb : b ∈ P.allocated) :
  ∃ pool', memFreeSharedBlock (some b) pool = some pool' ∧ Represents pool' (P.release hb)
  := by
  obtain ⟨next, head, hremove, hchain, hchain'⟩ :=
    move_chain h.allocated_chain h.free_chain P.disjoint.symm hb h.allocated_length_le
  simp only [memFreeSharedBlock, hremove, Option.bind_eq_bind, Option.bind_some]
  refine ⟨_, rfl, hchain', hchain, ?_⟩
  rw [(P.release_blocks hb).length_eq, h.block_count]

end Refinement

/-! ### Creation -/

section Creation

variable {mmap : Mmap β} {mapped : List β}

theorem mem_addresses_of_mem_blocksOf {mappings : List (Mapping β)} {b : β}
    (hb : b ∈ blocksOf mappings) :
  b ∈ addresses mapped mappings
  := by
  obtain ⟨m, hm, hmb⟩ := List.mem_filterMap.mp hb
  apply List.mem_append_left
  apply List.mem_map.mpr
  use m, hm
  cases m with
  | block a => apply Option.some.inj hmb
  | pool a => cases hmb
  | data a => cases hmb

variable [DecidableEq β]

/-- When the loop of `memCreateSharedPool` returns a pool, its free list holds the blocks
mapped so far, the last one first, and it has mapped as many blocks as it was to. -/
theorem createBlocks_spec {count : ℕ} {pool pool' : Pool β} {mappings mappings' : List (Mapping β)}
    (hcreate : createBlocks mmap mapped count pool mappings = (some pool', mappings'))
    (hchain : Chain pool.sleNext pool.freeList (blocksOf mappings)) :
  Chain pool'.sleNext pool'.freeList (blocksOf mappings') ∧
    (blocksOf mappings').length = (blocksOf mappings).length + count ∧
    pool'.allocatedList = pool.allocatedList ∧ pool'.blockCount = pool.blockCount
  := by
  induction count generalizing pool mappings with
  | zero =>
      cases hcreate
      exact ⟨hchain, rfl, rfl, rfl⟩
  | succ count ih =>
      simp only [createBlocks] at hcreate
      split at hcreate
      · cases hcreate
      · rename_i block hblock
        split at hcreate
        · cases hcreate
        · have hfresh : block ∉ blocksOf mappings := by
            intro hmem
            apply mmap.fresh hblock (mem_addresses_of_mem_blocksOf hmem)
          obtain ⟨hchain', hlen, hallocated, hcount⟩ := ih hcreate (insertHead_chain hchain hfresh)
          refine ⟨hchain', ?_, hallocated, hcount⟩
          simp only [blocksOf, List.filterMap_cons, Mapping.block?, List.length_cons] at hlen ⊢
          omega

/-- A pool that `memCreateSharedPool` returns represents the partition in which all the
blocks it mapped are free, and there are as many of them as asked for. -/
theorem memCreateSharedPool_spec {blockSize blockCount : ℕ} {pool : Pool β}
    {mappings : List (Mapping β)}
    (h : memCreateSharedPool mmap mapped blockSize blockCount = (some pool, mappings)) :
  (blocksOf mappings).length = blockCount ∧
    ∃ P, Represents pool P ∧ P.free = blocksOf mappings ∧ P.allocated = []
  := by
  simp only [memCreateSharedPool] at h
  split at h
  · cases h
  · split at h
    · cases h
    · split at h
      · cases h
      · obtain ⟨hchain, hlen, hallocated, hcount⟩ := createBlocks_spec h rfl
        have hlength : (blocksOf mappings).length = blockCount := by
          rw [hlen]
          apply Nat.zero_add
        use hlength, ⟨blocksOf mappings, [], by simpa using hchain.nodup⟩
        refine ⟨⟨hchain, hallocated, ?_⟩, rfl, rfl⟩
        rw [Partition.blocks, List.append_nil, hlength, hcount]

end Creation

/-! ### Processes -/

/-- The pool, and which process holds which block. -/
structure World (β : Type u) (π : Type v) where
  pool : Pool β
  held : List (π × β)

/-- A section of the pool under its lock: process `p` makes a pass of `memGetSharedBlock`,
or process `p` frees the block `b` that process `q` holds. -/
inductive Action (β : Type u) (π : Type v) where
  | get (p : π)
  | free (p q : π) (b : β)

section Processes

variable {π : Type v}

/-- The blocks are partitioned in free and allocated ones, and the allocated ones are those
held. -/
structure Inv (blocks : List β) (w : World β π) (P : Partition β) : Prop where
  represents : Represents w.pool P
  blocks : P.blocks.Perm blocks
  held : (w.held.map Prod.snd).Perm P.allocated

variable {blocks : List β} {w : World β π} {P : Partition β}

/-- With fewer blocks held than the pool has, some block is free. -/
theorem Inv.free_ne_nil (h : Inv blocks w P) (hheld : w.held.length < blocks.length) :
  P.free ≠ []
  := by
  intro hfree
  have hblocks := h.blocks.length_eq
  have hallocated := h.held.length_eq
  simp only [Partition.blocks, hfree, List.nil_append, List.length_map] at hblocks hallocated
  omega

/-- A held block is held by one process, once. -/
theorem Inv.held_nodup (h : Inv blocks w P) :
  (w.held.map Prod.snd).Nodup
  := h.held.nodup_iff.mpr P.allocated_nodup

variable [DecidableEq β] [DecidableEq π]

/-- A block that a pass of `memGetSharedBlock` returns is held from then on by the process
that made the pass; only a held block may be freed. -/
def step (w : World β π) : Action β π → Option (World β π)
  | .get p =>
      (memGetSharedBlock w.pool).map fun (block, pool) =>
        match block with
        | none => { w with pool := pool }
        | some b => ⟨pool, (p, b) :: w.held⟩
  | .free _ q b =>
      if (q, b) ∈ w.held then
        (memFreeSharedBlock (some b) w.pool).map fun pool => ⟨pool, w.held.erase (q, b)⟩
      else none

/-- A pass of `memGetSharedBlock` with no free block changes nothing. -/
theorem step_get_empty (h : Inv blocks w P) (hfree : P.free = []) (p : π) :
  step w (.get p) = some w
  := by
  simp only [step, memGetSharedBlock_empty h.represents hfree, Option.map_some]

/-- A pass of `memGetSharedBlock` with a free block hands the first one to the caller. -/
theorem step_get_allocate (h : Inv blocks w P) {b : β} {free : List β}
    (hfree : P.free = b :: free) (p : π) :
  ∃ w', step w (.get p) = some w' ∧ w'.held = (p, b) :: w.held ∧ Inv blocks w' (P.allocate hfree)
  := by
  obtain ⟨pool', hget, hrep⟩ := memGetSharedBlock_allocate h.represents hfree
  simp only [step, hget, Option.map_some]
  refine ⟨_, rfl, rfl, hrep, (P.allocate_blocks hfree).trans h.blocks, ?_⟩
  apply h.held.cons

/-- Freeing a held block takes it from its holder. -/
theorem Inv.release (h : Inv blocks w P) {q : π} {b : β} (hb : (q, b) ∈ w.held) :
  ∃ pool' hmem, memFreeSharedBlock (some b) w.pool = some pool' ∧
    Inv blocks ⟨pool', w.held.erase (q, b)⟩ (P.release (b := b) hmem)
  := by
  have hmem : b ∈ P.allocated := by
    apply h.held.mem_iff.mp
    apply List.mem_map_of_mem hb
  obtain ⟨pool', hfree, hrep⟩ := memFreeSharedBlock_release h.represents hmem
  refine ⟨pool', hmem, hfree, hrep, (P.release_blocks hmem).trans h.blocks, ?_⟩
  apply (map_erase_perm Prod.snd hb).trans
  apply h.held.erase

/-- A held block may be freed. -/
theorem step_free_release (h : Inv blocks w P) {q : π} {b : β} (hb : (q, b) ∈ w.held) (p : π) :
  ∃ w' P', step w (.free p q b) = some w' ∧ Inv blocks w' P'
  := by
  obtain ⟨pool', hmem, hfree, hinv⟩ := h.release hb
  simp only [step, hb, ↓reduceIte, hfree, Option.map_some]
  exact ⟨_, _, rfl, hinv⟩

/-- Every section under the lock keeps the partition. -/
theorem step_inv {a : Action β π} {w' : World β π}
    (h : ∃ P, Inv blocks w P) (hstep : step w a = some w') :
  ∃ P, Inv blocks w' P
  := by
  obtain ⟨P, h⟩ := h
  cases a with
  | get p =>
      rcases hfree : P.free with _ | ⟨b, free⟩
      · rw [step_get_empty h hfree] at hstep
        cases hstep
        use P
      · obtain ⟨w₁, hw₁, -, h₁⟩ := step_get_allocate h hfree p
        rw [hw₁] at hstep
        cases hstep
        use P.allocate hfree
  | free p q b =>
      by_cases hb : (q, b) ∈ w.held
      · obtain ⟨w₁, P₁, hw₁, h₁⟩ := step_free_release h hb p
        rw [hw₁] at hstep
        cases hstep
        use P₁
      · simp only [step, hb, ↓reduceIte, reduceCtorEq] at hstep

/-- For every pool of `n` blocks that `memCreateSharedPool` returns and every interleaving
of the sections of `memGetSharedBlock` and `memFreeSharedBlock` by any processes: the chains
of the two lists are disjoint and together the blocks created, each once; a held block is on
the allocated list and has one holder; with fewer than `n` blocks held a pass of
`memGetSharedBlock` returns a block; and no section of an operation that may be called runs
into a null pointer. -/
theorem memSharedPool_partition {mmap : Mmap β} {mapped : List β} {blockSize n : ℕ}
    {pool : Pool β} {mappings : List (Mapping β)}
    (hcreate : memCreateSharedPool mmap mapped blockSize n = (some pool, mappings))
    {schedule : List (Action β π)} {w : World β π}
    (hrun : run step ⟨pool, []⟩ schedule = some w) :
  (blocksOf mappings).length = n ∧ (blocksOf mappings).Nodup ∧
    ∃ free allocated : List β,
      Chain w.pool.sleNext w.pool.freeList free ∧
      Chain w.pool.sleNext w.pool.allocatedList allocated ∧
      free.Nodup ∧ allocated.Nodup ∧ free.Disjoint allocated ∧
      (free ++ allocated).Perm (blocksOf mappings) ∧
      (∀ p b, (p, b) ∈ w.held → b ∈ allocated ∧ ∀ q, (q, b) ∈ w.held → q = p) ∧
      w.held.Nodup ∧
      (w.held.length < n → ∃ b pool', memGetSharedBlock w.pool = some (some b, pool')) ∧
      (∀ p, ∃ w', step w (.get p) = some w') ∧
      ∀ p q b, (q, b) ∈ w.held → ∃ w', step w (.free p q b) = some w'
  := by
  obtain ⟨hlength, P₀, hrep, hfree, hallocated⟩ := memCreateSharedPool_spec hcreate
  have hinit : ∃ P, Inv (π := π) (blocksOf mappings) ⟨pool, []⟩ P := by
    use P₀
    refine ⟨hrep, ?_, ?_⟩
    · rw [Partition.blocks, hfree, hallocated, List.append_nil]
    · rw [hallocated]
      apply List.Perm.refl
  obtain ⟨P, h⟩ := run_invariant_of_step step_inv hinit hrun
  have hnodup : (blocksOf mappings).Nodup := h.blocks.nodup_iff.mp P.nodup
  refine ⟨hlength, hnodup, P.free, P.allocated, h.represents.free_chain,
    h.represents.allocated_chain, P.free_nodup, P.allocated_nodup, P.disjoint, h.blocks,
    ?_, h.held_nodup.of_map _, ?_, ?_, ?_⟩
  · intro p b hb
    constructor
    · apply h.held.mem_iff.mp
      apply List.mem_map_of_mem hb
    · intro q hq
      apply congrArg Prod.fst (List.inj_on_of_nodup_map h.held_nodup hq hb rfl)
  · intro hheld
    rw [← hlength] at hheld
    obtain ⟨b, free, hbf⟩ := List.exists_cons_of_ne_nil (h.free_ne_nil hheld)
    obtain ⟨pool', hget, -⟩ := memGetSharedBlock_allocate h.represents hbf
    use b, pool'
  · intro p
    rcases hbf : P.free with _ | ⟨b, free⟩
    · use w
      apply step_get_empty h hbf
    · obtain ⟨w', hw', -⟩ := step_get_allocate h hbf p
      use w'
  · intro p q b hb
    obtain ⟨w', -, hw', -⟩ := step_free_release h hb p
    use w'

end Processes

/-- A system call that maps addresses in increasing order. -/
def increasingMmap : Mmap ℕ where
  map mapped := some (mapped.foldr max 0 + 1)
  fresh := by
    intro mapped a h ha
    cases h
    have hle : ∀ l : List ℕ, ∀ x ∈ l, x ≤ l.foldr max 0 := by
      intro l x hx
      induction l with
      | nil => cases hx
      | cons y l ih =>
          rw [List.foldr_cons]
          rcases List.mem_cons.mp hx with rfl | hx
          · apply Nat.le_max_left
          · apply Nat.le_trans (ih hx) (Nat.le_max_right _ _)
    have := hle mapped _ ha
    omega

theorem memSharedPool_partition_two_blocks :
  ∃ pool mappings w,
    memCreateSharedPool increasingMmap [] 8 2 = (some pool, mappings) ∧
    run step ⟨pool, []⟩ [.get 0, .get 1, .free 1 0 4] = some w ∧
    w.held = [((1 : ℕ), 2)] ∧
    ∃ free allocated,
      Chain w.pool.sleNext w.pool.freeList free ∧
      Chain w.pool.sleNext w.pool.allocatedList allocated ∧
      (free ++ allocated).Perm [4, 2]
  := by
  obtain ⟨pool, mappings, hcreate, hpool, hmappings⟩ : ∃ pool mappings,
      memCreateSharedPool increasingMmap [] 8 2 = (some pool, mappings) ∧
      (∃ w, run step ⟨pool, []⟩ [.get 0, .get 1, .free 1 0 4] = some w ∧
        w.held = [((1 : ℕ), 2)]) ∧ blocksOf mappings = [4, 2] :=
    ⟨_, _, rfl, ⟨_, rfl, rfl⟩, rfl⟩
  obtain ⟨w, hrun, hheld⟩ := hpool
  obtain ⟨-, -, free, allocated, hfree, hallocated, -, -, -, hperm, -⟩ :=
    memSharedPool_partition hcreate hrun
  rw [hmappings] at hperm
  exact ⟨pool, mappings, w, hcreate, hrun, hheld, free, allocated, hfree, hallocated, hperm⟩

end SharedPool
