import Nextgen.Lib.Bytes
import Nextgen.Memory.Pool

/-!
# Cached resources

The resources that `resource.c` keeps in shared pools.  Each block of a pool stores one
resource, a descriptor, a socket or a path: a `get_*_cached` function takes a block and
returns the value it stores, and a `free_*_cached` function searches the allocated list for
the first block whose value matches the one it is given, and frees that block.  The kinds of
resources differ in how they match values.

A call of a free function is precise when it frees the block of a value that is handed out,
and no block otherwise.  Along every sequence of calls the calls are precise as long as no
path matches a path it merely starts with.
-/

universe u v

open Bytes ListUpdate SList SharedPool Transition

namespace CachedResource

/-! ### The functions of the cache -/

section Functions

variable {β : Type u} {V : Type v} [DecidableEq β]

/-- The loop of the `free_*_cached` functions: the first block on the allocated list whose value
is found to match is freed.  The functions return zero in any case. -/
def freeCached (found : V → Bool) (value : β → V) (pool : Pool β) : Option (Int32 × Pool β) :=
  match find pool.sleNext (fun mBlk => found (value mBlk)) pool.blockCount pool.allocatedList with
  | none => some (0, pool)
  | some mBlk => (memFreeSharedBlock (some mBlk) pool).map fun pool => (0, pool)

/-- `free_filepath_cached` compares as many bytes as the stored path has. -/
def freeFilepathCached (value : β → CString) (pool : Pool β) (path : CString) :
    Option (Int32 × Pool β) :=
  freeCached (fun filepath => memcmp path.memory filepath.memory filepath.strlen = 0) value pool

/-- `free_mountpath_cached` -/
def freeMountpathCached (value : β → CString) (pool : Pool β) (path : CString) :
    Option (Int32 × Pool β) :=
  freeCached (fun dirpath => strcmp path.memory dirpath.memory = 0) value pool

/-- `free_dirpath_cached` -/
def freeDirpathCached (value : β → CString) (pool : Pool β) (path : CString) :
    Option (Int32 × Pool β) :=
  freeCached (fun dirpath => strcmp path.memory dirpath.memory = 0) value pool

/-- `free_socket_cached` -/
def freeSocketCached (value : β → Int32) (pool : Pool β) (sockFd : Int32) :
    Option (Int32 × Pool β) :=
  freeCached (fun sock => sock = sockFd) value pool

/-- `free_desc_cached` -/
def freeDescCached (value : β → Int32) (pool : Pool β) (fd : Int32) : Option (Int32 × Pool β) :=
  freeCached (fun desc => fd = desc) value pool

/-- The `get_*_cached` functions, with one pass through the loop of `memGetSharedBlock`: they
return the value that the block they get stores.  With no block the loop goes on, so that the
functions never return for want of a block. -/
def getCached (value : β → V) (pool : Pool β) : Option (Option V × Pool β) :=
  (memGetSharedBlock pool).map fun (mBlk, pool) => (mBlk.map value, pool)

/-- `get_filepath_cached` -/
def getFilepathCached (value : β → CString) (pool : Pool β) : Option (Option CString × Pool β) :=
  getCached value pool

/-- `get_mountpath_cached` -/
def getMountpathCached (value : β → CString) (pool : Pool β) : Option (Option CString × Pool β) :=
  getCached value pool

/-- `get_dirpath_cached` -/
def getDirpathCached (value : β → CString) (pool : Pool β) : Option (Option CString × Pool β) :=
  getCached value pool

/-- `get_socket_cached` -/
def getSocketCached (value : β → Int32) (pool : Pool β) : Option (Option Int32 × Pool β) :=
  getCached value pool

/-- `get_desc_cached` -/
def getDescCached (value : β → Int32) (pool : Pool β) : Option (Option Int32 × Pool β) :=
  getCached value pool

end Functions

/-- The kinds of resources. -/
inductive Kind where
  | desc
  | socket
  | mountpath
  | dirpath
  | filepath

/-- What the blocks of a kind store. -/
def Kind.Value : Kind → Type
  | .desc => Int32
  | .socket => Int32
  | .mountpath => CString
  | .dirpath => CString
  | .filepath => CString

instance Kind.decidableEqValue : (kind : Kind) → DecidableEq kind.Value
  | .desc => inferInstanceAs (DecidableEq Int32)
  | .socket => inferInstanceAs (DecidableEq Int32)
  | .mountpath => inferInstanceAs (DecidableEq CString)
  | .dirpath => inferInstanceAs (DecidableEq CString)
  | .filepath => inferInstanceAs (DecidableEq CString)

section Interface

variable {β : Type u} [DecidableEq β]

/-- The get function of a kind. -/
def getInterface : (kind : Kind) → (β → kind.Value) → Pool β → Option (Option kind.Value × Pool β)
  | .desc => getDescCached
  | .socket => getSocketCached
  | .mountpath => getMountpathCached
  | .dirpath => getDirpathCached
  | .filepath => getFilepathCached

/-- The free function of a kind. -/
def freeInterface :
    (kind : Kind) → (β → kind.Value) → Pool β → kind.Value → Option (Int32 × Pool β)
  | .desc => freeDescCached
  | .socket => freeSocketCached
  | .mountpath => freeMountpathCached
  | .dirpath => freeDirpathCached
  | .filepath => freeFilepathCached

theorem getInterface_eq (kind : Kind) (value : β → kind.Value) (pool : Pool β) :
  getInterface kind value pool = getCached value pool
  := by
  cases kind <;> rfl

/-- Whether the free function of a kind takes a stored value for the one it is given. -/
def Kind.found : (kind : Kind) → kind.Value → kind.Value → Bool
  | .desc, fd, stored => decide (fd = stored)
  | .socket, sockFd, stored => decide (stored = sockFd)
  | .mountpath, path, stored => decide (strcmp (CString.memory path) (CString.memory stored) = 0)
  | .dirpath, path, stored => decide (strcmp (CString.memory path) (CString.memory stored) = 0)
  | .filepath, path, stored =>
      decide (memcmp (CString.memory path) (CString.memory stored) (CString.strlen stored) = 0)

theorem freeInterface_eq (kind : Kind) (value : β → kind.Value) (pool : Pool β) (v : kind.Value) :
  freeInterface kind value pool v = freeCached (kind.found v) value pool
  := by
  cases kind <;> rfl

/-- A stored value that the free function takes for the one it is given only if it is: the
functions compare whole values, but for the one of file paths, which takes every stored path
that the given one starts with. -/
def Kind.Clear : (kind : Kind) → kind.Value → kind.Value → Prop
  | .filepath, path, stored => CString.bytes stored <+: CString.bytes path → stored = path
  | _, _, _ => True

theorem Kind.clear_iff :
  ∀ (kind : Kind) (v stored : kind.Value), kind.Clear v stored ↔ (kind.found v stored → stored = v)
  | .desc, v, stored => by
      use fun _ hfound => (of_decide_eq_true hfound).symm
      apply fun _ => trivial
  | .socket, v, stored => by
      use fun _ hfound => of_decide_eq_true hfound
      apply fun _ => trivial
  | .mountpath, v, stored => by
      use fun _ hfound => ((strcmp_memory_iff v stored).mp (of_decide_eq_true hfound)).symm
      apply fun _ => trivial
  | .dirpath, v, stored => by
      use fun _ hfound => ((strcmp_memory_iff v stored).mp (of_decide_eq_true hfound)).symm
      apply fun _ => trivial
  | .filepath, v, stored => by
      constructor
      · intro hclear hfound
        apply hclear ((memcmp_memory_iff v stored).mp (of_decide_eq_true hfound))
      · intro hequal hprefix
        apply hequal (decide_eq_true ((memcmp_memory_iff v stored).mpr hprefix))

/-- A stored value that is the one given is found. -/
theorem Kind.found_self :
  ∀ (kind : Kind) (v : kind.Value), kind.found v v
  | .desc, _ => decide_eq_true rfl
  | .socket, _ => decide_eq_true rfl
  | .mountpath, v => decide_eq_true ((strcmp_memory_iff v v).mpr rfl)
  | .dirpath, v => decide_eq_true ((strcmp_memory_iff v v).mpr rfl)
  | .filepath, v => decide_eq_true ((memcmp_memory_iff v v).mpr List.prefix_rfl)

end Interface

/-! ### Search and release -/

section Release

variable {β : Type u} {V : Type v} {pool pool' : Pool β} {P : Partition β} {b : β}

/-- The second pool is the first with one block moved from the allocated to the free list. -/
def Releases [DecidableEq β] (pool pool' : Pool β) (b : β) : Prop :=
  ∃ (P : Partition β) (hb : b ∈ P.allocated), Represents pool P ∧ Represents pool' (P.release hb)

variable [DecidableEq β]

/-- A pool that a release leaves has the block at the head of its free list. -/
theorem Releases.freeList_eq (h : Releases pool pool' b) :
  pool'.freeList = some b
  := by
  obtain ⟨P, hb, -, hrep⟩ := h
  apply hrep.free_chain.head_eq

/-- A release changes the pool. -/
theorem Releases.ne (h : Releases pool pool' b) :
  pool' ≠ pool
  := by
  rintro rfl
  obtain ⟨P, hb, hrep, hrep'⟩ := h
  have hfree : P.free = b :: P.free := hrep.free_chain.unique hrep'.free_chain
  apply List.cons_ne_self b P.free hfree.symm

variable {found : V → Bool} {value : β → V}

/-- When no allocated block is found, a free function changes nothing. -/
theorem freeCached_none (h : Represents pool P)
    (hfind : P.allocated.find? (fun b => found (value b)) = none) :
  freeCached found value pool = some (0, pool)
  := by
  rw [freeCached, find_chain h.allocated_chain h.allocated_length_le, hfind]

/-- The first allocated block that is found is released. -/
theorem freeCached_some (h : Represents pool P)
    (hfind : P.allocated.find? (fun b => found (value b)) = some b) :
  ∃ pool', freeCached found value pool = some (0, pool') ∧
    Represents pool' (P.release (List.mem_of_find?_eq_some hfind))
  := by
  obtain ⟨pool', hfree, hrep⟩ := memFreeSharedBlock_release h (List.mem_of_find?_eq_some hfind)
  use pool'
  rw [freeCached, find_chain h.allocated_chain h.allocated_length_le, hfind]
  simp only [hfree, Option.map_some, true_and]
  apply hrep

/-- The block that a free function releases is the first one found. -/
theorem find?_of_releases (h : Represents pool P)
    (hfree : freeCached found value pool = some (0, pool')) (hreleases : Releases pool pool' b) :
  P.allocated.find? (fun b => found (value b)) = some b
  := by
  cases hfind : P.allocated.find? (fun b => found (value b)) with
  | none =>
      rw [freeCached_none h hfind] at hfree
      cases hfree
      cases hreleases.ne rfl
  | some c =>
      obtain ⟨pool₁, hfree₁, hrep⟩ := freeCached_some h hfind
      rw [hfree₁] at hfree
      cases hfree
      rw [← hreleases.freeList_eq]
      apply hrep.free_chain.head_eq.symm

/-- A free function that changes nothing found no block. -/
theorem find?_of_unchanged (h : Represents pool P)
    (hfree : freeCached found value pool = some (0, pool)) :
  P.allocated.find? (fun b => found (value b)) = none
  := by
  cases hfind : P.allocated.find? (fun b => found (value b)) with
  | none => rfl
  | some c =>
      obtain ⟨pool₁, hfree₁, hrep⟩ := freeCached_some h hfind
      rw [hfree₁] at hfree
      cases hfree
      cases Releases.ne ⟨P, _, h, hrep⟩ rfl

end Release

/-! ### Sequences of calls -/

/-- The pool of a kind, and the values handed out and not freed since. -/
structure World (β : Type u) (V : Type v) where
  pool : Pool β
  held : List V

/-- A call of the get function or of the free function. -/
inductive Action (V : Type v) where
  | get
  | free (v : V)

section Calls

variable {β : Type u} (kind : Kind) (value : β → kind.Value)

/-- One call.  The get function does not return while no block is free. -/
def step [DecidableEq β] (w : World β kind.Value) :
    Action kind.Value → Option (World β kind.Value)
  | .get =>
      (getInterface kind value w.pool).bind fun (v, pool) => v.map fun v => ⟨pool, v :: w.held⟩
  | .free v => (freeInterface kind value w.pool v).map fun (_, pool) => ⟨pool, w.held.erase v⟩

/-- Freeing a value that is handed out releases the block that stores it, and freeing any other
value leaves the pool as it is. -/
def Precise [DecidableEq β] (w : World β kind.Value) : Action kind.Value → Prop
  | .get => True
  | .free v =>
      (v ∈ w.held → ∃ b pool', value b = v ∧
        freeInterface kind value w.pool v = some (0, pool') ∧ Releases w.pool pool' b) ∧
      (v ∉ w.held → freeInterface kind value w.pool v = some (0, w.pool))

/-- The value to be freed is not confused with that of a block ahead of its own on the allocated
list, or with that of any block if none on the list stores it. -/
def Unconfused (w : World β kind.Value) : Action kind.Value → Prop
  | .get => True
  | .free v => ∀ ahead b rest,
      Chain w.pool.sleNext w.pool.allocatedList (ahead ++ b :: rest) →
      (∀ c ∈ ahead, value c ≠ v) → kind.Clear v (value b)

/-- The blocks are partitioned in free and allocated ones, and the values handed out are those
of the allocated ones. -/
structure Inv (blocks : List β) (w : World β kind.Value) (P : Partition β) : Prop where
  represents : Represents w.pool P
  blocks : P.blocks.Perm blocks
  held : w.held.Perm (P.allocated.map value)

variable {kind value}

/-- The first block that is found stores the value searched for exactly when no block up to it
is confused. -/
theorem find?_value_iff_clear {l : List β} {v : kind.Value} :
  (∀ b, l.find? (fun b => kind.found v (value b)) = some b → value b = v) ↔
    ∀ ahead b rest, l = ahead ++ b :: rest → (∀ c ∈ ahead, value c ≠ v) →
      kind.Clear v (value b)
  := by
  induction l with
  | nil => simp
  | cons a l ih =>
      cases hfound : kind.found v (value a) with
      | true =>
          simp only [List.find?_cons, hfound, Option.some.injEq, forall_eq']
          constructor
          · rintro ha (_ | ⟨a', ahead⟩) b rest heq hahead
            · obtain ⟨rfl, rfl⟩ := List.cons.inj heq
              apply (kind.clear_iff _ _).mpr
              intro _
              apply ha
            · obtain ⟨rfl, -⟩ := List.cons.inj heq
              cases hahead a List.mem_cons_self ha
          · intro hclear
            apply (kind.clear_iff _ _).mp (hclear [] a l rfl (by simp)) hfound
      | false =>
          simp only [List.find?_cons, hfound]
          rw [ih]
          have hne : value a ≠ v := by
            rintro rfl
            rw [kind.found_self] at hfound
            cases hfound
          constructor
          · rintro hclear (_ | ⟨a', ahead⟩) b rest heq hahead
            · obtain ⟨rfl, rfl⟩ := List.cons.inj heq
              apply (kind.clear_iff _ _).mpr
              rw [hfound]
              intro h
              cases h
            · obtain ⟨rfl, rfl⟩ := List.cons.inj heq
              apply hclear ahead b rest rfl
              intro c hc
              apply hahead c (List.mem_cons_of_mem a hc)
          · intro hclear ahead b rest heq hahead
            apply hclear (a :: ahead) b rest (by rw [heq, List.cons_append])
            intro c hc
            rcases List.mem_cons.mp hc with rfl | hc
            · apply hne
            · apply hahead c hc

/-- The search for a value that a block of a list stores finds a block. -/
theorem exists_find? (kind : Kind) (value : β → kind.Value) {l : List β} {t : β} (ht : t ∈ l) :
  ∃ b, l.find? (fun b => kind.found (value t) (value b)) = some b
  := by
  apply Option.isSome_iff_exists.mp
  apply List.find?_isSome.mpr
  use t, ht
  apply kind.found_self

variable {blocks : List β} {w w' : World β kind.Value} {P : Partition β} {v : kind.Value}

/-- A value is handed out if and only if an allocated block stores it. -/
theorem Inv.mem_held_iff (h : Inv kind value blocks w P) :
  v ∈ w.held ↔ ∃ b ∈ P.allocated, value b = v
  := by
  rw [h.held.mem_iff, List.mem_map]

/-- The values handed out are pairwise distinct when those of the blocks are. -/
theorem Inv.held_nodup (h : Inv kind value blocks w P) (hdistinct : (blocks.map value).Nodup) :
  w.held.Nodup
  := by
  apply h.held.nodup_iff.mpr
  have hblocks : (P.blocks.map value).Nodup := (h.blocks.map value).nodup_iff.mpr hdistinct
  rw [Partition.blocks, List.map_append] at hblocks
  apply hblocks.of_append_right

variable [DecidableEq β]

/-- A free function is precise if and only if the first block it finds stores the value. -/
theorem precise_free_iff (h : Inv kind value blocks w P) :
  Precise kind value w (.free v) ↔
    ∀ b, P.allocated.find? (fun b => kind.found v (value b)) = some b → value b = v
  := by
  simp only [Precise, freeInterface_eq]
  constructor
  · rintro ⟨hheld, hother⟩ b hfind
    by_cases hv : v ∈ w.held
    · obtain ⟨c, pool', hc, hfree, hreleases⟩ := hheld hv
      rw [find?_of_releases h.represents hfree hreleases] at hfind
      cases hfind
      apply hc
    · rw [find?_of_unchanged h.represents (hother hv)] at hfind
      cases hfind
  · intro hfirst
    constructor
    · intro hv
      obtain ⟨t, ht, rfl⟩ := h.mem_held_iff.mp hv
      obtain ⟨b, hb⟩ := exists_find? kind value ht
      obtain ⟨pool', hfree, hrep⟩ := freeCached_some h.represents hb
      exact ⟨b, pool', hfirst b hb, hfree, P, _, h.represents, hrep⟩
    · intro hv
      apply freeCached_none h.represents
      apply Option.eq_none_iff_forall_ne_some.mpr
      intro b hb
      apply hv (h.mem_held_iff.mpr _)
      exact ⟨b, List.mem_of_find?_eq_some hb, hfirst b hb⟩

/-- A call is precise if and only if its value is not confused with another. -/
theorem precise_iff_unconfused (h : Inv kind value blocks w P) (a : Action kind.Value) :
  Precise kind value w a ↔ Unconfused kind value w a
  := by
  cases a with
  | get => rfl
  | free v =>
      rw [precise_free_iff h, find?_value_iff_clear, Unconfused]
      constructor
      · intro hclear ahead b rest hchain
        apply hclear ahead b rest (h.represents.allocated_chain.unique hchain)
      · intro hclear ahead b rest heq
        apply hclear ahead b rest
        rw [← heq]
        apply h.represents.allocated_chain

/-- A precise call keeps the invariant. -/
theorem step_inv {a : Action kind.Value} (h : ∃ P, Inv kind value blocks w P)
    (hprecise : Precise kind value w a) (hstep : step kind value w a = some w') :
  ∃ P, Inv kind value blocks w' P
  := by
  obtain ⟨P, h⟩ := h
  cases a with
  | get =>
      simp only [step, getInterface_eq, getCached] at hstep
      rcases hfree : P.free with _ | ⟨b, free⟩
      · simp [memGetSharedBlock_empty h.represents hfree] at hstep
      · obtain ⟨pool', hget, hrep⟩ := memGetSharedBlock_allocate h.represents hfree
        simp only [hget, Option.map_some, Option.bind_some, Option.some.injEq] at hstep
        subst hstep
        exact ⟨P.allocate hfree, hrep, (P.allocate_blocks hfree).trans h.blocks, h.held.cons _⟩
  | free v =>
      simp only [step, freeInterface_eq] at hstep
      have hfirst := (precise_free_iff h).mp hprecise
      cases hfind : P.allocated.find? (fun b => kind.found v (value b)) with
      | none =>
          simp only [freeCached_none h.represents hfind, Option.map_some, Option.some.injEq] at hstep
          subst hstep
          use P, h.represents, h.blocks
          rw [List.erase_of_not_mem]
          · apply h.held
          · intro hv
            obtain ⟨t, ht, rfl⟩ := h.mem_held_iff.mp hv
            obtain ⟨b, hb⟩ := exists_find? kind value ht
            cases hfind.symm.trans hb
      | some b =>
          obtain rfl := hfirst b hfind
          have hb := List.mem_of_find?_eq_some hfind
          obtain ⟨pool', hfree, hrep⟩ := freeCached_some h.represents hfind
          simp only [hfree, Option.map_some, Option.some.injEq] at hstep
          subst hstep
          use P.release hb, hrep, (P.release_blocks hb).trans h.blocks
          apply (h.held.erase (value b)).trans
          apply (map_erase_perm value hb).symm

/-- Along every sequence of calls on a pool whose blocks store pairwise distinct values, the
values handed out are pairwise distinct and every call is precise, if and only if no call is
given a value that is confused with another. -/
theorem cached_precise_iff {pool : Pool β} (h : Represents pool P) (hfree : P.allocated = [])
    (hdistinct : (P.blocks.map value).Nodup) (calls : List (Action kind.Value)) :
  AllStates (step kind value) (fun w => w.held.Nodup) ⟨pool, []⟩ calls ∧
      AllSteps (step kind value) (Precise kind value) ⟨pool, []⟩ calls ↔
    AllSteps (step kind value) (Unconfused kind value) ⟨pool, []⟩ calls
  := by
  have hinit : ∃ Q, Inv kind value P.blocks ⟨pool, []⟩ Q := by
    use P, h, List.Perm.refl P.blocks
    rw [hfree]
    apply List.Perm.refl
  have hmeet : ∀ {w a}, (∃ Q, Inv kind value P.blocks w Q) →
      (Precise kind value w a ↔ Unconfused kind value w a) := by
    rintro w a ⟨Q, hw⟩
    apply precise_iff_unconfused hw a
  rw [← allSteps_iff_of_invariant step_inv hmeet hinit calls]
  constructor
  · rintro ⟨-, hprecise⟩
    apply hprecise
  · intro hprecise
    refine ⟨?_, hprecise⟩
    apply allStates_of_invariant step_inv _ hinit hprecise
    rintro w ⟨Q, hw⟩
    apply hw.held_nodup hdistinct

end Calls

/-- A pool of two free blocks. -/
def pairPool : Pool Bool where
  blockSize := 8
  blockCount := 2
  freeList := some false
  allocatedList := none
  ptr _ := none
  sleNext b := if b then none else some true

/-- The partition of `pairPool`. -/
def pairPartition : Partition Bool where
  free := [false, true]
  allocated := []
  nodup := by decide

theorem pairPool_represents :
  Represents pairPool pairPartition
  := ⟨⟨rfl, rfl, rfl⟩, rfl, rfl⟩

/-- The paths `/a` and `/b`. -/
def siblingPaths (b : Bool) : CString :=
  if b then ⟨[47, 98], by simp⟩ else ⟨[47, 97], by simp⟩

/-- Two paths neither of which starts with the other are freed precisely. -/
theorem cached_precise_siblings :
  AllStates (step .filepath siblingPaths) (fun w => w.held.Nodup) ⟨pairPool, []⟩
      [.get, .get, .free (siblingPaths false)] ∧
    AllSteps (step .filepath siblingPaths) (Precise .filepath siblingPaths) ⟨pairPool, []⟩
      [.get, .get, .free (siblingPaths false)]
  := by
  apply (cached_precise_iff pairPool_represents rfl (by decide) _).mpr
  have hclear : ∀ b, Kind.filepath.Clear (siblingPaths false) (siblingPaths b) := by
    rintro (_ | _) hprefix
    · rfl
    · have hno : ¬ (siblingPaths true).bytes <+: (siblingPaths false).bytes := by decide
      cases hno hprefix
  refine ⟨trivial, fun _ _ => ⟨trivial, fun _ _ => ⟨?_, fun _ _ => trivial⟩⟩⟩
  intro ahead b rest _ _
  apply hclear b

/-- The paths `/ab` and `/a`. -/
def nestedPaths (b : Bool) : CString :=
  if b then ⟨[47, 97], by simp⟩ else ⟨[47, 97, 98], by simp⟩

/-- Freeing the path `/ab` frees the block of `/a`. -/
theorem cached_not_precise_nested :
  ¬ AllSteps (step .filepath nestedPaths) (Precise .filepath nestedPaths) ⟨pairPool, []⟩
      [.get, .get, .free (nestedPaths false)]
  := by
  rintro ⟨-, hget⟩
  obtain ⟨-, hget⟩ := hget _ rfl
  obtain ⟨⟨hheld, -⟩, -⟩ := hget _ rfl
  obtain ⟨b, pool', hb, hfree, hreleases⟩ := hheld (List.mem_cons_of_mem _ List.mem_cons_self)
  have hlist := hreleases.freeList_eq
  cases hfree
  cases hlist
  have hne : nestedPaths true ≠ nestedPaths false := by decide
  apply hne hb

end CachedResource
