import Mathlib.Data.Int.Notation
import Nextgen.Lib.Heap
import Nextgen.Lib.SList
import Nextgen.Runtime.Modules

/-!
# Cleaning the file pool

`clean_file_pool` takes the lock of the pool and walks along its allocated list.  For each block
it unlinks the file and releases the path, the resource context and the block.  The macro of the
loop reads the link of the loop variable after the body, which the last of these releases has set
to `NULL`.  A file that cannot be unlinked makes the function return with the lock.
-/

universe u

open SList

namespace CleanPool

/-- A file pool in memory.  A block and a resource context both have a field `ptr`. -/
structure State (β P : Type u) where
  heap : Heap β
  /-- The lock is taken, by nobody who is going to release it. -/
  locked : Bool
  allocatedList : Option β
  sleNext : β → Option β
  blockPtr : β → Option β
  resourcePtr : β → Option β
  text : β → P
  /-- The paths that were unlinked. -/
  unlinked : List P

/-- A block of the allocated list, its resource context and the memory of its path. -/
structure File (β : Type u) where
  block : β
  resource : β
  path : β

def File.addresses {β : Type u} (f : File β) : List β := [f.block, f.resource, f.path]

/-- A file pool with the files of its allocated list, no two of which share memory. -/
structure FilePool (β P : Type u) extends State β P where
  files : List (File β)
  chain : Chain sleNext allocatedList (files.map File.block)
  blockPtr_eq : ∀ f ∈ files, blockPtr f.block = some f.resource
  resourcePtr_eq : ∀ f ∈ files, resourcePtr f.resource = some f.path
  nodup : (files.flatMap File.addresses).Nodup
  live : ∀ b ∈ files.flatMap File.addresses, b ∈ heap.live

variable {β P : Type u} [DecidableEq β]

/-! ### The functions -/

/-- Read a field of the object that a pointer points to. -/
def load (h : Heap β) (field : β → Option β) (object : Option β) :
    Except Heap.Fault (Option β) := do
  let _ ← h.access object
  return object.bind field

/-- The loop of `clean_allocated_file_list`, given which calls of `unlink` succeed, for at most a
number of iterations.  The two fields that are set to `NULL` go away with their objects. -/
def walk (unlinks : ℕ → Bool) :
    ℕ → ℕ → Option β → State β P → Except Heap.Fault (Option (ℤ × State β P))
  | 0, _, _, _ => .ok none
  | _ + 1, _, none, s => .ok (some (0, s))
  | fuel + 1, i, some mBlk, s => do
      let resource ← load s.heap s.blockPtr (some mBlk)
      let path ← load s.heap s.resourcePtr resource
      if unlinks i && path.any (· ∈ s.heap.live) then
        let heap ← s.heap.freeField resource path
        let heap ← heap.freeField (some mBlk) resource
        let heap ← heap.free (some mBlk)
        -- `m_blk` has been set to `NULL`
        let next ← load heap s.sleNext none
        walk unlinks fuel (i + 1) next
          { s with
            heap := heap
            unlinked := path.toList.map s.text ++ s.unlinked }
      else return some (-1, s)

/-- `clean_allocated_file_list`, given whether `get_default_allocator` succeeds. -/
def cleanAllocatedFileList (allocator : Bool) (unlinks : ℕ → Bool) (s : State β P) :
    Except Heap.Fault (Option (ℤ × State β P)) :=
  if !allocator then .ok (some (-1, s))
  else walk unlinks (s.heap.obtained.length + 1) 0 s.allocatedList s

/-- `clean_file_pool`, with no result if it waits for the lock forever.  `mem_clean_shared_pool`
does nothing. -/
def cleanFilePool (allocator : Bool) (unlinks : ℕ → Bool) (pool : Option (State β P)) :
    Except Heap.Fault (Option (ℤ × Option (State β P))) :=
  match pool with
  | none => .ok (some (-1, none))
  | some s =>
      if s.locked then .ok none
      else do
        let s := { s with locked := true }
        let cleaned ←
          if s.allocatedList.isSome then cleanAllocatedFileList allocator unlinks s
          else .ok (some (0, s))
        return cleaned.map fun (rtrn, s) =>
          if rtrn < 0 then (-1, some s) else (0, some { s with locked := false })

/-! ### What they should do -/

/-- The function returns without the lock.  If it returns zero then the files of the allocated
list are unlinked, their memory is released, and only live blocks are on the list. -/
def Cleans (pool : FilePool β P) (cleaned : Except Heap.Fault (Option (ℤ × Option (State β P)))) :
    Prop :=
  ∃ rtrn s, cleaned = .ok (some (rtrn, some s)) ∧ s.locked = false ∧
    (rtrn = 0 →
      (∀ f ∈ pool.files, pool.text f.path ∈ s.unlinked ∧ ∀ b ∈ f.addresses, b ∉ s.heap.live) ∧
      ∀ bs, Chain s.sleNext s.allocatedList bs → ∀ b ∈ bs, b ∈ s.heap.live)

/-! ### One iteration -/

theorem load_of_mem {h : Heap β} {b : β} (field : β → Option β) (hb : b ∈ h.live) :
  load h field (some b) = .ok (field b)
  := by
  rw [load, Heap.access_bind hb]
  rfl

/-- The loop returns at the first file or reads a link through the null pointer. -/
theorem walk_of_mem (pool : FilePool β P) {f : File β} (hf : f ∈ pool.files) {s : State β P}
    (hheap : s.heap = pool.heap) (hblockPtr : s.blockPtr = pool.blockPtr)
    (hresourcePtr : s.resourcePtr = pool.resourcePtr) (unlinks : ℕ → Bool) (fuel i : ℕ) :
  walk unlinks (fuel + 1) i (some f.block) s =
    if unlinks i then .error .null else .ok (some (-1, s))
  := by
  have hmem : ∀ b ∈ f.addresses, b ∈ s.heap.live := by
    intro b hb
    rw [hheap]
    exact pool.live b (List.mem_flatMap.mpr ⟨f, hf, hb⟩)
  have hblock : f.block ∈ s.heap.live := hmem _ (by simp [File.addresses])
  have hresource : f.resource ∈ s.heap.live := hmem _ (by simp [File.addresses])
  have hpath : f.path ∈ s.heap.live := hmem _ (by simp [File.addresses])
  have hnodup : f.addresses.Nodup := (List.nodup_flatMap.mp pool.nodup).1 f hf
  obtain ⟨⟨hne₁, hne₂⟩, hne₃⟩ : (f.block ≠ f.resource ∧ f.block ≠ f.path) ∧ f.resource ≠ f.path := by
    simpa [File.addresses] using hnodup
  rw [walk, load_of_mem _ hblock, hblockPtr, pool.blockPtr_eq f hf]
  show (do
    let path ← load s.heap s.resourcePtr (some f.resource)
    _) = _
  rw [load_of_mem _ hresource, hresourcePtr, pool.resourcePtr_eq f hf]
  show (if (unlinks i && decide (f.path ∈ s.heap.live)) = true then _ else _) = _
  rw [decide_eq_true hpath, Bool.and_true]
  cases hunlink : unlinks i with
  | false => rfl
  | true =>
      obtain ⟨h₁, hfree₁, -, hlive₁⟩ := Heap.freeField_of_mem hresource hpath hne₃
      have hblock₁ : f.block ∈ h₁.live := (hlive₁ _).mpr ⟨hne₂, hblock⟩
      have hresource₁ : f.resource ∈ h₁.live := (hlive₁ _).mpr ⟨hne₃, hresource⟩
      obtain ⟨h₂, hfree₂, -, hlive₂⟩ := Heap.freeField_of_mem hblock₁ hresource₁ hne₁
      obtain ⟨h₃, hfree₃, -⟩ := Heap.free_of_mem ((hlive₂ _).mpr ⟨hne₁, hblock₁⟩)
      rw [hfree₁]
      show (h₁.freeField (some f.block) (some f.resource)).bind _ = _
      rw [hfree₂]
      show (h₂.free (some f.block)).bind _ = _
      rw [hfree₃]
      rfl

/-! ### The whole call -/

/-- What the call comes to: it waits for the lock, has nothing to do, returns with the lock, or
reads through the null pointer. -/
theorem cleanFilePool_eq (pool : FilePool β P) (allocator : Bool) (unlinks : ℕ → Bool) :
  cleanFilePool allocator unlinks (some pool.toState) =
    if pool.locked then .ok none
    else if pool.files = [] then .ok (some (0, some { pool.toState with locked := false }))
    else if allocator && unlinks 0 then .error .null
    else .ok (some (-1, some { pool.toState with locked := true }))
  := by
  rw [cleanFilePool]
  cases hlocked : pool.locked with
  | true => rfl
  | false =>
      have hhead := pool.chain.head_eq
      cases hfiles : pool.files with
      | nil =>
          rw [hfiles] at hhead
          simp only [hhead]
          rfl
      | cons f files =>
          rw [hfiles] at hhead
          have hwalk := walk_of_mem pool (f := f) (by simp [hfiles])
            (s := { pool.toState with locked := true }) rfl rfl rfl unlinks
            pool.heap.obtained.length 0
          cases allocator with
          | false =>
              simp only [hhead]
              rfl
          | true =>
              simp only [hhead, List.map_cons, List.head?_cons, Option.isSome_some, if_true,
                cleanAllocatedFileList, Bool.not_true, Bool.false_eq_true, if_false] at hwalk ⊢
              rw [hwalk]
              cases unlinks 0 <;> rfl

/-- The file pool is cleaned if and only if there is nothing to clean. -/
theorem cleans_cleanFilePool_iff (pool : FilePool β P) (allocator : Bool) (unlinks : ℕ → Bool) :
  Cleans pool (cleanFilePool allocator unlinks (some pool.toState)) ↔
    pool.locked = false ∧ pool.files = []
  := by
  rw [cleanFilePool_eq]
  cases hlocked : pool.locked with
  | true =>
      apply iff_of_false
      · rintro ⟨rtrn, s, hcleaned, -⟩
        cases hcleaned
      · rintro ⟨⟨⟩, -⟩
  | false =>
      by_cases hfiles : pool.files = []
      · apply iff_of_true _ ⟨rfl, hfiles⟩
        rw [if_neg Bool.false_ne_true, if_pos hfiles]
        refine ⟨0, _, rfl, rfl, ?_⟩
        have hchain := pool.chain
        rw [hfiles] at hchain
        intro _
        constructor
        · rw [hfiles]
          rintro f ⟨⟩
        · intro bs hbs
          cases Chain.unique hbs hchain
          rintro b ⟨⟩
      · apply iff_of_false _ fun hempty => hfiles hempty.2
        rw [if_neg Bool.false_ne_true, if_neg hfiles]
        rintro ⟨rtrn, s, hcleaned, hunlocked, -⟩
        split at hcleaned
        · cases hcleaned
        · cases hcleaned
          cases hunlocked

/-- A pool with one file. -/
def oneFile : FilePool ℕ String where
  heap := ⟨[0, 1, 2], [0, 1, 2], by decide, List.Sublist.refl _⟩
  locked := false
  allocatedList := some 0
  sleNext _ := none
  blockPtr _ := some 1
  resourcePtr _ := some 2
  text _ := "/tmp/file.txt"
  unlinked := []
  files := [⟨0, 1, 2⟩]
  chain := ⟨rfl, rfl⟩
  blockPtr_eq := by simp
  resourcePtr_eq := by simp
  nodup := by decide
  live := by decide

/-- With the file unlinked a link is read through the null pointer, without that the function
returns with the lock. -/
theorem not_cleans_oneFile :
  ¬ Cleans oneFile (cleanFilePool true (fun _ => true) (some oneFile.toState)) ∧
  ¬ Cleans oneFile (cleanFilePool true (fun _ => false) (some oneFile.toState))
  := by
  constructor
  · rintro ⟨rtrn, s, hcleaned, -⟩
    have hfault : cleanFilePool true (fun _ => true) (some oneFile.toState) = .error .null := rfl
    cases hfault.symm.trans hcleaned
  · rintro ⟨rtrn, s, hcleaned, hunlocked, -⟩
    have hreturned : cleanFilePool true (fun _ => false) (some oneFile.toState) =
        .ok (some (-1, some { oneFile.toState with locked := true })) := rfl
    cases hreturned.symm.trans hcleaned
    cases hunlocked

/-- The clean-up of the module `resource` sees of the call whether it succeeds, and the lock. -/
theorem cleanFilePool_modules (pool : FilePool β P) (unlinks : ℕ → Bool) :
  (match cleanFilePool true unlinks (some pool.toState) with
    | .ok (some (rtrn, s)) =>
        some (decide (rtrn = 0), s.map fun s => (⟨s.locked⟩ : Modules.Resource.Pool))
    | _ => none) =
  Modules.Resource.cleanFilePool (some ⟨pool.locked⟩) (!pool.files.isEmpty) (unlinks 0)
  := by
  rw [cleanFilePool_eq, Bool.true_and]
  cases hlocked : pool.locked with
  | true => rfl
  | false =>
      cases hfiles : pool.files with
      | nil => rfl
      | cons f files => cases hunlink : unlinks 0 <;> rfl

end CleanPool
