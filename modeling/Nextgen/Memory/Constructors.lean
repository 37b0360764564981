import Nextgen.Concurrent.Epoch
import Nextgen.Lib.Heap
import Nextgen.Memory.Pool
import Nextgen.Syscall.Entry

/-!
# Constructors and their clean-up

`init_thread`, `init_child_context` and `mem_create_shared_pool` with the blocks that they
obtain, use and release.  Each of them obtains its blocks one after the other and returns `NULL`
at the first failure.  The object whose field takes a new block is accessed before the call of
the allocator, since the field is written in any case.
-/

universe u

open Syscall (ARG_LIMIT)

namespace Constructors

variable {β : Type u}

/-- A constructor returns and has released every block that it obtained if it returns `NULL`,
and none of those that its result leads to otherwise. -/
def Undoes {R : Type u} (blocks : R → List β) (h : Heap β)
    (built : Except Heap.Fault (Option R × Heap β)) : Prop :=
  ∃ result h', built = .ok (result, h') ∧
    (result = none → ∀ b ∈ h'.obtained, b ∉ h.obtained → b ∉ h'.live) ∧
    ∀ r, result = some r → ∀ b ∈ blocks r, b ∈ h'.live

/-! ### The constructors -/

/-- `struct thread_ctx`. -/
structure Thread (β : Type u) where
  thread : β
  record : β
  sections : β

def Thread.blocks (t : Thread β) : List β := [t.thread, t.record, t.sections]

/-- `struct child_ctx` with its arrays and their elements. -/
structure Child (β : Type u) where
  child : β
  argValueArray : β
  argSizeArray : β
  argCopyArray : β
  argValues : List β
  argCopies : List β

def Child.blocks (c : Child β) : List β :=
  [c.child, c.argValueArray, c.argSizeArray, c.argCopyArray] ++ (c.argValues ++ c.argCopies)

/-- `struct mem_pool_shared` with its blocks and the memory that they point to. -/
structure Pool (β : Type u) where
  pool : β
  freeList : List (β × β)

def Pool.blocks (p : Pool β) : List β :=
  p.pool :: p.freeList.flatMap fun (block, ptr) => [block, ptr]

section Constructors

variable [DecidableEq β] (a : Allocator β)

/-- `init_thread`. -/
def initThread (h : Heap β) : Except Heap.Fault (Option (Thread β) × Heap β) :=
  match h.alloc a with
  | none => .ok (none, h)
  | some (thread, h) => do
      let h ← h.access (some thread)
      match h.alloc a with
      | none =>
          let h ← h.free (some thread)
          return (none, h)
      | some (record, h) =>
          let h ← h.access (some thread)
          match h.alloc a with
          | none =>
              let h ← h.free (some thread)
              -- `thread` has been set to `NULL`
              let h ← h.freeField none (some record)
              return (none, h)
          | some (sections, h) => return (some ⟨thread, record, sections⟩, h)

/-- The loop of `init_child_context`. -/
def createArgs (child argValueArray argSizeArray argCopyArray : β) :
    ℕ → List β → List β → Heap β → Except Heap.Fault (Option (Child β) × Heap β)
  | 0, argValues, argCopies, h =>
      .ok (some ⟨child, argValueArray, argSizeArray, argCopyArray, argValues, argCopies⟩, h)
  | n + 1, argValues, argCopies, h => do
      let h ← h.access (some child)
      let h ← h.access (some argValueArray)
      match h.alloc a with
      | none =>
          let h ← Heap.freeObject child [argCopyArray, argSizeArray, argValueArray] h
          return (none, h)
      | some (value, h) =>
          let h ← h.access (some child)
          let h ← h.access (some argCopyArray)
          match h.alloc a with
          | none =>
              let h ← Heap.freeObject child [argCopyArray, argSizeArray, argValueArray] h
              return (none, h)
          | some (copy, h) =>
              createArgs child argValueArray argSizeArray argCopyArray n (value :: argValues)
                (copy :: argCopies) h

/-- `init_child_context`. -/
def initChildContext (h : Heap β) : Except Heap.Fault (Option (Child β) × Heap β) :=
  match h.alloc a with
  | none => .ok (none, h)
  | some (child, h) => do
      let h ← h.access (some child)
      match h.alloc a with
      | none =>
          let h ← Heap.freeObject child [] h
          return (none, h)
      | some (argValueArray, h) =>
          let h ← h.access (some child)
          match h.alloc a with
          | none =>
              let h ← Heap.freeObject child [argValueArray] h
              return (none, h)
          | some (argSizeArray, h) =>
              let h ← h.access (some child)
              match h.alloc a with
              | none =>
                  let h ← Heap.freeObject child [argSizeArray, argValueArray] h
                  return (none, h)
              | some (argCopyArray, h) =>
                  createArgs a child argValueArray argSizeArray argCopyArray ARG_LIMIT [] [] h

/-- The loop of `mem_create_shared_pool`. -/
def createBlocks (pool : β) :
    ℕ → List (β × β) → Heap β → Except Heap.Fault (Option (Pool β) × Heap β)
  | 0, freeList, h => .ok (some ⟨pool, freeList⟩, h)
  | n + 1, freeList, h =>
      match h.alloc a with
      | none => .ok (none, h)
      | some (block, h) => do
          let h ← h.access (some block)
          match h.alloc a with
          | none => return (none, h)
          | some (ptr, h) =>
              let h ← h.access (some block)
              let h ← h.access (some pool)
              createBlocks pool n ((block, ptr) :: freeList) h

/-- `mem_create_shared_pool`. -/
def memCreateSharedPool (blockSize blockCount : ℕ) (h : Heap β) :
    Except Heap.Fault (Option (Pool β) × Heap β) :=
  if blockSize = 0 then .ok (none, h)
  else if blockCount = 0 then .ok (none, h)
  else
    match h.alloc a with
    | none => .ok (none, h)
    | some (pool, h) => do
        let h ← h.access (some pool)
        createBlocks a pool blockCount [] h

end Constructors

/-! ### Outcomes -/

section Outcomes

variable {R : Type u} {blocks : R → List β} {h h' : Heap β}
  {built : Except Heap.Fault (Option R × Heap β)}

theorem undoes_of_some {r : R} (hbuilt : built = .ok (some r, h'))
    (hlive : ∀ b ∈ blocks r, b ∈ h'.live) :
  Undoes blocks h built
  := by
  refine ⟨some r, h', hbuilt, nofun, ?_⟩
  intro r' hr
  cases hr
  exact hlive

/-- `NULL` is returned, and some blocks that were obtained are left. -/
theorem undoes_none_iff {bs : List β} (hbuilt : built = .ok (none, h')) (hadds : h.Adds h' bs) :
  Undoes blocks h built ↔ bs = []
  := by
  constructor
  · rintro ⟨result, h'', hbuilt', hnone, -⟩
    cases hbuilt.symm.trans hbuilt'
    apply List.eq_nil_iff_forall_not_mem.mpr
    intro b hb
    have hlive := hadds.mem_live hb
    exact hnone rfl b (h'.live_subset hlive) (hadds.new b hb) hlive
  · rintro rfl
    refine ⟨none, h', hbuilt, ?_, nofun⟩
    intro _ b _ hnew hb
    rcases (hadds.live b).mp hb with hb | hb
    · cases hb
    · exact hnew (h.live_subset hb)

/-- The object that was built so far is released with its fields. -/
theorem exists_freeObject [DecidableEq β] {object : β} (fields bs : List β)
    (hadds : h.Adds h' (bs ++ (fields ++ [object]))) :
  ∃ h'', (do let h ← Heap.freeObject object fields h'; return (none, h)) =
      (.ok (none, h'') : Except Heap.Fault (Option R × Heap β)) ∧ h.Adds h'' bs
  := by
  obtain ⟨h'', hfree, -, hadds'⟩ := hadds.freeObject fields
  refine ⟨h'', ?_, hadds'⟩
  rw [hfree]
  rfl

theorem undoes_freeObject [DecidableEq β] {object : β} (fields : List β)
    (hadds : h.Adds h' (fields ++ [object])) :
  Undoes blocks h (do let h ← Heap.freeObject object fields h'; return (none, h))
  := by
  obtain ⟨h'', hbuilt, hadds'⟩ := exists_freeObject fields [] hadds
  exact (undoes_none_iff hbuilt hadds').mpr rfl

theorem not_undoes_of_fault {fault : Heap.Fault} (hbuilt : built = .error fault) :
  ¬ Undoes blocks h built
  := by
  rintro ⟨result, h', hbuilt', -⟩
  cases hbuilt.symm.trans hbuilt'

end Outcomes

/-! ### `init_thread` -/

section Thread

variable [DecidableEq β] {a : Allocator β}

/-- With less than two blocks `NULL` is returned and nothing is left.  With two of them the
record is released through the null pointer. -/
theorem initThread_cases (a : Allocator β) (h : Heap β) :
  (¬ h.Grants a 2 ∧ (∃ h', initThread a h = .ok (none, h')) ∧
      Undoes Thread.blocks h (initThread a h)) ∨
  (h.Grants a 2 ∧ ¬ h.Grants a 3 ∧ initThread a h = .error .null) ∨
  (h.Grants a 3 ∧ ∃ t h', initThread a h = .ok (some t, h') ∧ ∀ b ∈ t.blocks, b ∈ h'.live)
  := by
  rw [initThread]
  cases halloc₁ : h.alloc a with
  | none =>
      left
      exact ⟨Heap.not_grants halloc₁ 1, ⟨h, rfl⟩, (undoes_none_iff rfl (.refl h)).mpr rfl⟩
  | some x =>
      obtain ⟨thread, h₁⟩ := x
      have hadds₁ := (Heap.Adds.refl h).alloc halloc₁
      simp only [Heap.access_bind (hadds₁.mem_live List.mem_cons_self)]
      rw [Heap.grants_succ halloc₁, Heap.grants_succ halloc₁]
      cases halloc₂ : h₁.alloc a with
      | none =>
          left
          obtain ⟨h', hfree, -⟩ := Heap.free_of_mem (hadds₁.mem_live List.mem_cons_self)
          refine ⟨Heap.not_grants halloc₂ 0, ⟨h', ?_⟩, undoes_freeObject [] hadds₁⟩
          rw [hfree]
          rfl
      | some y =>
          obtain ⟨record, h₂⟩ := y
          have hadds₂ := hadds₁.alloc halloc₂
          have hthread : thread ∈ h₂.live := hadds₂.mem_live (by simp)
          simp only [Heap.access_bind hthread]
          rw [Heap.grants_succ halloc₂, Heap.grants_succ halloc₂]
          right
          cases halloc₃ : h₂.alloc a with
          | none =>
              left
              obtain ⟨h₃, hfree, -⟩ := Heap.free_of_mem hthread
              refine ⟨trivial, Heap.not_grants halloc₃ 0, ?_⟩
              simp only [hfree]
              rfl
          | some z =>
              right
              obtain ⟨sections, h₃⟩ := z
              have hadds₃ := hadds₂.alloc halloc₃
              refine ⟨⟨sections, h₃, halloc₃, trivial⟩, ⟨thread, record, sections⟩, h₃, rfl, ?_⟩
              intro b hb
              exact hadds₃.mem_live (List.mem_reverse.mp hb)

theorem undoes_initThread_iff (h : Heap β) :
  Undoes Thread.blocks h (initThread a h) ↔ (h.Grants a 2 → h.Grants a 3)
  := by
  rcases initThread_cases a h with ⟨htwo, -, hundoes⟩ | ⟨htwo, hthree, hbuilt⟩ |
    ⟨hthree, t, h', hbuilt, hlive⟩
  · exact iff_of_true hundoes fun hgrants => absurd hgrants htwo
  · exact iff_of_false (not_undoes_of_fault hbuilt) fun hgrants => hthree (hgrants htwo)
  · exact iff_of_true (undoes_of_some hbuilt hlive) fun _ => hthree

/-- The thread contexts of `Epoch.initThread` are those for which the blocks were obtained. -/
theorem initThread_epoch {S : Type} (a : Allocator β) (h : Heap β) :
  let built : Except Epoch.Fault (Option (Epoch.ThreadCtx S)) :=
    Epoch.initThread (decide (h.Grants a 1)) (decide (h.Grants a 2)) (decide (h.Grants a 3))
  (built = .error .nullPointer ↔ initThread a h = .error .null) ∧
    ((∃ t, built = .ok (some t)) ↔ ∃ t h', initThread a h = .ok (some t, h'))
  := by
  intro built
  rcases initThread_cases a h with ⟨htwo, ⟨h', hbuilt⟩, -⟩ | ⟨htwo, hthree, hbuilt⟩ |
    ⟨hthree, t, h', hbuilt, -⟩
  · have hnone : built = .ok none := by
      simp only [built, Epoch.initThread, htwo, decide_false, Bool.not_false, ite_true, ite_self]
    simp [hnone, hbuilt]
  · have hfault : built = .error .nullPointer := by
      simp [built, Epoch.initThread, Heap.grants_of_grants_succ htwo, htwo, hthree]
    simp [hfault, hbuilt]
  · have htwo := Heap.grants_of_grants_succ hthree
    obtain ⟨t', hsome⟩ : ∃ t', built = .ok (some t') := by
      simp [built, Epoch.initThread, Heap.grants_of_grants_succ htwo, htwo, hthree]
    simp [hsome, hbuilt]

end Thread

/-! ### `init_child_context` -/

section Child

variable [DecidableEq β] {a : Allocator β} {child argValueArray argSizeArray argCopyArray : β}

/-- The loop gets all elements of the arrays, or the elements that it got are left. -/
theorem createArgs_spec {h₀ h : Heap β} (n : ℕ) (bs argValues argCopies : List β)
    (hadds : h₀.Adds h (bs ++ [argCopyArray, argSizeArray, argValueArray, child]))
    (hargs : ∀ b ∈ argValues ++ argCopies, b ∈ bs) :
  (∃ c h', createArgs a child argValueArray argSizeArray argCopyArray n argValues argCopies h =
      .ok (some c, h') ∧ h.Grants a (2 * n) ∧ ∀ b ∈ c.blocks, b ∈ h'.live) ∨
  ∃ bs' h', createArgs a child argValueArray argSizeArray argCopyArray n argValues argCopies h =
      .ok (none, h') ∧ ¬ h.Grants a (2 * n) ∧ h₀.Adds h' bs' ∧ bs ⊆ bs' ∧
      (bs' = bs ↔ ¬ h.Grants a 1)
  := by
  induction n generalizing h bs argValues argCopies with
  | zero =>
      left
      refine ⟨_, h, rfl, trivial, ?_⟩
      intro b hb
      apply hadds.mem_live
      rcases List.mem_append.mp hb with hb | hb
      · exact List.mem_append_right _ (List.mem_reverse.mp hb)
      · exact List.mem_append_left _ (hargs b hb)
  | succ n ih =>
      have hchild : child ∈ h.live := hadds.mem_live (by simp)
      have hvalue : argValueArray ∈ h.live := hadds.mem_live (by simp)
      rw [createArgs, Heap.access_bind hchild, Heap.access_bind hvalue]
      cases halloc₁ : h.alloc a with
      | none =>
          right
          obtain ⟨h', hbuilt, hadds'⟩ :=
            exists_freeObject [argCopyArray, argSizeArray, argValueArray] bs hadds
          refine ⟨bs, h', hbuilt, Heap.not_grants halloc₁ _, hadds', List.Subset.refl bs, ?_⟩
          exact iff_of_true rfl (Heap.not_grants halloc₁ 0)
      | some x =>
          obtain ⟨value, h₁⟩ := x
          have hadds₁ : h₀.Adds h₁
              (value :: bs ++ [argCopyArray, argSizeArray, argValueArray, child]) :=
            hadds.alloc halloc₁
          have hchild₁ : child ∈ h₁.live := hadds₁.mem_live (by simp)
          have hcopy₁ : argCopyArray ∈ h₁.live := hadds₁.mem_live (by simp)
          have hgrants₁ : h.Grants a 1 := (Heap.grants_succ halloc₁ 0).mpr trivial
          have hvalue₁ : value ∉ bs := by
            intro hmem
            exact (List.nodup_cons.mp hadds₁.nodup).1 (List.mem_append_left _ hmem)
          -- the block of the value is left by each failure from here on
          have hleft {bs' : List β} (hmem : value ∈ bs') : bs' = bs ↔ ¬ h.Grants a 1 := by
            apply iff_of_false
            · rintro rfl
              exact hvalue₁ hmem
            · exact not_not_intro hgrants₁
          rw [show 2 * (n + 1) = 2 * n + 1 + 1 by omega, Heap.grants_succ halloc₁]
          simp only [Heap.access_bind hchild₁, Heap.access_bind hcopy₁]
          cases halloc₂ : h₁.alloc a with
          | none =>
              right
              obtain ⟨h', hbuilt, hadds'⟩ :=
                exists_freeObject [argCopyArray, argSizeArray, argValueArray] (value :: bs) hadds₁
              refine ⟨value :: bs, h', hbuilt, Heap.not_grants halloc₂ _, hadds', by simp, ?_⟩
              exact hleft List.mem_cons_self
          | some y =>
              obtain ⟨copy, h₂⟩ := y
              rw [Heap.grants_succ halloc₂]
              have hvalue₂ : value ∈ copy :: value :: bs :=
                List.mem_cons_of_mem copy List.mem_cons_self
              have hsubset₂ : bs ⊆ copy :: value :: bs := fun b hb =>
                List.mem_cons_of_mem copy (List.mem_cons_of_mem value hb)
              have hargs₂ : ∀ b ∈ (value :: argValues) ++ (copy :: argCopies),
                  b ∈ copy :: value :: bs := by
                rw [List.forall_mem_append] at hargs ⊢
                rw [List.forall_mem_cons, List.forall_mem_cons]
                exact ⟨⟨hvalue₂, fun b hb => hsubset₂ (hargs.1 b hb)⟩,
                  List.mem_cons_self, fun b hb => hsubset₂ (hargs.2 b hb)⟩
              rcases ih (copy :: value :: bs) _ _ (hadds₁.alloc halloc₂) hargs₂ with
                hall | ⟨bs', h', hbuilt, hgrants, hadds', hsubset, -⟩
              · exact .inl hall
              · right
                exact ⟨bs', h', hbuilt, hgrants, hadds', List.Subset.trans hsubset₂ hsubset,
                  hleft (hsubset hvalue₂)⟩

theorem undoes_initChildContext_iff (h : Heap β) :
  Undoes Child.blocks h (initChildContext a h) ↔ (h.Grants a 5 → h.Grants a 18)
  := by
  rw [initChildContext]
  cases halloc₁ : h.alloc a with
  | none =>
      rw [undoes_none_iff rfl (.refl h)]
      exact iff_of_true rfl fun hgrants => absurd hgrants (Heap.not_grants halloc₁ 4)
  | some x =>
      obtain ⟨child, h₁⟩ := x
      have hadds₁ := (Heap.Adds.refl h).alloc halloc₁
      simp only [Heap.access_bind (hadds₁.mem_live List.mem_cons_self)]
      rw [Heap.grants_succ halloc₁, Heap.grants_succ halloc₁]
      cases halloc₂ : h₁.alloc a with
      | none =>
          apply iff_of_true (undoes_freeObject [] hadds₁)
          exact fun hgrants => absurd hgrants (Heap.not_grants halloc₂ 3)
      | some y =>
          obtain ⟨argValueArray, h₂⟩ := y
          have hadds₂ := hadds₁.alloc halloc₂
          simp only [Heap.access_bind (hadds₂.mem_live (b := child) (by simp))]
          rw [Heap.grants_succ halloc₂, Heap.grants_succ halloc₂]
          cases halloc₃ : h₂.alloc a with
          | none =>
              apply iff_of_true (undoes_freeObject [argValueArray] hadds₂)
              exact fun hgrants => absurd hgrants (Heap.not_grants halloc₃ 2)
          | some z =>
              obtain ⟨argSizeArray, h₃⟩ := z
              have hadds₃ := hadds₂.alloc halloc₃
              simp only [Heap.access_bind (hadds₃.mem_live (b := child) (by simp))]
              rw [Heap.grants_succ halloc₃, Heap.grants_succ halloc₃]
              cases halloc₄ : h₃.alloc a with
              | none =>
                  apply iff_of_true (undoes_freeObject [argSizeArray, argValueArray] hadds₃)
                  exact fun hgrants => absurd hgrants (Heap.not_grants halloc₄ 1)
              | some w =>
                  obtain ⟨argCopyArray, h₄⟩ := w
                  have hadds₄ := hadds₃.alloc halloc₄
                  rw [Heap.grants_succ halloc₄, Heap.grants_succ halloc₄]
                  rcases createArgs_spec (a := a) ARG_LIMIT [] [] [] hadds₄ (by simp) with
                    ⟨c, h', hbuilt, hgrants, hlive⟩ | ⟨bs', h', hbuilt, hgrants, hadds, -, hleft⟩
                  · exact iff_of_true (undoes_of_some hbuilt hlive) fun _ => hgrants
                  · rw [undoes_none_iff hbuilt hadds, hleft]
                    constructor
                    · intro hnone hone
                      exact absurd hone hnone
                    · intro hall hone
                      exact hgrants (hall hone)

end Child

/-! ### `mem_create_shared_pool` -/

section Pool

variable [DecidableEq β] {a : Allocator β}

theorem createBlocks_spec {h₀ h : Heap β} {bs : List β} (pool : β) (n : ℕ)
    (freeList : List (β × β)) (hadds : h₀.Adds h bs) (hblocks : ∀ b ∈ Pool.blocks ⟨pool, freeList⟩, b ∈ bs) :
  (∃ p h', createBlocks a pool n freeList h = .ok (some p, h') ∧ h.Grants a (2 * n) ∧
      ∀ b ∈ p.blocks, b ∈ h'.live) ∨
  ∃ bs' h', createBlocks a pool n freeList h = .ok (none, h') ∧ ¬ h.Grants a (2 * n) ∧
      h₀.Adds h' bs' ∧ pool ∈ bs'
  := by
  induction n generalizing h bs freeList with
  | zero =>
      left
      exact ⟨_, h, rfl, trivial, fun b hb => hadds.mem_live (hblocks b hb)⟩
  | succ n ih =>
      have hpool : pool ∈ bs := hblocks pool List.mem_cons_self
      rw [createBlocks, show 2 * (n + 1) = 2 * n + 1 + 1 by omega]
      cases halloc₁ : h.alloc a with
      | none =>
          right
          exact ⟨bs, h, rfl, Heap.not_grants halloc₁ _, hadds, hpool⟩
      | some x =>
          obtain ⟨block, h₁⟩ := x
          have hadds₁ := hadds.alloc halloc₁
          simp only [Heap.access_bind (hadds₁.mem_live List.mem_cons_self)]
          rw [Heap.grants_succ halloc₁]
          cases halloc₂ : h₁.alloc a with
          | none =>
              right
              exact ⟨block :: bs, h₁, rfl, Heap.not_grants halloc₂ _, hadds₁,
                List.mem_cons_of_mem block hpool⟩
          | some y =>
              obtain ⟨ptr, h₂⟩ := y
              have hadds₂ := hadds₁.alloc halloc₂
              have hblock₂ : block ∈ h₂.live := hadds₂.mem_live (by simp)
              have hpool₂ : pool ∈ h₂.live := hadds₂.mem_live (by simp [hpool])
              simp only [Heap.access_bind hblock₂, Heap.access_bind hpool₂]
              rw [Heap.grants_succ halloc₂]
              apply ih _ hadds₂
              intro b hb
              have hb' := hblocks b
              simp only [Pool.blocks, List.flatMap_cons, List.mem_cons, List.mem_append] at hb hb' ⊢
              tauto

theorem undoes_memCreateSharedPool_iff (h : Heap β) (blockSize blockCount : ℕ) :
  Undoes Pool.blocks h (memCreateSharedPool a blockSize blockCount h) ↔
    (blockSize ≠ 0 → blockCount ≠ 0 → h.Grants a 1 → h.Grants a (2 * blockCount + 1))
  := by
  rw [memCreateSharedPool]
  by_cases hsize : blockSize = 0
  · rw [if_pos hsize, undoes_none_iff rfl (.refl h)]
    exact iff_of_true rfl fun hne => absurd hsize hne
  by_cases hcount : blockCount = 0
  · rw [if_neg hsize, if_pos hcount, undoes_none_iff rfl (.refl h)]
    exact iff_of_true rfl fun _ hne => absurd hcount hne
  rw [if_neg hsize, if_neg hcount]
  cases halloc : h.alloc a with
  | none =>
      rw [undoes_none_iff rfl (.refl h)]
      exact iff_of_true rfl fun _ _ hgrants => absurd hgrants (Heap.not_grants halloc 0)
  | some x =>
      obtain ⟨pool, h₁⟩ := x
      have hadds := (Heap.Adds.refl h).alloc halloc
      simp only [Heap.access_bind (hadds.mem_live List.mem_cons_self)]
      rw [Heap.grants_succ halloc, Heap.grants_succ halloc]
      rcases createBlocks_spec pool blockCount [] hadds (by simp [Pool.blocks]) with
        ⟨p, h', hbuilt, hgrants, hlive⟩ | ⟨bs', h', hbuilt, hgrants, hadds', hpool⟩
      · exact iff_of_true (undoes_of_some hbuilt hlive) fun _ _ _ => hgrants
      · rw [undoes_none_iff hbuilt hadds']
        apply iff_of_false
        · rintro rfl
          cases hpool
        · intro hall
          exact hgrants (hall hsize hcount trivial)

/-- The mappings of `SharedPool.createBlocks` are the blocks that are obtained. -/
theorem createBlocks_sharedPool (mmap : SharedPool.Mmap β) {mapped : List β}
    {mappings : List (SharedPool.Mapping β)} {shared : SharedPool.Pool β} {h : Heap β} {pool : β}
    (n : ℕ) (freeList : List (β × β)) (hpool : pool ∈ h.live)
    (hobtained : h.obtained = SharedPool.addresses mapped mappings) :
  let made := SharedPool.createBlocks mmap mapped n shared mappings
  ∃ result h', createBlocks ⟨mmap.map, mmap.fresh⟩ pool n freeList h = .ok (result, h') ∧
    result.isSome = made.1.isSome ∧ h'.obtained = SharedPool.addresses mapped made.2
  := by
  induction n generalizing h mappings shared freeList with
  | zero => exact ⟨_, h, rfl, rfl, hobtained⟩
  | succ n ih =>
      have hmap₁ := Heap.map_fst_alloc h ⟨mmap.map, mmap.fresh⟩
      rw [createBlocks, SharedPool.createBlocks]
      cases halloc₁ : h.alloc ⟨mmap.map, mmap.fresh⟩ with
      | none =>
          rw [halloc₁, hobtained] at hmap₁
          rw [← show _ = mmap.map _ from hmap₁]
          exact ⟨none, h, rfl, rfl, hobtained⟩
      | some x =>
          obtain ⟨block, h₁⟩ := x
          obtain ⟨hobtained₁, hlive₁, -⟩ := Heap.alloc_eq_some halloc₁
          rw [halloc₁, hobtained] at hmap₁
          rw [← show _ = mmap.map _ from hmap₁]
          have hblock₁ : block ∈ h₁.live := by simp [hlive₁]
          have haddresses₁ : h₁.obtained = SharedPool.addresses mapped (.block block :: mappings) := by
            rw [hobtained₁, hobtained]
            rfl
          have hmap₂ := Heap.map_fst_alloc h₁ ⟨mmap.map, mmap.fresh⟩
          simp only [Option.map_some, Heap.access_bind hblock₁]
          cases halloc₂ : h₁.alloc ⟨mmap.map, mmap.fresh⟩ with
          | none =>
              rw [halloc₂, haddresses₁] at hmap₂
              rw [← show _ = mmap.map _ from hmap₂]
              exact ⟨none, h₁, rfl, rfl, haddresses₁⟩
          | some y =>
              obtain ⟨data, h₂⟩ := y
              obtain ⟨hobtained₂, hlive₂, -⟩ := Heap.alloc_eq_some halloc₂
              rw [halloc₂, haddresses₁] at hmap₂
              rw [← show _ = mmap.map _ from hmap₂]
              have hblock₂ : block ∈ h₂.live := by simp [hlive₂, hlive₁]
              have hpool₂ : pool ∈ h₂.live := by simp [hlive₂, hlive₁, hpool]
              simp only [Option.map_some, Heap.access_bind hblock₂, Heap.access_bind hpool₂]
              apply ih _ hpool₂
              rw [hobtained₂, haddresses₁]
              rfl

/-- The mappings of `SharedPool.memCreateSharedPool` are the blocks that are obtained. -/
theorem memCreateSharedPool_sharedPool (mmap : SharedPool.Mmap β) (h : Heap β)
    (blockSize blockCount : ℕ) :
  let made := SharedPool.memCreateSharedPool mmap h.obtained blockSize blockCount
  ∃ result h',
    memCreateSharedPool ⟨mmap.map, mmap.fresh⟩ blockSize blockCount h = .ok (result, h') ∧
    result.isSome = made.1.isSome ∧ h'.obtained = SharedPool.addresses h.obtained made.2
  := by
  rw [memCreateSharedPool, SharedPool.memCreateSharedPool]
  by_cases hsize : blockSize = 0
  · rw [if_pos hsize, if_pos hsize]
    exact ⟨none, h, rfl, rfl, rfl⟩
  by_cases hcount : blockCount = 0
  · rw [if_neg hsize, if_neg hsize, if_pos hcount, if_pos hcount]
    exact ⟨none, h, rfl, rfl, rfl⟩
  rw [if_neg hsize, if_neg hsize, if_neg hcount, if_neg hcount]
  have hmap := Heap.map_fst_alloc h ⟨mmap.map, mmap.fresh⟩
  cases halloc : h.alloc ⟨mmap.map, mmap.fresh⟩ with
  | none =>
      rw [halloc] at hmap
      rw [← show _ = mmap.map _ from hmap]
      exact ⟨none, h, rfl, rfl, rfl⟩
  | some x =>
      obtain ⟨pool, h₁⟩ := x
      obtain ⟨hobtained, hlive, -⟩ := Heap.alloc_eq_some halloc
      rw [halloc] at hmap
      rw [← show _ = mmap.map _ from hmap]
      have hpool : pool ∈ h₁.live := by simp [hlive]
      simp only [Option.map_some, Heap.access_bind hpool]
      exact createBlocks_sharedPool mmap blockCount [] hpool hobtained

end Pool

/-! ### The constructors undo their allocations or not -/

/-- A constructor that fails has undone its allocations unless the allocator fails after some of
the calls whose blocks are not released: the second one of `init_thread`, the fifth one of
`init_child_context` and the first one of `mem_create_shared_pool`. -/
theorem constructors_undo_iff [DecidableEq β] (a : Allocator β) (h : Heap β)
    (blockSize blockCount : ℕ) :
  (Undoes Thread.blocks h (initThread a h) ↔ (h.Grants a 2 → h.Grants a 3)) ∧
  (Undoes Child.blocks h (initChildContext a h) ↔ (h.Grants a 5 → h.Grants a 18)) ∧
  (Undoes Pool.blocks h (memCreateSharedPool a blockSize blockCount h) ↔
    (blockSize ≠ 0 → blockCount ≠ 0 → h.Grants a 1 → h.Grants a (2 * blockCount + 1)))
  := by
  refine ⟨?_, ?_, ?_⟩
  · apply undoes_initThread_iff
  · apply undoes_initChildContext_iff
  · apply undoes_memCreateSharedPool_iff

theorem constructors_keep_blocks :
  ¬ Undoes Thread.blocks .empty (initThread (.firstBlocks 2) .empty) ∧
  ¬ Undoes Child.blocks .empty (initChildContext (.firstBlocks 5) .empty) ∧
  ¬ Undoes Pool.blocks .empty (memCreateSharedPool (.firstBlocks 1) 4096 1 .empty)
  := by
  rw [undoes_initThread_iff, undoes_initChildContext_iff, undoes_memCreateSharedPool_iff]
  decide

end Constructors
