import Nextgen.Memory.Constructors
import Nextgen.Syscall.Children

/-!
# The contexts of the children

`setup_syscall_module` maps the shared memory of the module: the table, the global state, the index
of the contexts, and the context of each child with `init_child_context`.  The state in which it
leaves the slots and the counter is the one in which the parent starts.

`init_child_context` gives back the context and its arrays when a buffer is missing, but not the
buffers that it has, and `setup_syscall_module` gives back nothing when it fails.
-/

universe u

open Constructors (Child initChildContext createArgs)
open Syscall (ARG_LIMIT)
open Children (EMPTY)
open Epoch (u32)

namespace Contexts

/-- The variables of the module: `running_children` is in the global state. -/
structure Module (β : Type u) where
  totalChildren : ℕ
  sysTable : β
  state : β
  runningChildren : ℕ
  index : β
  children : List (Child β)

section Functions

variable {β : Type u} [DecidableEq β] (a : Allocator β)

/-- The loop of `setup_syscall_module`, of which `n` iterations are left. -/
def createChildren (index : β) :
    ℕ → List (Child β) → Heap β → Except Heap.Fault (Option (List (Child β)) × Heap β)
  | 0, children, h => .ok (some children, h)
  | n + 1, children, h => do
      match ← initChildContext a h with
      | (none, h) => return (none, h)
      | (some child, h) =>
          let h ← h.access (some index)
          createChildren index n (children ++ [child]) h

/-- The first call of `setup_syscall_module` and the variables that it has set when it returns zero,
given the number of `get_core_count` and whether all arguments in the table have contexts.  The copy
of the table is left behind when they do not. -/
def setupSyscallModule (cores : Option ℕ) (contextsOk : Bool) (h : Heap β) :
    Except Heap.Fault (Option (Module β) × Heap β) :=
  match cores with
  | none => .ok (none, h)
  | some cores =>
      match h.alloc a with
      | none => .ok (none, h)
      | some (sysTable, h) => do
          let h ← h.access (some sysTable)
          if !contextsOk then return (none, h)
          else
            match h.alloc a with
            | none => return (none, h)
            | some (state, h) =>
                let h ← h.access (some state)
                match h.alloc a with
                | none => return (none, h)
                | some (index, h) =>
                    match ← createChildren a index (u32 cores) [] h with
                    | (none, h) => return (none, h)
                    | (some children, h) =>
                        let h ← h.access (some state)
                        return (some ⟨u32 cores, sysTable, state, 0, index, children⟩, h)

end Functions

/-! ### What a context has -/

section Specifications

variable {β : Type u}

/-- A context with buffers for all arguments. -/
def Complete (child : Child β) : Prop :=
  child.argValues.length = ARG_LIMIT ∧ child.argCopies.length = ARG_LIMIT

/-- A complete context, or some of its buffers after the rest of it, at most the context and three
arrays, was released. -/
def Created : Option (Child β) → List β → ℕ → Prop
  | some child, own, released => Complete child ∧ own = child.blocks ∧ released = 0
  | none, own, released => own.length < 2 * ARG_LIMIT ∧ released ≤ 4

variable [DecidableEq β] {a : Allocator β}

/-- The context and the arrays that were obtained are released. -/
theorem exists_freeObject_created {h₀ h : Heap β} {child : β} {rest : List β}
    (own fields : List β) (hfields : fields.length ≤ 3) (hown : own.length < 2 * ARG_LIMIT)
    (hleaves : h₀.Leaves h (own ++ rest ++ (fields ++ [child])) 0) :
  ∃ r h' own' n, (do
      let h ← Heap.freeObject child fields h
      return (none, h) : Except Heap.Fault (Option (Child β) × Heap β)) = .ok (r, h') ∧
    h₀.Leaves h' (own' ++ rest) n ∧ Created r own' n
  := by
  obtain ⟨h', hfree, hleaves'⟩ := hleaves.freeObject fields
  refine ⟨none, h', own, _, ?_, hleaves', hown, ?_⟩
  · rw [hfree]
    rfl
  · omega

theorem createArgs_created {h₀ h : Heap β} {child argValueArray argSizeArray argCopyArray : β}
    {rest : List β} (n : ℕ) (argValues argCopies : List β)
    (hvalues : argValues.length + n = ARG_LIMIT) (hcopies : argCopies.length + n = ARG_LIMIT)
    (hleaves : h₀.Leaves h
      (Child.blocks ⟨child, argValueArray, argSizeArray, argCopyArray, argValues, argCopies⟩ ++
        rest) 0) :
  ∃ r h' own m, createArgs a child argValueArray argSizeArray argCopyArray n argValues argCopies h =
    .ok (r, h') ∧ h₀.Leaves h' (own ++ rest) m ∧ Created r own m
  := by
  induction n generalizing h argValues argCopies with
  | zero => exact ⟨_, h, _, 0, rfl, hleaves, ⟨hvalues, hcopies⟩, rfl, rfl⟩
  | succ n ih =>
      have hbuffers : (argValues ++ argCopies).length + 1 < 2 * ARG_LIMIT := by
        rw [List.length_append]
        omega
      have hchild : child ∈ h.live := hleaves.adds.mem_live (by simp [Child.blocks])
      have hvalue : argValueArray ∈ h.live := hleaves.adds.mem_live (by simp [Child.blocks])
      rw [createArgs, Heap.access_bind hchild, Heap.access_bind hvalue]
      cases halloc₁ : h.alloc a with
      | none =>
          -- the buffers of the arguments before are left
          have hown : (argValues ++ argCopies).length < 2 * ARG_LIMIT := by omega
          apply exists_freeObject_created _ [argCopyArray, argSizeArray, argValueArray] (by simp)
            hown
          apply hleaves.perm
          simp only [Child.blocks]
          grind
      | some x =>
          obtain ⟨value, h₁⟩ := x
          have hleaves₁ := hleaves.alloc halloc₁
          have hchild₁ : child ∈ h₁.live := hleaves₁.adds.mem_live (by simp [Child.blocks])
          have hcopy₁ : argCopyArray ∈ h₁.live := hleaves₁.adds.mem_live (by simp [Child.blocks])
          simp only [Heap.access_bind hchild₁, Heap.access_bind hcopy₁]
          cases halloc₂ : h₁.alloc a with
          | none =>
              -- and the one for the value of this argument
              apply exists_freeObject_created (value :: (argValues ++ argCopies))
                [argCopyArray, argSizeArray, argValueArray] (by simp) hbuffers
              apply hleaves₁.perm
              simp only [Child.blocks]
              grind
          | some y =>
              obtain ⟨copy, h₂⟩ := y
              apply ih (value :: argValues) (copy :: argCopies)
              · rw [List.length_cons, Nat.add_assoc, Nat.add_comm 1, hvalues]
              · rw [List.length_cons, Nat.add_assoc, Nat.add_comm 1, hcopies]
              · apply (hleaves₁.alloc halloc₂).perm
                simp only [Child.blocks]
                grind

theorem initChildContext_created {h₀ h : Heap β} {rest : List β} (hleaves : h₀.Leaves h rest 0) :
  ∃ r h' own n, initChildContext a h = .ok (r, h') ∧ h₀.Leaves h' (own ++ rest) n ∧ Created r own n
  := by
  have hnil : ([] : List β).length < 2 * ARG_LIMIT := by
    show 0 < 2 * ARG_LIMIT
    decide
  have hcomm {h₁ : Heap β} {child : β} {fields : List β}
      (hleaves₁ : h₀.Leaves h₁ (fields ++ [child] ++ rest) 0) :
      h₀.Leaves h₁ ([] ++ rest ++ (fields ++ [child])) 0 := hleaves₁.perm List.perm_append_comm
  rw [initChildContext]
  cases halloc₁ : h.alloc a with
  | none => exact ⟨none, h, [], 0, rfl, hleaves, hnil, Nat.zero_le 4⟩
  | some x =>
      obtain ⟨child, h₁⟩ := x
      have hleaves₁ := hleaves.alloc halloc₁
      simp only [Heap.access_bind (hleaves₁.adds.mem_live List.mem_cons_self)]
      cases halloc₂ : h₁.alloc a with
      | none => exact exists_freeObject_created [] [] (by simp) hnil (hcomm hleaves₁)
      | some y =>
          obtain ⟨argValueArray, h₂⟩ := y
          have hleaves₂ := hleaves₁.alloc halloc₂
          have hchild₂ : child ∈ h₂.live := hleaves₂.adds.mem_live (by simp)
          simp only [Heap.access_bind hchild₂]
          cases halloc₃ : h₂.alloc a with
          | none =>
              exact exists_freeObject_created [] [argValueArray] (by simp) hnil (hcomm hleaves₂)
          | some z =>
              obtain ⟨argSizeArray, h₃⟩ := z
              have hleaves₃ := hleaves₂.alloc halloc₃
              have hchild₃ : child ∈ h₃.live := hleaves₃.adds.mem_live (by simp)
              simp only [Heap.access_bind hchild₃]
              cases halloc₄ : h₃.alloc a with
              | none =>
                  exact exists_freeObject_created [] [argSizeArray, argValueArray] (by simp) hnil
                    (hcomm hleaves₃)
              | some w =>
                  obtain ⟨argCopyArray, h₄⟩ := w
                  apply createArgs_created ARG_LIMIT [] [] rfl rfl
                  apply (hleaves₃.alloc halloc₄).perm
                  simp only [Child.blocks]
                  grind

/-- All contexts, or those before the one that could not be completed and some buffers of that. -/
def AllCreated (n : ℕ) : Option (List (Child β)) → List β → ℕ → Prop
  | some children, own, released => children.length = n ∧ (∀ child ∈ children, Complete child) ∧
      own = children.flatMap Child.blocks ∧ released = 0
  | none, own, released => ∃ (children : List (Child β)) (buffers : List β), children.length < n ∧
      (∀ child ∈ children, Complete child) ∧ buffers.length < 2 * ARG_LIMIT ∧
      own = buffers ++ children.flatMap Child.blocks ∧ released ≤ 4

theorem createChildren_created {h₀ h : Heap β} {index : β} {rest : List β} (hindex : index ∈ rest)
    (n : ℕ) (children : List (Child β)) (hcomplete : ∀ child ∈ children, Complete child)
    (hleaves : h₀.Leaves h (children.flatMap Child.blocks ++ rest) 0) :
  ∃ r h' own m, createChildren a index n children h = .ok (r, h') ∧
    h₀.Leaves h' (own ++ rest) m ∧ AllCreated (children.length + n) r own m
  := by
  induction n generalizing h children with
  | zero => exact ⟨_, h, _, 0, rfl, hleaves, rfl, hcomplete, rfl, rfl⟩
  | succ n ih =>
      obtain ⟨r, h₁, own, m, hbuilt, hleaves₁, hcreated⟩ :=
        initChildContext_created (a := a) hleaves
      rw [createChildren, hbuilt]
      rw [← List.append_assoc] at hleaves₁
      cases r with
      | none =>
          obtain ⟨hown, hm⟩ := hcreated
          refine ⟨none, h₁, _, m, rfl, hleaves₁, children, own, ?_, hcomplete, hown, rfl, hm⟩
          omega
      | some child =>
          obtain ⟨hchild, rfl, rfl⟩ := hcreated
          have hconcat : ∀ c ∈ children ++ [child], Complete c :=
            List.forall_mem_append.mpr ⟨hcomplete, List.forall_mem_singleton.mpr hchild⟩
          have hleaves₂ : h₀.Leaves h₁ ((children ++ [child]).flatMap Child.blocks ++ rest) 0 := by
            rw [List.flatMap_append, List.flatMap_singleton]
            exact hleaves₁.perm (List.perm_append_comm.append_right rest)
          obtain ⟨r, h₂, own, m, hbuilt₂, hleaves₃, hall⟩ :=
            ih (children ++ [child]) hconcat hleaves₂
          rw [List.length_append, List.length_singleton, Nat.add_assoc, Nat.add_comm 1] at hall
          refine ⟨r, h₂, own, m, ?_, hleaves₃, hall⟩
          have hlive : index ∈ h₁.live := hleaves₂.adds.mem_live (List.mem_append_right _ hindex)
          exact (Heap.access_bind hlive _).trans hbuilt₂

end Specifications

/-! ### The set-up -/

section SetUp

variable {β : Type u}

/-- The state in which the parent starts: the contexts are zero-filled, and so are their pids. -/
def Module.start (m : Module β) : Children.State :=
  { Children.State.init m.totalChildren with
    slots := m.children.map fun _ => EMPTY
    runningChildren := m.runningChildren }

def Module.blocks (m : Module β) : List β :=
  m.children.flatMap Child.blocks ++ [m.index, m.state, m.sysTable]

/-- The module is set up and nothing was released.  Or it is not: then the table and the global
state may have been obtained, and nothing was released, or the contexts could not all be
created. -/
def SetUp : Option (Module β) → List β → ℕ → Prop
  | some m, left, released => left = m.blocks ∧ released = 0 ∧
      (∀ child ∈ m.children, Complete child) ∧ m.totalChildren < 2 ^ 32 ∧
      m.start = Children.State.init m.totalChildren
  | none, left, released => left.length ≤ 2 ∧ released = 0 ∨
      ∃ n < 2 ^ 32, ∃ contexts globals, left = contexts ++ globals ∧ globals.length = 3 ∧
        AllCreated n none contexts released

/-- The slots are empty if there is one for each child. -/
theorem Module.start_eq {m : Module β} (hlength : m.children.length = m.totalChildren)
    (hrunning : m.runningChildren = 0) :
  m.start = Children.State.init m.totalChildren
  := by
  rw [Module.start, List.map_const', hlength, hrunning]
  rfl

end SetUp

/-- Whatever calls fail, `setup_syscall_module` uses and gives back only what it has.  If it
succeeds, the parent starts with empty slots and no running children, each slot has a complete
context, and all the blocks are different: no two slots, and no two arguments of a slot, share
memory.  If it fails, everything that it has obtained is left but the context that it could not
complete and the arrays of that. -/
theorem setupSyscallModule_contexts {β : Type u} [DecidableEq β] (a : Allocator β)
    (cores : Option ℕ) (contextsOk : Bool) (h : Heap β) :
  ∃ r h' left released, setupSyscallModule a cores contextsOk h = .ok (r, h') ∧
    h.Leaves h' left released ∧ SetUp r left released
  := by
  have hfail : ∀ {h' : Heap β} {left : List β}, h.Leaves h' left 0 → left.length ≤ 2 →
      ∃ r h'' left' released, (.ok (none, h') : Except Heap.Fault (Option (Module β) × Heap β)) =
        .ok (r, h'') ∧ h.Leaves h'' left' released ∧ SetUp r left' released := by
    intro h' left hleaves hlength
    exact ⟨none, h', left, 0, rfl, hleaves, Or.inl ⟨hlength, rfl⟩⟩
  cases cores with
  | none => exact hfail (.refl h) (Nat.zero_le 2)
  | some cores =>
      rw [setupSyscallModule]
      cases halloc₁ : h.alloc a with
      | none => exact hfail (.refl h) (Nat.zero_le 2)
      | some x =>
          obtain ⟨sysTable, h₁⟩ := x
          have hleaves₁ := (Heap.Leaves.refl h).alloc halloc₁
          simp only [Heap.access_bind (hleaves₁.adds.mem_live List.mem_cons_self)]
          cases contextsOk with
          | false => exact hfail hleaves₁ (Nat.le_succ 1)
          | true =>
              simp only [Bool.not_true, Bool.false_eq_true, if_false]
              cases halloc₂ : h₁.alloc a with
              | none => exact hfail hleaves₁ (Nat.le_succ 1)
              | some y =>
                  obtain ⟨state, h₂⟩ := y
                  have hleaves₂ := hleaves₁.alloc halloc₂
                  simp only [Heap.access_bind (hleaves₂.adds.mem_live List.mem_cons_self)]
                  cases halloc₃ : h₂.alloc a with
                  | none => exact hfail hleaves₂ (Nat.le_refl 2)
                  | some z =>
                      obtain ⟨index, h₃⟩ := z
                      obtain ⟨r, h₄, own, m, hbuilt, hleaves₄, hall⟩ :=
                        createChildren_created (a := a) List.mem_cons_self (u32 cores) []
                          (by rintro _ ⟨⟩) (hleaves₂.alloc halloc₃)
                      have hlt : u32 cores < 2 ^ 32 := Nat.mod_lt _ (by decide)
                      rw [List.length_nil, Nat.zero_add] at hall
                      simp only [hbuilt]
                      cases r with
                      | none =>
                          exact ⟨none, h₄, _, m, rfl, hleaves₄,
                            Or.inr ⟨u32 cores, hlt, own, _, rfl, rfl, hall⟩⟩
                      | some children =>
                          obtain ⟨hlength, hcomplete, rfl, rfl⟩ := hall
                          have hlive : state ∈ h₄.live := hleaves₄.adds.mem_live (by simp)
                          refine ⟨_, h₄, _, 0, Heap.access_bind hlive _, hleaves₄, ?_⟩
                          exact ⟨rfl, rfl, hcomplete, hlt, Module.start_eq hlength rfl⟩

end Contexts
