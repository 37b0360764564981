import Mathlib.Data.List.Nodup
import Mathlib.Data.List.Perm.Basic
import Mathlib.Tactic.Common

/-!
# Blocks of memory

An allocator fails or gives out a block that it has not given out before.  A heap has the blocks
that were obtained and those of them that are live, not released.  An access through the null
pointer, and an access or a release of a block that is not live, is a fault.  So a block that
was obtained and is not live at the end of calls without a fault was released once and was not
used after that.
-/

universe u

variable {β : Type u}

/-- Given the blocks obtained, an allocator fails or gives a new one. -/
structure Allocator (β : Type u) where
  alloc : List β → Option β
  fresh : ∀ {obtained : List β} {b : β}, alloc obtained = some b → b ∉ obtained

/-- The allocator that gives the first numbers and then fails. -/
def Allocator.firstBlocks (n : ℕ) : Allocator ℕ where
  alloc obtained :=
    if obtained = (List.range obtained.length).reverse ∧ obtained.length < n
    then some obtained.length
    else none
  fresh := by
    intro obtained b hb
    rw [Option.ite_none_right_eq_some] at hb
    obtain ⟨⟨hrange, -⟩, hb⟩ := hb
    cases hb
    rw [hrange]
    simp

structure Heap (β : Type u) where
  obtained : List β
  live : List β
  nodup : obtained.Nodup
  sublist : live.Sublist obtained

namespace Heap

/-- An undefined use of memory. -/
inductive Fault where
  | null
  | released
  deriving DecidableEq, Repr

/-- The heap of which nothing was obtained. -/
def empty : Heap β := ⟨[], [], List.nodup_nil, List.Sublist.refl []⟩

/-- Obtain a block. -/
def alloc (h : Heap β) (a : Allocator β) : Option (β × Heap β) :=
  match hb : a.alloc h.obtained with
  | none => none
  | some b =>
      some (b,
        { obtained := b :: h.obtained
          live := b :: h.live
          nodup := List.nodup_cons.mpr ⟨a.fresh hb, h.nodup⟩
          sublist := h.sublist.cons_cons b })

/-- The allocator gives a number of blocks in a row. -/
def Grants (h : Heap β) (a : Allocator β) : ℕ → Prop
  | 0 => True
  | n + 1 => ∃ b h', h.alloc a = some (b, h') ∧ h'.Grants a n

section Allocation

variable {a : Allocator β} {h h' : Heap β} {b : β}

theorem alloc_eq_some (halloc : h.alloc a = some (b, h')) :
  h'.obtained = b :: h.obtained ∧ h'.live = b :: h.live ∧ b ∉ h.obtained
  := by
  rw [alloc] at halloc
  split at halloc
  · cases halloc
  · rename_i hb
    cases halloc
    exact ⟨rfl, rfl, a.fresh hb⟩

theorem live_subset (h : Heap β) :
  h.live ⊆ h.obtained
  := h.sublist.subset

/-- A new block is none of the live ones. -/
theorem not_mem_live (halloc : h.alloc a = some (b, h')) :
  b ∉ h.live
  := fun hb => (alloc_eq_some halloc).2.2 (h.live_subset hb)

theorem mem_live_alloc (halloc : h.alloc a = some (b, h')) {x : β} :
  x ∈ h'.live ↔ x = b ∨ x ∈ h.live
  := by
  rw [(alloc_eq_some halloc).2.1, List.mem_cons]

theorem grants_succ (halloc : h.alloc a = some (b, h')) (n : ℕ) :
  h.Grants a (n + 1) ↔ h'.Grants a n
  := by
  constructor
  · rintro ⟨b', h'', halloc', hgrants⟩
    cases halloc.symm.trans halloc'
    exact hgrants
  · intro hgrants
    exact ⟨b, h', halloc, hgrants⟩

theorem not_grants (halloc : h.alloc a = none) (n : ℕ) :
  ¬ h.Grants a (n + 1)
  := by
  rintro ⟨b, h', halloc', -⟩
  cases halloc.symm.trans halloc'

/-- Whether the allocator gives a number of blocks can be found out by asking it. -/
instance decidableGrants (a : Allocator β) : (h : Heap β) → (n : ℕ) → Decidable (h.Grants a n)
  | _, 0 => isTrue trivial
  | h, n + 1 =>
      match halloc : h.alloc a with
      | none => isFalse (not_grants halloc n)
      | some (_, h') =>
          letI := decidableGrants a h' n
          decidable_of_iff (h'.Grants a n) (grants_succ halloc n).symm

/-- The allocator of the first numbers gives them all. -/
theorem grants_firstBlocks {m : ℕ} (n : ℕ) {h : Heap ℕ}
    (hobtained : h.obtained = (List.range h.obtained.length).reverse)
    (hle : h.obtained.length + n ≤ m) :
  h.Grants (.firstBlocks m) n
  := by
  induction n generalizing h with
  | zero => trivial
  | succ n ih =>
      have hgives : (Allocator.firstBlocks m).alloc h.obtained = some h.obtained.length :=
        if_pos ⟨hobtained, by omega⟩
      obtain ⟨h', halloc⟩ : ∃ h', h.alloc (.firstBlocks m) = some (h.obtained.length, h') := by
        rw [alloc]
        split
        · rename_i hnone
          cases hgives.symm.trans hnone
        · rename_i hsome
          cases hgives.symm.trans hsome
          exact ⟨_, rfl⟩
      refine ⟨_, h', halloc, ih ?_ ?_⟩
      · rw [(alloc_eq_some halloc).1, List.length_cons, List.range_succ, List.reverse_append,
          ← hobtained]
        rfl
      · rw [(alloc_eq_some halloc).1, List.length_cons]
        omega

theorem grants_of_grants_succ {n : ℕ} (hgrants : h.Grants a (n + 1)) :
  h.Grants a n
  := by
  induction n generalizing h with
  | zero => trivial
  | succ n ih =>
      obtain ⟨b, h', halloc, hgrants⟩ := hgrants
      exact ⟨b, h', halloc, ih hgrants⟩

theorem map_fst_alloc (h : Heap β) (a : Allocator β) :
  (h.alloc a).map Prod.fst = a.alloc h.obtained
  := by
  rw [alloc]
  split
  · rename_i hb
    exact hb.symm
  · rename_i hb
    exact hb.symm

end Allocation

/-! ### Access and release -/

section Release

variable [DecidableEq β]

/-- Read or write through a pointer. -/
def access (h : Heap β) : Option β → Except Fault (Heap β)
  | none => .error .null
  | some b => if b ∈ h.live then .ok h else .error .released

/-- Release the block that a pointer has.  Nothing is done for the null pointer. -/
def free (h : Heap β) : Option β → Except Fault (Heap β)
  | none => .ok h
  | some b =>
      if b ∈ h.live then
        .ok { h with live := h.live.erase b, sublist := List.erase_sublist.trans h.sublist }
      else .error .released

/-- Release the block that a field of an object has, and clear the field. -/
def freeField (h : Heap β) (object field : Option β) : Except Fault (Heap β) := do
  let h ← h.access object
  let h ← h.free field
  h.access object

/-- Release the blocks that fields of an object have, and then the object. -/
def freeObject (object : β) : List β → Heap β → Except Fault (Heap β)
  | [], h => h.free (some object)
  | b :: fields, h => (h.freeField (some object) (some b)).bind (freeObject object fields)

variable {h : Heap β} {b object : β} {fields : List β}

theorem access_of_mem (hb : b ∈ h.live) :
  h.access (some b) = .ok h
  := if_pos hb

theorem access_bind {γ : Type u} (hb : b ∈ h.live) (f : Heap β → Except Fault γ) :
  (h.access (some b) >>= f) = f h
  := by
  rw [access_of_mem hb]
  rfl

theorem free_of_mem (hb : b ∈ h.live) :
  ∃ h', h.free (some b) = .ok h' ∧ h'.obtained = h.obtained ∧
    ∀ x, x ∈ h'.live ↔ x ≠ b ∧ x ∈ h.live
  := by
  refine ⟨_, if_pos hb, rfl, ?_⟩
  intro x
  exact (h.nodup.sublist h.sublist).mem_erase_iff

theorem freeField_of_mem (hobject : object ∈ h.live) (hb : b ∈ h.live) (hne : object ≠ b) :
  ∃ h', h.freeField (some object) (some b) = .ok h' ∧ h'.obtained = h.obtained ∧
    ∀ x, x ∈ h'.live ↔ x ≠ b ∧ x ∈ h.live
  := by
  obtain ⟨h', hfree, hobtained, hlive⟩ := free_of_mem hb
  refine ⟨h', ?_, hobtained, hlive⟩
  have hkept : object ∈ h'.live := (hlive object).mpr ⟨hne, hobject⟩
  rw [freeField, access_of_mem hobject]
  show (h.free (some b)).bind _ = _
  rw [hfree]
  apply access_of_mem hkept

/-- The object and its fields are released, and nothing else is. -/
theorem freeObject_of_mem (hobject : object ∈ h.live) (hfields : ∀ b ∈ fields, b ∈ h.live)
    (hnodup : (object :: fields).Nodup) :
  ∃ h', freeObject object fields h = .ok h' ∧ h'.obtained = h.obtained ∧
    ∀ x, x ∈ h'.live ↔ x ∉ object :: fields ∧ x ∈ h.live
  := by
  induction fields generalizing h with
  | nil =>
      obtain ⟨h', hfree, hobtained, hlive⟩ := free_of_mem hobject
      refine ⟨h', hfree, hobtained, ?_⟩
      intro x
      rw [hlive, List.mem_singleton]
  | cons b fields ih =>
      obtain ⟨hnotin, hnodup⟩ := List.nodup_cons.mp hnodup
      obtain ⟨hne, hnotin⟩ := List.ne_and_not_mem_of_not_mem_cons hnotin
      obtain ⟨hb, hnodup⟩ := List.nodup_cons.mp hnodup
      obtain ⟨h₁, hfree, hobtained, hlive⟩ :=
        freeField_of_mem hobject (hfields b List.mem_cons_self) hne
      have hfields₁ : ∀ c ∈ fields, c ∈ h₁.live := by
        intro c hc
        rw [hlive]
        exact ⟨fun heq => hb (heq ▸ hc), hfields c (List.mem_cons_of_mem b hc)⟩
      obtain ⟨h', hrest, hobtained', hlive'⟩ := ih ((hlive object).mpr ⟨hne, hobject⟩) hfields₁
        (List.nodup_cons.mpr ⟨hnotin, hnodup⟩)
      refine ⟨h', ?_, hobtained'.trans hobtained, ?_⟩
      · rw [freeObject, hfree]
        exact hrest
      · intro x
        rw [hlive', hlive]
        simp only [List.mem_cons, not_or, ne_eq]
        tauto

end Release

/-! ### Blocks that calls have added -/

/-- The live blocks are those of an earlier heap and some that were obtained since. -/
structure Adds (h₀ h : Heap β) (bs : List β) : Prop where
  obtained : h₀.obtained ⊆ h.obtained
  nodup : bs.Nodup
  new : ∀ b ∈ bs, b ∉ h₀.obtained
  live : ∀ x, x ∈ h.live ↔ x ∈ bs ∨ x ∈ h₀.live

section Adds

variable {h₀ h h' : Heap β} {a : Allocator β} {b object : β} {bs : List β}

theorem Adds.refl (h : Heap β) :
  Adds h h []
  := ⟨List.Subset.refl _, List.nodup_nil, by simp, by simp⟩

theorem Adds.mem_live (hadds : Adds h₀ h bs) (hb : b ∈ bs) :
  b ∈ h.live
  := (hadds.live b).mpr (.inl hb)

theorem Adds.alloc (hadds : Adds h₀ h bs) (halloc : h.alloc a = some (b, h')) :
  Adds h₀ h' (b :: bs)
  := by
  obtain ⟨hobtained, hlive, hfresh⟩ := alloc_eq_some halloc
  constructor
  · rw [hobtained]
    exact fun x hx => List.mem_cons_of_mem b (hadds.obtained hx)
  · apply List.nodup_cons.mpr
    exact ⟨fun hb => not_mem_live halloc (hadds.mem_live hb), hadds.nodup⟩
  · rw [List.forall_mem_cons]
    exact ⟨fun hb => hfresh (hadds.obtained hb), hadds.new⟩
  · intro x
    rw [hlive, List.mem_cons, hadds.live, List.mem_cons, or_assoc]

theorem Adds.perm {cs : List β} (hadds : Adds h₀ h bs) (hperm : bs.Perm cs) :
  Adds h₀ h cs
  := by
  refine ⟨hadds.obtained, hperm.nodup_iff.mp hadds.nodup, ?_, ?_⟩
  · intro b hb
    exact hadds.new b (hperm.mem_iff.mpr hb)
  · intro x
    rw [hadds.live, hperm.mem_iff]

/-- After the release of an object and its fields the other blocks are left. -/
theorem Adds.freeObject [DecidableEq β] (fields : List β)
    (hadds : Adds h₀ h (bs ++ (fields ++ [object]))) :
  ∃ h', freeObject object fields h = .ok h' ∧ h'.obtained = h.obtained ∧ Adds h₀ h' bs
  := by
  obtain ⟨hbs, hrest, hdisjoint⟩ := List.nodup_append.mp hadds.nodup
  have hperm : (fields ++ [object]).Perm (object :: fields) := List.perm_append_singleton object fields
  have hmem : ∀ x ∈ object :: fields, x ∈ bs ++ (fields ++ [object]) := by
    intro x hx
    exact List.mem_append_right bs (hperm.mem_iff.mpr hx)
  obtain ⟨h', hfree, hobtained, hlive⟩ := freeObject_of_mem
    (hadds.mem_live (hmem object List.mem_cons_self))
    (fun b hb => hadds.mem_live (hmem b (List.mem_cons_of_mem object hb)))
    (hperm.nodup_iff.mp hrest)
  refine ⟨h', hfree, hobtained, ?_, hbs, ?_, ?_⟩
  · rw [hobtained]
    exact hadds.obtained
  · intro b hb
    exact hadds.new b (List.mem_append_left _ hb)
  · intro x
    rw [hlive, hadds.live, List.mem_append, hperm.mem_iff]
    constructor
    · rintro ⟨hx, (hx' | hx') | hx'⟩
      · exact .inl hx'
      · exact absurd hx' hx
      · exact .inr hx'
    · rintro (hx | hx)
      · refine ⟨?_, .inl (.inl hx)⟩
        intro hx'
        exact hdisjoint x hx x (hperm.mem_iff.mpr hx') rfl
      · refine ⟨?_, .inr hx⟩
        intro hx'
        exact hadds.new x (hmem x hx') (h₀.live_subset hx)

end Adds

/-! ### What was released -/

/-- Of the blocks that were obtained since, `bs` are left and the others, `n` of them, were
released. -/
structure Leaves (h₀ h : Heap β) (bs : List β) (n : ℕ) : Prop where
  adds : Adds h₀ h bs
  length : h.obtained.length = h₀.obtained.length + bs.length + n

section Leaves

variable {a : Allocator β} {h₀ h h' : Heap β} {b object : β} {bs : List β} {n : ℕ}

theorem Leaves.refl (h : Heap β) :
  Leaves h h [] 0
  := ⟨Adds.refl h, rfl⟩

theorem Leaves.alloc (hleaves : Leaves h₀ h bs n) (halloc : h.alloc a = some (b, h')) :
  Leaves h₀ h' (b :: bs) n
  := by
  refine ⟨hleaves.adds.alloc halloc, ?_⟩
  rw [(alloc_eq_some halloc).1, List.length_cons, List.length_cons, hleaves.length]
  omega

theorem Leaves.perm {cs : List β} (hleaves : Leaves h₀ h bs n) (hperm : bs.Perm cs) :
  Leaves h₀ h cs n
  := by
  refine ⟨hleaves.adds.perm hperm, ?_⟩
  rw [hleaves.length, hperm.length_eq]

variable [DecidableEq β]

theorem Leaves.freeObject (fields : List β)
    (hleaves : Leaves h₀ h (bs ++ (fields ++ [object])) n) :
  ∃ h', freeObject object fields h = .ok h' ∧ Leaves h₀ h' bs (fields.length + 1 + n)
  := by
  obtain ⟨h', hfree, hobtained, hadds⟩ := hleaves.adds.freeObject fields
  refine ⟨h', hfree, hadds, ?_⟩
  rw [hobtained, hleaves.length]
  simp only [List.length_append, List.length_singleton]
  omega

end Leaves

end Heap
