import Nextgen.Lib.Heap

/-!
# Programs that own resources

The resources of a process are the blocks of a `Heap`: what is obtained is new, and to use or to
release what is not live is a fault.  The outcomes of the calls of a program are fixed in advance.

`Owns pre m Q` says that `m`, started by a process that owns the resources `pre`, ends without a
fault and then owns resources of which `Q` holds, and that it leaves all other resources alone.
The rules are those of separation logic: programs may be put one after the other, and a program
may be put next to resources that it does not touch.
-/

open Heap

namespace Ownership

/-- The resources of a process, and what its next calls give it: nothing if a call fails. -/
structure Process (ρ : Type) where
  heap : Heap ρ
  outcomes : List (Option ℕ)

/-- A program that may end with a fault. -/
abbrev Prog (ρ α : Type) := StateT (Process ρ) (Except Fault) α

section Programs

variable {ρ α : Type}

/-- A call: the number that it gives, unless it fails. -/
def ask : Prog ρ (Option ℕ) :=
  fun p => .ok (p.outcomes.headD none, { p with outcomes := p.outcomes.tail })

/-- A call that succeeds or fails. -/
def succeeds : Prog ρ Bool := do
  let outcome ← ask
  return outcome.isSome

/-- Obtain a resource, if the allocator has one. -/
def allocate (a : Allocator ρ) : Prog ρ (Option ρ) :=
  fun p =>
    match p.heap.alloc a with
    | none => .ok (none, p)
    | some (r, heap) => .ok (some r, { p with heap })

/-- A call that obtains a resource, unless it fails. -/
def acquire (a : Allocator ρ) : Prog ρ (Option ρ) := do
  if ← succeeds then allocate a else return none

/-- Run a block and then the cleanup of a variable that goes out of scope. -/
def leaving (cleanup : Prog ρ Unit) (block : Prog ρ α) : Prog ρ α := do
  let x ← block
  cleanup
  return x

variable [DecidableEq ρ]

/-- Release a resource, if there is one. -/
def release (r : Option ρ) : Prog ρ Unit :=
  fun p => (p.heap.free r).map fun heap => ((), { p with heap })

/-- Use a resource. -/
def use (r : Option ρ) : Prog ρ Unit :=
  fun p => (p.heap.access r).map fun heap => ((), { p with heap })

end Programs

/-! ### Ownership -/

section Rules

variable {ρ α β : Type}

/-- A program that owns `pre` ends without a fault and then owns resources of which `Q` holds.
The `rest` is what is owned by others. -/
def Owns (pre : List ρ) (m : Prog ρ α) (Q : α → List ρ → Prop) : Prop :=
  ∀ (h₀ : Heap ρ) (rest : List ρ) (p : Process ρ), Adds h₀ p.heap (pre ++ rest) →
    ∃ x p' own, m p = .ok (x, p') ∧ Adds h₀ p'.heap (own ++ rest) ∧ Q x own

variable {pre own : List ρ} {m : Prog ρ α} {f : α → Prog ρ β} {Q : α → List ρ → Prop}
  {R : β → List ρ → Prop} {x : α}

/-- What a program that owned nothing owns afterwards is what it has added to the live
resources. -/
theorem Owns.run (h : Owns [] m Q) (p : Process ρ) :
  ∃ x p' own, m p = .ok (x, p') ∧ Adds p.heap p'.heap own ∧ Q x own
  := by
  obtain ⟨x, p', own, hrun, hadds, hx⟩ := h p.heap [] p (Adds.refl p.heap)
  rw [List.append_nil] at hadds
  exact ⟨x, p', own, hrun, hadds, hx⟩

theorem Owns.pure (h : Q x pre) :
  Owns pre (Pure.pure x) Q
  := by
  intro h₀ rest p hadds
  exact ⟨x, p, pre, rfl, hadds, h⟩

theorem Owns.bind (hm : Owns pre m Q) (hf : ∀ x own, Q x own → Owns own (f x) R) :
  Owns pre (m >>= f) R
  := by
  intro h₀ rest p hadds
  obtain ⟨x, p₁, own, hrun, hadds₁, hx⟩ := hm h₀ rest p hadds
  obtain ⟨y, p₂, own', hrun', hadds₂, hy⟩ := hf x own hx h₀ rest p₁ hadds₁
  refine ⟨y, p₂, own', ?_, hadds₂, hy⟩
  show (m p >>= fun r => f r.1 r.2) = _
  rw [hrun]
  exact hrun'

theorem Owns.imp {Q' : α → List ρ → Prop} (h : Owns pre m Q)
    (himp : ∀ x own, Q x own → Q' x own) :
  Owns pre m Q'
  := by
  intro h₀ rest p hadds
  obtain ⟨x, p', own, hrun, hadds', hx⟩ := h h₀ rest p hadds
  exact ⟨x, p', own, hrun, hadds', himp x own hx⟩

theorem Owns.perm {pre' : List ρ} (h : Owns pre m Q) (hperm : pre'.Perm pre) :
  Owns pre' m Q
  := by
  intro h₀ rest p hadds
  exact h h₀ rest p (hadds.perm (hperm.append_right rest))

/-- The resources that a program does not need are owned afterwards. -/
theorem Owns.frame (h : Owns pre m Q) (kept : List ρ) :
  Owns (pre ++ kept) m fun x own => ∃ own', own = own' ++ kept ∧ Q x own'
  := by
  intro h₀ rest p hadds
  rw [List.append_assoc] at hadds
  obtain ⟨x, p', own, hrun, hadds', hx⟩ := h h₀ (kept ++ rest) p hadds
  rw [← List.append_assoc] at hadds'
  exact ⟨x, p', own ++ kept, hrun, hadds', own, rfl, hx⟩

/-- A program that needs nothing, before one that owns what is there and what the first has
obtained. -/
theorem Owns.seq {kept : List ρ} (hm : Owns [] m Q)
    (hf : ∀ x own, Q x own → Owns (own ++ kept) (f x) R) :
  Owns kept (m >>= f) R
  := by
  apply Owns.bind (hm.frame kept)
  rintro x _ ⟨own, rfl, hx⟩
  exact hf x own hx

/-- A program that gives up the resource of a variable. -/
theorem Owns.cleaned {cleanup : Prog ρ Unit} {r : Option ρ} (front : List ρ) {back : List ρ}
    {f : Unit → Prog ρ β} (hcleanup : Owns r.toList cleanup fun _ own => own = [])
    (hf : Owns (front ++ back) (f ()) R) :
  Owns (front ++ r.toList ++ back) (cleanup >>= f) R
  := by
  have hperm : (front ++ r.toList ++ back).Perm (r.toList ++ (front ++ back)) := by
    rw [← List.append_assoc]
    exact List.perm_append_comm.append_right back
  apply Owns.bind ((hcleanup.frame (front ++ back)).perm hperm)
  rintro _ _ ⟨_, rfl, rfl⟩
  exact hf

/-- Something holds of what is owned apart from the resource of a variable. -/
def Apart (r : Option ρ) (Q : α → List ρ → Prop) (x : α) (own : List ρ) : Prop :=
  ∃ others, own.Perm (r.toList ++ others) ∧ Q x others

/-- The resource that was obtained last is apart from the others. -/
theorem Apart.head {r : ρ} (h : Q x own) :
  Apart (some r) Q x (r :: own)
  := ⟨own, .refl _, h⟩

/-- A variable without a resource. -/
theorem Apart.none (h : Q x own) :
  Apart none Q x own
  := ⟨own, .refl _, h⟩

theorem Apart.imp {r : Option ρ} {Q' : α → List ρ → Prop} (h : Apart r Q x own)
    (himp : ∀ own, Q x own → Q' x own) :
  Apart r Q' x own
  := by
  obtain ⟨others, hperm, hx⟩ := h
  exact ⟨others, hperm, himp _ hx⟩

/-- A block and the cleanup of a variable that still owns its resource. -/
theorem Owns.leaving {cleanup : Prog ρ Unit} {r : Option ρ}
    (hcleanup : Owns r.toList cleanup fun _ own => own = []) (hblock : Owns pre m (Apart r Q)) :
  Owns pre (leaving cleanup m) Q
  := by
  apply Owns.bind hblock
  rintro x _ ⟨others, hperm, hx⟩
  refine Owns.perm ?_ hperm
  apply Owns.cleaned [] hcleanup
  exact Owns.pure hx

/-! ### The calls -/

/-- The outcome of a call changes nothing about what is owned. -/
theorem Owns.asked {f : Option ℕ → Prog ρ β} (hf : ∀ outcome, Owns pre (f outcome) R) :
  Owns pre (ask >>= f) R
  := by
  intro h₀ rest p hadds
  exact hf _ h₀ rest _ hadds

/-- Whether a call succeeds changes nothing about what is owned. -/
theorem Owns.checked {f : Bool → Prog ρ β} (hf : ∀ ok, Owns pre (f ok) R) :
  Owns pre (succeeds >>= f) R
  := by
  intro h₀ rest p hadds
  exact hf _ h₀ rest _ hadds

theorem owns_allocate (a : Allocator ρ) {P : ρ → Prop}
    (hP : ∀ {obtained r}, a.alloc obtained = some r → P r) :
  Owns [] (allocate a) fun r own => own = r.toList ∧ ∀ x ∈ r, P x
  := by
  intro h₀ rest p hadds
  unfold allocate
  cases halloc : p.heap.alloc a with
  | none => exact ⟨none, p, [], rfl, hadds, rfl, by rintro _ ⟨⟩⟩
  | some pair =>
      obtain ⟨r, heap⟩ := pair
      refine ⟨some r, _, [r], rfl, hadds.alloc halloc, rfl, ?_⟩
      rintro _ ⟨⟩
      apply hP
      rw [← map_fst_alloc, halloc]
      rfl

/-- A call that obtains a resource of the allocator, or fails. -/
theorem Owns.acquired {a : Allocator ρ} {f : Option ρ → Prog ρ β} {P : ρ → Prop}
    (hP : ∀ {obtained r}, a.alloc obtained = some r → P r) (hnone : Owns pre (f none) R)
    (hsome : ∀ r, P r → Owns (r :: pre) (f (some r)) R) :
  Owns pre (acquire a >>= f) R
  := by
  have hacquire : Owns [] (acquire a) fun r own => own = r.toList ∧ ∀ x ∈ r, P x := by
    apply Owns.checked
    intro ok
    split
    · exact owns_allocate a hP
    · exact Owns.pure ⟨rfl, by rintro _ ⟨⟩⟩
  apply Owns.seq hacquire
  rintro r _ ⟨rfl, hr⟩
  cases r with
  | none => exact hnone
  | some r => exact hsome r (hr r rfl)

variable [DecidableEq ρ]

theorem owns_release (r : Option ρ) :
  Owns r.toList (release r) fun _ own => own = []
  := by
  intro h₀ rest p hadds
  cases r with
  | none => exact ⟨(), p, [], rfl, hadds, rfl⟩
  | some r =>
      obtain ⟨heap, hfree, -, hadds'⟩ := (hadds.perm List.perm_append_comm).freeObject []
      refine ⟨(), { p with heap }, [], ?_, hadds', rfl⟩
      show (p.heap.free (some r)).map _ = _
      rw [show p.heap.free (some r) = .ok heap from hfree]
      rfl

/-- Only what is owned is used. -/
theorem Owns.used {r : ρ} {f : Unit → Prog ρ β} (hr : r ∈ pre) (hf : Owns pre (f ()) R) :
  Owns pre (use (some r) >>= f) R
  := by
  intro h₀ rest p hadds
  have hlive : r ∈ p.heap.live := hadds.mem_live (List.mem_append_left rest hr)
  obtain ⟨x, p', own, hrun, hrest⟩ := hf h₀ rest p hadds
  refine ⟨x, p', own, ?_, hrest⟩
  show ((p.heap.access (some r)).map _ >>= _) = _
  rw [access_of_mem hlive]
  exact hrun

end Rules

end Ownership
