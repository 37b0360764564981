import Nextgen.Utils.Cleanup

/-!
# Seeding the generator

`seed_prng` of `crypto.c`, which `setup_crypto_module` calls when numbers come from
`rand_range_crypto`.  Its variables `hash` and `random_buffer` are cleaned up when it returns, but
the loop overwrites `hash` by a new digest in every iteration, and `random_buffer` by the null
pointer when `realloc` fails.
-/

open Ownership Cleanup

namespace Seeding

/-- The variables that are cleaned up. -/
structure SeedVars where
  hash : Option Resource
  randomFd : Option Resource
  randomBuffer : Option Resource

section Functions

variable (c : Calls)

end Functions

/-! ### What is lost -/

/-- Some blocks of memory and some resources of the library for big numbers, and nothing else. -/
structure Lost (b d : ℕ) (left : List Resource) : Prop where
  blocks : left.countP Resource.isBlock = b
  draws : left.countP Resource.isDrawn = d
  length : left.length = b + d

theorem Lost.nil :
  Lost 0 0 []
  := ⟨rfl, rfl, rfl⟩

theorem Lost.cons {b d id : ℕ} {left : List Resource} (h : Lost b d left) :
  Lost (b + 1) d (.block id :: left)
  := by
  refine ⟨?_, ?_, ?_⟩
  · rw [List.countP_cons_of_pos rfl, h.blocks]
  · rw [List.countP_cons_of_neg (by rintro ⟨⟩), h.draws]
  · rw [List.length_cons, h.length, Nat.add_right_comm]

theorem Lost.append {b b' d d' : ℕ} {left left' : List Resource} (h : Lost b d left)
    (h' : Lost b' d' left') :
  Lost (b + b') (d + d') (left ++ left')
  := by
  refine ⟨?_, ?_, ?_⟩
  · rw [List.countP_append, h.blocks, h'.blocks]
  · rw [List.countP_append, h.draws, h'.draws]
  · rw [List.length_append, h.length, h'.length]
    omega

/-- A function that returns zero loses blocks and draws, and one that returns `-1` no more. -/
def Costs (r : ℤ) (b d : ℕ) (L : ℕ → ℕ → Prop) : Prop :=
  r = 0 ∧ L b d ∨ r = -1 ∧ ∃ b' ≤ b, ∃ d' ≤ d, L b' d'

theorem Costs.add {r : ℤ} {b d m n : ℕ} {L L' : ℕ → ℕ → Prop} (h : Costs r b d L)
    (hL : ∀ b d, L b d → L' (b + m) (d + n)) :
  Costs r (b + m) (d + n) L'
  := by
  obtain ⟨rfl, h⟩ | ⟨rfl, b', hb, d', hd, h⟩ := h
  · exact .inl ⟨rfl, hL b d h⟩
  · exact .inr ⟨rfl, b' + m, by omega, d' + n, by omega, hL b' d' h⟩

/-- What the variables own. -/
def SeedVars.owned (v : SeedVars) : List Resource :=
  v.randomBuffer.toList ++ (v.randomFd.toList ++ v.hash.toList)

/-- What is owned is what the variables own, what is lost and what was owned before. -/
def Keeps (v : SeedVars) (b d : ℕ) (pre own : List Resource) : Prop :=
  ∃ left, own.Perm (v.owned ++ (left ++ pre)) ∧ Lost b d left

/-- What was lost before is lost, too. -/
theorem Keeps.trans {v : SeedVars} {b b' d d' : ℕ} {pre left own : List Resource}
    (h : Keeps v b d (left ++ pre) own) (hlost : Lost b' d' left) :
  Keeps v (b + b') (d + d') pre own
  := by
  obtain ⟨left', hperm, hlost'⟩ := h
  refine ⟨left' ++ left, ?_, hlost'.append hlost⟩
  rw [List.append_assoc]
  exact hperm

section Specifications

variable {c : Calls} {pre : List Resource}

/-- All variables have their resources. -/
def full (hash number id buffer : ℕ) : SeedVars :=
  ⟨some (.block hash), some (.descriptor number id), some (.block buffer)⟩

end Specifications

/-- A process that has obtained nothing yet and whose calls succeed.  Each number that is drawn is
one. -/
def plainProcess : Process Resource :=
  ⟨Heap.empty, List.replicate 40 (some 1)⟩

end Seeding
