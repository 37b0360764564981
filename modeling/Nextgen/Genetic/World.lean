import Mathlib.Algebra.Ring.Int.Defs
import Nextgen.Lib.Heap
import Nextgen.Lib.SList

/-!
# The world of the genetic algorithm

`init_world` makes one species for each entry of the syscall table and populates it with
organisms.  The loop over the species stops one short of their number, so that the last element
of the array is not written.
-/

universe u

open SList

namespace Genetic

/-! ### Memory -/

/-- `struct organism_ctx` without its link. -/
structure Organism (β F : Type u) where
  fitness : F
  chromosome : Option β

/-- `struct species_ctx`. -/
structure Species (β F : Type u) where
  speciesPopulation : UInt32
  averageSpeciesFitness : F
  organismList : Option β

/-- The blocks and what is stored in them.  A new block holds what its address held before. -/
structure Memory (β F : Type u) where
  heap : Heap β
  specie : β → Species β F
  organism : β → Organism β F
  sleNext : β → Option β

/-- `struct world_population`.  An element of `species` has no value until it is written. -/
structure World (β : Type u) where
  totalSpecies : UInt32
  currentGeneration : UInt64
  species : List (Option β)

def SPECIES_POP : ℕ := 1000

section Functions

variable {β F : Type u} [DecidableEq β] [Zero F]

/-- The end of an iteration of the inner loop: the fitness is set and the organism is inserted
at the head of the list of its species. -/
def Memory.insert (m : Memory β F) (specie organism chromosome : β) : Memory β F :=
  let (next, head) := insertHead m.sleNext (m.specie specie).organismList organism
  { m with
    organism := Function.update m.organism organism ⟨0, some chromosome⟩
    sleNext := next
    specie := Function.update m.specie specie { m.specie specie with organismList := head } }

/-- The inner loop of `init_world`. -/
def populate (a : Allocator β) (specie : β) :
    ℕ → Memory β F → Except Heap.Fault (Bool × Memory β F)
  | 0, m => .ok (true, m)
  | ii + 1, m =>
      match m.heap.alloc a with
      | none => .ok (false, m)
      | some (organism, heap) =>
          match heap.alloc a with
          | none => do
              let heap ← heap.free (some organism)
              return (false, { m with heap := heap })
          | some (chromosome, heap) =>
              populate a specie ii (({ m with heap := heap }).insert specie organism chromosome)

/-- The outer loop of `init_world` from index `i` on. -/
def createSpecies (a : Allocator β) :
    ℕ → ℕ → List (Option β) → Memory β F →
      Except Heap.Fault (Bool × List (Option β) × Memory β F)
  | 0, _, species, m => .ok (true, species, m)
  | n + 1, i, species, m =>
      match m.heap.alloc a with
      | none => .ok (false, species, m)
      | some (specie, heap) => do
          let (populated, m) ← populate a specie SPECIES_POP
            { m with heap := heap, specie := Function.update m.specie specie ⟨0, 0, none⟩ }
          if populated then createSpecies a n (i + 1) (species.set i (some specie)) m
          else return (false, species, m)

/-- `init_world`, given the number of syscalls of the table if there is one: what is returned,
the memory, and the world if it was allocated and has its array. -/
def initWorld (a : Allocator β) (sysTable : Option UInt32) (m : Memory β F) :
    Except Heap.Fault (ℤ × Memory β F × Option (World β)) :=
  match m.heap.alloc a with
  | none => .ok (-1, m, none)
  | some (_, heap) =>
      let m := { m with heap := heap }
      match sysTable with
      | none => .ok (-1, m, none)
      | some totalSyscalls =>
          -- an allocation of no bytes fails
          match if totalSyscalls = 0 then none else m.heap.alloc a with
          | none => .ok (-1, m, none)
          | some (_, heap) => do
              let (created, species, m) ← createSpecies a (totalSyscalls - 1).toNat 0
                (List.replicate totalSyscalls.toNat none) { m with heap := heap }
              return (if created then 0 else -1, m, some ⟨totalSyscalls, 0, species⟩)

end Functions

/-! ### What they should do -/

section Specification

variable {β F : Type u} [Zero F]

/-- The organisms of a species are a list that ends in `NULL`.  Each of them has a chromosome and
the fitness zero. -/
structure HasOrganisms (m : Memory β F) (specie : β) (organisms : List β) : Prop where
  specie_live : specie ∈ m.heap.live
  chain : Chain m.sleNext (m.specie specie).organismList organisms
  organism_live : ∀ o ∈ organisms, o ∈ m.heap.live
  chromosome : ∀ o ∈ organisms, ∃ c ∈ m.heap.live, (m.organism o).chromosome = some c
  fitness : ∀ o ∈ organisms, (m.organism o).fitness = 0

/-- The list of a species is as long as a population.  No organism occurs twice on it. -/
def Populated (m : Memory β F) (specie : β) (organisms : List β) : Prop :=
  HasOrganisms m specie organisms ∧ organisms.length = SPECIES_POP ∧ organisms.Nodup

/-- The first elements of the array are populated species that share no organism. -/
def FirstPopulated (m : Memory β F) (species : List (Option β)) (k : ℕ) : Prop :=
  ∃ organisms : ℕ → List β,
    (∀ i < k, ∃ specie, species[i]? = some (some specie) ∧ Populated m specie (organisms i)) ∧
    ∀ i j, i < j → j < k → (organisms i).Disjoint (organisms j)

/-- Every syscall has its populated species. -/
def WorldPopulated (n : UInt32) (m : Memory β F) (world : Option (World β)) : Prop :=
  ∃ w, world = some w ∧ w.totalSpecies = n ∧ FirstPopulated m w.species n.toNat

end Specification

/-! ### What stays as it is -/

section Frame

variable {β F : Type u}

/-- Blocks are added, and what is stored in the old ones stays. -/
structure Extends (m m' : Memory β F) : Prop where
  obtained : m.heap.obtained ⊆ m'.heap.obtained
  live : m.heap.live ⊆ m'.heap.live
  specie : ∀ b ∈ m.heap.obtained, m'.specie b = m.specie b
  organism : ∀ b ∈ m.heap.obtained, m'.organism b = m.organism b
  sleNext : ∀ b ∈ m.heap.obtained, m'.sleNext b = m.sleNext b

theorem Extends.refl (m : Memory β F) :
  Extends m m
  := ⟨List.Subset.refl _, List.Subset.refl _, fun _ _ => rfl, fun _ _ => rfl, fun _ _ => rfl⟩

theorem HasOrganisms.of_extends [Zero F] {m m' : Memory β F} {specie : β} {organisms : List β}
    (h : HasOrganisms m specie organisms) (hextends : Extends m m') :
  HasOrganisms m' specie organisms
  := by
  have hold {o : β} (ho : o ∈ organisms) : o ∈ m.heap.obtained :=
    m.heap.live_subset (h.organism_live o ho)
  constructor
  · exact hextends.live h.specie_live
  · rw [hextends.specie specie (m.heap.live_subset h.specie_live)]
    apply h.chain.congr
    intro o ho
    exact hextends.sleNext o (hold ho)
  · intro o ho
    exact hextends.live (h.organism_live o ho)
  · intro o ho
    obtain ⟨c, hc, hchromosome⟩ := h.chromosome o ho
    rw [hextends.organism o (hold ho)]
    exact ⟨c, hextends.live hc, hchromosome⟩
  · intro o ho
    rw [hextends.organism o (hold ho)]
    exact h.fitness o ho

/-- One more species, with organisms none of which was there before. -/
theorem FirstPopulated.set [Zero F] {m m' : Memory β F} {species : List (Option β)} {i : ℕ}
    {specie : β} {organisms : List β} (h : FirstPopulated m species i) (hextends : Extends m m')
    (hi : i < species.length) (hpopulated : Populated m' specie organisms)
    (hnew : ∀ o ∈ organisms, o ∉ m.heap.obtained) :
  FirstPopulated m' (species.set i (some specie)) (i + 1)
  := by
  obtain ⟨before, hbefore, hdisjoint⟩ := h
  refine ⟨Function.update before i organisms, ?_, ?_⟩
  · intro j hj
    rcases Nat.lt_succ_iff_lt_or_eq.mp hj with hlt | rfl
    · obtain ⟨specie', hget, hhas, hlength, hnodup⟩ := hbefore j hlt
      refine ⟨specie', ?_, ?_⟩
      · rw [List.getElem?_set_ne (by omega), hget]
      · rw [Function.update_of_ne (by omega)]
        exact ⟨hhas.of_extends hextends, hlength, hnodup⟩
    · refine ⟨specie, List.getElem?_set_self hi, ?_⟩
      rw [Function.update_self]
      exact hpopulated
  · intro j k hjk hk
    rw [Function.update_of_ne (by omega)]
    rcases Nat.lt_succ_iff_lt_or_eq.mp hk with hlt | rfl
    · rw [Function.update_of_ne (by omega)]
      exact hdisjoint j k hjk hlt
    · rw [Function.update_self]
      obtain ⟨specie', -, hhas, -⟩ := hbefore j hjk
      intro o ho ho'
      exact hnew o ho' (m.heap.live_subset (hhas.organism_live o ho))

/-- A new block is obtained and nothing is stored. -/
theorem Extends.alloc {m m' : Memory β F} {a : Allocator β} {b : β} {heap : Heap β}
    (h : Extends m m') (halloc : m'.heap.alloc a = some (b, heap)) :
  Extends m { m' with heap := heap } ∧ b ∉ m.heap.obtained
  := by
  obtain ⟨hobtained, hlive, hfresh⟩ := Heap.alloc_eq_some halloc
  refine ⟨⟨?_, ?_, h.specie, h.organism, h.sleNext⟩, fun hb => hfresh (h.obtained hb)⟩
  · rw [hobtained]
    exact fun x hx => List.mem_cons_of_mem b (h.obtained hx)
  · rw [hlive]
    exact fun x hx => List.mem_cons_of_mem b (h.live hx)

variable [DecidableEq β] [Zero F]

/-- The insertion of a new organism to a new species. -/
theorem Extends.insert {m m' : Memory β F} {specie organism : β} (h : Extends m m')
    (hspecie : specie ∉ m.heap.obtained) (horganism : organism ∉ m.heap.obtained)
    (chromosome : β) :
  Extends m (m'.insert specie organism chromosome)
  := by
  have hne {b c : β} (hb : b ∈ m.heap.obtained) (hc : c ∉ m.heap.obtained) : b ≠ c :=
    fun heq => hc (heq ▸ hb)
  refine ⟨h.obtained, h.live, ?_, ?_, ?_⟩
  · intro b hb
    rw [← h.specie b hb]
    exact Function.update_of_ne (hne hb hspecie) _ _
  · intro b hb
    rw [← h.organism b hb]
    exact Function.update_of_ne (hne hb horganism) _ _
  · intro b hb
    rw [← h.sleNext b hb]
    exact Function.update_of_ne (hne hb horganism) _ _

/-- The list of the species starts with the new organism. -/
theorem HasOrganisms.insert {m : Memory β F} {specie organism chromosome : β} {organisms : List β}
    (h : HasOrganisms m specie organisms) (hnew : organism ∉ organisms)
    (horganism : organism ∈ m.heap.live) (hchromosome : chromosome ∈ m.heap.live) :
  HasOrganisms (m.insert specie organism chromosome) specie (organism :: organisms)
  := by
  have hself : (m.insert specie organism chromosome).organism organism = ⟨0, some chromosome⟩ :=
    Function.update_self _ _ _
  have hother {o : β} (ho : o ∈ organisms) :
      (m.insert specie organism chromosome).organism o = m.organism o := by
    have hne : o ≠ organism := fun heq => hnew (heq ▸ ho)
    exact Function.update_of_ne hne _ _
  constructor
  · exact h.specie_live
  · have hchain := insertHead_chain h.chain hnew
    have hhead : ((m.insert specie organism chromosome).specie specie).organismList
        = some organism := by
      simp [Memory.insert, insertHead]
    rw [hhead]
    exact hchain
  · rw [List.forall_mem_cons]
    exact ⟨horganism, h.organism_live⟩
  · rw [List.forall_mem_cons, hself]
    refine ⟨⟨chromosome, hchromosome, rfl⟩, ?_⟩
    intro o ho
    rw [hother ho]
    exact h.chromosome o ho
  · rw [List.forall_mem_cons, hself]
    refine ⟨rfl, ?_⟩
    intro o ho
    rw [hother ho]
    exact h.fitness o ho

end Frame

/-! ### The loops -/

section Loops

variable {β F : Type u} [DecidableEq β] [Zero F] {a : Allocator β}

/-- The inner loop adds organisms to the list of a new species as long as there are blocks. -/
theorem populate_spec {m₀ m : Memory β F} {specie : β} (n : ℕ) (organisms : List β)
    (hextends : Extends m₀ m) (hspecie : specie ∉ m₀.heap.obtained)
    (horganisms : HasOrganisms m specie organisms)
    (hnew : ∀ o ∈ organisms, o ∉ m₀.heap.obtained) :
  (∃ m' organisms', populate a specie n m = .ok (true, m') ∧ Extends m₀ m' ∧
    HasOrganisms m' specie organisms' ∧ (∀ o ∈ organisms', o ∉ m₀.heap.obtained) ∧
    organisms'.length = n + organisms.length ∧
    ∀ k, m.heap.Grants a (2 * n + k) ↔ m'.heap.Grants a k) ∨
  ∃ m', populate a specie n m = .ok (false, m') ∧ ∀ k, ¬ m.heap.Grants a (2 * n + k)
  := by
  induction n generalizing m organisms with
  | zero =>
      left
      refine ⟨m, organisms, rfl, hextends, horganisms, hnew, by simp, ?_⟩
      intro k
      rw [Nat.mul_zero, Nat.zero_add]
  | succ n ih =>
      have hcount (k : ℕ) : 2 * (n + 1) + k = 2 * n + k + 1 + 1 := by omega
      simp only [hcount]
      rw [populate]
      cases halloc₁ : m.heap.alloc a with
      | none =>
          right
          exact ⟨m, rfl, fun k => Heap.not_grants halloc₁ _⟩
      | some x =>
          obtain ⟨organism, heap₁⟩ := x
          simp only [Heap.grants_succ halloc₁]
          obtain ⟨hextends₁, horganism⟩ := hextends.alloc halloc₁
          have hlive₁ : organism ∈ heap₁.live := (Heap.mem_live_alloc halloc₁).mpr (.inl rfl)
          cases halloc₂ : heap₁.alloc a with
          | none =>
              right
              obtain ⟨heap, hfree, -⟩ := Heap.free_of_mem hlive₁
              refine ⟨{ m with heap := heap }, ?_, fun k => Heap.not_grants halloc₂ _⟩
              simp only [hfree]
              rfl
          | some y =>
              obtain ⟨chromosome, heap₂⟩ := y
              simp only [Heap.grants_succ halloc₂]
              obtain ⟨hextends₂, -⟩ := hextends₁.alloc halloc₂
              have hkept : Extends m { m with heap := heap₂ } :=
                (((Extends.refl m).alloc halloc₁).1.alloc halloc₂).1
              have hnotin : organism ∉ organisms := by
                intro hmem
                exact Heap.not_mem_live halloc₁ (horganisms.organism_live organism hmem)
              have hlive₂ : organism ∈ heap₂.live := (Heap.mem_live_alloc halloc₂).mpr (.inr hlive₁)
              have hnext := (horganisms.of_extends hkept).insert hnotin hlive₂
                ((Heap.mem_live_alloc halloc₂).mpr (.inl rfl))
              have hnew' : ∀ o ∈ organism :: organisms, o ∉ m₀.heap.obtained := by
                rw [List.forall_mem_cons]
                exact ⟨horganism, hnew⟩
              rcases ih (organism :: organisms) (hextends₂.insert hspecie horganism chromosome)
                hnext hnew' with ⟨m', organisms', hrun, hext, hhas, hnew'', hlength, hgrants⟩ | hfails
              · left
                refine ⟨m', organisms', hrun, hext, hhas, hnew'', ?_, hgrants⟩
                rw [hlength, List.length_cons]
                omega
              · right
                exact hfails

/-- The species that one iteration of the outer loop makes, before its population. -/
theorem hasOrganisms_nil {m : Memory β F} {specie : β} {heap : Heap β}
    (halloc : m.heap.alloc a = some (specie, heap)) :
  let m' := { m with heap := heap, specie := Function.update m.specie specie ⟨0, 0, none⟩ }
  Extends m m' ∧ HasOrganisms m' specie []
  := by
  intro m'
  obtain ⟨hextends, hnew⟩ := (Extends.refl m).alloc halloc
  constructor
  · refine ⟨hextends.obtained, hextends.live, ?_, hextends.organism, hextends.sleNext⟩
    intro b hb
    have hne : b ≠ specie := fun heq => hnew (heq ▸ hb)
    exact Function.update_of_ne hne _ _
  · refine ⟨(Heap.mem_live_alloc halloc).mpr (.inl rfl), ?_, by simp, by simp, by simp⟩
    rw [chain_nil]
    simp [m']

/-- The outer loop populates as many species as it has iterations if there are the blocks for
them, and the rest of the array is not written. -/
theorem createSpecies_spec {m : Memory β F} {species : List (Option β)} {i : ℕ} (n : ℕ)
    (hlength : i + n ≤ species.length) (hfirst : FirstPopulated m species i)
    (hrest : ∀ j, i ≤ j → j < species.length → species[j]? = some none) :
  (∃ species' m', createSpecies a n i species m = .ok (true, species', m') ∧
    FirstPopulated m' species' (i + n) ∧
    (∀ j, i + n ≤ j → j < species.length → species'[j]? = some none) ∧
    m.heap.Grants a (n * (2 * SPECIES_POP + 1))) ∨
  ∃ species' m', createSpecies a n i species m = .ok (false, species', m') ∧
    ¬ m.heap.Grants a (n * (2 * SPECIES_POP + 1))
  := by
  induction n generalizing m species i with
  | zero =>
      left
      refine ⟨species, m, rfl, hfirst, hrest, ?_⟩
      rw [Nat.zero_mul]
      trivial
  | succ n ih =>
      have hcount : (n + 1) * (2 * SPECIES_POP + 1) =
          2 * SPECIES_POP + n * (2 * SPECIES_POP + 1) + 1 := by
        rw [Nat.succ_mul]
        omega
      rw [createSpecies, hcount]
      cases halloc : m.heap.alloc a with
      | none =>
          right
          exact ⟨species, m, rfl, Heap.not_grants halloc _⟩
      | some x =>
          obtain ⟨specie, heap⟩ := x
          rw [Heap.grants_succ halloc]
          obtain ⟨hextends, hnil⟩ := hasOrganisms_nil halloc
          rcases populate_spec (a := a) SPECIES_POP [] hextends
            (Heap.alloc_eq_some halloc).2.2 hnil (by simp) with
            ⟨m', organisms, hrun, hextends', hhas, hnew, hpop, hgrants⟩ | ⟨m', hrun, hgrants⟩
          · have hi : i < species.length := by omega
            have hfirst' := hfirst.set hextends' hi ⟨hhas, hpop, hhas.chain.nodup⟩ hnew
            have hrest' : ∀ j, i + 1 ≤ j → j < (species.set i (some specie)).length →
                (species.set i (some specie))[j]? = some none := by
              intro j hj hlt
              rw [List.length_set] at hlt
              rw [List.getElem?_set_ne (by omega)]
              exact hrest j (by omega) hlt
            have hstep := ih (by rw [List.length_set]; omega) hfirst' hrest'
            rw [List.length_set, show i + 1 + n = i + (n + 1) by omega,
              ← hgrants (n * (2 * SPECIES_POP + 1))] at hstep
            simp only [hrun]
            exact hstep
          · right
            simp only [hrun]
            exact ⟨species, m', rfl, hgrants _⟩

end Loops

/-! ### The whole call -/

section World

variable {β F : Type u} [DecidableEq β] [Zero F]

/-- With enough blocks zero is returned, all species but the last are populated, and the last
element of the array is not written. -/
theorem initWorld_spec (a : Allocator β) (m : Memory β F) {n : UInt32} (hn : n ≠ 0) :
  (∃ m' w, initWorld a (some n) m = .ok (0, m', some w) ∧ w.totalSpecies = n ∧
    FirstPopulated m' w.species (n.toNat - 1) ∧ w.species[n.toNat - 1]? = some none ∧
    m.heap.Grants a ((n.toNat - 1) * (2 * SPECIES_POP + 1) + 2)) ∨
  ∃ m' world, initWorld a (some n) m = .ok (-1, m', world) ∧
    ¬ m.heap.Grants a ((n.toNat - 1) * (2 * SPECIES_POP + 1) + 2)
  := by
  have hpos : 0 < n.toNat := by
    rw [Nat.pos_iff_ne_zero]
    exact fun hzero => hn (UInt32.toNat_inj.mp hzero)
  have hbound : (n - 1).toNat = n.toNat - 1 := UInt32.toNat_sub_of_le n 1 hpos
  rw [initWorld]
  cases halloc₁ : m.heap.alloc a with
  | none =>
      right
      exact ⟨m, none, rfl, Heap.not_grants halloc₁ _⟩
  | some x =>
      obtain ⟨world, heap₁⟩ := x
      simp only [if_neg hn, Heap.grants_succ halloc₁]
      cases halloc₂ : heap₁.alloc a with
      | none =>
          right
          exact ⟨_, none, rfl, Heap.not_grants halloc₂ _⟩
      | some y =>
          obtain ⟨array, heap₂⟩ := y
          simp only [Heap.grants_succ halloc₂, hbound]
          have hfirst : FirstPopulated { m with heap := heap₂ }
              (List.replicate n.toNat none) 0 :=
            ⟨fun _ => [], nofun, nofun⟩
          have hrest : ∀ j, 0 ≤ j → j < (List.replicate n.toNat (none : Option β)).length →
              (List.replicate n.toNat (none : Option β))[j]? = some none := by
            intro j _ hj
            rw [List.length_replicate] at hj
            rw [List.getElem?_replicate_of_lt hj]
          rcases createSpecies_spec (a := a) (n.toNat - 1)
            (by rw [List.length_replicate]; omega) hfirst hrest with
            ⟨species, m', hrun, hpopulated, hlast, hgrants⟩ | ⟨species, m', hrun, hgrants⟩
          · left
            rw [List.length_replicate, Nat.zero_add] at hlast
            rw [Nat.zero_add] at hpopulated
            refine ⟨m', ⟨n, 0, species⟩, ?_, rfl, hpopulated, ?_, hgrants⟩
            · rw [hrun]
              rfl
            · exact hlast (n.toNat - 1) (Nat.le_refl _) (by omega)
          · right
            refine ⟨m', some ⟨n, 0, species⟩, ?_, hgrants⟩
            rw [hrun]
            rfl

/-- The world is populated only if it is not made: when zero is returned the last species is
missing, and all others are there. -/
theorem initWorld_populates_iff (a : Allocator β) (m : Memory β F) {n : UInt32} (hn : 1 ≤ n) :
  ((∀ m' world, initWorld a (some n) m = .ok (0, m', world) → WorldPopulated n m' world) ↔
    ¬ m.heap.Grants a ((n.toNat - 1) * (2 * SPECIES_POP + 1) + 2)) ∧
  ∀ m' world, initWorld a (some n) m = .ok (0, m', world) →
    ∃ w, world = some w ∧ w.totalSpecies = n ∧ FirstPopulated m' w.species (n.toNat - 1) ∧
      w.species[n.toNat - 1]? = some none
  := by
  have hpos : 1 ≤ n.toNat := UInt32.le_iff_toNat_le.mp hn
  have hne : n ≠ 0 := by
    rintro rfl
    cases hpos
  rcases initWorld_spec a m hne with ⟨m₁, w, hrun, htotal, hfirst, hlast, hgrants⟩ |
    ⟨m₁, world₁, hrun, hgrants⟩
  · constructor
    · apply iff_of_false
      · intro hall
        obtain ⟨w', hw, -, organisms, hpopulated, -⟩ := hall m₁ (some w) hrun
        cases hw
        obtain ⟨specie, hget, -⟩ := hpopulated (n.toNat - 1) (by omega)
        cases hlast.symm.trans hget
      · exact not_not_intro hgrants
    · intro m' world hrun'
      cases hrun.symm.trans hrun'
      exact ⟨w, rfl, htotal, hfirst, hlast⟩
  · constructor
    · apply iff_of_true _ hgrants
      intro m' world hrun'
      cases hrun.symm.trans hrun'
    · intro m' world hrun'
      cases hrun.symm.trans hrun'

/-- Memory in which nothing is allocated. -/
def emptyMemory : Memory ℕ ℤ where
  heap := .empty
  specie _ := ⟨0, 0, none⟩
  organism _ := ⟨0, none⟩
  sleNext _ := none

/-- A table with two syscalls: the first species is populated. -/
theorem initWorld_populates_two :
  ∃ m' world, initWorld (.firstBlocks 2003) (some 2) emptyMemory = .ok (0, m', some world) ∧
    world.totalSpecies = 2 ∧ FirstPopulated m' world.species 1 ∧ world.species[1]? = some none
  := by
  have hgrants : emptyMemory.heap.Grants (.firstBlocks 2003)
      (((2 : UInt32).toNat - 1) * (2 * SPECIES_POP + 1) + 2) :=
    Heap.grants_firstBlocks _ rfl (by decide)
  obtain ⟨m', world, hrun⟩ : ∃ m' world,
      initWorld (.firstBlocks 2003) (some 2) emptyMemory = .ok (0, m', world) := by
    rcases initWorld_spec (.firstBlocks 2003) emptyMemory (n := 2) (by decide) with
      ⟨m', w, hrun, -⟩ | ⟨-, -, -, hnot⟩
    · exact ⟨m', some w, hrun⟩
    · exact absurd hgrants hnot
  obtain ⟨w, rfl, htotal, hfirst, hlast⟩ :=
    (initWorld_populates_iff (.firstBlocks 2003) emptyMemory (n := 2) (by decide)).2 m' world hrun
  exact ⟨m', w, hrun, htotal, hfirst, hlast⟩

theorem initWorld_one_not_populated :
  ∃ m' world, initWorld (.firstBlocks 2) (some 1) emptyMemory = .ok (0, m', world) ∧
    ¬ WorldPopulated 1 m' world
  := by
  refine ⟨_, _, rfl, ?_⟩
  rintro ⟨w, hw, -, organisms, hpopulated, -⟩
  cases hw
  obtain ⟨specie, hget, -⟩ := hpopulated 0 (by decide)
  cases hget

end World

end Genetic
