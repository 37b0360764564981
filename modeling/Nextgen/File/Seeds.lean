import Nextgen.File.Loop

/-!
# The seeds of the file fuzzer

The mutators work on a shared mapping of the seed they mutate, and so each of them changes the
seed unless it has no effect at all.  A test case is written over a seed that has its path.
-/

open Bytes Transition

namespace FileFuzzer

/-- A mutation without an effect on a file of a size: the mutator that does nothing, the byte
behind the file, or the bit behind a byte. -/
def Mutation.Idle (size : ℕ) : Mutation → Prop
  | .flipByte offset => size ≤ offset
  | .flipBit offset bit => size ≤ offset ∨ 8 ≤ bit
  | .xor => True

instance (size : ℕ) : ∀ m : Mutation, Decidable (m.Idle size)
  | .flipByte offset => inferInstanceAs (Decidable (size ≤ offset))
  | .flipBit offset bit => inferInstanceAs (Decidable (size ≤ offset ∨ 8 ≤ bit))
  | .xor => isTrue trivial

/-- All seeds are as they were, and each test case that was run has the size of a seed and is the
seed, as it was, with one mutation. -/
structure Unaltered (cfg : Config) (t : Files) (s : State) : Prop where
  seeds : ∀ p ∈ cfg.fileArray, s.files.read p = t.read p
  tested : ∀ c ∈ s.tested, ∃ p ∈ cfg.fileArray, ∃ bytes, t.read p = some bytes ∧
    c.bytes = mutateFile bytes c.mutation ∧ c.bytes.length = bytes.length

/-- An iteration that mutates a seed, which held `bytes`, is harmless if the mutation has no effect
and the test case does not have the path of a seed.  A test case with the path of a seed is
harmless, too, if the iteration leaves there what the seed held; and if it is the seed that was
mutated, whose bytes are zeros when the target runs, if those zeros are a seed with the
mutation. -/
structure Spares (cfg : Config) (s : State) (a : Iteration) (seed : Path) (bytes : Buffer) :
    Prop where
  mutation : a.outcome.opens = false ∨ a.filePath ≠ seed → a.mutation.Idle bytes.length
  testCase : a.filePath ∈ cfg.fileArray → a.outcome.opens = true → s.files.read a.filePath
    = a.outcome.leaves (testBytes seed a (mutateFile bytes a.mutation))
  tested : a.filePath = seed → a.outcome.runs = true →
    ∃ p ∈ cfg.fileArray,
      s.files.read p = some (mutateFile (List.replicate bytes.length 0) a.mutation)

/-- An iteration that is made has no effect on the seeds. -/
def Harmless (cfg : Config) (s : State) (a : Iteration) : Prop :=
  step cfg s a ≠ none → a.outcome.mutates = true →
    ∀ seed bytes, cfg.fileArray[a.offset]? = some seed → s.files.read seed = some bytes →
      Spares cfg s a seed bytes

/-! ### Mutations -/

section Mutations

variable {file : Buffer} {offset : ℕ}

theorem length_mutateFile (file : Buffer) (m : Mutation) :
  (mutateFile file m).length = file.length
  := by
  cases m <;> simp [mutateFile]

/-- A change of one byte that no byte survives is a change of the file unless it is behind it. -/
theorem modify_eq_self_iff {f : UInt8 → UInt8} (hf : ∀ byte, f byte ≠ byte) :
  file.modify offset f = file ↔ file.length ≤ offset
  := by
  constructor
  · intro heq
    by_contra hlt
    have hget := List.getElem?_eq_getElem (Nat.lt_of_not_le hlt)
    have hmodify := List.getElem?_modify_eq f offset file
    rw [heq, hget] at hmodify
    apply hf _ (Option.some.inj hmodify).symm
  · intro hle
    apply List.modify_eq_self hle

theorem complement_ne_self (byte : UInt8) :
  ~~~byte ≠ byte
  := by
  intro heq
  have hbit := congrArg (fun b => b.toBitVec.getLsbD 0) heq
  simp at hbit

theorem xor_ne_self {mask : UInt8} (h : mask ≠ 0) (byte : UInt8) :
  byte ^^^ mask ≠ byte
  := by
  intro heq
  apply h
  have hmask : byte ^^^ (byte ^^^ mask) = byte ^^^ byte := by rw [heq]
  simpa [← UInt8.xor_assoc] using hmask

/-- The mask of a bit of a byte, and of a bit behind it. -/
theorem mask_eq_zero_iff (bit : ℕ) :
  UInt8.ofNat (2 ^ bit) = 0 ↔ 8 ≤ bit
  := by
  constructor
  · intro hzero
    by_contra hlt
    have hne : ∀ bit < 8, UInt8.ofNat (2 ^ bit) ≠ 0 := by decide
    apply hne bit (Nat.lt_of_not_le hlt) hzero
  · intro hle
    obtain ⟨k, rfl⟩ := Nat.exists_eq_add_of_le hle
    apply UInt8.toNat_inj.mp
    rw [UInt8.toNat_ofNat', Nat.pow_add]
    simp

/-- A mutation that is made twice undoes itself. -/
theorem mutateFile_mutateFile (file : Buffer) (m : Mutation) :
  mutateFile (mutateFile file m) m = file
  := by
  have hmodify : ∀ (f : UInt8 → UInt8) (offset : ℕ), (∀ byte, f (f byte) = byte) →
      (file.modify offset f).modify offset f = file := by
    intro f offset hf
    rw [List.modify_modify_eq, show f ∘ f = id from funext hf]
    apply List.modify_id
  cases m with
  | flipByte offset =>
      apply hmodify
      intro byte
      apply UInt8.not_not
  | flipBit offset bit =>
      apply hmodify
      intro byte
      rw [UInt8.xor_assoc, UInt8.xor_self, UInt8.xor_zero]
  | xor => rfl

theorem mutateFile_eq_self_iff (m : Mutation) :
  mutateFile file m = file ↔ m.Idle file.length
  := by
  cases m with
  | flipByte offset => apply modify_eq_self_iff complement_ne_self
  | flipBit offset bit =>
      by_cases hbit : 8 ≤ bit
      · simp only [mutateFile, Mutation.Idle, hbit, or_true, iff_true,
          (mask_eq_zero_iff bit).mpr hbit, UInt8.xor_zero]
        apply List.modify_id
      · have hmask := mt (mask_eq_zero_iff bit).mp hbit
        simp only [mutateFile, Mutation.Idle, hbit, or_false]
        apply modify_eq_self_iff (xor_ne_self hmask)
  | xor => simp [mutateFile, Mutation.Idle]

end Mutations

/-! ### Iterations -/

section Steps

variable {cfg : Config} {t : Files} {s s' : State} {a : Iteration} {seed : Path} {bytes : Buffer}

/-- The mutated bytes are in the seed afterwards, unless the test case was written over them. -/
theorem Mutates.read_seed (h : Mutates cfg s a s' seed bytes)
    (hkept : a.outcome.opens = false ∨ a.filePath ≠ seed) :
  s'.files.read seed = some (mutateFile bytes a.mutation)
  := by
  have hfile : (s.files.read seed).isSome := Option.isSome_iff_exists.mpr ⟨bytes, h.read⟩
  have hread := FileTree.read_store_self (b := mutateFile bytes a.mutation) hfile
  rcases hkept with hunopened | hne
  · rw [h.unopened hunopened, hread]
  · rw [FileTree.read_congr (h.node seed hne.symm), hread]

/-- Any other file is left alone, unless the test case was written over it. -/
theorem Mutates.read_of_ne (h : Mutates cfg s a s' seed bytes) {p : Path} (hne : p ≠ seed)
    (hkept : a.outcome.opens = false ∨ a.filePath ≠ p) :
  s'.files.read p = s.files.read p
  := by
  have hread := FileTree.read_congr
    (FileTree.node_store_of_ne (t := s.files) (b := mutateFile bytes a.mutation) hne)
  rcases hkept with hunopened | hne'
  · rw [h.unopened hunopened, hread]
  · rw [FileTree.read_congr (h.node p hne'.symm), hread]

/-- The seeds are as they were after an iteration that spares them. -/
theorem Spares.read (h : Spares cfg s a seed bytes) (hm : Mutates cfg s a s' seed bytes) {p : Path}
    (hp : p ∈ cfg.fileArray) :
  s'.files.read p = s.files.read p
  := by
  by_cases hkept : a.outcome.opens = false ∨ a.filePath ≠ p
  · by_cases hpseed : p = seed
    · subst hpseed
      rw [hm.read_seed hkept, (mutateFile_eq_self_iff a.mutation).mpr (h.mutation hkept), hm.read]
    · apply hm.read_of_ne hpseed hkept
  · obtain ⟨hopened, rfl⟩ : a.outcome.opens = true ∧ a.filePath = p := by
      simpa using hkept
    rw [hm.opened hopened, h.testCase hp hopened]

/-- The test case is a seed with the mutation. -/
theorem Spares.testBytes (h : Spares cfg s a seed bytes) (hm : Mutates cfg s a s' seed bytes)
    (hruns : a.outcome.runs = true) :
  ∃ p ∈ cfg.fileArray, ∃ b, s.files.read p = some b ∧
    testBytes seed a (mutateFile bytes a.mutation) = mutateFile b a.mutation
  := by
  by_cases hpath : a.filePath = seed
  · obtain ⟨p, hp, hread⟩ := h.tested hpath hruns
    refine ⟨p, hp, _, hread, ?_⟩
    rw [mutateFile_mutateFile, FileFuzzer.testBytes, if_pos hpath, length_mutateFile]
  · refine ⟨seed, List.mem_of_getElem? hm.picked, bytes, hm.read, ?_⟩
    rw [FileFuzzer.testBytes, if_neg hpath]

theorem step_unaltered (h : Unaltered cfg t s) (hharmless : Harmless cfg s a)
    (hstep : step cfg s a = some s') :
  Unaltered cfg t s'
  := by
  obtain ⟨-, rfl⟩ | ⟨hmutates, seed, bytes, hm⟩ := step_cases hstep
  · exact ⟨h.seeds, h.tested⟩
  · have hne : step cfg s a ≠ none := by simp [hstep]
    have hspares := hharmless hne hmutates seed bytes hm.picked hm.read
    constructor
    · intro p hp
      rw [hspares.read hm hp, h.seeds p hp]
    · intro c hc
      rw [hm.tested] at hc
      rcases List.mem_append.mp hc with hc | hc
      · apply h.tested c hc
      · split at hc
        · rename_i hruns
          cases List.mem_singleton.mp hc
          obtain ⟨p, hp, b, hb, hbytes⟩ := hspares.testBytes hm hruns
          refine ⟨p, hp, b, ?_, hbytes, ?_⟩
          · rw [← h.seeds p hp, hb]
          · rw [hbytes, length_mutateFile]
        · cases hc

/-- An iteration that leaves the seeds as they were, and runs one of them with a mutation, spares
them. -/
theorem spares_of_unaltered (h : Unaltered cfg t s) (h' : Unaltered cfg t s')
    (hm : Mutates cfg s a s' seed bytes) :
  Spares cfg s a seed bytes
  := by
  have hsame : ∀ p ∈ cfg.fileArray, s'.files.read p = s.files.read p := by
    intro p hp
    rw [h'.seeds p hp, h.seeds p hp]
  constructor
  · intro hkept
    have hseed := List.mem_of_getElem? hm.picked
    apply (mutateFile_eq_self_iff a.mutation).mp
    apply Option.some.inj
    rw [← hm.read_seed hkept, hsame seed hseed, hm.read]
  · intro hp hopened
    rw [← hsame a.filePath hp, hm.opened hopened]
  · intro hpath hruns
    have hlast : ⟨a.mutation, testBytes seed a (mutateFile bytes a.mutation)⟩ ∈ s'.tested := by
      rw [hm.tested, if_pos hruns]
      apply List.mem_append_right _ (List.mem_singleton_self _)
    obtain ⟨p, hp, b, hb, hbytes, -⟩ := h'.tested _ hlast
    refine ⟨p, hp, ?_⟩
    rw [h.seeds p hp, hb]
    -- the zeros that were run, with the mutation, are the seed
    simp only [testBytes, if_pos hpath, length_mutateFile] at hbytes
    rw [hbytes, mutateFile_mutateFile]

/-- An iteration that leaves the seeds as they were is harmless. -/
theorem harmless_of_unaltered (h : Unaltered cfg t s) (h' : Unaltered cfg t s')
    (hstep : step cfg s a = some s') :
  Harmless cfg s a
  := by
  intro _ hmutates seed bytes hpicked hread
  obtain ⟨hnot, -⟩ | ⟨-, seed', bytes', hm⟩ := step_cases hstep
  · rw [hmutates] at hnot
    cases hnot
  · cases hpicked.symm.trans hm.picked
    cases hread.symm.trans hm.read
    apply spares_of_unaltered h h' hm

end Steps

/-- Along every run of the loop the seeds are as they were before it, and each test case that is
run is one of them with one mutation, if and only if no mutation that is made has an effect and no
test case is written over a seed, or is at least left with what that seed held. -/
theorem unaltered_iff (cfg : Config) (t : Files) (iterations : List Iteration) :
  AllStates (step cfg) (Unaltered cfg t) (State.init t) iterations ↔
    AllSteps (step cfg) (Harmless cfg) (State.init t) iterations
  := by
  have hinit : Unaltered cfg t (State.init t) := by
    constructor
    · intro p _
      rfl
    · intro c hc
      cases hc
  apply allStates_iff_allSteps (I := fun _ => True) _ _ _ trivial hinit
  · intro s a s' _ _
    trivial
  · intro s a s' _ h hstep
    constructor
    · intro h'
      apply harmless_of_unaltered h h' hstep
    · intro hharmless
      apply step_unaltered h hharmless hstep
  · intro s a hstep hne
    cases hne hstep

/-- Two iterations on the seed of the small file system: the mutator that does nothing, and a flip
of the bit behind a byte. -/
theorem unaltered_xor :
  (run (step plainConfig) (State.init plainFiles)
      [plainIteration .xor .exited, plainIteration (.flipBit 0 8) .exited]).isSome ∧
    AllStates (step plainConfig) (Unaltered plainConfig plainFiles) (State.init plainFiles)
      [plainIteration .xor .exited, plainIteration (.flipBit 0 8) .exited]
  := by
  have hspares : ∀ (s : State) (m : Mutation), (∀ n, m.Idle n) →
      Harmless plainConfig s (plainIteration m .exited) := by
    intro s m hidle _ _ seed bytes hseed _
    cases hseed
    have hne : (plainIteration m .exited).filePath ≠ ["seed", "in"] := by
      show ["test", "tmp"] ≠ _
      decide
    refine ⟨fun _ => hidle _, fun hp => ?_, fun hpath => ?_⟩
    · cases hne (List.mem_singleton.mp hp)
    · cases hne hpath
  use rfl
  apply (unaltered_iff plainConfig plainFiles _).mpr
  refine ⟨hspares _ _ fun _ => trivial, fun s _ => ⟨hspares _ _ fun _ => .inr ?_, ?_⟩⟩
  · exact Nat.le_refl 8
  · intro s' _
    trivial

/-- A flipped byte stays in the seed. -/
theorem unaltered_not_flipByte :
  ¬ AllStates (step plainConfig) (Unaltered plainConfig plainFiles) (State.init plainFiles)
    [plainIteration (.flipByte 0) .exited]
  := by
  rintro ⟨-, h⟩
  obtain ⟨hseeds, -⟩ := h _ rfl
  cases hseeds ["seed", "in"] List.mem_cons_self

/-- A seed in `/tmp` is removed with a test case of its name, which is run with zeros for the bytes
of the seed. -/
example :
  (run (step ⟨[["test", "tmp"]], 4096⟩)
      (State.init ((plainFiles.create ["test", "tmp"] [1, 2]).getD plainFiles))
      [plainIteration .xor .exited]).map
    (fun s => (s.files.read ["test", "tmp"], s.tested)) = some (none, [⟨.xor, [0, 0]⟩])
  := rfl

end FileFuzzer
