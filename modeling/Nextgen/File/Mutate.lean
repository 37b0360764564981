import Nextgen.File.Seeds

/-!
# The mutators

`mutate_file` of `mutate.c` with the draws that its mutators make.  A draw is any number from
zero to the range, inclusive, and a file size is drawn as a `uint32_t`.
-/

open Bytes FileFuzzer

namespace Mutate

/-- What the calls of `range` in one call of `mutate_file` give, by the number of calls made
before.  A call may fail. -/
structure Generator where
  range : ℕ → ℕ → Option ℕ
  le : ∀ call r x, range call r = some x → x ≤ r

/-- The functions in `mutator_array`. -/
inductive Mutator where
  | flipByteMutator
  | flipBitMutator
  | xorMutator
  deriving DecidableEq, Repr

/-- `number_of_mutators`. -/
def numberOfMutators : ℕ := 3

/-- `mutator_array`. -/
def mutatorArray : List Mutator := [.flipByteMutator, .flipBitMutator, .xorMutator]

/-- The value that `mutate_file` returns, the file and its size afterwards, and the offsets at
which it writes. -/
structure Mutated where
  rtrn : ℤ
  file : Buffer
  fileSize : ℕ
  writes : List ℕ
  deriving DecidableEq, Repr

/-- A draw failed. -/
def failed (file : Buffer) : Mutated := ⟨-1, file, file.length, []⟩

/-- A mutator, after `mutate_file_randomly` has made one draw.  What is written behind the file
does not change it. -/
def Mutator.run (g : Generator) (file : Buffer) : Mutator → Mutated
  | flipByteMutator =>
      match g.range 1 (file.length % 2 ^ 32) with
      | none => failed file
      | some offset => ⟨0, FileFuzzer.mutateFile file (.flipByte offset), file.length, [offset]⟩
  | flipBitMutator =>
      match g.range 1 (file.length % 2 ^ 32) with
      | none => failed file
      | some offset =>
          match g.range 2 8 with
          | none => failed file
          | some bit =>
              ⟨0, FileFuzzer.mutateFile file (.flipBit offset bit), file.length, [offset]⟩
  | xorMutator => ⟨0, FileFuzzer.mutateFile file .xor, file.length, []⟩

/-- The mutator that `mutate_file_randomly` picks. -/
def chosen (g : Generator) : Option Mutator :=
  (g.range 0 (numberOfMutators - 1)).bind fun offset => mutatorArray[offset]?

/-- `mutate_file_randomly`. -/
def mutateFileRandomly (g : Generator) (file : Buffer) : Mutated :=
  match chosen g with
  | none => failed file
  | some mutator => mutator.run g file

/-- `mutate_file` for an extension that `supported_file` does not know. -/
def mutateFile (g : Generator) (file : Buffer) : Mutated :=
  let mutated := mutateFileRandomly g file
  { mutated with rtrn := if mutated.rtrn < 0 then -1 else 0 }

/-- One byte becomes its complement. -/
def FlipsByte (file file' : Buffer) : Prop :=
  ∃ k byte, file[k]? = some byte ∧ file' = file.set k (~~~byte)

/-- One bit of one byte is flipped. -/
def FlipsBit (file file' : Buffer) : Prop :=
  ∃ k byte bit, file[k]? = some byte ∧ bit < 8 ∧ file' = file.set k (byte ^^^ UInt8.ofNat (2 ^ bit))

/-- Nothing is written behind the file, its size stays, and the mutator that was picked
changes what its name says. -/
structure Exact (g : Generator) (file : Buffer) (m : Mutated) : Prop where
  writes : ∀ offset ∈ m.writes, offset < file.length
  fileSize : m.fileSize = file.length
  flipByte : chosen g = some .flipByteMutator → FlipsByte file m.file
  flipBit : chosen g = some .flipBitMutator → FlipsBit file m.file

/-- The numbers that the picked mutator draws are an offset in a file of the size and a bit of
a byte. -/
def Generator.Inside (g : Generator) (size : ℕ) : Prop :=
  match chosen g with
  | some .flipByteMutator => ∃ offset < size, g.range 1 (size % 2 ^ 32) = some offset
  | some .flipBitMutator =>
      (∃ offset < size, g.range 1 (size % 2 ^ 32) = some offset) ∧
        ∃ bit < 8, g.range 2 8 = some bit
  | _ => True

/-! ### What the mutators change -/

section Changes

variable {file : Buffer} {offset bit : ℕ}

/-- A byte that is replaced by another one is a change. -/
theorem set_ne_self {k : ℕ} {byte byte' : UInt8} (hk : file[k]? = some byte)
    (hne : byte' ≠ byte) :
  file.set k byte' ≠ file
  := by
  intro heq
  apply hne
  obtain ⟨hlt, -⟩ := List.getElem?_eq_some_iff.mp hk
  have hset := List.getElem?_set_self (a := byte') hlt
  rw [heq, hk] at hset
  exact (Option.some.inj hset).symm

theorem modify_eq_set {f : UInt8 → UInt8} {byte : UInt8} (h : file[offset]? = some byte) :
  file.modify offset f = file.set offset (f byte)
  := by
  rw [List.modify_eq_set, h]
  rfl

theorem not_flipsByte_self :
  ¬ FlipsByte file file
  := by
  rintro ⟨k, byte, hk, heq⟩
  exact set_ne_self hk (complement_ne_self byte) heq.symm

theorem not_flipsBit_self :
  ¬ FlipsBit file file
  := by
  rintro ⟨k, byte, bit, hk, hbit, heq⟩
  have hmask := mt (mask_eq_zero_iff bit).mp (Nat.not_le_of_lt hbit)
  exact set_ne_self hk (xor_ne_self hmask byte) heq.symm

theorem flipsByte_iff :
  FlipsByte file (FileFuzzer.mutateFile file (.flipByte offset)) ↔ offset < file.length
  := by
  constructor
  · intro h
    by_contra hle
    have hidle : Mutation.Idle file.length (.flipByte offset) := Nat.le_of_not_lt hle
    rw [(mutateFile_eq_self_iff _).mpr hidle] at h
    exact not_flipsByte_self h
  · intro hlt
    have hget := List.getElem?_eq_getElem hlt
    exact ⟨offset, _, hget, modify_eq_set hget⟩

theorem flipsBit_iff :
  FlipsBit file (FileFuzzer.mutateFile file (.flipBit offset bit)) ↔
    offset < file.length ∧ bit < 8
  := by
  constructor
  · intro h
    by_contra hnot
    have hidle : Mutation.Idle file.length (.flipBit offset bit) := by
      rw [Mutation.Idle]
      omega
    rw [(mutateFile_eq_self_iff _).mpr hidle] at h
    exact not_flipsBit_self h
  · rintro ⟨hlt, hbit⟩
    have hget := List.getElem?_eq_getElem hlt
    exact ⟨offset, _, bit, hget, hbit, modify_eq_set hget⟩

end Changes

/-! ### Draws -/

section Draws

variable {g : Generator} {file : Buffer}

/-- `mutate_file` keeps what is done to the file. -/
theorem exact_mutateFile_iff :
  Exact g file (mutateFile g file) ↔ Exact g file (mutateFileRandomly g file)
  := by
  constructor
  · rintro ⟨hwrites, hsize, hbyte, hbit⟩
    exact ⟨hwrites, hsize, hbyte, hbit⟩
  · rintro ⟨hwrites, hsize, hbyte, hbit⟩
    exact ⟨hwrites, hsize, hbyte, hbit⟩

theorem exact_flipByteMutator_iff (h : chosen g = some .flipByteMutator) :
  Exact g file (Mutator.flipByteMutator.run g file) ↔
    ∃ offset < file.length, g.range 1 (file.length % 2 ^ 32) = some offset
  := by
  rw [Mutator.run]
  constructor
  · intro hexact
    have hflips := hexact.flipByte h
    split at hflips
    · exact absurd hflips not_flipsByte_self
    · rename_i offset hoffset
      exact ⟨offset, flipsByte_iff.mp hflips, hoffset⟩
  · rintro ⟨offset, hlt, hoffset⟩
    rw [hoffset]
    constructor
    · simpa using hlt
    · rfl
    · intro _
      exact flipsByte_iff.mpr hlt
    · intro hbit
      rw [h] at hbit
      cases hbit

theorem exact_flipBitMutator_iff (h : chosen g = some .flipBitMutator) :
  Exact g file (Mutator.flipBitMutator.run g file) ↔
    (∃ offset < file.length, g.range 1 (file.length % 2 ^ 32) = some offset) ∧
      ∃ bit < 8, g.range 2 8 = some bit
  := by
  rw [Mutator.run]
  constructor
  · intro hexact
    have hflips := hexact.flipBit h
    split at hflips
    · exact absurd hflips not_flipsBit_self
    · rename_i offset hoffset
      split at hflips
      · exact absurd hflips not_flipsBit_self
      · rename_i bit hbit
        have ⟨hlt, hlt'⟩ := flipsBit_iff.mp hflips
        exact ⟨⟨offset, hlt, hoffset⟩, bit, hlt', hbit⟩
  · rintro ⟨⟨offset, hlt, hoffset⟩, bit, hlt', hbit⟩
    rw [hoffset, hbit]
    constructor
    · simpa using hlt
    · rfl
    · intro hbyte
      rw [h] at hbyte
      cases hbyte
    · intro _
      exact flipsBit_iff.mpr ⟨hlt, hlt'⟩

theorem rtrn_failed_neg (file : Buffer) :
  (failed file).rtrn < 0
  := Int.negSucc_lt_zero 0

theorem inMapping_of_range {call pageSize offset : ℕ} (hpage : ¬ pageSize ∣ file.length)
    (h : g.range call (file.length % 2 ^ 32) = some offset) :
  InMapping pageSize file.length offset
  := ⟨g.le _ _ _ h, fun _ => hpage⟩

/-- A call that succeeds makes one of the mutations of the main loop, which can draw it unless
the file ends with a page. -/
theorem exists_mutation_of_rtrn (h : (mutateFile g file).rtrn = 0) :
  ∃ m : Mutation, (mutateFile g file).file = FileFuzzer.mutateFile file m ∧
    ∀ pageSize, ¬ pageSize ∣ file.length → m.Drawn pageSize file.length
  := by
  have hrtrn : ¬ (mutateFileRandomly g file).rtrn < 0 := by
    intro hneg
    rw [mutateFile, if_pos hneg] at h
    cases h
  show ∃ m : Mutation, (mutateFileRandomly g file).file = FileFuzzer.mutateFile file m ∧ _
  rw [mutateFileRandomly] at hrtrn ⊢
  split at hrtrn
  · exact absurd (rtrn_failed_neg file) hrtrn
  · rename_i mutator hchosen
    cases mutator with
    | flipByteMutator =>
        rw [Mutator.run] at hrtrn ⊢
        split at hrtrn
        · exact absurd (rtrn_failed_neg file) hrtrn
        · rename_i offset hoffset
          exact ⟨.flipByte offset, rfl, fun _ hpage => inMapping_of_range hpage hoffset⟩
    | flipBitMutator =>
        rw [Mutator.run] at hrtrn ⊢
        split at hrtrn
        · exact absurd (rtrn_failed_neg file) hrtrn
        · rename_i offset hoffset
          split at hrtrn
          · exact absurd (rtrn_failed_neg file) hrtrn
          · rename_i bit hbit
            refine ⟨.flipBit offset bit, rfl, fun _ hpage => ?_⟩
            exact ⟨inMapping_of_range hpage hoffset, g.le _ _ _ hbit⟩
    | xorMutator => exact ⟨.xor, rfl, fun _ _ => trivial⟩

end Draws

/-- `mutate_file` stays inside the file and changes what it says exactly when the mutator it
picks, if it changes anything, draws an offset before the end of the file and a bit of a
byte. -/
theorem exact_iff_inside (g : Generator) (file : Buffer) :
  Exact g file (mutateFile g file) ↔ g.Inside file.length
  := by
  rw [exact_mutateFile_iff, mutateFileRandomly, Generator.Inside]
  cases h : chosen g with
  | none =>
      apply iff_of_true _ trivial
      constructor <;> simp [failed, h]
  | some mutator =>
      cases mutator with
      | flipByteMutator => exact exact_flipByteMutator_iff h
      | flipBitMutator => exact exact_flipBitMutator_iff h
      | xorMutator =>
          apply iff_of_true _ trivial
          constructor <;> simp [Mutator.run, h]

/-- A generator that gives chosen numbers where they are in the range. -/
def constantly (mutator offset bit : ℕ) : Generator where
  range call r := ([mutator, offset, bit][call]?).filter (· ≤ r)
  le := by
    intro call r x h
    have hx := (Option.filter_eq_some_iff.mp h).2
    exact of_decide_eq_true hx

/-- The size of the file is drawn as the offset, and eight as the bit. -/
theorem not_exact_bounds :
  (mutateFile (constantly 0 1 0) [7]).writes = [1] ∧
    ¬ Exact (constantly 0 1 0) [7] (mutateFile (constantly 0 1 0) [7]) ∧
    (mutateFile (constantly 1 0 8) [7]).file = [7] ∧
    ¬ Exact (constantly 1 0 8) [7] (mutateFile (constantly 1 0 8) [7])
  := by
  refine ⟨rfl, ?_, by decide, ?_⟩
  · intro h
    exact absurd (h.writes 1 (by decide)) (by decide)
  · intro h
    have hfile : (mutateFile (constantly 1 0 8) [7]).file = [7] := by decide
    have hflips := h.flipBit rfl
    rw [hfile] at hflips
    exact not_flipsBit_self hflips

end Mutate
