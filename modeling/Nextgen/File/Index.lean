import Mathlib.Data.List.TakeWhile
import Nextgen.Lib.Transition
import Nextgen.Utils.Names

/-!
# The index of the seeds

`setup_file_module` counts the regular files of the input directory and then makes an array of them
in a second walk.  The count is added to the static `file_count`, so only the first successful call
leaves the number of the seeds there.  The paths are set before anything can fail, and the array is
set to `NULL` when the second walk fails.
-/

open Bytes Transition Utils

namespace FileIndex

/-- The calls that are made for one entry of the directory and may fail: `asprintf` for the path in
both walks, and in `init_file_ctx` the allocation, the two copies, `open` and `get_file_size`. -/
inductive EntryCall where
  | countPath
  | initPath
  | context
  | extension
  | copy
  | open
  | size
  deriving DecidableEq, Repr

/-- An entry of the directory: its name, the mode that `stat` gives unless it fails, the size of the
file, and the calls for it that fail. -/
structure Entry where
  dName : Buffer
  mode : Option UInt32
  size : ℕ
  fails : EntryCall → Bool

/-- The other calls that may fail. -/
inductive SetupCall where
  | openCount
  | closeCount
  | array
  | openInit
  deriving DecidableEq, Repr

/-- A call of `setup_file_module` with the directory that it finds. -/
structure Call where
  stop : ℕ
  execPath : Buffer
  input : Buffer
  entries : List Entry
  fails : SetupCall → Bool

/-- `struct file_ctx`. -/
structure FileCtx where
  path : Buffer
  extension : Buffer
  size : ℕ

/-- The static variables.  An element of the array has no value until it is written. -/
structure State where
  pathToExec : Option Buffer
  inputDir : Option Buffer
  fileCount : UInt32
  fileArray : Option (List (Option FileCtx))
  stopPtr : Option ℕ
  setup : Bool

/-- Where the program begins. -/
def State.init : State := ⟨none, none, 0, none, none, false⟩

/-- A write past the end of the array. -/
inductive Fault where
  | outOfBounds (index : ℕ)
  deriving DecidableEq, Repr

/-! ### The functions -/

def S_IFREG : UInt32 := 0o100000

def Entry.hidden (e : Entry) : Bool := e.dName.head? = some period

/-- The path that both walks make for an entry. -/
def Entry.path (dir : Buffer) (e : Entry) : Buffer := dir ++ [slash] ++ e.dName

/-- The loop of `count_files_directory`. -/
def countLoop : List Entry → UInt32 → Bool × UInt32
  | [], count => (true, count)
  | e :: entries, count =>
      if e.hidden then countLoop entries count
      else if e.fails .countPath then (false, count)
      else
        match e.mode with
        | none => (false, count)
        | some mode => countLoop entries (if mode &&& S_IFREG ≠ 0 then count + 1 else count)

/-- `count_files_directory`. -/
def countFilesDirectory (c : Call) (count : UInt32) : Bool × UInt32 :=
  if c.fails .openCount then (false, count)
  else
    match countLoop c.entries count with
    | (false, count) => (false, count)
    | (true, count) => (!c.fails .closeCount, count)

/-- `init_file_ctx`. -/
def initFileCtx (path : Buffer) (e : Entry) : Option FileCtx :=
  if e.fails .context then none
  else
    match getExtension path (if e.fails .extension then some .extension else none) with
    | none => none
    | some extension =>
        if e.fails .copy then none
        else if e.fails .open then none
        else if e.fails .size then none
        else some ⟨path, extension, e.size⟩

/-- The loop of `init_file_array`, with the element that is written next. -/
def initLoop (inputDir : Buffer) :
    List Entry → ℕ → List (Option FileCtx) → Except Fault (Option (ℕ × List (Option FileCtx)))
  | [], indexCounter, array => .ok (some (indexCounter, array))
  | e :: entries, indexCounter, array =>
      if e.hidden then initLoop inputDir entries indexCounter array
      else if e.fails .initPath then .ok none
      else
        match e.mode with
        | none => .ok none
        | some mode =>
            if mode &&& S_IFREG ≠ 0 then
              if indexCounter < array.length then
                match initFileCtx (e.path inputDir) e with
                | none => .ok none
                | some file =>
                    initLoop inputDir entries (indexCounter + 1) (array.set indexCounter (some file))
              else .error (.outOfBounds indexCounter)
            else initLoop inputDir entries indexCounter array

/-- `init_file_array`.  `mem_alloc` gives no memory for no bytes. -/
def initFileArray (c : Call) (inputDir : Buffer) (size : ℕ) :
    Except Fault (Option (List (Option FileCtx))) :=
  if size = 0 then .ok none
  else if c.fails .array then .ok none
  else if c.fails .openInit then .ok none
  else
    (initLoop inputDir c.entries 0 (List.replicate size none)).map fun
      | none => none
      | some (indexCounter, array) => if indexCounter = 0 then none else some array

/-- `setup_file_module`. -/
def setupFileModule (s : State) (c : Call) : Except Fault (ℤ × State) :=
  let s := { s with pathToExec := some c.execPath, inputDir := some c.input }
  match countFilesDirectory c s.fileCount with
  | (false, count) => .ok (-1, { s with fileCount := count })
  | (true, count) =>
      (initFileArray c c.input count.toNat).map fun array =>
        let s := { s with fileCount := count, fileArray := array }
        if array.isSome then (0, { s with stopPtr := some c.stop, setup := true }) else (-1, s)

def step (s : State) (c : Call) : Option State :=
  match setupFileModule s c with
  | .ok (_, s') => some s'
  | .error _ => none

/-! ### What they should do -/

/-- `file_count` is the number of elements of `file_array` that have a value, and every one that
`get_file` can draw has. -/
def State.Indexed (s : State) : Prop :=
  ∃ array, s.fileArray = some array ∧ s.fileCount.toNat = array.countP Option.isSome ∧
    ∀ offset ≤ s.fileCount - 1, ∃ file, array[offset.toNat]? = some (some file)

/-- The call writes to elements of the array only.  A successful call leaves an index of the seeds,
and a failed one leaves the variables as they were. -/
def IndexMatches (s : State) (c : Call) : Prop :=
  ∃ rtrn s', setupFileModule s c = .ok (rtrn, s') ∧
    (rtrn = 0 → s'.Indexed) ∧
    (rtrn = -1 → s'.pathToExec = s.pathToExec ∧ s'.inputDir = s.inputDir ∧
      s'.fileCount = s.fileCount ∧ s'.fileArray = s.fileArray)

/-! ### What the calls depend on -/

/-- The entry is a regular file, or one whose mode has the same bit, and is not hidden. -/
def Entry.isSeed (e : Entry) : Bool :=
  !e.hidden && e.mode.any fun mode => decide (mode &&& S_IFREG ≠ 0)

/-- The first walk does not fail at the entry. -/
def Entry.counts (e : Entry) : Bool :=
  e.hidden || (!e.fails .countPath && e.mode.isSome)

/-- The second walk does not fail at the entry. -/
def Entry.inits (inputDir : Buffer) (e : Entry) : Bool :=
  e.hidden || (!e.fails .initPath && e.mode.isSome &&
    (!e.isSeed || (initFileCtx (e.path inputDir) e).isSome))

/-- The number of seeds. -/
def Call.seeds (c : Call) : ℕ := c.entries.countP Entry.isSeed

/-- The number of seeds that the first walk gets to. -/
def Call.counted (c : Call) : ℕ :=
  if c.fails .openCount then 0 else (c.entries.takeWhile Entry.counts).countP Entry.isSeed

/-- The first walk succeeds. -/
def Call.Counts (c : Call) : Prop :=
  c.fails .openCount = false ∧ (∀ e ∈ c.entries, e.counts) ∧ c.fails .closeCount = false

/-- All calls succeed, there is a seed, and their number fits in `file_count`. -/
def Call.Succeeds (c : Call) : Prop :=
  c.Counts ∧ c.fails .array = false ∧ c.fails .openInit = false ∧
    (∀ e ∈ c.entries, e.inits c.input) ∧ 0 < c.seeds ∧ c.seeds < 2 ^ 32

/-- A call after a successful one has the same paths, and its first walk fails before it has counted
a seed, or when the count has come round. -/
def Call.Repeats (first c : Call) : Prop :=
  c.execPath = first.execPath ∧ c.input = first.input ∧ ¬ c.Counts ∧ c.counted % 2 ^ 32 = 0

/-! ### The first walk -/

theorem countLoop_eq (entries : List Entry) (count : UInt32) :
  countLoop entries count = (entries.all Entry.counts,
    count + UInt32.ofNat ((entries.takeWhile Entry.counts).countP Entry.isSeed))
  := by
  induction entries generalizing count with
  | nil => simp [countLoop]
  | cons e entries ih =>
      rw [countLoop]
      by_cases hhidden : e.hidden
      · have hcounts : e.counts = true := by simp [Entry.counts, hhidden]
        have hseed : e.isSeed = false := by simp [Entry.isSeed, hhidden]
        simp [hhidden, ih, hcounts, hseed]
      · by_cases hpath : e.fails .countPath
        · have hcounts : e.counts = false := by simp [Entry.counts, hhidden, hpath]
          simp [hhidden, hpath, hcounts]
        · cases hmode : e.mode with
          | none =>
              have hcounts : e.counts = false := by simp [Entry.counts, hhidden, hmode]
              simp [hhidden, hpath, hcounts]
          | some mode =>
              have hcounts : e.counts = true := by simp [Entry.counts, hpath, hmode]
              by_cases hfile : mode &&& S_IFREG = 0
              · have hseed : e.isSeed = false := by simp [Entry.isSeed, hmode, hfile]
                simp [hhidden, hpath, ih, hcounts, hseed, hfile]
              · have hseed : e.isSeed = true := by simp [Entry.isSeed, hmode, hfile, hhidden]
                simp [hhidden, hpath, ih, hcounts, hseed, hfile, UInt32.ofNat_add,
                  UInt32.add_assoc, UInt32.add_comm 1]

theorem countFilesDirectory_fst (c : Call) (count : UInt32) :
  (countFilesDirectory c count).1 = true ↔ c.Counts
  := by
  rw [countFilesDirectory, countLoop_eq, Call.Counts, ← List.all_eq_true]
  cases c.fails .openCount with
  | true => simp
  | false => cases c.entries.all Entry.counts <;> simp

theorem countFilesDirectory_snd (c : Call) (count : UInt32) :
  (countFilesDirectory c count).2 = count + UInt32.ofNat c.counted
  := by
  rw [countFilesDirectory, countLoop_eq, Call.counted]
  cases c.fails .openCount with
  | true => simp
  | false => cases c.entries.all Entry.counts <;> simp

/-- When the first walk succeeds it counts all seeds. -/
theorem counted_of_counts {c : Call} (h : c.Counts) :
  c.counted = c.seeds
  := by
  obtain ⟨hopen, hall, -⟩ := h
  rw [Call.counted, hopen, if_neg Bool.false_ne_true, Call.seeds,
    List.takeWhile_eq_self_iff.mpr hall]

/-! ### The second walk -/

/-- An array whose first elements have values, and the others not. -/
def filled (files : List FileCtx) (n : ℕ) : List (Option FileCtx) :=
  files.map some ++ List.replicate n none

theorem length_filled (files : List FileCtx) (n : ℕ) :
  (filled files n).length = files.length + n
  := by
  rw [filled, List.length_append, List.length_map, List.length_replicate]

theorem set_filled (files : List FileCtx) (file : FileCtx) (n : ℕ) :
  (filled files (n + 1)).set files.length (some file) = filled (files ++ [file]) n
  := by
  rw [filled, List.replicate_succ, List.set_append_right _ _ (by rw [List.length_map])]
  simp [filled]

theorem countP_filled (files : List FileCtx) (n : ℕ) :
  (filled files n).countP Option.isSome = files.length
  := by
  simp [filled, List.countP_replicate, List.countP_map, Function.comp_def]

theorem getElem?_filled {files : List FileCtx} {i : ℕ} (hi : i < files.length) (n : ℕ) :
  ∃ file, (filled files n)[i]? = some (some file)
  := by
  refine ⟨files[i], ?_⟩
  rw [filled, List.getElem?_append_left (by rw [List.length_map]; exact hi), List.getElem?_map,
    List.getElem?_eq_getElem hi]
  rfl

/-- The second walk writes the seeds to the array one after the other, if no call fails and there is
room for them. -/
theorem initLoop_spec (inputDir : Buffer) (entries : List Entry) (files : List FileCtx) (n : ℕ) :
  (∃ files' n', initLoop inputDir entries files.length (filled files n) =
      .ok (some (files'.length, filled files' n')) ∧
    files'.length = files.length + entries.countP Entry.isSeed ∧
    files'.length + n' = files.length + n ∧ ∀ e ∈ entries, e.inits inputDir) ∨
  (∀ result, initLoop inputDir entries files.length (filled files n) ≠ .ok (some result)) ∧
    ¬ ((∀ e ∈ entries, e.inits inputDir) ∧ entries.countP Entry.isSeed ≤ n)
  := by
  induction entries generalizing files n with
  | nil =>
      left
      exact ⟨files, n, rfl, rfl, rfl, nofun⟩
  | cons e entries ih =>
      rw [initLoop, List.forall_mem_cons]
      by_cases hhidden : e.hidden
      · have hinits : e.inits inputDir = true := by simp [Entry.inits, hhidden]
        have hseed : e.isSeed = false := by simp [Entry.isSeed, hhidden]
        simpa [hhidden, hinits, hseed] using ih files n
      · by_cases hpath : e.fails .initPath
        · right
          have hinits : e.inits inputDir = false := by simp [Entry.inits, hhidden, hpath]
          simp [hhidden, hpath, hinits]
        · cases hmode : e.mode with
          | none =>
              right
              have hinits : e.inits inputDir = false := by simp [Entry.inits, hhidden, hmode]
              simp [hhidden, hpath, hinits]
          | some mode =>
              by_cases hfile : mode &&& S_IFREG = 0
              · have hseed : e.isSeed = false := by simp [Entry.isSeed, hmode, hfile]
                have hinits : e.inits inputDir = true := by
                  simp [Entry.inits, hpath, hmode, hseed]
                simpa [hhidden, hpath, hinits, hseed, hfile] using ih files n
              · have hseed : e.isSeed = true := by simp [Entry.isSeed, hmode, hfile, hhidden]
                have hiff : e.inits inputDir =
                    (initFileCtx (e.path inputDir) e).isSome := by
                  simp [Entry.inits, hhidden, hpath, hmode, hseed]
                rw [List.countP_cons_of_pos hseed]
                simp only [hhidden, hpath, hfile, Bool.false_eq_true, if_false, if_true, ne_eq,
                  not_false_eq_true]
                cases n with
                | zero =>
                    right
                    simp [length_filled]
                | succ n =>
                    rw [if_pos (by rw [length_filled]; omega)]
                    cases hctx : initFileCtx (e.path inputDir) e with
                    | none =>
                        right
                        rw [hiff, hctx]
                        exact ⟨nofun, nofun⟩
                    | some file =>
                        simp only [set_filled]
                        have hrest := ih (files ++ [file]) n
                        rw [List.length_append, List.length_singleton] at hrest
                        rw [hiff, hctx, Option.isSome_some]
                        rcases hrest with ⟨files', n', hrun, hlength, hroom, hall⟩ | ⟨hrun, hnot⟩
                        · left
                          exact ⟨files', n', hrun, by omega, by omega, rfl, hall⟩
                        · right
                          refine ⟨hrun, ?_⟩
                          rintro ⟨⟨-, hall⟩, hle⟩
                          exact hnot ⟨hall, by omega⟩

/-- No call of the second walk fails. -/
def Call.Inits (c : Call) : Prop :=
  c.fails .array = false ∧ c.fails .openInit = false ∧ ∀ e ∈ c.entries, e.inits c.input

/-- The array is made if and only if no call fails, there is a seed and the array has room for the
seeds.  Then its first elements are the seeds and the others have no value. -/
theorem initFileArray_spec (c : Call) (size : ℕ) :
  (∃ files n, initFileArray c c.input size = .ok (some (filled files n)) ∧
    files.length = c.seeds ∧ files.length + n = size ∧ 0 < c.seeds ∧ c.Inits) ∨
  (∀ array, initFileArray c c.input size ≠ .ok (some array)) ∧
    ¬ (c.Inits ∧ 0 < c.seeds ∧ c.seeds ≤ size)
  := by
  rw [initFileArray, Call.Inits]
  by_cases hsize : size = 0
  · right
    rw [if_pos hsize]
    refine ⟨nofun, ?_⟩
    rintro ⟨-, hpos, hle⟩
    omega
  rw [if_neg hsize]
  cases harray : c.fails .array with
  | true => exact .inr ⟨nofun, fun h => nomatch h.1.1⟩
  | false =>
      cases hopen : c.fails .openInit with
      | true => exact .inr ⟨nofun, fun h => nomatch h.1.2.1⟩
      | false =>
          simp only [Bool.false_eq_true, if_false]
          rcases initLoop_spec c.input c.entries [] size with
            ⟨files, n, hrun, hlength, hroom, hall⟩ | ⟨hrun, hnot⟩
          · rw [List.length_nil, Nat.zero_add] at hlength hroom
            rw [show initLoop c.input c.entries 0 (List.replicate size none) = _ from hrun]
            by_cases hzero : files.length = 0
            · right
              constructor
              · intro array h
                simp only [Except.map, hzero, if_true] at h
                cases h
              · rintro ⟨-, hpos, -⟩
                exact absurd (hlength.symm.trans hzero) (Nat.pos_iff_ne_zero.mp hpos)
            · left
              refine ⟨files, n, ?_, hlength, hroom, ?_, trivial, trivial, hall⟩
              · simp only [Except.map, hzero, if_false]
              · rw [Call.seeds, ← hlength]
                omega
          · right
            constructor
            · intro array h
              cases hloop : initLoop c.input c.entries 0 (List.replicate size none) with
              | error fault =>
                  rw [hloop] at h
                  cases h
              | ok result =>
                  cases result with
                  | none =>
                      rw [hloop] at h
                      cases h
                  | some result => exact hrun result hloop
            · rintro ⟨⟨-, -, hall⟩, -, hle⟩
              exact hnot ⟨hall, hle⟩

/-! ### One call -/

/-- The variables after a call whose first walk fails. -/
def State.uncounted (s : State) (c : Call) : State :=
  { s with
    pathToExec := some c.execPath
    inputDir := some c.input
    fileCount := s.fileCount + UInt32.ofNat c.counted }

theorem uncounted_eq_iff {s : State} {c : Call} :
  s.uncounted c = s ↔ some c.execPath = s.pathToExec ∧ some c.input = s.inputDir ∧
    s.fileCount + UInt32.ofNat c.counted = s.fileCount
  := by
  cases s
  simp [State.uncounted]

theorem setupFileModule_of_not_counts (s : State) {c : Call} (h : ¬ c.Counts) :
  setupFileModule s c = .ok (-1, s.uncounted c)
  := by
  have hfst : (countFilesDirectory c s.fileCount).1 = false := by
    rw [← Bool.not_eq_true, countFilesDirectory_fst]
    exact h
  have heq : countFilesDirectory c s.fileCount =
      (false, s.fileCount + UInt32.ofNat c.counted) :=
    Prod.ext hfst (countFilesDirectory_snd c s.fileCount)
  simp only [setupFileModule, heq]
  rfl

theorem setupFileModule_of_counts (s : State) {c : Call} (h : c.Counts) :
  setupFileModule s c =
    (initFileArray c c.input (s.fileCount + UInt32.ofNat c.seeds).toNat).map fun array =>
      let s := { s.uncounted c with fileArray := array }
      if array.isSome then (0, { s with stopPtr := some c.stop, setup := true }) else (-1, s)
  := by
  have heq : countFilesDirectory c s.fileCount = (true, s.fileCount + UInt32.ofNat c.counted) :=
    Prod.ext ((countFilesDirectory_fst c _).mpr h) (countFilesDirectory_snd c s.fileCount)
  simp only [setupFileModule, heq, State.uncounted, counted_of_counts h]

/-- A call that has counted fails, and then there is no array, or returns zero with the seeds in
the array. -/
theorem setupFileModule_cases (s : State) {c : Call} (h : c.Counts) :
  (∃ files n s', setupFileModule s c = .ok (0, s') ∧ s'.pathToExec = some c.execPath ∧
    s'.inputDir = some c.input ∧ s'.fileCount = s.fileCount + UInt32.ofNat c.seeds ∧
    s'.fileArray = some (filled files n) ∧ files.length = c.seeds ∧
    files.length + n = s'.fileCount.toNat ∧ 0 < c.seeds ∧ c.Inits) ∨
  (∀ rtrn s', setupFileModule s c = .ok (rtrn, s') → rtrn = -1 ∧ s'.fileArray = none ∧
      s'.pathToExec = some c.execPath) ∧
    ¬ (c.Inits ∧ 0 < c.seeds ∧ c.seeds ≤ (s.fileCount + UInt32.ofNat c.seeds).toNat)
  := by
  rw [setupFileModule_of_counts s h]
  rcases initFileArray_spec c (s.fileCount + UInt32.ofNat c.seeds).toNat with
    ⟨files, n, hinit, hlength, hroom, hrest⟩ | ⟨hinit, hnot⟩
  · left
    rw [hinit]
    have hcount : (s.uncounted c).fileCount = s.fileCount + UInt32.ofNat c.seeds := by
      rw [State.uncounted, counted_of_counts h]
    refine ⟨files, n, _, rfl, rfl, rfl, hcount, rfl, hlength, ?_, hrest⟩
    rw [hroom, ← hcount]
  · right
    refine ⟨?_, hnot⟩
    intro rtrn s' hsetup
    cases hresult : initFileArray c c.input (s.fileCount + UInt32.ofNat c.seeds).toNat with
    | error fault =>
        rw [hresult] at hsetup
        cases hsetup
    | ok array =>
        cases array with
        | none =>
            rw [hresult] at hsetup
            cases hsetup
            exact ⟨rfl, rfl, rfl⟩
        | some array => exact absurd hresult (hinit array)

/-- With the seeds in the array, the index is right if and only if `file_count` is their number. -/
theorem indexed_iff {s : State} {files : List FileCtx} {n : ℕ}
    (harray : s.fileArray = some (filled files n)) (hpos : 0 < files.length) :
  s.Indexed ↔ s.fileCount.toNat = files.length
  := by
  constructor
  · rintro ⟨array, harray', hcount, -⟩
    cases harray.symm.trans harray'
    rw [hcount, countP_filled]
  · intro hcount
    refine ⟨_, harray, hcount.trans (countP_filled files n).symm, ?_⟩
    intro offset hoffset
    apply getElem?_filled
    have hone : (1 : UInt32) ≤ s.fileCount := by
      rw [UInt32.le_iff_toNat_le, hcount]
      exact hpos
    rw [UInt32.le_iff_toNat_le, UInt32.toNat_sub_of_le _ _ hone, hcount] at hoffset
    exact Nat.lt_of_le_of_lt hoffset (Nat.sub_lt hpos Nat.one_pos)

/-- The first call is right if and only if it succeeds. -/
theorem indexMatches_init_iff (c : Call) :
  IndexMatches .init c ↔ c.Succeeds
  := by
  by_cases hcounts : c.Counts
  · have hsize : (State.init.fileCount + UInt32.ofNat c.seeds).toNat = c.seeds % 2 ^ 32 := by
      rw [show State.init.fileCount = 0 from rfl, UInt32.zero_add, UInt32.toNat_ofNat']
    rcases setupFileModule_cases .init hcounts with
      ⟨files, n, s', hsetup, -, -, hcount, harray, hlength, hroom, hpos, hok₁, hok₂, hall⟩ |
      ⟨hfails, hnot⟩
    · rw [hcount, hsize] at hroom
      have hlt : c.seeds < 2 ^ 32 := by omega
      apply iff_of_true
      · refine ⟨0, s', hsetup, fun _ => ?_, nofun⟩
        rw [indexed_iff harray (by omega), hcount, hsize]
        omega
      · exact ⟨hcounts, hok₁, hok₂, hall, hpos, hlt⟩
    · apply iff_of_false
      · rintro ⟨rtrn, s', hsetup, -, hsame⟩
        obtain ⟨hrtrn, -, hpath⟩ := hfails rtrn s' hsetup
        cases (hsame hrtrn).1.symm.trans hpath
      · rintro ⟨-, hok₁, hok₂, hall, hpos, hlt⟩
        refine hnot ⟨⟨hok₁, hok₂, hall⟩, hpos, ?_⟩
        rw [hsize, Nat.mod_eq_of_lt hlt]
  · apply iff_of_false
    · rintro ⟨rtrn, s', hsetup, -, hsame⟩
      cases (setupFileModule_of_not_counts .init hcounts).symm.trans hsetup
      cases (hsame rfl).1
    · exact fun hsucceeds => hcounts hsucceeds.1

/-- What a successful first call leaves. -/
structure Ready (first : Call) (s : State) : Prop where
  pathToExec : s.pathToExec = some first.execPath
  inputDir : s.inputDir = some first.input
  fileCount : s.fileCount ≠ 0
  fileArray : s.fileArray ≠ none

theorem ready_of_succeeds {first : Call} (h : first.Succeeds) :
  ∃ s, step .init first = some s ∧ Ready first s
  := by
  obtain ⟨hcounts, hok₁, hok₂, hall, hpos, hlt⟩ := h
  have hsize : (State.init.fileCount + UInt32.ofNat first.seeds).toNat = first.seeds := by
    rw [show State.init.fileCount = 0 from rfl, UInt32.zero_add, UInt32.toNat_ofNat',
      Nat.mod_eq_of_lt hlt]
  rcases setupFileModule_cases .init hcounts with
    ⟨files, n, s', hsetup, hexec, hinput, hcount, harray, -⟩ | ⟨-, hnot⟩
  · refine ⟨s', ?_, hexec, hinput, ?_, ?_⟩
    · rw [step, hsetup]
    · intro hzero
      rw [← hcount, hzero] at hsize
      exact Nat.ne_of_lt hpos hsize
    · rw [harray]
      exact Option.some_ne_none _
  · exact absurd ⟨⟨hok₁, hok₂, hall⟩, hpos, hsize.ge⟩ hnot

/-- A later call is right if and only if it repeats the paths and counts nothing, and then it
changes nothing. -/
theorem indexMatches_ready_iff {first : Call} {s : State} (hready : Ready first s) (c : Call) :
  (IndexMatches s c ↔ first.Repeats c) ∧ (first.Repeats c → step s c = some s)
  := by
  by_cases hcounts : c.Counts
  · have hnot : ¬ first.Repeats c := fun hrepeats => hrepeats.2.2.1 hcounts
    refine ⟨iff_of_false ?_ hnot, fun hrepeats => absurd hrepeats hnot⟩
    rintro ⟨rtrn, s', hsetup, hindexed, hsame⟩
    rcases setupFileModule_cases s hcounts with
      ⟨files, n, s'', hsetup', -, -, hcount, harray, hlength, hroom, hpos, -⟩ | ⟨hfails, -⟩
    · cases hsetup'.symm.trans hsetup
      have hindex := (indexed_iff harray (by omega)).mp (hindexed rfl)
      -- the seeds are the number of elements and the number added to a count that is not zero
      have hadd : s.fileCount + UInt32.ofNat c.seeds = UInt32.ofNat c.seeds := by
        rw [← hcount, ← hlength, ← hindex, UInt32.ofNat_toNat]
      exact hready.fileCount (UInt32.right_eq_add.mp hadd.symm)
    · obtain ⟨hrtrn, harray, -⟩ := hfails rtrn s' hsetup
      exact hready.fileArray ((hsame hrtrn).2.2.2.symm.trans harray)
  · have hsetup := setupFileModule_of_not_counts s hcounts
    have hzero : UInt32.ofNat c.counted = 0 ↔ c.counted % 2 ^ 32 = 0 := by
      rw [← UInt32.toNat_inj, UInt32.toNat_ofNat']
      rfl
    have hsame : first.Repeats c ↔ s.uncounted c = s := by
      rw [uncounted_eq_iff, hready.pathToExec, hready.inputDir, Call.Repeats, ← hzero,
        eq_comm (b := s.fileCount), UInt32.left_eq_add, Option.some_inj, Option.some_inj]
      simp [hcounts]
    constructor
    · rw [hsame]
      constructor
      · rintro ⟨rtrn, s', hsetup', -, hkept⟩
        cases hsetup.symm.trans hsetup'
        obtain ⟨hexec, hinput, hcount, -⟩ := hkept rfl
        exact uncounted_eq_iff.mpr ⟨hexec, hinput, hcount⟩
      · intro heq
        rw [heq] at hsetup
        exact ⟨-1, s, hsetup, nofun, fun _ => ⟨rfl, rfl, rfl, rfl⟩⟩
    · intro hrepeats
      rw [step, hsetup, hsame.mp hrepeats]

/-! ### Sequences of calls -/

theorem allSteps_ready_iff {first : Call} {s : State} (hready : Ready first s) (calls : List Call) :
  AllSteps step IndexMatches s calls ↔ ∀ c ∈ calls, first.Repeats c
  := by
  induction calls with
  | nil => simp [AllSteps]
  | cons c calls ih =>
      obtain ⟨hiff, hstays⟩ := indexMatches_ready_iff hready c
      rw [AllSteps, List.forall_mem_cons, hiff, ← ih]
      apply and_congr_right
      intro hrepeats
      rw [hstays hrepeats]
      simp

/-- The index matches its count along a sequence of calls if and only if the first call succeeds
and every later one has the same paths and fails in its first walk, before it has counted a seed or
when it has counted so many that the count has come round. -/
theorem allSteps_indexMatches_iff (calls : List Call) :
  AllSteps step IndexMatches .init calls ↔
    match calls with
    | [] => True
    | first :: rest => first.Succeeds ∧ ∀ c ∈ rest, first.Repeats c
  := by
  cases calls with
  | nil => exact Iff.rfl
  | cons first rest =>
      rw [AllSteps, indexMatches_init_iff]
      apply and_congr_right
      intro hsucceeds
      obtain ⟨s, hstep, hready⟩ := ready_of_succeeds hsucceeds
      rw [hstep]
      simp only [Option.some.injEq, forall_eq']
      exact allSteps_ready_iff hready rest

/-- A directory with one text file, and every call succeeds. -/
def oneSeed : Call where
  stop := 0
  execPath := [97]
  input := [46]
  entries := [⟨[97], some 0o100644, 1, fun _ => false⟩]
  fails _ := false

/-- The second of two successful calls leaves a count of two for one seed. -/
theorem not_indexMatches_twice :
  ¬ AllSteps step IndexMatches .init [oneSeed, oneSeed]
  := by
  rintro ⟨-, hrest⟩
  obtain ⟨⟨rtrn, s, hsetup, hindexed, -⟩, -⟩ := hrest _ rfl
  cases hsetup
  obtain ⟨array, harray, hcount, -⟩ := hindexed rfl
  cases harray
  cases hcount

end FileIndex
