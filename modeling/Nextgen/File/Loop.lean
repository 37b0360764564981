import Nextgen.Lib.Bytes
import Nextgen.Lib.FileTree
import Nextgen.Lib.Transition

/-!
# The loop of the file fuzzer

`start_main_file_loop` of `file.c` with the mutators of `mutate.c` and `run_test_case` of
`file-freebsd.c`.  A seed is mapped shared, so that the mutators change the file itself; the
mutated bytes are written to a file in `/tmp` with a random name, on which the target is run, and
which is removed at the end of an iteration.  A file that has that name already, even a seed, is
overwritten and removed.  The target leaves the files of the fuzzer alone.
-/

open Bytes

namespace FileFuzzer

/-- The names of a path, the last one first. -/
abbrev Path := List String

abbrev Files := FileTree String Buffer

/-- The mutators of `mutator_array`, with the numbers that they draw. -/
inductive Mutation where
  | flipByte (offset : ℕ)
  | flipBit (offset bit : ℕ)
  | xor
  deriving DecidableEq

/-- The offset of a mutator is drawn up to the size of the file as a `uint32_t`, and so may be the
one behind the file.  That is still in the mapping unless the file ends with a page. -/
def InMapping (pageSize size offset : ℕ) : Prop :=
  offset ≤ size % 2 ^ 32 ∧ (offset = size → ¬ pageSize ∣ size)

instance (pageSize size offset : ℕ) : Decidable (InMapping pageSize size offset) :=
  inferInstanceAs (Decidable (_ ∧ _))

/-- What a mutator can draw for a file of a size. -/
def Mutation.Drawn (pageSize size : ℕ) : Mutation → Prop
  | .flipByte offset => InMapping pageSize size offset
  | .flipBit offset bit => InMapping pageSize size offset ∧ bit ≤ 8
  | .xor => True

instance (pageSize size : ℕ) : ∀ m : Mutation, Decidable (m.Drawn pageSize size)
  | .flipByte offset => inferInstanceAs (Decidable (InMapping pageSize size offset))
  | .flipBit offset bit => inferInstanceAs (Decidable (InMapping pageSize size offset ∧ bit ≤ 8))
  | .xor => isTrue trivial

/-- `mutate_file`.  No plugin supports any file, so that a mutator is chosen at random. -/
def mutateFile (file : Buffer) : Mutation → Buffer
  | .flipByte offset => file.modify offset fun byte => ~~~byte
  -- the shift by eight leaves nothing of a `char`
  | .flipBit offset bit => file.modify offset fun byte => byte ^^^ UInt8.ofNat (2 ^ bit)
  | .xor => file

/-- The signal that terminated the target. -/
inductive Signal where
  | sigkill
  | sigsegv
  | sigbus
  | other
  deriving DecidableEq

/-- How the target ended. -/
inductive Status where
  | exited
  | signalled (sig : Signal)
  deriving DecidableEq

/-- How far an iteration comes. -/
inductive Outcome where
  /-- `get_file` or `map_file_in` fails. -/
  | notMapped
  /-- A draw of `mutate_file` fails. -/
  | notMutated
  /-- A call up to `run_test_case` fails; `left` is what `map_file_out` left of the test case. -/
  | notRun (left : Option Buffer)
  /-- The target was run.  `saved` is the name for the file of a crash, when all calls that
  `handle_crash` makes before it opens that file succeed, and `unlinked` says that `unlink`
  succeeds. -/
  | run (status : Status) (saved : Option String) (unlinked : Bool)

/-- An iteration: the draw of `get_file`, the mutator with its draws, and the name of the test
case. -/
structure Iteration where
  offset : ℕ
  mutation : Mutation
  name : String
  outcome : Outcome

/-- `file_array`, and the size of a page of memory. -/
structure Config where
  fileArray : List Path
  pageSize : ℕ

/-- A file that was handed to `run_test_case`, with the mutation that made it. -/
structure TestCase where
  mutation : Mutation
  bytes : Buffer
  deriving DecidableEq

/-- The files, the test cases that have been run, and whether the loop goes on. -/
structure State where
  files : Files
  tested : List TestCase
  running : Bool

/-- Where the loop begins. -/
def State.init (files : Files) : State :=
  ⟨files, [], true⟩

/-- `/tmp`. -/
def tmp : Path := ["tmp"]

/-- The path of the test case. -/
def Iteration.filePath (a : Iteration) : Path :=
  a.name :: tmp

/-- `handle_crash`, whose file is below the path of the test case. -/
def handleCrash (t : Files) (filePath : Path) (saved : Option String) : Files :=
  match saved, t.read filePath with
  | some name, some bytes => (t.create (name :: "crash_dir" :: filePath) bytes).getD t
  | _, _ => t

/-- The target was terminated by one of the signals that `run_test_case` takes for a crash. -/
def Status.crashed : Status → Bool
  | .signalled .sigsegv | .signalled .sigbus => true
  | _ => false

/-- `run_test_case`, which ignores the value of `handle_crash`. -/
def runTestCase (t : Files) (filePath : Path) (status : Status) (saved : Option String) : Files :=
  if status.crashed then handleCrash t filePath saved else t

/-- Pick a seed and mutate it: the seed, its mutated bytes, and the files.  An empty file cannot be
mapped. -/
def mutateSeed (cfg : Config) (t : Files) (a : Iteration) : Option (Path × Buffer × Files) :=
  cfg.fileArray[a.offset]?.bind fun seed =>
    (t.read seed).bind fun bytes =>
      if bytes ≠ [] ∧ a.mutation.Drawn cfg.pageSize bytes.length then
        let bytes := mutateFile bytes a.mutation
        some (seed, bytes, t.store seed bytes)
      else none

/-- The bytes that `map_file_out` writes to the test case.  They are copied from the mapping of the
seed.  If the test case has the path of the seed, then `open` has emptied the file behind the
mapping and `write` has made it long again before they are copied. -/
def testBytes (seed : Path) (a : Iteration) (bytes : Buffer) : Buffer :=
  if a.filePath = seed then List.replicate bytes.length 0 else bytes

/-- The part of an iteration after `mutate_file`. -/
def testSeed (s : State) (a : Iteration) (seed : Path) (bytes : Buffer) (t : Files) :
    Option State :=
  match a.outcome with
  | .notMapped | .notMutated => none
  | .notRun none => some { s with files := t, running := false }
  | .notRun (some left) =>
      (t.create a.filePath left).map fun t => { s with files := t, running := false }
  | .run status saved unlinked =>
      let bytes := testBytes seed a bytes
      (t.create a.filePath bytes).bind fun t =>
        let t := runTestCase t a.filePath status saved
        let s := { s with tested := s.tested ++ [TestCase.mk a.mutation bytes] }
        if unlinked then (t.unlink a.filePath).map fun t => { s with files := t }
        else some { s with files := t, running := false }

/-- An iteration of the loop. -/
def step (cfg : Config) (s : State) (a : Iteration) : Option State :=
  if !s.running then none
  else match a.outcome with
    | .notMapped | .notMutated => some { s with running := false }
    | _ => (mutateSeed cfg s.files a).bind fun (seed, bytes, t) => testSeed s a seed bytes t

/-! ### What an iteration does -/

/-- The iteration mutates a seed. -/
def Outcome.mutates : Outcome → Bool
  | .notMapped | .notMutated => false
  | .notRun _ | .run _ _ _ => true

/-- The iteration runs the target. -/
def Outcome.runs : Outcome → Bool
  | .run _ _ _ => true
  | _ => false

/-- The iteration opens the test case, and so empties a file that is there. -/
def Outcome.opens : Outcome → Bool
  | .notMapped | .notMutated | .notRun none => false
  | .notRun (some _) | .run _ _ _ => true

/-- What is at the path of the test case after an iteration that opens it: the file that
`map_file_out` left or wrote, or nothing when it was removed. -/
def Outcome.leaves (o : Outcome) (bytes : Buffer) : Option Buffer :=
  match o with
  | .notMapped | .notMutated => none
  | .notRun left => left
  | .run _ _ unlinked => if unlinked then none else some bytes

/-- An iteration that mutates the seed `seed`, which held `bytes`: nothing but the seed and the
test case is changed. -/
structure Mutates (cfg : Config) (s : State) (a : Iteration) (s' : State) (seed : Path)
    (bytes : Buffer) : Prop where
  picked : cfg.fileArray[a.offset]? = some seed
  read : s.files.read seed = some bytes
  unopened : a.outcome.opens = false → s'.files = s.files.store seed (mutateFile bytes a.mutation)
  opened : a.outcome.opens = true → s'.files.read a.filePath
    = a.outcome.leaves (testBytes seed a (mutateFile bytes a.mutation))
  node : ∀ q, q ≠ a.filePath →
    s'.files.node q = (s.files.store seed (mutateFile bytes a.mutation)).node q
  tested : s'.tested = s.tested ++
    (if a.outcome.runs then [⟨a.mutation, testBytes seed a (mutateFile bytes a.mutation)⟩] else [])

section Steps

variable {cfg : Config} {s s' : State} {a : Iteration} {t t' : Files}

/-- `handle_crash` saves nothing: the path of its file goes through the test case, which is not a
directory. -/
theorem handleCrash_eq {filePath : Path} {bytes : Buffer} (h : t.read filePath = some bytes)
    (saved : Option String) :
  handleCrash t filePath saved = t
  := by
  cases saved with
  | none => rfl
  | some name =>
      simp only [handleCrash, h, FileTree.create_below h]
      rfl

theorem runTestCase_eq {filePath : Path} {bytes : Buffer} (h : t.read filePath = some bytes)
    (status : Status) (saved : Option String) :
  runTestCase t filePath status saved = t
  := by
  rw [runTestCase, handleCrash_eq h, ite_self]

theorem testSeed_spec {seed : Path} {bytes : Buffer} (h : testSeed s a seed bytes t = some s') :
  (a.outcome.opens = false → s'.files = t) ∧
    (a.outcome.opens = true →
      s'.files.read a.filePath = a.outcome.leaves (testBytes seed a bytes)) ∧
    (∀ q, q ≠ a.filePath → s'.files.node q = t.node q) ∧
    s'.tested = s.tested ++
      (if a.outcome.runs then [⟨a.mutation, testBytes seed a bytes⟩] else [])
  := by
  rw [testSeed] at h
  cases houtcome : a.outcome with
  | notMapped => simp [houtcome] at h
  | notMutated => simp [houtcome] at h
  | notRun left =>
      cases left with
      | none =>
          simp only [houtcome] at h
          cases h
          simp [Outcome.opens, Outcome.runs]
      | some left =>
          simp only [houtcome] at h
          obtain ⟨t', hcreate, rfl⟩ := Option.map_eq_some_iff.mp h
          obtain ⟨hread, hnode⟩ := FileTree.create_eq_some hcreate
          exact ⟨by rintro ⟨⟩, fun _ => hread, hnode, (List.append_nil _).symm⟩
  | run status saved unlinked =>
      simp only [houtcome] at h
      obtain ⟨t', hcreate, h⟩ := Option.bind_eq_some_iff.mp h
      obtain ⟨hread, hnode⟩ := FileTree.create_eq_some hcreate
      rw [runTestCase_eq hread] at h
      cases unlinked with
      | true =>
          obtain ⟨t'', hunlink, rfl⟩ := Option.map_eq_some_iff.mp h
          obtain ⟨hnone, hnode'⟩ := FileTree.unlink_eq_some hunlink
          refine ⟨by rintro ⟨⟩, ?_, ?_, rfl⟩
          · intro _
            rw [FileTree.read, hnone]
            rfl
          · intro q hq
            rw [hnode' q hq, hnode q hq]
      | false =>
          cases h
          exact ⟨by rintro ⟨⟩, fun _ => hread, hnode, rfl⟩

/-- An iteration changes no file, or mutates a seed. -/
theorem step_cases (h : step cfg s a = some s') :
  (a.outcome.mutates = false ∧ s' = { s with running := false }) ∨
    (a.outcome.mutates = true ∧ ∃ seed bytes, Mutates cfg s a s' seed bytes)
  := by
  rw [step] at h
  split at h
  · cases h
  · split at h
    · rename_i houtcome
      cases h
      exact .inl ⟨by rw [houtcome]; rfl, rfl⟩
    · rename_i houtcome
      cases h
      exact .inl ⟨by rw [houtcome]; rfl, rfl⟩
    · rename_i hmapped hmutated
      right
      obtain ⟨⟨_, _, t⟩, hmutate, h⟩ := Option.bind_eq_some_iff.mp h
      obtain ⟨seed, hseed, hmutate⟩ := Option.bind_eq_some_iff.mp hmutate
      obtain ⟨bytes, hbytes, hmutate⟩ := Option.bind_eq_some_iff.mp hmutate
      split at hmutate
      · cases hmutate
        obtain ⟨hunopened, hopened, hnode, htested⟩ := testSeed_spec h
        constructor
        · cases houtcome : a.outcome with
          | notMapped => cases hmapped houtcome
          | notMutated => cases hmutated houtcome
          | notRun left => rfl
          | run status saved unlinked => rfl
        · exact ⟨_, bytes, hseed, hbytes, hunopened, hopened, hnode, htested⟩
      · cases hmutate

end Steps

/-! ### A small file system -/

/-- A file system with `/tmp` and a seed of one byte. -/
def plainFiles : Files where
  node
    | [] | ["tmp"] | ["in"] => some .dir
    | ["seed", "in"] => some (.file [1])
    | _ => none
  parent := by
    intro c p h
    split at h
    · rename_i heq
      cases heq
    · rename_i heq
      cases heq
      rfl
    · rename_i heq
      cases heq
      rfl
    · rename_i heq
      cases heq
      rfl
    · contradiction

/-- The seed is the only file of the input directory. -/
def plainConfig : Config :=
  ⟨[["seed", "in"]], 4096⟩

/-- An iteration in which every call succeeds. -/
def plainIteration (m : Mutation) (status : Status) : Iteration :=
  ⟨0, m, "test", .run status (some "crash") true⟩

end FileFuzzer
