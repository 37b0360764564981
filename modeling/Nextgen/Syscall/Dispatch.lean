import Nextgen.Syscall.Entry
import Mathlib.Data.List.Basic

/-!
# The test functions of the entries

`build_syscall_table` installs in each entry the function of `set_test.c` that its `id` names.
The letters of an `id` say how each argument is to be passed to the system call: `P` as the
pointer that `arg_value_array` has, `V` as the value behind it.
-/

namespace Syscall

/-- A letter of a `test_id`. -/
inductive Letter where
  | ptr
  | val
  deriving DecidableEq, Repr

/-- The letters of the name of a `test_id`. -/
def TestId.letters : TestId → List Letter
  | .V => [.val]
  | .P => [.ptr]
  | .VP => [.val, .ptr]
  | .VPV => [.val, .ptr, .val]
  | .PV => [.ptr, .val]
  | .PVV => [.ptr, .val, .val]
  | .PP => [.ptr, .ptr]
  | .VPVVPV => [.val, .ptr, .val, .val, .ptr, .val]
  | .VPVP => [.val, .ptr, .val, .ptr]
  | .VVPV => [.val, .val, .ptr, .val]

/-- The value behind each pointer. -/
abbrev Memory := UInt64 → UInt64

/-- A test function: from the memory and the pointers of `arg_value_array`, the words that
`syscall` is given after the symbol. -/
abbrev TestSyscall := Memory → (ℕ → UInt64) → List UInt64

/-- An argument passed as its letter says. -/
def Letter.word (memory : Memory) (pointer : UInt64) : Letter → UInt64
  | .ptr => pointer
  | .val => memory pointer

/-- The arguments from an index on, passed as the letters say. -/
def forwardFrom (memory : Memory) (array : ℕ → UInt64) : ℕ → List Letter → List UInt64
  | _, [] => []
  | i, l :: ls => l.word memory (array i) :: forwardFrom memory array (i + 1) ls

/-- The test functions that pass an argument for each of their letters. -/
def forward (letters : List Letter) : TestSyscall :=
  fun memory array => forwardFrom memory array 0 letters

def testVal : TestSyscall := forward [.val]

def testPtr : TestSyscall := forward [.ptr]

def testPtrVal : TestSyscall := forward [.ptr, .val]

def testValPtr : TestSyscall := forward [.val, .ptr]

def testPtrPtr : TestSyscall := forward [.ptr, .ptr]

def testValPtrVal : TestSyscall := forward [.val, .ptr, .val]

def testValPtrValPtr : TestSyscall := forward [.val, .ptr, .val, .ptr]

def testValValPtrVal : TestSyscall := forward [.val, .val, .ptr, .val]

def testValPtrValValPtrVal : TestSyscall := forward [.val, .ptr, .val, .val, .ptr, .val]

/-- Unlike its name says, `test_ptr_val_val` passes two values. -/
def testPtrValVal : TestSyscall :=
  fun memory array => [memory (array 0), memory (array 1)]

/-- `set_test_syscall`. -/
def setTestSyscall : TestId → TestSyscall
  | .V => testVal
  | .P => testPtr
  | .PV => testPtrVal
  | .VP => testValPtr
  | .VPV => testValPtrVal
  | .PVV => testPtrValVal
  | .PP => testPtrPtr
  | .VVPV => testValValPtrVal
  | .VPVVPV => testValPtrValValPtrVal
  | .VPVP => testValPtrValPtr

/-! ### Building a table -/

/-- How an argument is logged. -/
inductive LogType where
  | number
  | pointer
  | path
  deriving DecidableEq, Repr

/-- `struct arg_context`. -/
structure ArgContext where
  type : ArgType
  logType : LogType
  deriving DecidableEq, Repr

/-- `get_arg_context`, which has no context for `PTRACE_REQUEST`. -/
def getArgContext : ArgType → Option ArgContext
  | .ptraceRequest => none
  | .filePath => some ⟨.filePath, .path⟩
  | .mountPath => some ⟨.mountPath, .path⟩
  | .voidBuf => some ⟨.voidBuf, .pointer⟩
  | .statFs => some ⟨.statFs, .pointer⟩
  | .rusage => some ⟨.rusage, .pointer⟩
  | .pid => some ⟨.pid, .pointer⟩
  | .mountType => some ⟨.mountType, .pointer⟩
  | .dirPath => some ⟨.dirPath, .pointer⟩
  | .message => some ⟨.message, .pointer⟩
  | .sockaddr => some ⟨.sockaddr, .pointer⟩
  | type => some ⟨type, .number⟩

/-- An entry of a table that has been built. -/
structure BuiltEntry where
  entry : Entry
  argContextArray : List ArgContext
  testSyscall : TestSyscall

/-- The body of the loop of `build_syscall_table`. -/
def buildEntry (entry : Entry) : Option BuiltEntry :=
  ((List.range entry.totalArgs).mapM fun c => getArgContext (entry.argType c)).map fun contexts =>
    ⟨{ entry with status := .on }, contexts, setTestSyscall entry.id⟩

/-- `build_syscall_table` on the table of a platform, given whether the allocation of the copy
succeeds. -/
def buildSyscallTable (sharedOk : Bool) (table : List Entry) : Option (List BuiltEntry) :=
  if sharedOk then table.mapM buildEntry else none

/-! ### What the test functions pass -/

/-- The test function of an entry passes all its arguments, each as its letter says. -/
def PassesArguments (e : BuiltEntry) : Prop :=
  ∀ (memory : Memory) (array : ℕ → UInt64),
    (e.testSyscall memory array).length = e.entry.totalArgs ∧
      ∀ i < e.entry.totalArgs, ∃ l, e.entry.id.letters[i]? = some l ∧
        (e.testSyscall memory array)[i]? = some (l.word memory (array i))

section Forward

variable (memory : Memory) (array : ℕ → UInt64)

theorem length_forwardFrom (i : ℕ) (letters : List Letter) :
  (forwardFrom memory array i letters).length = letters.length
  := by
  induction letters generalizing i with
  | nil => rfl
  | cons l ls ih => rw [forwardFrom, List.length_cons, ih, List.length_cons]

theorem getElem?_forwardFrom (i j : ℕ) (letters : List Letter) :
  (forwardFrom memory array i letters)[j]?
    = letters[j]?.map fun l => l.word memory (array (i + j))
  := by
  induction letters generalizing i j with
  | nil => rfl
  | cons l ls ih =>
      cases j with
      | zero => rfl
      | succ j =>
          rw [forwardFrom, List.getElem?_cons_succ, ih, List.getElem?_cons_succ,
            Nat.add_right_comm, Nat.add_assoc]

end Forward

/-- Every `id` but one installs the function that its letters describe. -/
theorem setTestSyscall_eq_forward {id : TestId} (h : id ≠ .PVV) :
  setTestSyscall id = forward id.letters
  := by
  cases id with
  | PVV => cases h rfl
  | V | P | VP | VPV | PV | PP | VPVVPV | VPVP | VVPV => rfl

/-- A function that passes an argument for each letter serves the entries with as many
arguments as letters. -/
theorem passesArguments_forward {e : BuiltEntry} (h : e.testSyscall = forward e.entry.id.letters) :
  PassesArguments e ↔ e.entry.totalArgs = e.entry.id.letters.length
  := by
  have hlength : ∀ memory array,
      (e.testSyscall memory array).length = e.entry.id.letters.length := by
    intro memory array
    rw [h, forward, length_forwardFrom]
  constructor
  · intro hpasses
    rw [← (hpasses (fun _ => 0) (fun _ => 0)).1, hlength]
  · intro htotal memory array
    constructor
    · rw [hlength, htotal]
    · intro i hi
      rw [htotal] at hi
      use e.entry.id.letters[i], List.getElem?_eq_getElem hi
      rw [h, forward, getElem?_forwardFrom, List.getElem?_eq_getElem hi, Nat.zero_add]
      rfl

/-- `test_ptr_val_val` serves no entry: it passes two words, the first not as a pointer. -/
theorem not_passesArguments_testPtrValVal {e : BuiltEntry} (h : e.testSyscall = testPtrValVal)
    (hid : e.entry.id = .PVV) :
  ¬ PassesArguments e
  := by
  intro hpasses
  obtain ⟨hlength, hwords⟩ := hpasses (fun _ => 1) (fun _ => 0)
  rw [h] at hlength hwords
  obtain ⟨l, hl, hword⟩ := hwords 0 (hlength ▸ Nat.zero_lt_two)
  rw [hid] at hl
  cases hl
  cases hword

/-- What `build_syscall_table` makes of an entry. -/
theorem buildEntry_eq_some {entry : Entry} {e : BuiltEntry} (h : buildEntry entry = some e) :
  e.entry = { entry with status := .on } ∧ e.testSyscall = setTestSyscall e.entry.id
  := by
  obtain ⟨contexts, -, rfl⟩ := Option.map_eq_some_iff.mp h
  exact ⟨rfl, rfl⟩

/-- There is a list of results if and only if there is a result for each element. -/
theorem isSome_mapM_iff {α β : Type} {f : α → Option β} {l : List α} :
  (l.mapM f).isSome ↔ ∀ a ∈ l, (f a).isSome
  := by
  induction l with
  | nil => simp
  | cons a l ih =>
      rw [List.mapM_cons, List.forall_mem_cons, ← ih]
      cases f a with
      | none => simp
      | some b => cases l.mapM f <;> simp

/-- The results of a list are those of its elements. -/
theorem mapM_eq_some_iff {α β : Type} {f : α → Option β} {l : List α} {l' : List β} :
  l.mapM f = some l' ↔ l.map f = l'.map some
  := by
  induction l generalizing l' with
  | nil => cases l' <;> simp
  | cons a l ih =>
      rw [List.mapM_cons]
      cases l' with
      | nil => simp [Option.bind_eq_some_iff]
      | cons b l' => simp [ih, Option.bind_eq_some_iff]

/-- Every entry of a table that was built comes from an entry of the table. -/
theorem exists_of_mem_mapM_buildEntry {e : BuiltEntry} {table : List Entry}
    {built : List BuiltEntry} (hbuild : table.mapM buildEntry = some built) (he : e ∈ built) :
  ∃ entry ∈ table, buildEntry entry = some e
  := by
  have hmem : some e ∈ table.map buildEntry := by
    rw [mapM_eq_some_iff.mp hbuild]
    exact List.mem_map_of_mem he
  exact List.mem_map.mp hmem

/-- The function installed in an entry passes its arguments if and only if the `id` of the
entry is not `PVV_ID` and has as many letters as the entry has arguments. -/
theorem dispatcher_passesArguments_iff {sharedOk : Bool} {table : List Entry}
    {built : List BuiltEntry} (hbuild : buildSyscallTable sharedOk table = some built)
    {e : BuiltEntry} (he : e ∈ built) :
  PassesArguments e ↔ e.entry.id ≠ .PVV ∧ e.entry.totalArgs = e.entry.id.letters.length
  := by
  have hmap : table.mapM buildEntry = some built := by
    rw [buildSyscallTable] at hbuild
    split at hbuild
    · apply hbuild
    · cases hbuild
  obtain ⟨entry, -, hentry⟩ := exists_of_mem_mapM_buildEntry hmap he
  obtain ⟨-, htest⟩ := buildEntry_eq_some hentry
  by_cases hid : e.entry.id = .PVV
  · rw [hid] at htest
    constructor
    · intro hpasses
      cases not_passesArguments_testPtrValVal htest hid hpasses
    · rintro ⟨hne, -⟩
      cases hne hid
  · rw [setTestSyscall_eq_forward hid] at htest
    rw [passesArguments_forward htest]
    constructor
    · intro htotal
      exact ⟨hid, htotal⟩
    · rintro ⟨-, htotal⟩
      apply htotal

theorem dispatcher_passesArguments_macRead :
  ∃ built e, buildSyscallTable true Mac.macOsxSyscallTable = some built ∧ e ∈ built ∧
    e.entry = Mac.entryRead ∧ PassesArguments e
  := by
  let e : BuiltEntry :=
    ⟨Mac.entryRead, [⟨.fileDesc, .number⟩, ⟨.voidBuf, .pointer⟩, ⟨.size, .number⟩], testValPtrVal⟩
  obtain ⟨built, hbuild⟩ : ∃ built, buildSyscallTable true Mac.macOsxSyscallTable = some built :=
    ⟨_, rfl⟩
  have hread : built[0]? = some e := by
    cases hbuild
    rfl
  use built, e, hbuild, List.mem_of_getElem? hread, rfl
  apply (dispatcher_passesArguments_iff hbuild (List.mem_of_getElem? hread)).mpr
  decide

/-- The function installed in the entry of `open` in the table of Mac OS X does not pass its
arguments. -/
theorem dispatcher_not_passesArguments_macOpen :
  ∃ built e, buildSyscallTable true Mac.macOsxSyscallTable = some built ∧ e ∈ built ∧
    e.entry = Mac.entryOpen ∧ ¬ PassesArguments e
  := by
  let e : BuiltEntry :=
    ⟨Mac.entryOpen, [⟨.filePath, .path⟩, ⟨.openFlag, .number⟩, ⟨.mode, .number⟩], testPtrValVal⟩
  obtain ⟨built, hbuild⟩ : ∃ built, buildSyscallTable true Mac.macOsxSyscallTable = some built :=
    ⟨_, rfl⟩
  have hopen : built[2]? = some e := by
    cases hbuild
    rfl
  use built, e, hbuild, List.mem_of_getElem? hopen, rfl
  apply not_passesArguments_testPtrValVal rfl rfl

end Syscall
