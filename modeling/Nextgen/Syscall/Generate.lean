import Nextgen.Lib.Bytes
import Nextgen.Concurrent.Epoch
import Nextgen.Syscall.Entry

/-!
# The argument generators

The functions of `generate.c` and `generate-macos.c`.  A generator points an element of
`arg_value_array` at the argument it makes, and tells the child context the size of the
argument by `set_arg_size`.  The constants and the sizes of the types of the platform are
parameters, and so is what the calls of a generator return.
-/

open Bytes
open Epoch (u32)

namespace Syscall

/-- The constants of the platform's headers. -/
structure Platform where
  sizeofUnsignedLong : ℕ
  sizeofDevT : ℕ
  sizeofStatfs : ℕ
  sizeofRusage : ℕ
  sizeofMsghdr : ℕ
  sizeofSockaddrIn : ℕ
  (O_RDONLY O_WRONLY O_RDWR O_NONBLOCK O_APPEND O_CREAT O_TRUNC O_EXCL : UInt64)
  (MNT_NOWAIT MNT_WAIT : UInt64)
  (WUNTRACED WNOHANG : UInt64)
  (SEEK_SET SEEK_CUR SEEK_END : UInt64)
  /-- `SEEK_HOLE` and `SEEK_DATA` on FreeBSD, nothing elsewhere. -/
  seekMore : List UInt64
  (MSG_OOB MSG_PEEK MSG_WAITALL MSG_DONTROUTE : UInt64)
  (R_OK W_OK X_OK : UInt64)
  (UF_NODUMP UF_IMMUTABLE UF_APPEND UF_OPAQUE UF_HIDDEN : UInt64)
  (SF_ARCHIVED SF_IMMUTABLE SF_APPEND : UInt64)
  (MNT_RDONLY MNT_NOEXEC MNT_NOSUID MNT_NODEV MNT_UNION MNT_SYNCHRONOUS MNT_CPROTECT : UInt64)
  (PT_TRACE_ME PT_DENY_ATTACH PT_CONTINUE PT_STEP : UInt64)
  (PT_KILL PT_ATTACH PT_ATTACHEXC PT_DETACH : UInt64)
  /-- `makedev(10, 2)` on Linux, zero elsewhere. -/
  device : ℕ
  deriving Inhabited

/-- A resource of the resource module. -/
inductive Resource where
  | desc (fd : Int32)
  | socket (fd : Int32)
  | file (path : Buffer)
  | dir (path : Buffer)
  deriving DecidableEq

/-- What the calls of a generator return.  A block of `mem_alloc` has the bytes that were there
before, at least as many as asked for; `draw` is the number of `rand_range` for a range; a path
is without its final zero; `stack` is what lies behind a local variable. -/
structure Outcome where
  alloc : ℕ → Option Buffer
  alloc_length : ∀ n block, alloc n = some block → n ≤ block.length
  draw : ℕ → Option ℕ
  mmapOk : Bool
  getDesc : Int32
  getSocket : Int32
  getFilepath : Option Buffer
  getDirpath : Option Buffer
  getpid : ℕ
  randBytesOk : Bool
  msghdr : Buffer
  stack : Buffer

/-- The part of `struct child_ctx` that holds the arguments.  An element of an array of
pointers is `none` when it is null, and otherwise what it points at. -/
structure ChildCtx where
  currentArg : ℕ
  argValueArray : List (Option Buffer)
  argCopyArray : List (Option Buffer)
  argSizeArray : List ℕ
  deriving DecidableEq

def ARG_BUF_LEN : ℕ := 4096

/-- `get_arg_size`. -/
def getArgSize (child : ChildCtx) (argNum : ℕ) : Option ℕ :=
  if argNum > ARG_LIMIT then none else child.argSizeArray[argNum]?

/-- `set_arg_size`, which ignores both its arguments. -/
def setArgSize (child : ChildCtx) (_size : ℕ) : ChildCtx := child

/-- What a generator that returns zero has done: where its element of `arg_value_array` points,
the child context, the size it reported by `set_arg_size`, and the resource it got from the
resource module. -/
structure Made where
  value : Option Buffer
  child : ChildCtx
  reported : Option ℕ
  acquired : Option Resource

section Generators

variable (p : Platform) (o : Outcome) (child : ChildCtx)

/-- Report the size of an argument and return zero. -/
def made (size : ℕ) (value : Buffer) (acquired : Option Resource) : Made :=
  ⟨some value, setArgSize child size, some size, acquired⟩

/-- `mem_alloc`. -/
def memAlloc (nbytes : ℕ) : Option Buffer :=
  if nbytes = 0 then none else o.alloc nbytes

/-- Allocate a block, fill it and report a size.  The generators that draw before they allocate
fail in the same cases. -/
def fill (nbytes size : ℕ) (store : Option (Buffer → Buffer)) : Option Made :=
  (memAlloc o nbytes).bind fun block =>
    store.map fun store => made child size (store block) none

/-- The assignments of the generators that switch on a random number. -/
inductive Store where
  | assign (word : UInt64)
  | orIn (word : UInt64)

/-- Store a word of eight bytes. -/
def Store.apply (block : Buffer) : Store → Buffer
  | .assign word => overwrite block (le 8 word.toNat)
  | .orIn word => overwrite block (le 8 (ofLe (block.take 8) ||| word.toNat))

/-- Make a flag word by a switch on a random number. -/
def generateFlag (nbytes range size : ℕ) (cases : List Store) : Option Made :=
  fill o child nbytes size <|
    (o.draw range).bind fun number => cases[number]?.map fun store block => store.apply block

/-- Copy a random element of an array of `int32_t`, or what lies behind the array. -/
def generateElement (nbytes range : ℕ) (words : List UInt64) : Option Made :=
  fill o child nbytes 4 <| (o.draw range).map fun number block =>
    let bytes := words.flatMap (fun word => le 4 word.toNat) ++ o.stack
    overwrite block ((bytes.drop (4 * number)).take 4)

/-- Make an argument of a descriptor of the resource module. -/
def generateDescriptor (fd : Int32) (resource : Int32 → Resource) : Option Made :=
  (memAlloc o 4).bind fun block =>
    if fd < 0 then none
    else some (made child 4 (overwrite block (le 4 fd.toUInt32.toNat)) (some (resource fd)))

def generateFd : Option Made := generateDescriptor o child o.getDesc .desc

def generateSocket : Option Made := generateDescriptor o child o.getSocket .socket

/-- The memory of `mmap` is zero-filled whatever its protection. -/
def generateBuf : Option Made :=
  (o.draw 1023).bind fun number =>
    let nbytes := u32 (number + 1)
    (o.draw 2).bind fun number =>
      if number ≤ 2 ∧ o.mmapOk ∧ nbytes ≠ 0 then
        some (made child nbytes (List.replicate nbytes 0) none)
      else none

/-- Store the size of the argument before the current one. -/
def generateSize (nbytes : ℕ) : Option Made :=
  let lastArg := if child.currentArg = 0 then 0 else child.currentArg - 1
  fill o child nbytes nbytes <| (getArgSize child lastArg).map fun argSize block =>
    overwrite block (le nbytes argSize)

def generateLength : Option Made := generateSize o child 8

def generateSocklen : Option Made := generateSize o child 4

/-- Make an argument of a path of the resource module. -/
def generateString (path : Option Buffer) (resource : Buffer → Resource) : Option Made :=
  path.map fun path => made child path.length (path ++ [0]) (some (resource path))

def generatePath : Option Made := generateString child o.getFilepath .file

def generateDirpath : Option Made := generateString child o.getDirpath .dir

def generateOpenFlag : Option Made :=
  generateFlag o child 12 7 8
    [.orIn p.O_RDONLY, .orIn p.O_WRONLY, .orIn p.O_RDWR, .orIn p.O_NONBLOCK, .orIn p.O_APPEND,
      .orIn p.O_CREAT, .orIn p.O_TRUNC, .orIn p.O_EXCL]

/-- The last seven modes are decimal numbers. -/
def generateMode : Option Made :=
  generateFlag o child 12 20 8 <| List.map .assign
    [0o001, 0o002, 0o003, 0o004, 0o005, 0o006, 0o007, 0o010, 0o020, 0o030, 0o040, 0o050, 0o060,
      0o070, 100, 200, 300, 400, 500, 600, 700]

def generateFsStat : Option Made := fill o child p.sizeofStatfs p.sizeofStatfs (some id)

def generateFsStatFlag : Option Made :=
  generateFlag o child 12 1 8 [.assign p.MNT_NOWAIT, .assign p.MNT_WAIT]

def generatePid : Option Made :=
  fill o child p.sizeofUnsignedLong 8 (some fun block => overwrite block (le 8 o.getpid))

/-- `INT_MAX`. -/
def INT_MAX : ℕ := 2 ^ 31 - 1

def generateInt : Option Made :=
  fill o child 8 8 <| (o.draw INT_MAX).map fun number block => overwrite block (le 8 number)

def generateRusage : Option Made := fill o child p.sizeofRusage p.sizeofRusage (some id)

def generateWaitOption : Option Made :=
  generateFlag o child p.sizeofUnsignedLong 1 8 [.assign p.WUNTRACED, .assign p.WNOHANG]

def generateWhence : Option Made :=
  generateFlag o child 8 (2 + p.seekMore.length) 8 <|
    [.assign p.SEEK_SET, .assign p.SEEK_CUR, .assign p.SEEK_END] ++ p.seekMore.map .assign

/-- `rand_range` writes the lower half of the block. -/
def generateOffset : Option Made :=
  fill o child 8 8 <| (o.draw INT_MAX).map fun number block => overwrite block (le 4 number)

def generateRecvFlags : Option Made :=
  generateFlag o child 4 2 4 [.assign p.MSG_OOB, .assign p.MSG_PEEK, .assign p.MSG_WAITALL]

def generateDev : Option Made :=
  fill o child p.sizeofDevT p.sizeofDevT
    (some fun block => overwrite block (le p.sizeofDevT p.device))

/-- The header points at a vector on the stack, and the vector at the random bytes. -/
def generateMessage : Option Made :=
  fill o child p.sizeofMsghdr p.sizeofMsghdr <| (memAlloc o 64).bind fun _ =>
    if o.randBytesOk then some fun block => overwrite block o.msghdr else none

def generateSendFlags : Option Made :=
  generateFlag o child 8 2 8
    [.orIn p.MSG_OOB, .orIn p.MSG_DONTROUTE, .assign (p.MSG_OOB ||| p.MSG_DONTROUTE)]

/-- The block is filled from the four bytes of the local variable `port`, which is zero, on. -/
def generateSockaddr : Option Made :=
  fill o child p.sizeofSockaddrIn p.sizeofSockaddrIn
    (some fun block => overwrite block ((le 4 0 ++ o.stack).take p.sizeofSockaddrIn))

def generateAmode : Option Made :=
  generateFlag o child 4 6 4
    [.orIn p.R_OK, .orIn p.W_OK, .orIn p.X_OK, .assign (p.R_OK ||| p.W_OK),
      .assign (p.R_OK ||| p.X_OK), .assign (p.W_OK ||| p.X_OK), .assign (p.W_OK ||| p.R_OK)]

def generateChflags : Option Made :=
  generateFlag o child 4 7 4
    [.orIn p.UF_NODUMP, .orIn p.UF_IMMUTABLE, .orIn p.UF_APPEND, .orIn p.UF_OPAQUE,
      .orIn p.UF_HIDDEN, .orIn p.SF_ARCHIVED, .orIn p.SF_IMMUTABLE, .orIn p.SF_APPEND]

/-- The flags of `generate_mount_flags` and `generate_unmount_flags`, one less than they draw
from. -/
def mountFlags : List UInt64 :=
  [p.MNT_RDONLY, p.MNT_NOEXEC, p.MNT_NOSUID, p.MNT_NODEV, p.MNT_UNION, p.MNT_SYNCHRONOUS,
    p.MNT_CPROTECT]

def generateMountFlags : Option Made := generateElement o child 4 7 (mountFlags p)

def generateUnmountFlags : Option Made := generateElement o child 8 7 (mountFlags p)

def generateRequest : Option Made :=
  generateElement o child 4 7
    [p.PT_TRACE_ME, p.PT_DENY_ATTACH, p.PT_CONTINUE, p.PT_STEP, p.PT_KILL, p.PT_ATTACH,
      p.PT_ATTACHEXC, p.PT_DETACH]

/-- `generate_mountpath` and `generate_mount_type` leave the argument as it was and report no
size. -/
def generateNothing (old : Option Buffer) : Option Made := some ⟨old, child, none, none⟩

/-- A call through `get_arg_array`, where the argument pointed at `old` before. -/
def callGenerator (old : Option Buffer) : Generator → Option Made
  | .generateFd => generateFd o child
  | .generateSocket => generateSocket o child
  | .generateBuf => generateBuf o child
  | .generateLength => generateLength o child
  | .generatePath => generatePath o child
  | .generateMode => generateMode o child
  | .generateOpenFlag => generateOpenFlag p o child
  | .generateFsStat => generateFsStat p o child
  | .generateFsStatFlag => generateFsStatFlag p o child
  | .generatePid => generatePid p o child
  | .generateInt => generateInt o child
  | .generateRusage => generateRusage p o child
  | .generateWaitOption => generateWaitOption p o child
  | .generateWhence => generateWhence p o child
  | .generateOffset => generateOffset o child
  | .generateMountType => generateNothing child old
  | .generateDirpath => generateDirpath o child
  | .generateMountFlags => generateMountFlags p o child
  | .generateUnmountFlags => generateUnmountFlags p o child
  | .generateRequest => generateRequest p o child
  | .generateRecvFlags => generateRecvFlags p o child
  | .generateMountpath => generateNothing child old
  | .generateDev => generateDev p o child
  | .generateMessage => generateMessage p o child
  | .generateSendFlags => generateSendFlags p o child
  | .generateSockaddr => generateSockaddr p o child
  | .generateSocklen => generateSocklen o child
  | .generateAmode => generateAmode p o child
  | .generateChflags => generateChflags p o child

end Generators

/-! ### What the generators do -/

/-- The resource that a generator gets from the resource module. -/
def acquires (o : Outcome) : Generator → Option Resource
  | .generateFd => some (.desc o.getDesc)
  | .generateSocket => some (.socket o.getSocket)
  | .generatePath => o.getFilepath.map .file
  | .generateDirpath => o.getDirpath.map .dir
  | _ => none

/-- The generators that report no size, or that of an empty path. -/
def Silent (o : Outcome) : Generator → Prop
  | .generateMountpath | .generateMountType => True
  | .generatePath => o.getFilepath = some []
  | .generateDirpath => o.getDirpath = some []
  | _ => False

/-- A generator leaves the child context alone, gets the resource it is for, and reports a size
other than zero unless it is silent. -/
structure GeneratorSpec (o : Outcome) (child : ChildCtx) (g : Generator) (m : Made) : Prop where
  child_eq : m.child = child
  acquired_eq : m.acquired = acquires o g
  silent_iff : m.reported = none ∨ m.reported = some 0 ↔ Silent o g

section Spec

variable {p : Platform} {o : Outcome} {child : ChildCtx} {g : Generator} {m : Made}

theorem memAlloc_eq_some {nbytes : ℕ} {block : Buffer} (h : memAlloc o nbytes = some block) :
  nbytes ≠ 0 ∧ nbytes ≤ block.length
  := by
  rw [memAlloc] at h
  split at h
  · cases h
  · rename_i hne
    exact ⟨hne, o.alloc_length nbytes block h⟩

/-- What `fill` has done when it succeeds. -/
theorem fill_eq_some {nbytes size : ℕ} {store : Option (Buffer → Buffer)}
    (h : fill o child nbytes size store = some m) :
  nbytes ≠ 0 ∧ ∃ block f, nbytes ≤ block.length ∧ store = some f ∧
    m = made child size (f block) none
  := by
  obtain ⟨block, hblock, h⟩ := Option.bind_eq_some_iff.mp h
  obtain ⟨f, hf, rfl⟩ := Option.map_eq_some_iff.mp h
  obtain ⟨hne, hle⟩ := memAlloc_eq_some hblock
  exact ⟨hne, block, f, hle, hf, rfl⟩

/-- A generator that reports the size of what it made. -/
theorem made_spec {size : ℕ} {value : Buffer} {acquired : Option Resource}
    (hacquired : acquired = acquires o g) (hsize : size = 0 ↔ Silent o g) :
  GeneratorSpec o child g (made child size value acquired)
  := by
  constructor
  · rfl
  · apply hacquired
  · rw [← hsize]
    simp [made]

theorem fill_spec {nbytes size : ℕ} {store : Option (Buffer → Buffer)}
    (h : fill o child nbytes size store = some m) (hsize : nbytes ≠ 0 → size ≠ 0)
    (hacquires : acquires o g = none) (hsilent : ¬ Silent o g) :
  GeneratorSpec o child g m
  := by
  obtain ⟨hne, block, f, -, -, rfl⟩ := fill_eq_some h
  apply made_spec hacquires.symm
  constructor
  · intro hzero
    cases hsize hne hzero
  · intro hs
    cases hsilent hs

theorem generateDescriptor_spec {fd : Int32} {resource : Int32 → Resource}
    (h : generateDescriptor o child fd resource = some m)
    (hacquires : acquires o g = some (resource fd)) (hsilent : ¬ Silent o g) :
  GeneratorSpec o child g m
  := by
  obtain ⟨block, -, h⟩ := Option.bind_eq_some_iff.mp h
  split at h
  · cases h
  · cases h
    apply made_spec hacquires.symm
    constructor
    · intro hzero
      cases hzero
    · intro hs
      cases hsilent hs

theorem generateString_spec {path : Option Buffer} {resource : Buffer → Resource}
    (h : generateString child path resource = some m)
    (hacquires : acquires o g = path.map resource) (hsilent : Silent o g ↔ path = some []) :
  GeneratorSpec o child g m
  := by
  obtain ⟨path, rfl, rfl⟩ := Option.map_eq_some_iff.mp h
  apply made_spec hacquires.symm
  rw [hsilent, Option.some.injEq, List.length_eq_zero_iff]

theorem generateBuf_spec (h : generateBuf o child = some m) :
  GeneratorSpec o child .generateBuf m
  := by
  obtain ⟨number, -, h⟩ := Option.bind_eq_some_iff.mp h
  obtain ⟨number', -, h⟩ := Option.bind_eq_some_iff.mp h
  split at h
  · rename_i hok
    cases h
    apply made_spec rfl
    constructor
    · intro hzero
      cases hok.2.2 hzero
    · intro hs
      cases hs
  · cases h

theorem callGenerator_spec {old : Option Buffer} (h : callGenerator p o child old g = some m) :
  GeneratorSpec o child g m
  := by
  cases g
  case generateFd | generateSocket => apply generateDescriptor_spec h rfl id
  case generatePath | generateDirpath => apply generateString_spec h rfl Iff.rfl
  case generateBuf => apply generateBuf_spec h
  case generateMountType | generateMountpath =>
    cases h
    constructor
    · rfl
    · rfl
    · simp [Silent]
  case generateFsStat | generateRusage | generateDev | generateMessage | generateSockaddr =>
    apply fill_spec h id rfl id
  all_goals
    apply fill_spec h (fun _ => by decide) rfl id

/-- The generators of lengths store the size that the argument before has in the child
context. -/
theorem generateSize_value {nbytes : ℕ} (h : generateSize o child nbytes = some m)
    (hcurrent : child.currentArg ≠ 0) :
  ∃ size bytes, child.argSizeArray[child.currentArg - 1]? = some size ∧ m.value = some bytes ∧
    ofLe (bytes.take nbytes) = size % 256 ^ nbytes
  := by
  obtain ⟨-, block, f, hle, hf, rfl⟩ := fill_eq_some h
  obtain ⟨size, hsize, rfl⟩ := Option.map_eq_some_iff.mp hf
  rw [if_neg hcurrent, getArgSize] at hsize
  split at hsize
  · cases hsize
  · use size, overwrite block (le nbytes size), hsize, rfl
    rw [take_overwrite (length_le _ _) hle, ofLe_le]

end Spec

end Syscall
