import Nextgen.Syscall.Arguments

/-!
# What the draws decide

Two runs of `generate_arguments` on the same random draws and the same answers of the operating
system, over any contents of the heap and the stack before.  A number or a flag word is read by
the tests and by the log as the eight bytes behind its pointer, whatever was allocated and
written there.
-/

open Bytes Transition

namespace Syscall

/-- The results of `rand_range` for the argument of a test, and the answers of the operating
system. -/
structure Draws where
  draw : ℕ → Option ℕ
  getDesc : Int32
  getSocket : Int32
  getpid : ℕ

def Outcome.draws (o : Outcome) : Draws :=
  ⟨o.draw, o.getDesc, o.getSocket, o.getpid⟩

/-- The number of bytes that are read of an argument that is a number, a flag word or a socket
address. -/
def readSize (p : Platform) : Generator → Option ℕ
  | .generateFd | .generateSocket | .generateOpenFlag | .generateMode | .generateOffset
  | .generateWhence | .generateRecvFlags | .generateSendFlags | .generateAmode
  | .generateChflags | .generateMountFlags | .generateUnmountFlags | .generateRequest => some 8
  | .generateSockaddr => some p.sizeofSockaddrIn
  | _ => none

/-- The bytes behind a pointer, when memory reaches that far. -/
def readBytes (n : ℕ) (value : Option Buffer) : Option Buffer :=
  value.bind fun bytes => if n ≤ bytes.length then some (bytes.take n) else none

/-- A call of `generate_arguments` that succeeds on the given draws, on a child context with any
history and on any machine. -/
structure Generated (p : Platform) (entry : Entry) (draws : ℕ → Draws) where
  outcomes : ℕ → Outcome
  draws_eq : ∀ i, (outcomes i).draws = draws i
  history : List Action
  before : ChildCtx
  reached : run (step p) initChildContext history = some before
  after : ChildCtx
  mades : List Made
  generated : generateArguments p entry outcomes before = some (after, mades)

section Definitions

variable {p : Platform} {entry : Entry} {draws : ℕ → Draws}

/-- The first bytes of an argument. -/
def Generated.read (r : Generated p entry draws) (i n : ℕ) : Option Buffer :=
  readBytes n r.after.argValueArray[i]?.join

/-- What reaches the kernel and the log of numbers, flag words and socket addresses depends on
the draws only. -/
def DrawsDecide (p : Platform) (entry : Entry) (draws : ℕ → Draws) : Prop :=
  ∀ (r₁ r₂ : Generated p entry draws), ∀ i < entry.totalArgs,
    ∀ n, (entry.generator i).bind (readSize p) = some n →
      ∀ bytes₁ bytes₂, r₁.read i n = some bytes₁ → r₂.read i n = some bytes₂ → bytes₁ = bytes₂

end Definitions

/-- The generators that assign a whole word. -/
def AssignsWord (d : Draws) : Generator → Prop
  | .generateMode | .generateWhence | .generateRecvFlags => True
  | .generateSendFlags => d.draw 2 = some 2
  | .generateAmode => ∃ number, d.draw 6 = some number ∧ 3 ≤ number
  | _ => False

/-- The flags that are or-ed into the memory of `mem_alloc`. -/
def Platform.orFlags (p : Platform) : List UInt64 :=
  [p.O_RDONLY, p.O_WRONLY, p.O_RDWR, p.O_NONBLOCK, p.O_APPEND, p.O_CREAT, p.O_TRUNC, p.O_EXCL,
    p.MSG_OOB, p.MSG_DONTROUTE, p.R_OK, p.W_OK, p.X_OK, p.UF_NODUMP, p.UF_IMMUTABLE, p.UF_APPEND,
    p.UF_OPAQUE, p.UF_HIDDEN, p.SF_ARCHIVED, p.SF_IMMUTABLE, p.SF_APPEND]

/-- What the headers of every platform have: no flag has all bits set, and a socket address is
larger than a port. -/
structure Platform.Usual (p : Platform) : Prop where
  flags : ∀ word ∈ p.orFlags, word.toNat ≠ 2 ^ 64 - 1
  sockaddr : 4 < p.sizeofSockaddrIn

/-! ### Words that are assigned -/

section Assigned

variable {p : Platform} {o : Outcome} {child : ChildCtx} {g : Generator} {m : Made} {n : ℕ}
  {block bytes : Buffer}

theorem readBytes_some (h : readBytes n (some block) = some bytes) :
  n ≤ block.length ∧ bytes = block.take n
  := by
  simp only [readBytes, Option.bind_some] at h
  split at h
  · rename_i hle
    cases h
    exact ⟨hle, rfl⟩
  · cases h

theorem readBytes_of_le (h : n ≤ block.length) :
  readBytes n (some block) = some (block.take n)
  := by
  rw [readBytes, Option.bind_some, if_pos h]

/-- What a generator that switches on a random number has done. -/
theorem generateFlag_eq_some {nbytes range size : ℕ} {cases : List Store}
    (h : generateFlag o child nbytes range size cases = some m) :
  ∃ block number store, memAlloc o nbytes = some block ∧ o.draw range = some number ∧
    cases[number]? = some store ∧ m.value = some (store.apply block)
  := by
  obtain ⟨block, hblock, h⟩ := Option.bind_eq_some_iff.mp h
  obtain ⟨f, hf, rfl⟩ := Option.map_eq_some_iff.mp h
  obtain ⟨number, hnumber, hf⟩ := Option.bind_eq_some_iff.mp hf
  obtain ⟨store, hstore, rfl⟩ := Option.map_eq_some_iff.mp hf
  exact ⟨block, number, store, hblock, hnumber, hstore, rfl⟩

/-- A word that is assigned is read back. -/
theorem readBytes_assign {word : UInt64}
    (h : readBytes 8 (some (Store.apply block (.assign word))) = some bytes) :
  bytes = le 8 word.toNat
  := by
  obtain ⟨hle, rfl⟩ := readBytes_some h
  rw [Store.apply, length_overwrite] at hle
  rw [Store.apply, take_overwrite (length_le _ _) hle]

/-- Two calls that draw the same number make the same word when it is assigned. -/
theorem generateFlag_agree {o' : Outcome} {child' : ChildCtx} {m' : Made} {bytes' : Buffer}
    {nbytes range size : ℕ} {cases : List Store}
    (h : generateFlag o child nbytes range size cases = some m)
    (h' : generateFlag o' child' nbytes range size cases = some m') (hdraws : o.draws = o'.draws)
    (hassign : ∀ number, o'.draw range = some number → ∀ store, cases[number]? = some store →
      ∃ word, store = .assign word)
    (hread : readBytes 8 m.value = some bytes) (hread' : readBytes 8 m'.value = some bytes') :
  bytes = bytes'
  := by
  obtain ⟨block, number, store, -, hnumber, hstore, hvalue⟩ := generateFlag_eq_some h
  obtain ⟨block', number', store', -, hnumber', hstore', hvalue'⟩ := generateFlag_eq_some h'
  rw [show o.draw = o'.draw from congrArg Draws.draw hdraws] at hnumber
  cases hnumber.symm.trans hnumber'
  cases hstore.symm.trans hstore'
  obtain ⟨word, rfl⟩ := hassign number hnumber store hstore
  rw [hvalue] at hread
  rw [hvalue'] at hread'
  rw [readBytes_assign hread, readBytes_assign hread']

/-- Two calls on the same draws of a generator that assigns a whole word make the same word. -/
theorem callGenerator_agree {o' : Outcome} {child' : ChildCtx} {m' : Made} {bytes' : Buffer}
    {old old' : Option Buffer} (h : callGenerator p o child old g = some m)
    (h' : callGenerator p o' child' old' g = some m') (hdraws : o.draws = o'.draws)
    (hassign : AssignsWord o'.draws g) (hread : readBytes 8 m.value = some bytes)
    (hread' : readBytes 8 m'.value = some bytes') :
  bytes = bytes'
  := by
  cases g
  case generateMode | generateWhence | generateRecvFlags =>
    apply generateFlag_agree h h' hdraws _ hread hread'
    intro number _ store hstore
    have hmem := List.mem_of_getElem? hstore
    simp only [List.mem_append, List.mem_map, List.mem_cons, List.not_mem_nil, or_false] at hmem
    grind
  case generateSendFlags =>
    apply generateFlag_agree h h' hdraws _ hread hread'
    intro number hnumber store hstore
    cases hnumber.symm.trans hassign
    cases hstore
    use p.MSG_OOB ||| p.MSG_DONTROUTE
  case generateAmode =>
    apply generateFlag_agree h h' hdraws _ hread hread'
    intro number hnumber store hstore
    obtain ⟨number', hnumber', hle⟩ := hassign
    cases hnumber.symm.trans hnumber'
    obtain ⟨k, rfl⟩ := Nat.exists_eq_add_of_le hle
    -- behind the first three of its cases the switch has assignments only
    rw [← List.getElem?_drop] at hstore
    have hmem := List.mem_of_getElem? hstore
    simp only [List.drop_succ_cons, List.drop_zero, List.mem_cons, List.not_mem_nil,
      or_false] at hmem
    grind
  all_goals cases hassign

end Assigned

/-! ### Memory filled with a byte -/

/-- The machine whose heap and stack were filled with a byte. -/
def Outcome.filled (b : UInt8) (o : Outcome) : Outcome :=
  { o with
    alloc := fun n => (o.alloc n).map fun block => List.replicate (max 8 block.length) b
    alloc_length := by
      intro n block h
      obtain ⟨block', hblock, rfl⟩ := Option.map_eq_some_iff.mp h
      have := o.alloc_length n block' hblock
      rw [List.length_replicate]
      omega
    stack := List.replicate 16 b }

section Filled

variable {p : Platform} {entry : Entry} {outcomes : ℕ → Outcome} {b : UInt8} {o : Outcome}
  {child child' ctx ctx' : ChildCtx} {g : Generator} {i n : ℕ}

theorem memAlloc_filled {block : Buffer} (h : memAlloc (o.filled b) n = some block) :
  ∃ k ≥ 8, block = List.replicate k b
  := by
  rw [memAlloc] at h
  split at h
  · cases h
  · obtain ⟨block', -, rfl⟩ := Option.map_eq_some_iff.mp h
    exact ⟨_, Nat.le_max_left _ _, rfl⟩

/-- Whether memory can be allocated does not depend on what it held before. -/
theorem memAlloc_filled_isSome {β : Type} {f f' : Buffer → Option β}
    (h : ∀ block block', (f' block').isSome = (f block).isSome) :
  ((memAlloc (o.filled b) n).bind f').isSome = ((memAlloc o n).bind f).isSome
  := by
  rw [memAlloc, memAlloc]
  split
  · rfl
  · change (((o.alloc n).map _).bind f').isSome = _
    cases o.alloc n with
    | none => rfl
    | some block => apply h

theorem fill_filled_isSome {size : ℕ} {store store' : Option (Buffer → Buffer)}
    (h : store'.isSome = store.isSome) :
  (fill (o.filled b) child' n size store').isSome = (fill o child n size store).isSome
  := by
  apply memAlloc_filled_isSome
  intro block block'
  rw [Option.isSome_map, Option.isSome_map, h]

theorem generateDescriptor_filled_isSome (fd : Int32) (resource : Int32 → Resource) :
  (generateDescriptor (o.filled b) child' fd resource).isSome
    = (generateDescriptor o child fd resource).isSome
  := by
  apply memAlloc_filled_isSome
  intro block block'
  split <;> rfl

/-- Whether a generator succeeds does not depend on what memory held before. -/
theorem callGenerator_filled_isSome (h : Fresh child) (h' : Fresh child')
    (hcurrent : child'.currentArg = child.currentArg) (old old' : Option Buffer) :
  (callGenerator p (o.filled b) child' old' g).isSome = (callGenerator p o child old g).isSome
  := by
  have hsize : ∀ k, getArgSize child' k = getArgSize child k := by
    intro k
    rw [getArgSize, getArgSize, h.argSizeArray, h'.argSizeArray]
  cases g
  case generateFd | generateSocket => apply generateDescriptor_filled_isSome
  case generatePath | generateDirpath =>
    apply Eq.trans Option.isSome_map Option.isSome_map.symm
  case generateBuf =>
    change (generateBuf o child').isSome = (generateBuf o child).isSome
    rw [generateBuf, generateBuf]
    cases o.draw 1023 with
    | none => rfl
    | some number =>
        cases o.draw 2 with
        | none => rfl
        | some number =>
            simp only [Option.bind_some]
            split <;> rfl
  case generateMountType | generateMountpath => rfl
  case generateLength | generateSocklen =>
    apply fill_filled_isSome
    rw [hcurrent, Option.isSome_map, Option.isSome_map, hsize]
  case generateMessage =>
    apply fill_filled_isSome
    apply memAlloc_filled_isSome
    intro _ _
    rfl
  case generateMountFlags | generateUnmountFlags | generateRequest =>
    apply fill_filled_isSome
    rw [Option.isSome_map, Option.isSome_map]
    rfl
  all_goals
    apply fill_filled_isSome
    rfl

theorem generateArgument_filled {ctx₁ : ChildCtx} {m : Made} (h : Fresh ctx) (h₁ : Fresh ctx₁)
    (hlength : ctx₁.argValueArray.length = ctx.argValueArray.length)
    (hgen : generateArgument p entry outcomes i ctx = some (ctx', m)) :
  ∃ ctx₁' m₁, generateArgument p entry (fun j => (outcomes j).filled b) i ctx₁ = some (ctx₁', m₁)
  := by
  obtain ⟨-, -, hlt, hlimit, g, old, hg, hcall⟩ := generateArgument_fresh h hgen
  obtain ⟨old₁, hold⟩ : ∃ old₁, ctx₁.argValueArray[i]? = some old₁ :=
    ⟨_, List.getElem?_eq_getElem (hlength ▸ hlt)⟩
  have hfresh : Fresh { ctx with currentArg := i } := ⟨h.1, h.2⟩
  have hfresh₁ : Fresh { ctx₁ with currentArg := i } := ⟨h₁.1, h₁.2⟩
  have hsome := callGenerator_filled_isSome (p := p) (b := b) (o := outcomes i) (g := g)
    hfresh hfresh₁ rfl old old₁
  rw [hcall] at hsome
  obtain ⟨m₁, hcall₁⟩ := Option.isSome_iff_exists.mp hsome
  have hchild := (callGenerator_spec hcall₁).child_eq
  simp only [generateArgument, hg, Option.bind_some, hold, hcall₁]
  simp only [hchild, h₁.argCopyArray, h₁.argSizeArray, List.getElem?_replicate_of_lt hlimit,
    Option.bind_some, Option.map_some]
  exact ⟨_, _, rfl⟩

/-- When `generate_arguments` succeeds, so does it on filled memory. -/
theorem generateFrom_filled {todo : ℕ} {mades : List Made} {ctx₁ : ChildCtx} (h : Fresh ctx)
    (h₁ : Fresh ctx₁) (hlength : ctx₁.argValueArray.length = ctx.argValueArray.length)
    (hgen : generateFrom p entry outcomes todo i ctx = some (ctx', mades)) :
  ∃ ctx₁' mades₁, generateFrom p entry (fun j => (outcomes j).filled b) todo i ctx₁
    = some (ctx₁', mades₁)
  := by
  induction todo generalizing i ctx ctx₁ mades with
  | zero => exact ⟨ctx₁, [], rfl⟩
  | succ todo ih =>
      obtain ⟨⟨ctx₂, m⟩, hfirst, hgen⟩ := Option.bind_eq_some_iff.mp hgen
      obtain ⟨⟨ctx₃, mades₃⟩, hrest, hgen⟩ := Option.map_eq_some_iff.mp hgen
      cases hgen
      obtain ⟨ctx₄, m₄, hfirst₁⟩ := generateArgument_filled (b := b) h h₁ hlength hfirst
      obtain ⟨h₂, hvalue, -⟩ := generateArgument_fresh h hfirst
      obtain ⟨h₄, hvalue₄, -⟩ := generateArgument_fresh h₁ hfirst₁
      have hlength₄ : ctx₄.argValueArray.length = ctx₂.argValueArray.length := by
        rw [hvalue, hvalue₄, List.length_set, List.length_set, hlength]
      obtain ⟨ctx₅, mades₅, hrest₁⟩ := ih h₂ h₄ hlength₄ hrest
      use ctx₅, m₄ :: mades₅
      simp only [generateFrom, hfirst₁, Option.bind_some, hrest₁, Option.map_some]

end Filled

/-! ### Memory that shows through -/

/-- A byte of an argument is read as it was before. -/
def Shows (n k : ℕ) (b : UInt8) (value : Option Buffer) : Prop :=
  ∃ bytes, readBytes n value = some bytes ∧ bytes[k]? = some b

/-- Two arguments are read as different bytes. -/
def Differ (n : ℕ) (value value' : Option Buffer) : Prop :=
  ∃ bytes bytes', readBytes n value = some bytes ∧ readBytes n value' = some bytes' ∧
    bytes ≠ bytes'

section Shows

variable {p : Platform} {o : Outcome} {child child' : ChildCtx} {g : Generator} {m m' : Made}
  {n k : ℕ} {b b' : UInt8} {block written : Buffer}

theorem Shows.differ {value value' : Option Buffer} (h : Shows n k b value)
    (h' : Shows n k b' value') (hne : b ≠ b') :
  Differ n value value'
  := by
  obtain ⟨bytes, hbytes, hb⟩ := h
  obtain ⟨bytes', hbytes', hb'⟩ := h'
  use bytes, bytes', hbytes, hbytes'
  rintro rfl
  apply hne
  rw [hb] at hb'
  exact Option.some_inj.mp hb'

theorem shows_of_getElem? (hle : n ≤ block.length) (hk : k < n) (hb : block[k]? = some b) :
  Shows n k b (some block)
  := by
  use block.take n, readBytes_of_le hle
  rw [List.getElem?_take_of_lt hk, hb]

/-- A write of less than eight bytes leaves the last one of the word. -/
theorem shows_overwrite (hk : 8 ≤ k) (hlength : written.length < 8) :
  Shows 8 7 b (some (overwrite (List.replicate k b) written))
  := by
  apply shows_of_getElem?
  · rwa [length_overwrite, List.length_replicate]
  · decide
  · rw [getElem?_overwrite (Nat.le_of_lt_succ hlength), List.getElem?_replicate_of_lt hk]

theorem generateDescriptor_shows {fd : Int32} {resource : Int32 → Resource}
    (h : generateDescriptor (o.filled b) child fd resource = some m) :
  Shows 8 7 b m.value
  := by
  obtain ⟨block, hblock, h⟩ := Option.bind_eq_some_iff.mp h
  obtain ⟨k, hk, rfl⟩ := memAlloc_filled hblock
  split at h
  · cases h
  · cases h
    apply shows_overwrite hk
    rw [length_le]
    decide

/-- What `fill` has done on filled memory. -/
theorem fill_filled {nbytes size : ℕ} {store : Option (Buffer → Buffer)}
    (h : fill (o.filled b) child nbytes size store = some m) :
  ∃ k ≥ 8, k ≥ nbytes ∧ ∃ f, store = some f ∧ m.value = some (f (List.replicate k b))
  := by
  obtain ⟨block, hblock, h⟩ := Option.bind_eq_some_iff.mp h
  obtain ⟨f, hf, rfl⟩ := Option.map_eq_some_iff.mp h
  obtain ⟨-, hle⟩ := memAlloc_eq_some hblock
  obtain ⟨k, hk, rfl⟩ := memAlloc_filled hblock
  rw [List.length_replicate] at hle
  exact ⟨k, hk, hle, f, hf, rfl⟩

theorem generateOffset_shows (h : generateOffset (o.filled b) child = some m) :
  Shows 8 7 b m.value
  := by
  obtain ⟨k, hk, -, f, hf, hvalue⟩ := fill_filled h
  obtain ⟨number, -, rfl⟩ := Option.map_eq_some_iff.mp hf
  rw [hvalue]
  apply shows_overwrite hk
  rw [length_le]
  decide

theorem generateElement_shows {nbytes range : ℕ} {words : List UInt64}
    (h : generateElement (o.filled b) child nbytes range words = some m) :
  Shows 8 7 b m.value
  := by
  obtain ⟨k, hk, -, f, hf, hvalue⟩ := fill_filled h
  obtain ⟨number, -, rfl⟩ := Option.map_eq_some_iff.mp hf
  rw [hvalue]
  apply shows_overwrite hk
  apply Nat.lt_of_le_of_lt (List.length_take_le _ _)
  decide

/-- The stack shows behind the port of a socket address. -/
theorem generateSockaddr_shows (hp : p.Usual)
    (h : generateSockaddr p (o.filled b) child = some m) :
  Shows p.sizeofSockaddrIn 4 b m.value
  := by
  obtain ⟨k, -, hk, f, hf, hvalue⟩ := fill_filled h
  cases hf
  have hsize := hp.sockaddr
  rw [hvalue]
  apply shows_of_getElem?
  · rwa [length_overwrite, List.length_replicate]
  · apply hsize
  · rw [getElem?_overwrite_of_lt _ (by rw [List.length_replicate]; omega),
      List.getElem?_take_of_lt hsize, List.getElem?_append_right (Nat.le_of_eq (length_le 4 0)), length_le]
    · rfl
    · rw [List.length_take, List.length_append, length_le]
      change 4 < min p.sizeofSockaddrIn (4 + 16)
      omega

theorem readBytes_orIn {word : UInt64} (hk : 8 ≤ k) :
  readBytes 8 (some (Store.apply (List.replicate k b) (.orIn word)))
    = some (le 8 (ofLe (List.replicate 8 b) ||| word.toNat))
  := by
  have hlength : 8 ≤ (List.replicate k b).length := by
    rwa [List.length_replicate]
  rw [Store.apply, readBytes_of_le (by rwa [length_overwrite]),
    take_overwrite (length_le _ _) hlength, List.take_replicate, Nat.min_eq_left hk]

theorem le_or_ne {word : UInt64} (hword : word.toNat ≠ 2 ^ 64 - 1) :
  le 8 (ofLe (List.replicate 8 0) ||| word.toNat)
    ≠ le 8 (ofLe (List.replicate 8 255) ||| word.toNat)
  := by
  intro heq
  have hlt := word.toNat_lt
  have hones : ofLe (List.replicate 8 255) = 2 ^ 64 - 1 := rfl
  have hle : 2 ^ 64 - 1 ≤ (2 ^ 64 - 1) ||| word.toNat := Nat.left_le_or
  have hor : (2 ^ 64 - 1) ||| word.toNat < 2 ^ 64 := Nat.or_lt_two_pow (by decide) hlt
  have := congrArg ofLe heq
  rw [ofLe_le, ofLe_le, ofLe_replicate_zero, Nat.zero_or, hones] at this
  omega

/-- A flag that is or-ed into memory does not hide what the memory held. -/
theorem generateFlag_differ {nbytes range size : ℕ} {cases : List Store}
    (h : generateFlag (o.filled 0) child nbytes range size cases = some m)
    (h' : generateFlag (o.filled 255) child' nbytes range size cases = some m')
    (hor : ∀ number, o.draw range = some number → ∀ store, cases[number]? = some store →
      ∃ word, store = .orIn word ∧ word.toNat ≠ 2 ^ 64 - 1) :
  Differ 8 m.value m'.value
  := by
  obtain ⟨block, number, store, hblock, hnumber, hstore, hvalue⟩ := generateFlag_eq_some h
  obtain ⟨block', number', store', hblock', hnumber', hstore', hvalue'⟩ := generateFlag_eq_some h'
  cases hnumber.symm.trans hnumber'
  cases hstore.symm.trans hstore'
  obtain ⟨word, rfl, hword⟩ := hor number hnumber store hstore
  obtain ⟨k, hk, rfl⟩ := memAlloc_filled hblock
  obtain ⟨k', hk', rfl⟩ := memAlloc_filled hblock'
  rw [hvalue, hvalue']
  exact ⟨_, _, readBytes_orIn hk, readBytes_orIn hk', le_or_ne hword⟩

/-- The cases of a switch that or in flags of the platform. -/
theorem orIn_of_getElem? {cases : List Store} {number : ℕ} {store : Store} (words : List UInt64)
    (hp : p.Usual) (hwords : words ⊆ p.orFlags) (hlt : number < words.length)
    (htake : cases.take words.length = words.map .orIn) (hstore : cases[number]? = some store) :
  ∃ word, store = .orIn word ∧ word.toNat ≠ 2 ^ 64 - 1
  := by
  rw [← List.getElem?_take_of_lt hlt, htake] at hstore
  obtain ⟨word, hword, rfl⟩ := List.mem_map.mp (List.mem_of_getElem? hstore)
  exact ⟨word, rfl, hp.flags word (hwords hword)⟩

/-- A generator that assigns no whole word makes different words on memory filled with zeros and
with ones. -/
theorem callGenerator_differ {old old' : Option Buffer} (hp : p.Usual)
    (hread : readSize p g = some n) (hassign : ¬ AssignsWord o.draws g)
    (h : callGenerator p (o.filled 0) child old g = some m)
    (h' : callGenerator p (o.filled 255) child' old' g = some m') :
  Differ n m.value m'.value
  := by
  have hne : (0 : UInt8) ≠ 255 := by decide
  cases g
  all_goals cases hread
  case generateFd | generateSocket =>
    apply (generateDescriptor_shows h).differ (generateDescriptor_shows h') hne
  case generateOffset => apply (generateOffset_shows h).differ (generateOffset_shows h') hne
  case generateMountFlags | generateUnmountFlags | generateRequest =>
    apply (generateElement_shows h).differ (generateElement_shows h') hne
  case generateSockaddr =>
    apply (generateSockaddr_shows hp h).differ (generateSockaddr_shows hp h') hne
  case generateMode | generateWhence | generateRecvFlags => cases hassign trivial
  case generateOpenFlag =>
    apply generateFlag_differ h h'
    intro number hnumber store hstore
    apply orIn_of_getElem? (p.orFlags.take 8) hp (List.take_subset 8 _) _ rfl hstore
    apply (List.getElem?_eq_some_iff.mp hstore).1
  case generateChflags =>
    apply generateFlag_differ h h'
    intro number hnumber store hstore
    apply orIn_of_getElem? (p.orFlags.drop 13) hp (List.drop_subset 13 _) _ rfl hstore
    apply (List.getElem?_eq_some_iff.mp hstore).1
  case generateSendFlags =>
    apply generateFlag_differ h h'
    intro number hnumber store hstore
    apply orIn_of_getElem? [p.MSG_OOB, p.MSG_DONTROUTE] hp _ _ rfl hstore
    · simp [Platform.orFlags]
    · have hlt := (List.getElem?_eq_some_iff.mp hstore).1
      have hne : number ≠ 2 := by
        rintro rfl
        apply hassign hnumber
      simp only [List.length_cons, List.length_nil] at hlt ⊢
      omega
  case generateAmode =>
    apply generateFlag_differ h h'
    intro number hnumber store hstore
    apply orIn_of_getElem? [p.R_OK, p.W_OK, p.X_OK] hp _ _ rfl hstore
    · simp [Platform.orFlags]
    · apply Nat.lt_of_not_le
      intro hle
      apply hassign
      exact ⟨number, hnumber, hle⟩

end Shows

/-! ### Two runs -/

section Decide

variable {p : Platform} {entry : Entry} {draws : ℕ → Draws}

theorem Generated.fresh (r : Generated p entry draws) :
  Fresh r.before
  := run_invariant_of_step step_fresh initChildContext_fresh r.reached

/-- The arguments of a test were made by their generators. -/
theorem Generated.made (r : Generated p entry draws) {i : ℕ} (hi : i < entry.totalArgs) :
  ∃ g child old m, entry.generator i = some g ∧
    callGenerator p (r.outcomes i) child old g = some m ∧ ∀ n, r.read i n = readBytes n m.value
  := by
  obtain ⟨-, -, hmades⟩ := generateArguments_fresh r.fresh r.generated
  obtain ⟨m, -, hm⟩ := hmades i hi
  obtain ⟨g, child, old, hg, -, -, hcall⟩ := hm.called
  use g, child, old, m, hg, hcall
  intro n
  rw [read, hm.value, Option.join_some]

/-- A test can be generated with the same draws on filled memory. -/
theorem Generated.exists_filled (r : Generated p entry draws) (b : UInt8) :
  ∃ r' : Generated p entry draws, r'.outcomes = fun i => (r.outcomes i).filled b
  := by
  obtain ⟨after, mades, hgen⟩ := generateFrom_filled (b := b) r.fresh r.fresh rfl r.generated
  use ⟨fun i => (r.outcomes i).filled b, r.draws_eq, r.history, r.before, r.reached, after, mades,
    hgen⟩

/-- For a test that can be generated, what reaches the kernel and the log of numbers, flag words
and socket addresses depends on the draws only, if and only if all of them are words assigned as
a whole. -/
theorem drawsDecide_iff (hp : p.Usual) (r : Generated p entry draws) :
  DrawsDecide p entry draws ↔
    ∀ i < entry.totalArgs, ∀ g, entry.generator i = some g → (readSize p g).isSome →
      AssignsWord (draws i) g
  := by
  constructor
  · intro hdecide i hi g hg hread
    by_contra hassign
    obtain ⟨n, hn⟩ := Option.isSome_iff_exists.mp hread
    obtain ⟨r₀, hr₀⟩ := r.exists_filled 0
    obtain ⟨r₁, hr₁⟩ := r.exists_filled 255
    obtain ⟨g₀, child₀, old₀, m₀, hg₀, hcall₀, hread₀⟩ := r₀.made hi
    obtain ⟨g₁, child₁, old₁, m₁, hg₁, hcall₁, hread₁⟩ := r₁.made hi
    cases hg.symm.trans hg₀
    cases hg.symm.trans hg₁
    rw [hr₀] at hcall₀
    rw [hr₁] at hcall₁
    rw [← r.draws_eq i] at hassign
    obtain ⟨bytes₀, bytes₁, hbytes₀, hbytes₁, hne⟩ :=
      callGenerator_differ hp hn hassign hcall₀ hcall₁
    apply hne
    apply hdecide r₀ r₁ i hi n
    · rw [hg, Option.bind_some, hn]
    · rw [hread₀, hbytes₀]
    · rw [hread₁, hbytes₁]
  · intro hassign r₁ r₂ i hi n hn bytes₁ bytes₂ hbytes₁ hbytes₂
    obtain ⟨g, child₁, old₁, m₁, hg, hcall₁, hread₁⟩ := r₁.made hi
    obtain ⟨g₂, child₂, old₂, m₂, hg₂, hcall₂, hread₂⟩ := r₂.made hi
    cases hg.symm.trans hg₂
    rw [hg, Option.bind_some] at hn
    have hword := hassign i hi g hg (Option.isSome_iff_exists.mpr ⟨n, hn⟩)
    have height : n = 8 := by
      cases g
      all_goals cases hn
      all_goals first | rfl | cases hword
    subst height
    rw [hread₁] at hbytes₁
    rw [hread₂] at hbytes₂
    apply callGenerator_agree hcall₁ hcall₂ _ _ hbytes₁ hbytes₂
    · rw [r₁.draws_eq, r₂.draws_eq]
    · rw [r₂.draws_eq]
      apply hword

end Decide

/-- A platform with some of the constants of FreeBSD. -/
def plainPlatform : Platform :=
  { (default : Platform) with
    sizeofDevT := 4
    sizeofSockaddrIn := 16
    O_WRONLY := 1
    O_RDWR := 2 }

theorem plainPlatform_usual :
  plainPlatform.Usual
  := by
  constructor
  · have hflags : plainPlatform.orFlags = [0, 1, 2] ++ List.replicate 18 0 := rfl
    rw [hflags]
    simp
  · exact Nat.le_of_ble_eq_true rfl

/-- A test of an entry on a machine filled with a byte, all of whose draws are zero. -/
def plainGenerated (entry : Entry) (b : UInt8) :
    Option (Generated plainPlatform entry fun _ => (plainOutcome 5 []).draws) :=
  let outcomes := fun _ => (plainOutcome 5 []).filled b
  match h : generateArguments plainPlatform entry outcomes initChildContext with
  | none => none
  | some (after, mades) =>
      some ⟨outcomes, fun _ => rfl, [], initChildContext, rfl, after, mades, h⟩

theorem drawsDecide_mknod :
  (plainGenerated FreeBSD.entryMknod 0).isSome ∧
    DrawsDecide plainPlatform FreeBSD.entryMknod fun _ => (plainOutcome 5 []).draws
  := by
  have hsome : (plainGenerated FreeBSD.entryMknod 0).isSome := rfl
  use hsome
  apply (drawsDecide_iff plainPlatform_usual (Option.get _ hsome)).mpr
  intro i hi g hg hread
  match i with
  | 0 =>
      cases hg
      cases hread
  | 1 =>
      cases hg
      trivial
  | 2 =>
      cases hg
      cases hread

/-- The flags of a test of `open` are what memory held before. -/
theorem drawsDecide_not_open :
  ¬ DrawsDecide plainPlatform FreeBSD.entryOpen fun _ => (plainOutcome 5 []).draws
  := by
  intro hdecide
  have hsome : ∀ b, (plainGenerated FreeBSD.entryOpen b).isSome := fun b => rfl
  have := hdecide (Option.get _ (hsome 0)) (Option.get _ (hsome 255)) 1 (by decide) 8 rfl
    (List.replicate 8 0) (List.replicate 8 255) rfl rfl
  cases this

end Syscall
