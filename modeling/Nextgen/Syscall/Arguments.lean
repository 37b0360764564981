import Nextgen.Lib.Transition
import Nextgen.Syscall.Generate

/-!
# The arguments of a test

`generate_arguments` and `free_old_arguments` on the context of one child.  An argument is
copied to `arg_copy_array` as far as `arg_size_array` says, and the resources of a test are
given back from the copies.
-/

open Bytes Transition

namespace Syscall

/-- `init_child_context`, when its allocations succeed: shared memory is zero-filled. -/
def initChildContext : ChildCtx where
  currentArg := 0
  argValueArray := List.replicate ARG_LIMIT (some (List.replicate ARG_BUF_LEN 0))
  argCopyArray := List.replicate ARG_LIMIT (some (List.replicate ARG_BUF_LEN 0))
  argSizeArray := List.replicate ARG_LIMIT 0

/-- `get_arg_array[i]`. -/
def Entry.generator (entry : Entry) (i : ℕ) : Option Generator :=
  entry.args[i]?.map Prod.snd

/-- `memcpy`: the destination afterwards. -/
def memcpy (dst src : Option Buffer) (n : ℕ) : Option Buffer :=
  if n = 0 then dst else dst.map fun dst => overwrite dst ((src.getD []).take n)

section Definitions

variable (p : Platform) (entry : Entry) (outcomes : ℕ → Outcome)

/-- The body of the loop of `generate_arguments`. -/
def generateArgument (i : ℕ) (ctx : ChildCtx) : Option (ChildCtx × Made) :=
  let ctx := { ctx with currentArg := i }
  (entry.generator i).bind fun g =>
    ctx.argValueArray[i]?.bind fun old =>
      (callGenerator p (outcomes i) ctx old g).bind fun made =>
        let ctx := { made.child with argValueArray := made.child.argValueArray.set i made.value }
        ctx.argCopyArray[i]?.bind fun copy =>
          ctx.argSizeArray[i]?.map fun size =>
            ({ ctx with argCopyArray := ctx.argCopyArray.set i (memcpy copy made.value size) }, made)

/-- The loop of `generate_arguments` from index `i` on, `todo` arguments before its end. -/
def generateFrom : ℕ → ℕ → ChildCtx → Option (ChildCtx × List Made)
  | 0, _, ctx => some (ctx, [])
  | todo + 1, i, ctx =>
      (generateArgument p entry outcomes i ctx).bind fun (ctx, made) =>
        (generateFrom todo (i + 1) ctx).map fun (ctx, mades) => (ctx, made :: mades)

/-- `generate_arguments`, `none` when it returns `-1`: the child context and what the generators
have done. -/
def generateArguments (ctx : ChildCtx) : Option (ChildCtx × List Made) :=
  generateFrom p entry outcomes entry.totalArgs 0 ctx

end Definitions

/-- Which resource generator is used, and whether the file or directory of a path could be
removed. -/
structure FreeOutcome where
  cached : Bool
  removed : Bool

/-- The descriptor that an `int32_t *` points at. -/
def readInt32 (buffer : Buffer) : Int32 :=
  (UInt32.ofNat (ofLe (buffer.take 4))).toInt32

/-- `free_filepath` and `free_dirpath` on a pointer to a path: where it points afterwards, and
the path.  There is no file or directory of the empty path.  Without a cache the path is freed
after what it names has been removed; with one, it is compared with those in use. -/
def freePath (o : FreeOutcome) : Option Buffer → Option (Option Buffer × Option Buffer)
  | none => if o.cached then none else some (none, none)
  | some buffer =>
      let path := cString buffer
      if !o.cached ∧ o.removed ∧ path ≠ [] then some (none, some path)
      else some (some buffer, some path)

section Definitions

variable (entry : Entry) (outcomes : ℕ → FreeOutcome)

/-- The body of the loop of `free_old_arguments`: the child context, and the resource that is
passed to a free function.  A null descriptor pointer has no value. -/
def freeArgument (i : ℕ) (ctx : ChildCtx) : Option (ChildCtx × Option Resource) :=
  match entry.argType i with
  | .fileDesc => ctx.argCopyArray[i]?.join.map fun copy => (ctx, some (.desc (readInt32 copy)))
  | .socket => ctx.argCopyArray[i]?.join.map fun copy => (ctx, some (.socket (readInt32 copy)))
  | .filePath =>
      ctx.argCopyArray[i]?.bind fun copy => (freePath (outcomes i) copy).map fun (copy, path) =>
        ({ ctx with argCopyArray := ctx.argCopyArray.set i copy }, path.map .file)
  | .dirPath =>
      ctx.argCopyArray[i]?.bind fun copy => (freePath (outcomes i) copy).map fun (copy, path) =>
        ({ ctx with argCopyArray := ctx.argCopyArray.set i copy }, path.map .dir)
  | .voidBuf => some ({ ctx with argValueArray := ctx.argValueArray.set i none }, none)
  | _ => some (ctx, none)

/-- The loop of `free_old_arguments` from index `i` on, `todo` arguments before its end. -/
def freeFrom : ℕ → ℕ → ChildCtx → Option (ChildCtx × List Resource)
  | 0, _, ctx => some (ctx, [])
  | todo + 1, i, ctx =>
      (freeArgument entry outcomes i ctx).bind fun (ctx, resource) =>
        (freeFrom todo (i + 1) ctx).map fun (ctx, resources) =>
          (ctx, resource.toList ++ resources)

/-- `free_old_arguments`: the child context and the resources passed to free functions. -/
def freeOldArguments (ctx : ChildCtx) : Option (ChildCtx × List Resource) :=
  freeFrom entry outcomes entry.totalArgs 0 ctx

end Definitions

/-! ### Copies and sizes do not change -/

/-- The copies and the sizes are those of `init_child_context`. -/
structure Fresh (ctx : ChildCtx) : Prop where
  argCopyArray : ctx.argCopyArray = List.replicate ARG_LIMIT (some (List.replicate ARG_BUF_LEN 0))
  argSizeArray : ctx.argSizeArray = List.replicate ARG_LIMIT 0

theorem initChildContext_fresh :
  Fresh initChildContext
  := ⟨rfl, rfl⟩

section Fresh

variable {p : Platform} {entry : Entry} {outcomes : ℕ → Outcome} {frees : ℕ → FreeOutcome}
  {ctx ctx' : ChildCtx} {i : ℕ} {m : Made}

theorem getElem?_replicate_some {α : Type} {n i : ℕ} {a b : α}
    (h : (List.replicate n a)[i]? = some b) :
  b = a
  := List.eq_of_mem_replicate (List.mem_of_getElem? h)

/-- What one round of `generate_arguments` has done when the sizes are zero: it called the
generator, and copied nothing. -/
theorem generateArgument_fresh (h : Fresh ctx)
    (hgen : generateArgument p entry outcomes i ctx = some (ctx', m)) :
  Fresh ctx' ∧ ctx'.argValueArray = ctx.argValueArray.set i m.value ∧
    i < ctx.argValueArray.length ∧ i < ARG_LIMIT ∧
    ∃ g old, entry.generator i = some g ∧
      callGenerator p (outcomes i) { ctx with currentArg := i } old g = some m
  := by
  obtain ⟨g, hg, hgen⟩ := Option.bind_eq_some_iff.mp hgen
  obtain ⟨old, hold, hgen⟩ := Option.bind_eq_some_iff.mp hgen
  obtain ⟨m', hcall, hgen⟩ := Option.bind_eq_some_iff.mp hgen
  obtain ⟨copy, hcopy, hgen⟩ := Option.bind_eq_some_iff.mp hgen
  obtain ⟨size, hsize, hgen⟩ := Option.map_eq_some_iff.mp hgen
  cases hgen
  have hchild := (callGenerator_spec hcall).child_eq
  rw [hchild] at hcopy hsize
  simp only [h.argCopyArray] at hcopy
  simp only [h.argSizeArray] at hsize
  have hlt : i < ARG_LIMIT := by
    simpa using (List.getElem?_eq_some_iff.mp hsize).1
  rw [getElem?_replicate_some hcopy, getElem?_replicate_some hsize, hchild]
  constructor
  · constructor
    · rw [memcpy, if_pos rfl, h.argCopyArray, List.set_replicate_self]
    · apply h.argSizeArray
  · exact ⟨rfl, (List.getElem?_eq_some_iff.mp hold).1, hlt, g, old, hg, hcall⟩

/-- An argument of a test that generated its arguments up to `ctx'`. -/
structure ArgumentMade (p : Platform) (entry : Entry) (outcomes : ℕ → Outcome)
    (ctx' : ChildCtx) (i : ℕ) (m : Made) : Prop where
  lt : i < ARG_LIMIT
  value : ctx'.argValueArray[i]? = some m.value
  called : ∃ g child old, entry.generator i = some g ∧ Fresh child ∧ child.currentArg = i ∧
    callGenerator p (outcomes i) child old g = some m

/-- What the loop of `generate_arguments` has done from an index on: the arguments before it are
left, and those after it are made. -/
theorem generateFrom_fresh {todo : ℕ} {mades : List Made} (h : Fresh ctx)
    (hgen : generateFrom p entry outcomes todo i ctx = some (ctx', mades)) :
  Fresh ctx' ∧ mades.length = todo ∧
    (∀ j < i, ctx'.argValueArray[j]? = ctx.argValueArray[j]?) ∧
    ∀ j m, mades[j]? = some m → ArgumentMade p entry outcomes ctx' (i + j) m
  := by
  induction todo generalizing i ctx mades with
  | zero =>
      cases hgen
      use h, rfl, fun _ _ => rfl
      intro j m hm
      cases hm
  | succ todo ih =>
      obtain ⟨⟨ctx₁, m₁⟩, hfirst, hgen⟩ := Option.bind_eq_some_iff.mp hgen
      obtain ⟨⟨ctx₂, mades₂⟩, hrest, hgen⟩ := Option.map_eq_some_iff.mp hgen
      cases hgen
      obtain ⟨h₁, hvalue, hlt, hlimit, g, old, hg, hcall⟩ := generateArgument_fresh h hfirst
      obtain ⟨h₂, hlen, hbefore, hmades⟩ := ih h₁ hrest
      use h₂, by rw [List.length_cons, hlen]
      constructor
      · intro j hj
        rw [hbefore j (Nat.lt_succ_of_lt hj), hvalue, List.getElem?_set_ne (Nat.ne_of_gt hj)]
      · intro j m hm
        cases j with
        | zero =>
            cases hm
            constructor
            · apply hlimit
            · rw [Nat.add_zero, hbefore i (Nat.lt_succ_self i), hvalue,
                List.getElem?_set_self hlt]
            · exact ⟨g, { ctx with currentArg := i }, old, hg, ⟨h.1, h.2⟩, rfl, hcall⟩
        | succ j =>
            have := hmades j m hm
            rwa [Nat.add_right_comm] at this

end Fresh

/-- The path that is passed to `free_filepath` or `free_dirpath` is empty, and stays where it
was. -/
theorem freePath_zero (o : FreeOutcome) (n : ℕ) :
  freePath o (some (List.replicate n 0)) = some (some (List.replicate n 0), some [])
  := by
  simp only [freePath, cString_replicate_zero, ne_eq, not_true_eq_false, and_false, ↓reduceIte]

theorem readInt32_zero (n : ℕ) :
  readInt32 (List.replicate n 0) = 0
  := by
  rw [readInt32, List.take_replicate, ofLe_replicate_zero]
  rfl

/-- The resource that is passed to a free function for an argument whose copy is zero. -/
def zeroResource : ArgType → Option Resource
  | .fileDesc => some (.desc 0)
  | .socket => some (.socket 0)
  | .filePath => some (.file [])
  | .dirPath => some (.dir [])
  | _ => none

section Free

variable (entry : Entry) (frees : ℕ → FreeOutcome)

theorem freeArgument_fresh {ctx : ChildCtx} {i : ℕ} (h : Fresh ctx) (hi : i < ARG_LIMIT) :
  ∃ ctx', freeArgument entry frees i ctx = some (ctx', zeroResource (entry.argType i)) ∧ Fresh ctx'
  := by
  have hcopy : ctx.argCopyArray[i]? = some (some (List.replicate ARG_BUF_LEN 0)) := by
    rw [h.argCopyArray, List.getElem?_replicate_of_lt hi]
  have hset : ctx.argCopyArray.set i (some (List.replicate ARG_BUF_LEN 0)) = ctx.argCopyArray := by
    rw [h.argCopyArray, List.set_replicate_self]
  cases htype : entry.argType i
  case fileDesc | socket =>
    simp only [freeArgument, htype, hcopy, Option.join_some, Option.map_some, readInt32_zero]
    exact ⟨ctx, rfl, h⟩
  case filePath | dirPath =>
    simp only [freeArgument, htype, hcopy, Option.bind_some, freePath_zero, Option.map_some, hset]
    exact ⟨ctx, rfl, h⟩
  case voidBuf =>
    simp only [freeArgument, htype]
    exact ⟨_, rfl, h.1, h.2⟩
  all_goals
    simp only [freeArgument, htype]
    exact ⟨ctx, rfl, h⟩

/-- `free_old_arguments` passes zero to the free functions, and leaves the copies. -/
theorem freeFrom_fresh {todo i : ℕ} {ctx : ChildCtx} (h : Fresh ctx) (hle : i + todo ≤ ARG_LIMIT) :
  ∃ ctx', freeFrom entry frees todo i ctx
      = some (ctx', (List.range' i todo).filterMap fun j => zeroResource (entry.argType j)) ∧
    Fresh ctx'
  := by
  induction todo generalizing i ctx with
  | zero => exact ⟨ctx, rfl, h⟩
  | succ todo ih =>
      obtain ⟨ctx₁, hfirst, h₁⟩ :=
        freeArgument_fresh entry frees h (show i < ARG_LIMIT by omega)
      obtain ⟨ctx₂, hrest, h₂⟩ := ih h₁ (show i + 1 + todo ≤ ARG_LIMIT by omega)
      use ctx₂
      simp only [freeFrom, hfirst, Option.bind_some, hrest, Option.map_some, List.range'_succ]
      constructor
      · cases hzero : zeroResource (entry.argType i) <;> simp [hzero]
      · apply h₂

end Free

/-! ### Sizes, copies and lengths -/

/-- The number of bytes in which a generator stores the size of the argument before its own. -/
def lengthBytes : Generator → Option ℕ
  | .generateLength => some 8
  | .generateSocklen => some 4
  | _ => none

/-- The sizes are those that the generators reported. -/
def SizesReported (entry : Entry) (ctx : ChildCtx) (mades : List Made) : Prop :=
  ∀ i < entry.totalArgs, ∃ m, mades[i]? = some m ∧
    ∀ n, m.reported = some n → ctx.argSizeArray[i]? = some n

/-- An argument is copied as far as its size says. -/
def Copied (entry : Entry) (ctx : ChildCtx) : Prop :=
  ∀ i < entry.totalArgs, ∃ n copy, ctx.argSizeArray[i]? = some n ∧
    ctx.argCopyArray[i]? = some (some copy) ∧
      copy.take n = (ctx.argValueArray[i]?.join.getD []).take n

/-- A length is the size of the argument before it. -/
def LengthsStored (entry : Entry) (ctx : ChildCtx) : Prop :=
  ∀ i < entry.totalArgs, i ≠ 0 → ∀ nbytes, (entry.generator i).bind lengthBytes = some nbytes →
    ∃ n value, ctx.argSizeArray[i - 1]? = some n ∧ ctx.argValueArray[i]? = some (some value) ∧
      ofLe (value.take nbytes) = n

/-- What may have happened to a child context: the arguments of a test were generated up to a
number of them, they were mutated, or they were freed up to a number of them. -/
inductive Action where
  | generate (entry : Entry) (outcomes : ℕ → Outcome) (args : ℕ)
  | mutate (values : List (Option Buffer))
  | free (entry : Entry) (outcomes : ℕ → FreeOutcome) (args : ℕ)

/-- A step in the history of a child context. -/
def step (p : Platform) (ctx : ChildCtx) : Action → Option ChildCtx
  | .generate entry outcomes args => (generateFrom p entry outcomes args 0 ctx).map Prod.fst
  | .mutate values => some { ctx with argValueArray := values }
  | .free entry outcomes args =>
      if args ≤ ARG_LIMIT then (freeFrom entry outcomes args 0 ctx).map Prod.fst else none

section Sizes

variable {p : Platform} {entry : Entry} {outcomes : ℕ → Outcome} {ctx ctx' : ChildCtx}
  {mades : List Made}

theorem step_fresh {a : Action} (h : Fresh ctx) (hstep : step p ctx a = some ctx') :
  Fresh ctx'
  := by
  cases a with
  | generate entry outcomes args =>
      obtain ⟨⟨ctx₁, mades⟩, hgen, rfl⟩ := Option.map_eq_some_iff.mp hstep
      apply (generateFrom_fresh h hgen).1
  | mutate values =>
      cases hstep
      exact ⟨h.1, h.2⟩
  | free entry outcomes args =>
      simp only [step] at hstep
      split at hstep
      · rename_i hargs
        obtain ⟨ctx₁, hfree, h₁⟩ := freeFrom_fresh entry outcomes h
          (show 0 + args ≤ ARG_LIMIT by omega)
        rw [hfree] at hstep
        cases hstep
        apply h₁
      · cases hstep

/-- Every argument of a test was made by its generator. -/
theorem generateArguments_fresh (h : Fresh ctx)
    (hgen : generateArguments p entry outcomes ctx = some (ctx', mades)) :
  Fresh ctx' ∧ mades.length = entry.totalArgs ∧
    ∀ i < entry.totalArgs, ∃ m, mades[i]? = some m ∧ ArgumentMade p entry outcomes ctx' i m
  := by
  obtain ⟨h', hlen, -, hmades⟩ := generateFrom_fresh h hgen
  use h', hlen
  intro i hi
  have hm := List.getElem?_eq_getElem (l := mades) (i := i) (hlen ▸ hi)
  use mades[i], hm
  simpa only [Nat.zero_add] using hmades i _ hm

/-- An argument is copied as far as its size says: not at all. -/
theorem generateArguments_copied (h : Fresh ctx)
    (hgen : generateArguments p entry outcomes ctx = some (ctx', mades)) :
  Copied entry ctx'
  := by
  obtain ⟨h', -, hmades⟩ := generateArguments_fresh h hgen
  intro i hi
  obtain ⟨m, -, hm⟩ := hmades i hi
  use 0, List.replicate ARG_BUF_LEN 0
  rw [h'.argSizeArray, h'.argCopyArray, List.getElem?_replicate_of_lt hm.lt,
    List.getElem?_replicate_of_lt hm.lt]
  exact ⟨rfl, rfl, rfl⟩

/-- A length is the size of the argument before it: zero. -/
theorem generateArguments_lengthsStored (h : Fresh ctx)
    (hgen : generateArguments p entry outcomes ctx = some (ctx', mades)) :
  LengthsStored entry ctx'
  := by
  obtain ⟨h', -, hmades⟩ := generateArguments_fresh h hgen
  intro i hi hne nbytes hbytes
  obtain ⟨m, -, hm⟩ := hmades i hi
  obtain ⟨g, child, old, hg, hchild, hcurrent, hcall⟩ := hm.called
  rw [hg, Option.bind_some] at hbytes
  have hsize : generateSize (outcomes i) child nbytes = some m := by
    cases g <;> cases hbytes
    · apply hcall
    · apply hcall
  obtain ⟨n, value, hn, hvalue, hread⟩ := generateSize_value hsize (hcurrent ▸ hne)
  rw [hchild.argSizeArray, hcurrent] at hn
  use n, value
  rw [h'.argSizeArray, hm.value, hvalue, hread, getElem?_replicate_some hn]
  rw [getElem?_replicate_some hn] at hn
  exact ⟨hn, rfl, Nat.zero_mod _⟩

/-- The sizes are those reported exactly when none other than zero is. -/
theorem sizesReported_iff (h : Fresh ctx)
    (hgen : generateArguments p entry outcomes ctx = some (ctx', mades)) :
  SizesReported entry ctx' mades ↔
    ∀ i < entry.totalArgs, ∀ g, entry.generator i = some g → Silent (outcomes i) g
  := by
  obtain ⟨h', -, hmades⟩ := generateArguments_fresh h hgen
  constructor
  · intro hreported i hi g hg
    obtain ⟨m, hm, hargument⟩ := hmades i hi
    obtain ⟨m', hm', hreported⟩ := hreported i hi
    cases hm.symm.trans hm'
    obtain ⟨g', child, old, hg', -, -, hcall⟩ := hargument.called
    cases hg.symm.trans hg'
    apply (callGenerator_spec hcall).silent_iff.mp
    cases hsize : m.reported with
    | none => exact .inl rfl
    | some n =>
        have hn := hreported n hsize
        rw [h'.argSizeArray] at hn
        rw [getElem?_replicate_some hn]
        exact .inr rfl
  · intro hsilent i hi
    obtain ⟨m, hm, hargument⟩ := hmades i hi
    obtain ⟨g, child, old, hg, -, -, hcall⟩ := hargument.called
    use m, hm
    intro n hn
    rw [h'.argSizeArray, List.getElem?_replicate_of_lt hargument.lt]
    rcases (callGenerator_spec hcall).silent_iff.mpr (hsilent i hi g hg) with hnone | hzero
    · cases hnone.symm.trans hn
    · cases hzero.symm.trans hn
      rfl

/-- Whatever happened to a child context before, the arguments of a test have the sizes their
generators reported, their copies and their lengths, if and only if every generator reports no
size or that of an empty path. -/
theorem argument_sizes_iff {history : List Action}
    (hrun : run (step p) initChildContext history = some ctx)
    (hgen : generateArguments p entry outcomes ctx = some (ctx', mades)) :
  SizesReported entry ctx' mades ∧ Copied entry ctx' ∧ LengthsStored entry ctx' ↔
    ∀ i < entry.totalArgs, ∀ g, entry.generator i = some g → Silent (outcomes i) g
  := by
  have h : Fresh ctx := run_invariant_of_step step_fresh initChildContext_fresh hrun
  rw [← sizesReported_iff h hgen]
  constructor
  · rintro ⟨hreported, -⟩
    apply hreported
  · intro hreported
    exact ⟨hreported, generateArguments_copied h hgen, generateArguments_lengthsStored h hgen⟩

end Sizes

/-- A machine on which every call succeeds, with a descriptor and a path to give. -/
def plainOutcome (fd : Int32) (path : Buffer) : Outcome where
  alloc n := some (List.replicate n 0)
  alloc_length n block h := by
    cases h
    apply Nat.le_of_eq List.length_replicate.symm
  draw _ := some 0
  mmapOk := true
  getDesc := fd
  getSocket := fd
  getFilepath := some path
  getDirpath := some path
  getpid := 1
  randBytesOk := true
  msghdr := []
  stack := []

/-- A test of `close` whose argument is mutated, and given back. -/
def closeHistory : List Action :=
  [.generate FreeBSD.entryClose (fun _ => plainOutcome 5 []) 1,
    .mutate (List.replicate ARG_LIMIT (some (List.replicate ARG_BUF_LEN 1))),
    .free FreeBSD.entryClose (fun _ => ⟨false, true⟩) 1]

/-- The path of a test of `chdir` is empty, after a test of `close` on the same context. -/
theorem argument_sizes_emptyPath :
  ∃ ctx ctx' mades, run (step default) initChildContext closeHistory = some ctx ∧
    generateArguments default Mac.entryChdir (fun _ => plainOutcome 5 []) ctx
      = some (ctx', mades) ∧
    SizesReported Mac.entryChdir ctx' mades ∧ Copied Mac.entryChdir ctx' ∧
      LengthsStored Mac.entryChdir ctx'
  := by
  obtain ⟨ctx, hrun, ctx', mades, hgen⟩ : ∃ ctx,
      run (step default) initChildContext closeHistory = some ctx ∧ ∃ ctx' mades,
        generateArguments default Mac.entryChdir (fun _ => plainOutcome 5 []) ctx
          = some (ctx', mades) := ⟨_, rfl, _, _, rfl⟩
  use ctx, ctx', mades, hrun, hgen
  apply (argument_sizes_iff hrun hgen).mpr
  intro i hi g hg
  cases Nat.lt_one_iff.mp hi
  cases hg
  rfl

/-- The size that `generate_fd` reports is not the one that the context of a child of a test of
`close` has. -/
theorem argument_sizes_not_close :
  ∃ ctx' mades, generateArguments default FreeBSD.entryClose (fun _ => plainOutcome 5 [])
      initChildContext = some (ctx', mades) ∧ ¬ SizesReported FreeBSD.entryClose ctx' mades
  := by
  obtain ⟨ctx', mades, hgen⟩ : ∃ ctx' mades, generateArguments default FreeBSD.entryClose
      (fun _ => plainOutcome 5 []) initChildContext = some (ctx', mades) := ⟨_, _, rfl⟩
  use ctx', mades, hgen
  intro hreported
  apply (sizesReported_iff initChildContext_fresh hgen).mp hreported 0 Nat.one_pos .generateFd
  rfl

/-! ### Resources are given back -/

/-- The arguments with the types of resources are those made by the generators of resources. -/
def Entry.ResourceTyped (entry : Entry) : Prop :=
  ∀ i < entry.totalArgs, ∀ g ∈ entry.generator i,
    (entry.argType i = .fileDesc ↔ g = .generateFd) ∧
      (entry.argType i = .socket ↔ g = .generateSocket) ∧
        (entry.argType i = .filePath ↔ g = .generatePath) ∧
          (entry.argType i = .dirPath ↔ g = .generateDirpath)

instance (entry : Entry) : Decidable entry.ResourceTyped :=
  inferInstanceAs (Decidable (∀ i < entry.totalArgs, ∀ g ∈ entry.generator i, _))

/-- The entries of all tables have the types of their generators. -/
theorem tables_resourceTyped :
  ∀ entry ∈ FreeBSD.freebsdSyscallTable ++ Linux.linuxSyscallTable ++ Mac.macOsxSyscallTable,
    entry.ResourceTyped
  := by
  decide

/-- A test: `generate_arguments` followed by `free_old_arguments`. -/
structure Test where
  entry : Entry
  typed : entry.ResourceTyped
  outcomes : ℕ → Outcome
  frees : ℕ → FreeOutcome

/-- One test on the context of a child. -/
def testStep (p : Platform) (ctx : ChildCtx) (t : Test) : Option ChildCtx :=
  (generateArguments p t.entry t.outcomes ctx).bind fun (ctx, _) =>
    (freeOldArguments t.entry t.frees ctx).map Prod.fst

/-- The resources that the generators of a test acquired, and no others, are passed to the free
functions, each once, and the copies of the arguments are left for the next test. -/
def GivesBack (p : Platform) (ctx : ChildCtx) (t : Test) : Prop :=
  ∀ ctx' mades, generateArguments p t.entry t.outcomes ctx = some (ctx', mades) →
    ∃ ctx'' freed, freeOldArguments t.entry t.frees ctx' = some (ctx'', freed) ∧
      freed.Perm (mades.filterMap Made.acquired) ∧
        ∀ i < ARG_LIMIT, ∃ copy, ctx''.argCopyArray[i]? = some (some copy)

/-- The descriptor zero, the socket zero, and the empty path. -/
def Resource.IsZero : Resource → Prop
  | .desc fd | .socket fd => fd = 0
  | .file path | .dir path => path = []

/-- A test that succeeds in making its arguments acquires only zero. -/
def TakesZero (p : Platform) (ctx : ChildCtx) (t : Test) : Prop :=
  (generateArguments p t.entry t.outcomes ctx).isSome →
    ∀ i < t.entry.totalArgs, ∀ g ∈ t.entry.generator i, ∀ r ∈ acquires (t.outcomes i) g, r.IsZero

section Resources

variable {p : Platform} {ctx ctx' : ChildCtx} {t : Test} {mades : List Made}

theorem isZero_of_zeroResource {type : ArgType} {r : Resource} (h : zeroResource type = some r) :
  r.IsZero
  := by
  cases type <;> cases h <;> rfl

theorem zeroResource_eq_none {type : ArgType} (hfd : type ≠ .fileDesc) (hsocket : type ≠ .socket)
    (hpath : type ≠ .filePath) (hdirpath : type ≠ .dirPath) :
  zeroResource type = none
  := by
  cases type <;> first | rfl | contradiction

/-- If what an argument acquires is zero, it is what is given back for its type. -/
theorem zeroResource_eq_acquires {o : Outcome} {child : ChildCtx} {old : Option Buffer}
    {g : Generator} {m : Made} {type : ArgType} (hcall : callGenerator p o child old g = some m)
    (hfd : type = .fileDesc ↔ g = .generateFd) (hsocket : type = .socket ↔ g = .generateSocket)
    (hpath : type = .filePath ↔ g = .generatePath) (hdirpath : type = .dirPath ↔ g = .generateDirpath)
    (hzero : ∀ r ∈ acquires o g, r.IsZero) :
  zeroResource type = acquires o g
  := by
  cases g
  case generateFd =>
    rw [hfd.mpr rfl, acquires, show o.getDesc = 0 from hzero _ rfl]
    rfl
  case generateSocket =>
    rw [hsocket.mpr rfl, acquires, show o.getSocket = 0 from hzero _ rfl]
    rfl
  case generatePath =>
    obtain ⟨path, hsome, -⟩ := Option.map_eq_some_iff.mp hcall
    rw [acquires, hsome] at hzero ⊢
    rw [hpath.mpr rfl, show path = [] from hzero _ rfl]
    rfl
  case generateDirpath =>
    obtain ⟨path, hsome, -⟩ := Option.map_eq_some_iff.mp hcall
    rw [acquires, hsome] at hzero ⊢
    rw [hdirpath.mpr rfl, show path = [] from hzero _ rfl]
    rfl
  all_goals
    exact zeroResource_eq_none (mt hfd.mp nofun) (mt hsocket.mp nofun) (mt hpath.mp nofun)
      (mt hdirpath.mp nofun)

/-- The resources acquired by a test, in the order of its arguments. -/
theorem filterMap_acquired (h : Fresh ctx)
    (hgen : generateArguments p t.entry t.outcomes ctx = some (ctx', mades)) :
  mades.filterMap Made.acquired
    = (List.range t.entry.totalArgs).filterMap fun i =>
        (t.entry.generator i).bind (acquires (t.outcomes i))
  := by
  obtain ⟨-, hlen, hmades⟩ := generateArguments_fresh h hgen
  have hmap : mades.map Made.acquired = (List.range t.entry.totalArgs).map fun i =>
      (t.entry.generator i).bind (acquires (t.outcomes i)) := by
    apply List.ext_getElem
    · rw [List.length_map, List.length_map, List.length_range, hlen]
    · intro i hi hi'
      rw [List.length_map, List.length_range] at hi'
      obtain ⟨m, hm, hargument⟩ := hmades i hi'
      obtain ⟨g, child, old, hg, -, -, hcall⟩ := hargument.called
      obtain ⟨_, hget⟩ := List.getElem_of_getElem? hm
      rw [List.getElem_map, List.getElem_map, List.getElem_range, hg, Option.bind_some,
        ← (callGenerator_spec hcall).acquired_eq, hget]
  have hid := congrArg (List.filterMap id) hmap
  rwa [List.filterMap_map, List.filterMap_map] at hid

/-- What a test gives back: zero for every argument with the type of a resource. -/
theorem freeOldArguments_fresh (h : Fresh ctx)
    (hgen : generateArguments p t.entry t.outcomes ctx = some (ctx', mades)) :
  ∃ ctx'', freeOldArguments t.entry t.frees ctx' = some (ctx'',
      (List.range t.entry.totalArgs).filterMap fun i => zeroResource (t.entry.argType i)) ∧
    Fresh ctx''
  := by
  obtain ⟨h', -, hmades⟩ := generateArguments_fresh h hgen
  have hlimit : 0 + t.entry.totalArgs ≤ ARG_LIMIT := by
    rcases Nat.eq_zero_or_pos t.entry.totalArgs with hzero | hpos
    · rw [hzero]
      apply Nat.zero_le
    · obtain ⟨m, -, hargument⟩ := hmades (t.entry.totalArgs - 1) (by omega)
      have := hargument.lt
      omega
  rw [List.range_eq_range']
  apply freeFrom_fresh t.entry t.frees h' hlimit

/-- A test gives back what it took if and only if it takes only zero. -/
theorem givesBack_iff_takesZero (h : Fresh ctx) :
  GivesBack p ctx t ↔ TakesZero p ctx t
  := by
  cases hgen : generateArguments p t.entry t.outcomes ctx with
  | none => simp [GivesBack, TakesZero, hgen]
  | some made =>
      obtain ⟨ctx', mades⟩ := made
      obtain ⟨-, -, hmades⟩ := generateArguments_fresh h hgen
      obtain ⟨ctx'', hfree, h''⟩ := freeOldArguments_fresh h hgen
      constructor
      · intro hback _ i hi g hg r hr
        obtain ⟨ctx₁, freed, hfree₁, hperm, -⟩ := hback ctx' mades hgen
        cases hfree.symm.trans hfree₁
        -- everything that is given back is zero
        have hmem : r ∈ mades.filterMap Made.acquired := by
          rw [filterMap_acquired h hgen]
          apply List.mem_filterMap.mpr
          use i, List.mem_range.mpr hi
          rw [hg, Option.bind_some, hr]
        obtain ⟨j, -, hj⟩ := List.mem_filterMap.mp (hperm.mem_iff.mpr hmem)
        exact isZero_of_zeroResource hj
      · intro hzero ctx₁ mades₁ hgen₁
        cases hgen.symm.trans hgen₁
        refine ⟨ctx'', _, hfree, ?_, ?_⟩
        · rw [filterMap_acquired h hgen]
          apply List.Perm.of_eq
          apply List.filterMap_congr
          intro i hi
          rw [List.mem_range] at hi
          obtain ⟨m, hm, hargument⟩ := hmades i hi
          obtain ⟨g, child, old, hg, -, -, hcall⟩ := hargument.called
          obtain ⟨hfd, hsocket, hpath, hdirpath⟩ := t.typed i hi g hg
          rw [hg, Option.bind_some]
          apply zeroResource_eq_acquires hcall hfd hsocket hpath hdirpath
          apply hzero (by rw [hgen]; rfl) i hi g hg
        · intro i hi
          rw [h''.argCopyArray, List.getElem?_replicate_of_lt hi]
          exact ⟨_, rfl⟩

theorem testStep_fresh {ctx ctx' : ChildCtx} (h : Fresh ctx) (hstep : testStep p ctx t = some ctx') :
  Fresh ctx'
  := by
  obtain ⟨⟨ctx₁, mades⟩, hgen, hfree⟩ := Option.bind_eq_some_iff.mp hstep
  obtain ⟨ctx₂, hfree₂, h₂⟩ := freeOldArguments_fresh h hgen
  simp only [hfree₂, Option.map_some, Option.some.injEq] at hfree
  rw [← hfree]
  apply h₂

/-- In a run of tests on one child context every test gives back the resources it took if and
only if every test takes only the descriptor zero, the socket zero and the empty path. -/
theorem resources_given_back_iff (p : Platform) (tests : List Test) :
  AllSteps (testStep p) (GivesBack p) initChildContext tests ↔
    AllSteps (testStep p) (TakesZero p) initChildContext tests
  := by
  apply allSteps_iff_of_invariant (I := Fresh) _ _ initChildContext_fresh
  · intro ctx t ctx' h _ hstep
    apply testStep_fresh h hstep
  · intro ctx t h
    apply givesBack_iff_takesZero h

end Resources

/-- A test of `close` on the descriptor five. -/
def closeTest : Test where
  entry := FreeBSD.entryClose
  typed := by decide
  outcomes _ := plainOutcome 5 []
  frees _ := ⟨false, true⟩

/-- A test of `close` gives back the descriptor zero in the place of the one it took. -/
theorem resources_not_given_back_close :
  ¬ AllSteps (testStep default) (GivesBack default) initChildContext [closeTest]
  := by
  rintro ⟨hback, -⟩
  have hzero := (givesBack_iff_takesZero initChildContext_fresh).mp hback
  have hfd : (5 : Int32) = 0 := hzero rfl 0 Nat.one_pos .generateFd rfl (.desc 5) rfl
  revert hfd
  decide

end Syscall
