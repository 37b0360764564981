import Nextgen.Resource.Cached
import Nextgen.Utils.RandomFile

/-!
# The pools of cached resources

`create_resource_pools` and the functions that fill a pool with files, sockets, descriptors or
directory names.  Each of them maps the blocks of a pool, and makes one resource for each block.
When a call fails, the function returns at once and leaves what it has done.

Files are filled with bytes of the default random generator, whose pointer `bytes` is not set: it
is whatever `malloc` gave.  If it does not happen to be the address of a function, no pool is ever
created.  If it does, the descriptors of a pool are pairwise distinct, since they are all open.  The
paths are all the same: the functions that are to make up a name return none.
-/

universe u

open Bytes SList SharedPool Transition Utils

namespace ResourcePools

/-! ### The functions -/

/-- The calls that open a descriptor: one that is not open, or none. -/
structure Descriptors where
  next : List Int32 → Option Int32
  fresh : ∀ {opened : List Int32} {fd : Int32}, next opened = some fd → fd ∉ opened

/-- The mapped addresses, the files and the open descriptors. -/
structure Env (β : Type u) where
  mapped : List β
  files : FileTree Buffer Buffer
  opened : List Int32

/-- How a function ends that does not create its pool: it returns `NULL`, it writes behind the
memory for a path, or it calls what is not a function. -/
inductive Stop (β : Type u) where
  | failed (env : Env β)
  | overflow
  | undefined

/-- What the calls in one round of a loop do: those of `create_random_file`, and whether
`asprintf`, the allocation of a socket and `connect` succeed. -/
structure Round where
  file : RandomFile
  joinOk : Bool
  allocOk : Bool
  connectOk : Bool

/-- The system calls, the function that `bytes` of the generator for a pool happens to point to,
`PATH_MAX`, `POOL_SIZE`, the path of the resources and the directory that it names. -/
structure Setting (β : Type u) where
  mmap : Mmap β
  descriptors : Descriptors
  bytes : CachedResource.Kind → Option ((n : UInt32) → Option (Block n.toNat))
  pathMax : ℕ
  poolSize : ℕ
  path : CString
  dir : List Buffer
  round : CachedResource.Kind → β → Round

/-- A pool, and the resources that its blocks point to. -/
structure ResourcePool (β : Type u) (V : Type) where
  pool : Pool β
  values : β → Option V
  env : Env β

section Functions

variable {β : Type u} {V : Type} (s : Setting β)

/-- `init_resource_ctx` -/
def initResourceCtx (env : Env β) : Except (Stop β) (Env β) :=
  match s.mmap.map env.mapped with
  | none => .error (.failed env)
  | some resource =>
      match s.mmap.map (resource :: env.mapped) with
      | none => .error (.failed { env with mapped := resource :: env.mapped })
      | some ptr => .ok { env with mapped := ptr :: resource :: env.mapped }

/-- `create_random_file` gets to its call of `bytes`. -/
def asksBytes (c : RandomFile) : Bool :=
  c.pathOk &&
    match c.random.range 4095 with
    | none => false
    | some n => (c.alloc ((setLow c.size n.1 + 1).toNat + 1)).isSome

/-- The call of `create_random_file` in a round. -/
def fileCall (kind : CachedResource.Kind) (mBlk : β) (env : Env β)
    (bytes : (n : UInt32) → Option (Block n.toNat)) : RandomFile :=
  { (s.round kind mBlk).file with
    root := s.path.bytes
    ext := ascii ".txt"
    size := 0
    random := { (s.round kind mBlk).file.random with bytes := bytes }
    dir := s.dir
    files := env.files }

/-- What `create_random_file` does in a round, with the path that it sets. -/
def makeFile (kind : CachedResource.Kind) (mBlk : β) (env : Env β) :
    Except (Stop β) (Buffer × Env β) :=
  match s.bytes kind with
  | none =>
      if asksBytes (fileCall s kind mBlk env fun _ => none) then .error .undefined
      else .error (.failed env)
  | some bytes =>
      let c := createRandomFile (fileCall s kind mBlk env bytes)
      if c.rtrn < 0 then .error (.failed { env with files := c.files })
      else .ok (c.path.getD [], { env with files := c.files })

/-- `open`, on a path in the directory of the resources. -/
def openFile (filePath : Buffer) (env : Env β) : Except (Stop β) (Int32 × Env β) :=
  match env.files.read (filePath.drop (s.path.strlen + 1) :: s.dir),
      s.descriptors.next env.opened with
  | some _, some fd => .ok (fd, { env with opened := fd :: env.opened })
  | _, _ => .error (.failed env)

/-- `memmove` of a path to the memory of a resource, which is zero-filled. -/
def movePath (path : Buffer) : Except (Stop β) CString :=
  match (Block.zero (s.pathMax + 1)).write 0 (cString path) with
  | none => .error .overflow
  | some block => .ok ⟨cString block.bytes, nonzero_of_mem_cString⟩

/-- `connect_ipv6`, which leaves the socket open when `connect` fails. -/
def connectIpv6 (connectOk : Bool) (env : Env β) : Except (Stop β) (Int32 × Env β) :=
  match s.descriptors.next env.opened with
  | none => .error (.failed env)
  | some sock =>
      let env := { env with opened := sock :: env.opened }
      if connectOk then .ok (sock, env) else .error (.failed env)

/-- A round of the loop of `create_fd_pool`. -/
def fdRound (mBlk : β) (env : Env β) : Except (Stop β) (Int32 × Env β) :=
  (initResourceCtx s env).bind fun env =>
    (makeFile s .desc mBlk env).bind fun (filePath, env) =>
      openFile s filePath env

/-- A round of the loop of `create_file_pool`. -/
def fileRound (mBlk : β) (env : Env β) : Except (Stop β) (CString × Env β) :=
  (initResourceCtx s env).bind fun env =>
    (makeFile s .filepath mBlk env).bind fun (filePath, env) =>
      (movePath s filePath).map fun path => (path, env)

/-- A round of the loop of `create_socket_pool`. -/
def socketRound (mBlk : β) (env : Env β) : Except (Stop β) (Int32 × Env β) :=
  (initResourceCtx s env).bind fun env =>
    if (s.round .socket mBlk).allocOk then connectIpv6 s (s.round .socket mBlk).connectOk env
    else .error (.failed env)

/-- `generate_directory_name`: what is returned, and the name. -/
def generateDirectoryName : ℤ × Option Buffer :=
  (0, none)

/-- A round of the loop of `create_dirpath_pool`. -/
def dirpathRound (mBlk : β) (env : Env β) : Except (Stop β) (CString × Env β) :=
  (initResourceCtx s env).bind fun env =>
    let (rtrn, dirName) := generateDirectoryName
    if rtrn < 0 then .error (.failed env)
    else if (s.round .dirpath mBlk).joinOk then
      (movePath s (s.path.bytes ++ [slash] ++ printString dirName)).map fun path => (path, env)
    else .error (.failed env)

variable [DecidableEq β]

/-- The assignments at the end of a round. -/
def fill (round : β → Env β → Except (Stop β) (V × Env β)) (p : ResourcePool β V) (mBlk : β) :
    Except (Stop β) (ResourcePool β V) :=
  (round mBlk p.env).map fun (v, env) =>
    { p with values := Function.update p.values mBlk (some v), env := env }

/-- A function that creates a pool of blocks of a size. -/
def createPool (blockSize : ℕ) (round : β → Env β → Except (Stop β) (V × Env β)) (env : Env β) :
    Except (Stop β) (ResourcePool β V) :=
  match memCreateSharedPool s.mmap env.mapped blockSize s.poolSize with
  | (none, mappings) => .error (.failed { env with mapped := addresses env.mapped mappings })
  | (some pool, mappings) =>
      foreach pool.sleNext (fill round) pool.blockCount pool.freeList
        ⟨pool, fun _ => none, { env with mapped := addresses env.mapped mappings }⟩

/-- `create_fd_pool` -/
def createFdPool (env : Env β) : Except (Stop β) (ResourcePool β Int32) :=
  createPool s 8 (fdRound s) env

/-- `create_file_pool` -/
def createFilePool (env : Env β) : Except (Stop β) (ResourcePool β CString) :=
  createPool s 8 (fileRound s) env

/-- `create_socket_pool` -/
def createSocketPool (env : Env β) : Except (Stop β) (ResourcePool β Int32) :=
  createPool s 4 (socketRound s) env

/-- `create_dirpath_pool` -/
def createDirpathPool (env : Env β) : Except (Stop β) (ResourcePool β CString) :=
  createPool s 8 (dirpathRound s) env

/-- The pools that `create_resource_pools` sets, and what is left after it. -/
structure Pools (β : Type u) where
  filePool : ResourcePool β CString
  socketPool : ResourcePool β Int32
  descPool : ResourcePool β Int32
  dirpathPool : ResourcePool β CString
  env : Env β

/-- `create_resource_pools` -/
def createResourcePools (env : Env β) : Except (Stop β) (Pools β) :=
  (createFilePool s env).bind fun filePool =>
    (createSocketPool s filePool.env).bind fun socketPool =>
      (createFdPool s socketPool.env).bind fun descPool =>
        (createDirpathPool s descPool.env).map fun dirpathPool =>
          ⟨filePool, socketPool, descPool, dirpathPool, dirpathPool.env⟩

end Functions

/-- The descriptor that a block points to. -/
def ResourcePool.desc {β : Type u} (p : ResourcePool β Int32) (mBlk : β) : Int32 :=
  (p.values mBlk).getD 0

/-- The path that a block points to. -/
def ResourcePool.path {β : Type u} (p : ResourcePool β CString) (mBlk : β) : CString :=
  (p.values mBlk).getD ⟨[], by simp⟩

/-! ### The loop -/

section Loop

variable {β : Type u} {V : Type} [DecidableEq β] {s : Setting β}
  {round : β → Env β → Except (Stop β) (V × Env β)} {blockSize : ℕ} {env : Env β}

/-- The resources of the blocks visited so far, in a property that every round keeps. -/
def Filled (I : List V → Env β → Prop) (pool : Pool β) (visited : List β)
    (p : ResourcePool β V) : Prop :=
  p.pool = pool ∧ ∃ vs, visited.map p.values = vs.map some ∧ I vs p.env

theorem fill_filled {I : List V → Env β → Prop} {pool : Pool β} {visited : List β} {mBlk : β}
    {p p' : ResourcePool β V}
    (hround : ∀ {mBlk vs env v env'}, I vs env → round mBlk env = .ok (v, env') →
      I (vs ++ [v]) env')
    (hnot : mBlk ∉ visited) (h : Filled I pool visited p) (hfill : fill round p mBlk = .ok p') :
  Filled I pool (visited ++ [mBlk]) p'
  := by
  obtain ⟨hpool, vs, hvalues, hI⟩ := h
  obtain ⟨⟨v, env'⟩, hmade, rfl⟩ := Except.map_eq_ok.mp hfill
  refine ⟨hpool, vs ++ [v], ?_, hround hI hmade⟩
  rw [List.map_append, List.map_append, ← hvalues]
  congr 1
  · apply List.map_congr_left
    intro b hb
    apply Function.update_of_ne
    rintro rfl
    exact hnot hb
  · simp

/-- A property of the resources made so far and of the files and descriptors, which every round
keeps, holds of the pool that a function creates.  The pool is free, and has as many blocks as it
should have. -/
theorem createPool_rule {I : List V → Env β → Prop} {p : ResourcePool β V}
    (hinit : ∀ mapped, I [] { env with mapped := mapped })
    (hround : ∀ {mBlk vs env v env'}, I vs env → round mBlk env = .ok (v, env') →
      I (vs ++ [v]) env')
    (h : createPool s blockSize round env = .ok p) :
  ∃ P vs, Represents p.pool P ∧ P.allocated = [] ∧ P.blocks.length = s.poolSize ∧
    P.blocks.map p.values = vs.map some ∧ I vs p.env
  := by
  rw [createPool] at h
  split at h
  · cases h
  · rename_i pool mappings hcreate
    obtain ⟨hlength, P, hrep, hfree, hallocated⟩ := memCreateSharedPool_spec hcreate
    have hblocks : P.blocks = P.free := by
      rw [Partition.blocks, hallocated, List.append_nil]
    have hstart : Filled I pool []
        ⟨pool, fun _ => none, { env with mapped := addresses env.mapped mappings }⟩ :=
      ⟨rfl, [], rfl, hinit _⟩
    have hkeep : ∀ {visited mBlk p p'}, visited ++ [mBlk] <+: [] ++ P.free →
        Filled I pool visited p → fill round p mBlk = .ok p' →
        Filled I pool (visited ++ [mBlk]) p' := by
      intro visited mBlk p p' hvisited
      apply fill_filled hround
      have hnodup := P.free_nodup.sublist hvisited.sublist
      intro hmem
      exact (List.nodup_append.mp hnodup).2.2 mBlk hmem mBlk (List.mem_singleton_self _) rfl
    obtain ⟨hpool, vs, hvalues, hI⟩ :=
      (foreach_rule hrep.free_chain hrep.free_length_le hstart hkeep).1 p h
    refine ⟨P, vs, ?_, hallocated, ?_, ?_, hI⟩
    · rw [hpool]
      exact hrep
    · rw [hblocks, hfree, hlength]
    · rw [hblocks]
      exact hvalues

end Loop

/-! ### One round -/

section Rounds

variable {β : Type u} {s : Setting β} {env env' : Env β} {mBlk : β}

/-- `init_resource_ctx` maps memory and does nothing else. -/
theorem initResourceCtx_eq_ok (h : initResourceCtx s env = .ok env') :
  env'.opened = env.opened ∧ env'.files = env.files
  := by
  rw [initResourceCtx] at h
  split at h
  · cases h
  · split at h
    · cases h
    · cases h
      exact ⟨rfl, rfl⟩

/-- A function ends before it has made a file or opened a descriptor. -/
def StopsBefore (env : Env β) : Stop β → Prop
  | .failed env' => env'.files = env.files ∧ env'.opened = env.opened
  | .overflow => False
  | .undefined => True

theorem initResourceCtx_eq_error {stop : Stop β} (h : initResourceCtx s env = .error stop) :
  StopsBefore env stop
  := by
  rw [initResourceCtx] at h
  split at h
  · cases h
    exact ⟨rfl, rfl⟩
  · split at h
    · cases h
      exact ⟨rfl, rfl⟩
    · cases h

/-- The path of all files that are made. -/
def nullPath (path : CString) : CString where
  bytes := path.bytes ++ [slash] ++ ascii "(null)"
  nonzero := by
    intro b hb
    rcases List.mem_append.mp hb with hb | hb
    · rcases List.mem_append.mp hb with hb | hb
      · apply path.nonzero b hb
      · rw [List.mem_singleton.mp hb]
        decide
    · apply nonzero_of_mem_ascii (by decide) b hb

/-- A file `(null)` is there. -/
def HasFile (s : Setting β) (env : Env β) : Prop :=
  (env.files.read (ascii "(null)" :: s.dir)).isSome

/-- `create_random_file` returns zero or minus one. -/
theorem createRandomFile_rtrn {c : RandomFile} (h : ¬ (createRandomFile c).rtrn < 0) :
  (createRandomFile c).rtrn = 0
  := by
  revert h
  rw [createRandomFile_eq]
  split
  · rw [RandomFile.fill]
    cases c.random.range 4095 with
    | none => simp
    | some n =>
        simp only
        cases c.alloc _ with
        | none => simp
        | some junk =>
            simp only
            cases c.random.bytes _ with
            | none => simp
            | some bytes =>
                simp only
                split <;> simp
  · simp

theorem makeFile_eq_ok {kind : CachedResource.Kind} {filePath : Buffer}
    (h : makeFile s kind mBlk env = .ok (filePath, env')) :
  env'.opened = env.opened ∧ filePath = (nullPath s.path).bytes ∧ HasFile s env'
  := by
  rw [makeFile] at h
  split at h
  · split at h
    · cases h
    · cases h
  simp only at h
  split at h
  · cases h
  · rename_i hrtrn
    obtain ⟨n, -, -, hpath, -, contents, hread, -⟩ :=
      createRandomFile_of_completes (completes_of_rtrn (createRandomFile_rtrn hrtrn))
    cases h
    refine ⟨rfl, ?_, ?_⟩
    · rw [hpath]
      rfl
    · exact Option.isSome_iff_exists.mpr ⟨contents, hread⟩

/-- Without a function for the bytes no file is made. -/
theorem makeFile_of_unset {kind : CachedResource.Kind} (hunset : s.bytes kind = none) (mBlk : β)
    (env : Env β) :
  makeFile s kind mBlk env = .error .undefined ∨ makeFile s kind mBlk env = .error (.failed env)
  := by
  rw [makeFile, hunset]
  simp only
  split
  · exact .inl rfl
  · exact .inr rfl

theorem openFile_eq_ok {filePath : Buffer} {fd : Int32}
    (h : openFile s filePath env = .ok (fd, env')) :
  fd ∉ env.opened ∧ env' = { env with opened := fd :: env.opened }
  := by
  rw [openFile] at h
  split at h
  · rename_i hfd
    cases h
    exact ⟨s.descriptors.fresh hfd, rfl⟩
  · cases h

/-- The string in the memory of a resource is the path that was moved there. -/
theorem movePath_eq_ok (path : CString) {moved : CString} (h : movePath s path.bytes = .ok moved) :
  moved = path
  := by
  have hstring : ∀ n, cString (path.bytes ++ List.replicate n 0) = path.bytes := by
    intro n
    rw [cString, List.takeWhile_append_of_pos]
    · cases n <;> simp
    · intro b hb
      simpa using path.nonzero b hb
  rw [movePath, Block.write] at h
  split at h
  · cases h
  · rename_i block hblock
    cases h
    obtain ⟨_, hwritten⟩ := Option.dite_none_right_eq_some.mp hblock
    cases hwritten
    have hself : cString path.bytes = path.bytes := by
      simpa using hstring 0
    obtain ⟨bytes, hnonzero⟩ := path
    simp only [List.take_zero, List.nil_append, hself, Block.zero, List.drop_replicate, hstring]

/-- What a round does that opens a descriptor. -/
structure Opens (s : Setting β) (env : Env β) (fd : Int32) (env' : Env β) : Prop where
  fresh : fd ∉ env.opened
  opened : env'.opened = fd :: env.opened
  file : HasFile s env → HasFile s env'

/-- What a round does that makes a path. -/
structure Names (s : Setting β) (env : Env β) (path : CString) (env' : Env β) : Prop where
  path : path = nullPath s.path
  opened : env'.opened = env.opened
  file : HasFile s env → HasFile s env'

theorem fdRound_opens {fd : Int32} (h : fdRound s mBlk env = .ok (fd, env')) :
  Opens s env fd env'
  := by
  obtain ⟨env₁, hinit, h⟩ := Except.bind_eq_ok.mp h
  obtain ⟨⟨filePath, env₂⟩, hmake, hopen⟩ := Except.bind_eq_ok.mp h
  obtain ⟨hopened, -⟩ := initResourceCtx_eq_ok hinit
  obtain ⟨hopened', -, hfile⟩ := makeFile_eq_ok hmake
  obtain ⟨hfresh, rfl⟩ := openFile_eq_ok hopen
  rw [hopened', hopened] at hfresh
  refine ⟨hfresh, ?_, fun _ => hfile⟩
  show fd :: env₂.opened = fd :: env.opened
  rw [hopened', hopened]

theorem connectIpv6_eq_ok {connectOk : Bool} {sock : Int32}
    (h : connectIpv6 s connectOk env = .ok (sock, env')) :
  sock ∉ env.opened ∧ env' = { env with opened := sock :: env.opened }
  := by
  rw [connectIpv6] at h
  split at h
  · cases h
  · rename_i hsock
    split at h
    · cases h
      exact ⟨s.descriptors.fresh hsock, rfl⟩
    · cases h

theorem socketRound_opens {sock : Int32} (h : socketRound s mBlk env = .ok (sock, env')) :
  Opens s env sock env'
  := by
  obtain ⟨env₁, hinit, h⟩ := Except.bind_eq_ok.mp h
  obtain ⟨hopened, hfiles⟩ := initResourceCtx_eq_ok hinit
  split at h
  · obtain ⟨hfresh, rfl⟩ := connectIpv6_eq_ok h
    rw [hopened] at hfresh
    refine ⟨hfresh, ?_, ?_⟩
    · show sock :: env₁.opened = sock :: env.opened
      rw [hopened]
    · intro hfile
      show (env₁.files.read _).isSome
      rw [hfiles]
      exact hfile
  · cases h

/-- Every round of `create_file_pool` makes the same file. -/
theorem fileRound_names {path : CString} (h : fileRound s mBlk env = .ok (path, env')) :
  Names s env path env' ∧ HasFile s env'
  := by
  obtain ⟨env₁, hinit, h⟩ := Except.bind_eq_ok.mp h
  obtain ⟨⟨filePath, env₂⟩, hmake, h⟩ := Except.bind_eq_ok.mp h
  simp only at h
  obtain ⟨moved, hmove, heq⟩ := Except.map_eq_ok.mp h
  cases heq
  obtain ⟨hopened, -⟩ := initResourceCtx_eq_ok hinit
  obtain ⟨hopened', rfl, hfile⟩ := makeFile_eq_ok hmake
  exact ⟨⟨movePath_eq_ok (nullPath s.path) hmove, hopened'.trans hopened, fun _ => hfile⟩, hfile⟩

/-- A round of `create_dirpath_pool` makes up the same path, and makes no directory. -/
theorem dirpathRound_names {path : CString} (h : dirpathRound s mBlk env = .ok (path, env')) :
  Names s env path env'
  := by
  obtain ⟨env₁, hinit, h⟩ := Except.bind_eq_ok.mp h
  obtain ⟨hopened, hfiles⟩ := initResourceCtx_eq_ok hinit
  simp only [generateDirectoryName, Int.lt_irrefl, if_false] at h
  split at h
  · obtain ⟨moved, hmove, heq⟩ := Except.map_eq_ok.mp h
    cases heq
    refine ⟨movePath_eq_ok (nullPath s.path) hmove, hopened, ?_⟩
    rw [HasFile, HasFile, hfiles]
    exact id
  · cases h

/-- A round of `create_file_pool` does nothing to the files and the descriptors if there is no
function for the bytes. -/
theorem fileRound_of_unset {mBlk : β} (hunset : s.bytes .filepath = none) :
  ∃ stop, fileRound s mBlk env = .error stop ∧ StopsBefore env stop
  := by
  rw [fileRound]
  cases hinit : initResourceCtx s env with
  | error stop => exact ⟨stop, rfl, initResourceCtx_eq_error hinit⟩
  | ok env₁ =>
      obtain ⟨hopened, hfiles⟩ := initResourceCtx_eq_ok hinit
      show ∃ stop, (makeFile s .filepath mBlk env₁).bind _ = _ ∧ _
      rcases makeFile_of_unset hunset mBlk env₁ with hmake | hmake
      · rw [hmake]
        exact ⟨_, rfl, trivial⟩
      · rw [hmake]
        exact ⟨_, rfl, hfiles, hopened⟩

end Rounds

/-! ### The pools -/

section Created

variable {β : Type u} [DecidableEq β] {s : Setting β} {blockSize : ℕ} {env : Env β}

/-- A pool of descriptors that are open, and that were not open before. -/
structure HasDescriptors (s : Setting β) (env : Env β) (p : ResourcePool β Int32)
    (P : Partition β) : Prop where
  represents : Represents p.pool P
  free : P.allocated = []
  size : P.blocks.length = s.poolSize
  distinct : (P.blocks.map p.desc).Nodup
  fresh : ∀ mBlk ∈ P.blocks, p.desc mBlk ∉ env.opened
  opened : ∀ mBlk ∈ P.blocks, p.desc mBlk ∈ p.env.opened
  kept : env.opened ⊆ p.env.opened
  file : HasFile s env → HasFile s p.env

theorem createPool_hasDescriptors {round : β → Env β → Except (Stop β) (Int32 × Env β)}
    {p : ResourcePool β Int32}
    (hround : ∀ {mBlk env fd env'}, round mBlk env = .ok (fd, env') → Opens s env fd env')
    (h : createPool s blockSize round env = .ok p) :
  ∃ P, HasDescriptors s env p P
  := by
  let I (vs : List Int32) (env₁ : Env β) : Prop :=
    vs.Nodup ∧ (∀ fd ∈ vs, fd ∉ env.opened) ∧ (∀ fd, fd ∈ env₁.opened ↔ fd ∈ vs ∨ fd ∈ env.opened) ∧
      (HasFile s env → HasFile s env₁)
  have hinit : ∀ mapped, I [] { env with mapped := mapped } := by
    intro mapped
    exact ⟨List.nodup_nil, by simp, by simp, id⟩
  obtain ⟨P, vs, hrep, hfree, hsize, hvalues, hnodup, hfresh, hopened, hfile⟩ :=
    createPool_rule (I := I) hinit (by
      rintro mBlk vs env₁ fd env₂ ⟨hnodup, hfresh, hopened, hfile⟩ hmade
      obtain ⟨hnot, hadd, hkeep⟩ := hround hmade
      rw [hopened, not_or] at hnot
      refine ⟨?_, ?_, ?_, fun hhas => hkeep (hfile hhas)⟩
      · rw [List.nodup_append]
        refine ⟨hnodup, List.nodup_singleton fd, ?_⟩
        rintro a ha b hb rfl
        rw [List.mem_singleton.mp hb] at ha
        exact hnot.1 ha
      · intro a ha
        rcases List.mem_append.mp ha with ha | ha
        · exact hfresh a ha
        · rw [List.mem_singleton.mp ha]
          exact hnot.2
      · intro a
        rw [hadd, List.mem_cons, hopened, List.mem_append, List.mem_singleton]
        tauto) h
  have hdesc : P.blocks.map p.desc = vs := by
    have hmap := congrArg (List.map (·.getD 0)) hvalues
    rw [List.map_map, List.map_map] at hmap
    exact hmap.trans (List.map_id vs)
  have hmem : ∀ mBlk ∈ P.blocks, p.desc mBlk ∈ vs := by
    intro mBlk hb
    rw [← hdesc]
    exact List.mem_map_of_mem hb
  refine ⟨P, hrep, hfree, hsize, hdesc ▸ hnodup, ?_, ?_, ?_, hfile⟩
  · intro mBlk hb
    exact hfresh _ (hmem mBlk hb)
  · intro mBlk hb
    exact (hopened _).mpr (.inl (hmem mBlk hb))
  · intro fd hfd
    exact (hopened fd).mpr (.inr hfd)

/-- A pool in which all paths are the same. -/
structure HasPaths (s : Setting β) (env : Env β) (p : ResourcePool β CString)
    (P : Partition β) : Prop where
  represents : Represents p.pool P
  free : P.allocated = []
  size : P.blocks.length = s.poolSize
  path : ∀ mBlk ∈ P.blocks, p.path mBlk = nullPath s.path
  opened : p.env.opened = env.opened
  file : HasFile s env → HasFile s p.env

theorem createPool_hasPaths {round : β → Env β → Except (Stop β) (CString × Env β)}
    {p : ResourcePool β CString}
    (hround : ∀ {mBlk env path env'}, round mBlk env = .ok (path, env') → Names s env path env')
    (h : createPool s blockSize round env = .ok p) :
  ∃ P, HasPaths s env p P
  := by
  let I (vs : List CString) (env₁ : Env β) : Prop :=
    (∀ v ∈ vs, v = nullPath s.path) ∧ env₁.opened = env.opened ∧ (HasFile s env → HasFile s env₁)
  have hinit : ∀ mapped, I [] { env with mapped := mapped } := by
    intro mapped
    exact ⟨by simp, rfl, id⟩
  obtain ⟨P, vs, hrep, hfree, hsize, hvalues, hpath, hopened, hfile⟩ :=
    createPool_rule (I := I) hinit (by
      rintro mBlk vs env₁ path env₂ ⟨hpath, hopened, hfile⟩ hmade
      obtain ⟨rfl, hsame, hkeep⟩ := hround hmade
      refine ⟨?_, hsame.trans hopened, fun hhas => hkeep (hfile hhas)⟩
      intro v hv
      rcases List.mem_append.mp hv with hv | hv
      · exact hpath v hv
      · exact List.mem_singleton.mp hv) h
  refine ⟨P, hrep, hfree, hsize, ?_, hopened, hfile⟩
  intro mBlk hb
  have hmem : p.values mBlk ∈ vs.map some := by
    rw [← hvalues]
    exact List.mem_map_of_mem hb
  obtain ⟨v, hv, hvalue⟩ := List.mem_map.mp hmem
  rw [ResourcePool.path, ← hvalue, ← hpath v hv]
  rfl

/-- A file pool makes its file: it has at least one block. -/
theorem createFilePool_hasFile {p : ResourcePool β CString} (h : createFilePool s env = .ok p) :
  HasFile s p.env
  := by
  let I (vs : List CString) (env₁ : Env β) : Prop := vs ≠ [] → HasFile s env₁
  have hinit : ∀ mapped, I [] { env with mapped := mapped } := fun _ hne => absurd rfl hne
  obtain ⟨P, vs, -, -, hsize, hvalues, hfile⟩ := createPool_rule (I := I) hinit (by
    intro mBlk vs env₁ path env₂ _ hmade _
    exact (fileRound_names hmade).2) h
  apply hfile
  rintro rfl
  have hlength := congrArg List.length hvalues
  rw [List.length_map, hsize] at hlength
  rw [createFilePool, createPool, memCreateSharedPool, hlength] at h
  cases h

/-- A pool is not created if its first round stops. -/
theorem createPool_of_stop {V : Type} {round : β → Env β → Except (Stop β) (V × Env β)}
    (hround : ∀ mBlk env, ∃ stop, round mBlk env = .error stop ∧ StopsBefore env stop) :
  ∃ stop, createPool s blockSize round env = .error stop ∧ StopsBefore env stop
  := by
  rw [createPool]
  split
  · exact ⟨_, rfl, rfl, rfl⟩
  rename_i pool mappings hcreate
  obtain ⟨hlength, P, hrep, hfree, -⟩ := memCreateSharedPool_spec hcreate
  -- no block has been visited when the loop ends
  let I (visited : List β) (p : ResourcePool β V) : Prop :=
    visited = [] ∧ p.env.files = env.files ∧ p.env.opened = env.opened
  have hkeep : ∀ {visited mBlk p p'}, visited ++ [mBlk] <+: [] ++ P.free → I visited p →
      fill round p mBlk = .ok p' → I (visited ++ [mBlk]) p' := by
    intro visited mBlk p p' _ _ hfill
    obtain ⟨made, hmade, -⟩ := Except.map_eq_ok.mp hfill
    obtain ⟨stop, hstop, -⟩ := hround mBlk p.env
    cases hstop.symm.trans hmade
  obtain ⟨hok, herror⟩ := foreach_rule (I := I)
    (s := ⟨pool, fun _ => none, { env with mapped := addresses env.mapped mappings }⟩)
    hrep.free_chain hrep.free_length_le ⟨rfl, rfl, rfl⟩ hkeep
  cases hloop : foreach pool.sleNext (fill round) pool.blockCount pool.freeList
      ⟨pool, fun _ => none, { env with mapped := addresses env.mapped mappings }⟩ with
  | ok p =>
      obtain ⟨hnil, -⟩ := hok p hloop
      rw [List.nil_append, hfree] at hnil
      rw [hnil, List.length_nil] at hlength
      rw [memCreateSharedPool, ← hlength] at hcreate
      simp at hcreate
  | error stop =>
      obtain ⟨_, mBlk, p, -, ⟨-, hfiles, hopened⟩, hfill⟩ := herror stop hloop
      obtain ⟨stop', hstop, hbefore⟩ := hround mBlk p.env
      rw [fill, hstop] at hfill
      cases hfill
      refine ⟨stop, rfl, ?_⟩
      cases stop with
      | failed env' => exact ⟨hbefore.1.trans hfiles, hbefore.2.trans hopened⟩
      | overflow => exact hbefore
      | undefined => trivial

end Created

/-! ### Calls on the pools -/

section Calls

open CachedResource

variable {β : Type u} {kind : Kind} {value : β → kind.Value} {blocks : List β}
  {w w' : CachedResource.World β kind.Value} {P : Partition β}

/-- A pool that nothing has been taken from. -/
theorem inv_of_free {pool : Pool β} (h : Represents pool P) (hfree : P.allocated = []) :
  ∃ Q, CachedResource.Inv kind value P.blocks ⟨pool, []⟩ Q
  := by
  use P, h, List.Perm.refl P.blocks
  rw [hfree]
  apply List.Perm.refl

variable [DecidableEq β]

/-- The get function returns as long as not all blocks are handed out. -/
theorem get_isSome_iff (h : CachedResource.Inv kind value blocks w P) :
  (CachedResource.step kind value w .get).isSome ↔ w.held.length < blocks.length
  := by
  have hlength : P.free.length + w.held.length = blocks.length := by
    rw [← h.blocks.length_eq, h.held.length_eq, Partition.blocks, List.length_append,
      List.length_map]
  simp only [CachedResource.step, getInterface_eq, getCached]
  rcases hfree : P.free with _ | ⟨b, free⟩
  · rw [hfree] at hlength
    simp [memGetSharedBlock_empty h.represents hfree]
    simp at hlength
    omega
  · obtain ⟨pool', hget, -⟩ := memGetSharedBlock_allocate h.represents hfree
    rw [hfree] at hlength
    simp [hget]
    simp at hlength
    omega

/-- All functions but that of file paths compare whole values. -/
theorem precise_of_ne (hkind : kind ≠ .filepath) (h : CachedResource.Inv kind value blocks w P)
    (a : CachedResource.Action kind.Value) :
  Precise kind value w a
  := by
  apply (precise_iff_unconfused h a).mpr
  cases a with
  | get => trivial
  | free v =>
      intro ahead b rest _ _
      cases kind with
      | filepath => cases hkind rfl
      | desc | socket | mountpath | dirpath => trivial

/-- All calls on a pool of such a kind are precise, and the blocks stay those of the pool. -/
theorem calls_of_ne (kind : Kind) (value : β → kind.Value) (hkind : kind ≠ .filepath)
    {pool : Pool β} (h : Represents pool P)
    (hfree : P.allocated = []) (calls : List (CachedResource.Action kind.Value)) :
  AllSteps (CachedResource.step kind value) (Precise kind value) ⟨pool, []⟩ calls ∧
    AllStates (CachedResource.step kind value)
      (fun w => ∃ Q, CachedResource.Inv kind value P.blocks w Q) ⟨pool, []⟩ calls
  := by
  let I (w : CachedResource.World β kind.Value) : Prop :=
    ∃ Q, CachedResource.Inv kind value P.blocks w Q
  have hinit : I ⟨pool, []⟩ := inv_of_free h hfree
  have hprecise : AllSteps (CachedResource.step kind value) (Precise kind value) ⟨pool, []⟩
      calls := by
    apply allSteps_of_invariant (G := fun _ _ => True) _ _ hinit
      (allSteps_of_forall (fun _ _ => trivial) _ calls)
    · rintro w a w' ⟨Q, hw⟩ _ hstep
      exact CachedResource.step_inv ⟨Q, hw⟩ (precise_of_ne hkind hw a) hstep
    · rintro w a ⟨Q, hw⟩ _
      exact precise_of_ne hkind hw a
  exact ⟨hprecise, allStates_of_invariant CachedResource.step_inv id hinit hprecise⟩

/-- With one value in all blocks, no value that is handed out is confused with another. -/
theorem precise_of_given {v₀ : kind.Value} (hvalue : ∀ b ∈ blocks, value b = v₀)
    (h : CachedResource.Inv kind value blocks w P) {a : CachedResource.Action kind.Value}
    (hgiven : ∀ v, a = .free v → v ∈ w.held) :
  Precise kind value w a
  := by
  have hallocated : ∀ b ∈ P.allocated, value b = v₀ := by
    intro b hb
    exact hvalue b (h.blocks.mem_iff.mp (List.mem_append_right _ hb))
  apply (precise_iff_unconfused h a).mpr
  cases a with
  | get => trivial
  | free v =>
      intro ahead b rest hchain _
      have hb : b ∈ P.allocated := by
        rw [h.represents.allocated_chain.unique hchain]
        simp
      obtain ⟨c, hc, rfl⟩ := h.mem_held_iff.mp (hgiven v rfl)
      apply (kind.clear_iff _ _).mpr
      intro _
      rw [hallocated b hb, hallocated c hc]

/-- A call frees only what is handed out. -/
def FreesGiven (w : CachedResource.World β kind.Value) (a : CachedResource.Action kind.Value) :
    Prop :=
  ∀ v, a = .free v → v ∈ w.held

/-- A pool hands out one value, as often as it has blocks. -/
def HandsOut (kind : Kind) (value : β → kind.Value) (v₀ : kind.Value) (size : ℕ)
    (w : CachedResource.World β kind.Value) : Prop :=
  ∃ n ≤ size, w.held = List.replicate n v₀ ∧
    ((CachedResource.step kind value w .get).isSome ↔ n < size)

theorem handsOut_of_inv {v₀ : kind.Value} (hvalue : ∀ b ∈ blocks, value b = v₀)
    (h : CachedResource.Inv kind value blocks w P) :
  HandsOut kind value v₀ blocks.length w
  := by
  refine ⟨w.held.length, ?_, ?_, get_isSome_iff h⟩
  · rw [h.held.length_eq, List.length_map, ← h.blocks.length_eq, Partition.blocks,
      List.length_append]
    omega
  · apply List.eq_replicate_iff.mpr ⟨rfl, _⟩
    intro v hv
    obtain ⟨b, hb, rfl⟩ := h.mem_held_iff.mp hv
    exact hvalue b (h.blocks.mem_iff.mp (List.mem_append_right _ hb))

end Calls

section Results

open CachedResource

variable {β : Type u} [DecidableEq β] {s : Setting β} {env : Env β} {pools : Pools β}

/-- What the pools hold. -/
theorem createResourcePools_spec (h : createResourcePools s env = .ok pools) :
  (∃ P, HasPaths s env pools.filePool P) ∧
    (∃ P, HasDescriptors s pools.filePool.env pools.socketPool P) ∧
    (∃ P, HasDescriptors s pools.socketPool.env pools.descPool P) ∧
    (∃ P, HasPaths s pools.descPool.env pools.dirpathPool P) ∧
    HasFile s pools.filePool.env ∧ pools.env = pools.dirpathPool.env
  := by
  obtain ⟨filePool, hfile, h⟩ := Except.bind_eq_ok.mp h
  obtain ⟨socketPool, hsocket, h⟩ := Except.bind_eq_ok.mp h
  obtain ⟨descPool, hdesc, h⟩ := Except.bind_eq_ok.mp h
  obtain ⟨dirpathPool, hdirpath, rfl⟩ := Except.map_eq_ok.mp h
  exact ⟨createPool_hasPaths (fun hmade => (fileRound_names hmade).1) hfile,
    createPool_hasDescriptors socketRound_opens hsocket,
    createPool_hasDescriptors fdRound_opens hdesc,
    createPool_hasPaths dirpathRound_names hdirpath,
    createFilePool_hasFile hfile, rfl⟩

/-- `get_default_random_generator` does not set `bytes`.  Unless the pointer happens to be that of a
function, `create_resource_pools` never creates its pools: it returns, or calls what is not a
function, before it has made a file or opened a descriptor. -/
theorem no_pools_without_bytes (hunset : s.bytes .filepath = none) :
  ∃ stop, createResourcePools s env = .error stop ∧ StopsBefore env stop
  := by
  obtain ⟨stop, hstop, hbefore⟩ :
      ∃ stop, createFilePool s env = .error stop ∧ StopsBefore env stop :=
    createPool_of_stop fun _ _ => fileRound_of_unset hunset
  refine ⟨stop, ?_, hbefore⟩
  rw [createResourcePools, hstop]
  rfl

/-- After `create_resource_pools`, and any calls of the functions for descriptors and for
sockets: every call that frees a descriptor frees the block of that descriptor or, if it is not
handed out, no block; no descriptor is handed out twice, not even by different pools; all of them
are open and were opened for the pools; and the get functions return until all blocks are handed
out. -/
theorem descriptors_handed_out (h : createResourcePools s env = .ok pools)
    (descCalls : List (CachedResource.Action Kind.desc.Value))
    (socketCalls : List (CachedResource.Action Kind.socket.Value)) :
  AllSteps (CachedResource.step .desc pools.descPool.desc)
      (Precise .desc pools.descPool.desc) ⟨pools.descPool.pool, []⟩ descCalls ∧
    AllSteps (CachedResource.step .socket pools.socketPool.desc)
      (Precise .socket pools.socketPool.desc) ⟨pools.socketPool.pool, []⟩ socketCalls ∧
    ∀ w w' : CachedResource.World β Int32,
      run (CachedResource.step .desc pools.descPool.desc) ⟨pools.descPool.pool, []⟩ descCalls
        = some w →
      run (CachedResource.step .socket pools.socketPool.desc) ⟨pools.socketPool.pool, []⟩
        socketCalls = some w' →
      (w.held ++ w'.held).Nodup ∧
        (∀ fd ∈ w.held ++ w'.held, fd ∈ pools.env.opened ∧ fd ∉ env.opened) ∧
        ((CachedResource.step .desc pools.descPool.desc w .get).isSome ↔
          w.held.length < s.poolSize) ∧
        ((CachedResource.step .socket pools.socketPool.desc w' .get).isSome ↔
          w'.held.length < s.poolSize)
  := by
  obtain ⟨⟨_, hpaths⟩, ⟨P', hsocket⟩, ⟨P, hdesc⟩, ⟨_, hdirs⟩, -, henv⟩ :=
    createResourcePools_spec h
  obtain ⟨hprecise, hinv⟩ := calls_of_ne .desc pools.descPool.desc
    (by intro hkind; cases hkind) hdesc.represents hdesc.free descCalls
  obtain ⟨hprecise', hinv'⟩ := calls_of_ne .socket pools.socketPool.desc
    (by intro hkind; cases hkind) hsocket.represents hsocket.free socketCalls
  refine ⟨hprecise, hprecise', ?_⟩
  intro w w' hrun hrun'
  obtain ⟨Q, hw⟩ := hinv.at_run hrun
  obtain ⟨Q', hw'⟩ := hinv'.at_run hrun'
  have hfrom :
      ∀ fd ∈ w.held, fd ∉ pools.socketPool.env.opened ∧ fd ∈ pools.descPool.env.opened := by
    intro fd hfd
    obtain ⟨b, hb, rfl⟩ := hw.mem_held_iff.mp hfd
    have hb := hw.blocks.mem_iff.mp (List.mem_append_right _ hb)
    exact ⟨hdesc.fresh b hb, hdesc.opened b hb⟩
  have hfrom' : ∀ fd ∈ w'.held,
      fd ∉ pools.filePool.env.opened ∧ fd ∈ pools.socketPool.env.opened := by
    intro fd hfd
    obtain ⟨b, hb, rfl⟩ := hw'.mem_held_iff.mp hfd
    have hb := hw'.blocks.mem_iff.mp (List.mem_append_right _ hb)
    exact ⟨hsocket.fresh b hb, hsocket.opened b hb⟩
  refine ⟨?_, ?_, ?_, ?_⟩
  · rw [List.nodup_append]
    refine ⟨hw.held_nodup hdesc.distinct, hw'.held_nodup hsocket.distinct, ?_⟩
    rintro fd hfd _ hfd' rfl
    exact (hfrom fd hfd).1 (hfrom' fd hfd').2
  · rw [henv, hdirs.opened, ← hpaths.opened]
    intro fd hfd
    rcases List.mem_append.mp hfd with hfd | hfd
    · refine ⟨(hfrom fd hfd).2, ?_⟩
      intro hmem
      exact (hfrom fd hfd).1 (hsocket.kept hmem)
    · exact ⟨hdesc.kept (hfrom' fd hfd).2, (hfrom' fd hfd).1⟩
  · rw [← hdesc.size]
    exact get_isSome_iff hw
  · rw [← hsocket.size]
    exact get_isSome_iff hw'

/-- After `create_resource_pools`, and any calls of the functions for directories, and any of
those for files that free only what is handed out: every path that is handed out is the path
`(null)` in the directory of the resources, which is a file and no directory, and it is handed out
as often as the pools have blocks. -/
theorem paths_handed_out (h : createResourcePools s env = .ok pools)
    (dirCalls : List (CachedResource.Action Kind.dirpath.Value))
    (fileCalls : List (CachedResource.Action Kind.filepath.Value))
    (hgiven : AllSteps (CachedResource.step .filepath pools.filePool.path) FreesGiven
      ⟨pools.filePool.pool, []⟩ fileCalls) :
  AllStates (CachedResource.step .dirpath pools.dirpathPool.path)
      (HandsOut .dirpath pools.dirpathPool.path (nullPath s.path) s.poolSize)
      ⟨pools.dirpathPool.pool, []⟩ dirCalls ∧
    AllStates (CachedResource.step .filepath pools.filePool.path)
      (HandsOut .filepath pools.filePool.path (nullPath s.path) s.poolSize)
      ⟨pools.filePool.pool, []⟩ fileCalls ∧
    HasFile s pools.env ∧ pools.env.files.isDir (ascii "(null)" :: s.dir) = false
  := by
  obtain ⟨⟨P, hpaths⟩, ⟨_, hsocket⟩, ⟨_, hdesc⟩, ⟨Q, hdirs⟩, hfile, henv⟩ :=
    createResourcePools_spec h
  have hhas : HasFile s pools.env := by
    rw [henv]
    exact hdirs.file (hdesc.file (hsocket.file hfile))
  refine ⟨?_, ?_, hhas, ?_⟩
  · have hinv := (calls_of_ne .dirpath pools.dirpathPool.path
      (by intro hkind; cases hkind) hdirs.represents hdirs.free dirCalls).2
    apply hinv.imp
    rintro w ⟨R, hw⟩
    rw [← hdirs.size]
    exact handsOut_of_inv hdirs.path hw
  · let I (w : CachedResource.World β Kind.filepath.Value) : Prop :=
      ∃ R, CachedResource.Inv .filepath pools.filePool.path P.blocks w R
    have hinit : I ⟨pools.filePool.pool, []⟩ := inv_of_free hpaths.represents hpaths.free
    apply allStates_of_invariant (I := I) _ _ hinit hgiven
    · rintro w a w' ⟨R, hw⟩ ha hstep
      exact CachedResource.step_inv ⟨R, hw⟩ (precise_of_given hpaths.path hw ha) hstep
    · rintro w ⟨R, hw⟩
      rw [← hpaths.size]
      exact handsOut_of_inv hpaths.path hw
  · obtain ⟨contents, hcontents⟩ := Option.isSome_iff_exists.mp hhas
    rw [FileTree.isDir, FileTree.read_eq_some.mp hcontents]

end Results

/-- Pools of two blocks in `/tmp`, when no call fails. -/
def plainSetting : Setting ℕ where
  mmap := increasingMmap
  descriptors :=
    { next := fun opened => ((List.range 64).map Int32.ofNat).find? (· ∉ opened)
      fresh := fun h => by simpa using List.find?_some h }
  bytes _ := some (plainFile []).random.bytes
  pathMax := 16
  poolSize := 2
  path := ⟨ascii "/tmp", nonzero_of_mem_ascii (by decide)⟩
  dir := [ascii "tmp"]
  round _ _ := ⟨plainFile [], true, true, true⟩

def plainEnv : Env ℕ :=
  ⟨[], emptyTmp, [0, 1, 2]⟩

theorem plainSetting_creates :
  ∃ pools, createResourcePools plainSetting plainEnv = .ok pools
  := by
  have hok : (createResourcePools plainSetting plainEnv).isOk = true := by
    decide +kernel
  cases hcreate : createResourcePools plainSetting plainEnv with
  | error e =>
      rw [hcreate] at hok
      cases hok
  | ok pools => exact ⟨pools, rfl⟩

theorem no_pools_without_bytes_plain :
  ∃ stop, createResourcePools { plainSetting with bytes := fun _ => none } plainEnv = .error stop ∧
    StopsBefore plainEnv stop
  := no_pools_without_bytes rfl

theorem descriptors_handed_out_plain :
  ∃ pools, createResourcePools plainSetting plainEnv = .ok pools ∧
    AllSteps (CachedResource.step .desc pools.descPool.desc)
      (CachedResource.Precise .desc pools.descPool.desc) ⟨pools.descPool.pool, []⟩
      [.get, .get, .free (3 : Int32)]
  := by
  obtain ⟨pools, hpools⟩ := plainSetting_creates
  exact ⟨pools, hpools, (descriptors_handed_out hpools [.get, .get, .free (3 : Int32)] [.get]).1⟩

theorem paths_handed_out_plain :
  ∃ pools, createResourcePools plainSetting plainEnv = .ok pools ∧
    AllStates (CachedResource.step .filepath pools.filePool.path)
      (HandsOut .filepath pools.filePool.path (nullPath plainSetting.path) 2)
      ⟨pools.filePool.pool, []⟩ [.get, .get]
  := by
  obtain ⟨pools, hpools⟩ := plainSetting_creates
  use pools, hpools
  have hget : ∀ w : CachedResource.World ℕ CachedResource.Kind.filepath.Value,
      FreesGiven w .get := by
    rintro w v ⟨⟩
  exact (paths_handed_out hpools [] [.get, .get]
    ⟨hget _, fun w _ => ⟨hget w, fun _ _ => trivial⟩⟩).2.1

end ResourcePools
