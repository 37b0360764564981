import Nextgen.Lib.Setup
import Nextgen.Syscall.Entry

/-!
# Setting up the modules for randomness, resources and logging

`setup_crypto_module`, `setup_resource_module` with `cleanup_resource_module`, and
`setup_log_module`.  A call carries its arguments and the outcomes of the calls that it makes.
-/

open Transition

namespace Modules

/-! ### Randomness -/

namespace Crypto

/-- `enum crypto_method`, or another value. -/
inductive Method where
  | crypto
  | noCrypto
  | other
  deriving DecidableEq

/-- What `setup_hardware_acceleration` returns. -/
inductive Hardware where
  /-- Zero. -/
  | accelerated
  /-- One, when there is no engine. -/
  | notDetected
  /-- Minus one. -/
  | failed
  deriving DecidableEq

/-- The file scope variables.  `randRangePointer` is the function for a method. -/
structure State where
  cryptoSetup : Bool
  randRangePointer : Option Method
  softwarePrng : Bool
  deriving DecidableEq

/-- A set-up, with whether `seed_prng` succeeds. -/
structure Call where
  method : Method
  hardware : Hardware
  seeded : Bool

/-- `setup_crypto_module`.  `seed_prng` draws from `rand_range`, and so the flag is set before
it. -/
def setupCryptoModule (s : State) (c : Call) : Returned × State :=
  if s.cryptoSetup then (.refused, s)
  else match c.method with
    | .other => (.failed, s)
    | .noCrypto => (.ok, { s with randRangePointer := some .noCrypto, cryptoSetup := true })
    | .crypto =>
        let s := { s with randRangePointer := some .crypto }
        match c.hardware with
        | .accelerated => (.ok, { s with softwarePrng := false, cryptoSetup := true })
        | .notDetected =>
            (if c.seeded then .ok else .failed,
              { s with softwarePrng := true, cryptoSetup := true })
        | .failed => (.failed, s)

/-- The PRNG is seeded whenever that is tried. -/
def Seeds (s : State) (c : Call) : Prop :=
  s.cryptoSetup = false → c.method = .crypto → c.hardware = .notDetected → c.seeded = true

theorem setupCryptoModule_accepts {s : State} (h : s.cryptoSetup = false) (c : Call) :
  (setupCryptoModule s c).1 ≠ .refused
  := by
  obtain ⟨method, hardware, seeded⟩ := c
  cases method with
  | other | noCrypto => simp [setupCryptoModule, h]
  | crypto => cases hardware <;> cases seeded <;> simp [setupCryptoModule, h]

/-- A set-up sets the flag if and only if it succeeds, unless the seeding fails. -/
theorem setupCryptoModule_flag {s : State} (h : s.cryptoSetup = false) (c : Call) :
  (setupCryptoModule s c).2.cryptoSetup = ((setupCryptoModule s c).1 = .ok : Bool) ↔ Seeds s c
  := by
  obtain ⟨method, hardware, seeded⟩ := c
  cases method with
  | other | noCrypto => simp [setupCryptoModule, Seeds, h]
  | crypto => cases hardware <;> cases seeded <;> simp [setupCryptoModule, Seeds, h]

end Crypto

/-- The module `crypto`, which has no clean-up. -/
def crypto : SetupModule Crypto.State Crypto.Call where
  init := ⟨false, none, false⟩
  flag := Crypto.State.cryptoSetup
  isSetup _ := true
  exec s c := some (Crypto.setupCryptoModule s c)
  refuses := by
    intro s c x _ hflag hexec
    cases hexec
    apply if_pos hflag
  accepts := by
    intro s c x _ hflag hexec
    cases hexec
    apply Crypto.setupCryptoModule_accepts hflag

theorem keeps_crypto_iff (s : Crypto.State) (c : Crypto.Call) :
  crypto.Keeps s c ↔ Crypto.Seeds s c
  := by
  cases hflag : s.cryptoSetup with
  | true => simp [SetupModule.keeps_of_flag (m := crypto) rfl hflag, Crypto.Seeds, hflag]
  | false =>
      rw [← Crypto.setupCryptoModule_flag hflag, SetupModule.keeps_setup_iff (m := crypto) rfl rfl]
      simp [crypto, hflag]

/-! ### Resources -/

namespace Resource

/-- `enum rsrc_gen_type`, or another value. -/
inductive GenType where
  | cache
  | noCache
  | other
  deriving DecidableEq

/-- The pools, in the order in which `create_resource_pools` makes them. -/
inductive PoolKind where
  | file
  | socket
  | desc
  | dirpath
  deriving DecidableEq

/-- A pool in shared memory, of which only the lock matters here. -/
structure Pool where
  locked : Bool
  deriving DecidableEq

/-- The functions behind the interface. -/
inductive Interface where
  | cached
  | nocached
  deriving DecidableEq

/-- The file scope variables. -/
structure State where
  setup : Bool
  filePool : Option Pool
  socketPool : Option Pool
  descPool : Option Pool
  dirpathPool : Option Pool
  interface : Option Interface
  deriving DecidableEq

/-- A call of the module. -/
inductive Call where
  /-- With whether the path is not `NULL`, whether the socket server starts, and the first pool
  that cannot be created. -/
  | setup (type : GenType) (path server : Bool) (missing : Option PoolKind)
  /-- With whether a file path is in use, and whether the calls before the first one is freed
  succeed. -/
  | cleanup (allocated unlinked : Bool)

/-- `create_resource_pools`, and whether it succeeds.  The pointer to a pool that cannot be created
is set to `NULL`. -/
def createResourcePools (s : State) : Option PoolKind → Bool × State
  | some .file => (false, { s with filePool := none })
  | some .socket => (false, { s with filePool := some ⟨false⟩, socketPool := none })
  | some .desc =>
      (false, { s with filePool := some ⟨false⟩, socketPool := some ⟨false⟩, descPool := none })
  | some .dirpath =>
      (false,
        { s with
          filePool := some ⟨false⟩
          socketPool := some ⟨false⟩
          descPool := some ⟨false⟩
          dirpathPool := none })
  | none =>
      (true,
        { s with
          filePool := some ⟨false⟩
          socketPool := some ⟨false⟩
          descPool := some ⟨false⟩
          dirpathPool := some ⟨false⟩ })

/-- `setup_resource_module`. -/
def setupResourceModule (s : State) (type : GenType) (path server : Bool)
    (missing : Option PoolKind) : Returned × State :=
  if s.setup then (.refused, s)
  else if !path then (.failed, s)
  else if !server then (.failed, s)
  else match type with
    | .cache =>
        let (created, s) := createResourcePools s missing
        if created then (.ok, { s with interface := some .cached, setup := true })
        else (.failed, s)
    | .noCache => (.ok, { s with interface := some .nocached, setup := true })
    | .other => (.ok, { s with setup := true })

/-- `clean_file_pool`: whether it succeeds, and the pool.  It waits for a lock that a failed one
has left behind, and the loop over the paths in use goes on from a block that it has freed. -/
def cleanFilePool (pool : Option Pool) (allocated unlinked : Bool) : Option (Bool × Option Pool) :=
  match pool with
  | none => some (false, none)
  | some ⟨true⟩ => none
  | some ⟨false⟩ =>
      if !allocated then some (true, some ⟨false⟩)
      else if !unlinked then some (false, some ⟨true⟩)
      else none

/-- `cleanup_resource_module`, which returns zero in any case. -/
def cleanupResourceModule (s : State) (allocated unlinked : Bool) : Option (Returned × State) :=
  (cleanFilePool s.filePool allocated unlinked).map fun (cleaned, pool) =>
    let s := { s with filePool := pool }
    if cleaned then (.ok, { s with setup := false }) else (.ok, s)

def exec (s : State) : Call → Option (Returned × State)
  | .setup type path server missing => some (setupResourceModule s type path server missing)
  | .cleanup allocated unlinked => cleanupResourceModule s allocated unlinked

def Call.isSetup : Call → Bool
  | .setup _ _ _ _ => true
  | .cleanup _ _ => false

/-- A clean-up of the module while it is set up does not fail: `file_pool` is not `NULL`, and no
file path in use stays behind. -/
def Cleans (s : State) : Call → Prop
  | .setup _ _ _ _ => True
  | .cleanup allocated unlinked => s.setup = true →
      ∃ pool, s.filePool = some pool ∧ (pool.locked = true ∨ allocated = false ∨ unlinked = true)

/-- A set-up that is not refused sets the flag if and only if it succeeds. -/
theorem setupResourceModule_spec {s : State} (h : s.setup = false) (type : GenType)
    (path server : Bool) (missing : Option PoolKind) :
  (setupResourceModule s type path server missing).1 ≠ .refused ∧
    (setupResourceModule s type path server missing).2.setup
      = ((setupResourceModule s type path server missing).1 = .ok : Bool)
  := by
  cases path with
  | false => simp [setupResourceModule, h]
  | true =>
      cases server with
      | false => simp [setupResourceModule, h]
      | true =>
          cases type with
          | noCache | other => simp [setupResourceModule, h]
          | cache =>
              cases missing with
              | none => simp [setupResourceModule, createResourcePools, h]
              | some kind => cases kind <;> simp [setupResourceModule, createResourcePools, h]

/-- A clean-up returns zero, and clears the flag if and only if it does not fail. -/
theorem cleanupResourceModule_flag (s : State) (allocated unlinked : Bool) :
  (∀ x, cleanupResourceModule s allocated unlinked = some x → x.1 = .ok → x.2.setup = false) ↔
    Cleans s (.cleanup allocated unlinked)
  := by
  cases hpool : s.filePool with
  | none => simp [cleanupResourceModule, cleanFilePool, Cleans, hpool]
  | some pool =>
      obtain ⟨locked⟩ := pool
      cases locked <;> cases allocated <;> cases unlinked <;>
        simp [cleanupResourceModule, cleanFilePool, Cleans, hpool]

end Resource

/-- The module `resource`. -/
def resource : SetupModule Resource.State Resource.Call where
  init := ⟨false, none, none, none, none, none⟩
  flag := Resource.State.setup
  isSetup := Resource.Call.isSetup
  exec := Resource.exec
  refuses := by
    intro s c x hsetup hflag hexec
    cases c with
    | setup type path server missing =>
        cases hexec
        apply if_pos hflag
    | cleanup allocated unlinked => cases hsetup
  accepts := by
    intro s c x hsetup hflag hexec
    cases c with
    | setup type path server missing =>
        cases hexec
        apply (Resource.setupResourceModule_spec hflag type path server missing).1
    | cleanup allocated unlinked => cases hsetup

theorem keeps_resource_iff (s : Resource.State) (c : Resource.Call) :
  resource.Keeps s c ↔ Resource.Cleans s c
  := by
  cases c with
  | setup type path server missing =>
      cases hflag : s.setup with
      | true =>
          simp only [Resource.Cleans, iff_true]
          apply SetupModule.keeps_of_flag (m := resource) rfl hflag
      | false =>
          have hspec := (Resource.setupResourceModule_spec hflag type path server missing).2
          rw [SetupModule.keeps_setup_iff (m := resource) rfl rfl]
          simp [resource, hflag, hspec, Resource.Cleans]
  | cleanup allocated unlinked =>
      rw [SetupModule.keeps_cleanup_iff (m := resource) rfl]
      apply Resource.cleanupResourceModule_flag

/-! ### Logging -/

namespace Log

/-- The calls that `setup_log_module` makes, in their order: those of `create_out_directory`, of
`create_log_file` and of `setup_tables`. -/
inductive Step where
  | outDirectory
  | crashPath
  | crashDirectory
  | logPath
  /-- `sqlite3_open`, which may store a handle also when it fails. -/
  | sqliteOpen (handle : Bool)
  | argStatement
  | argTable
  | syscallStatement
  | syscallTable
  deriving DecidableEq

/-- The file scope variables.  `db` is the file that the connection is for. -/
structure State where
  set : Syscall.YesNo
  totalSyscalls : ℕ
  db : Option String
  deriving DecidableEq

/-- A set-up, with the first call that fails. -/
structure Call where
  path : String
  syscallMax : ℕ
  fails : Option Step

/-- `setup_log_module`. -/
def setupLogModule (s : State) (c : Call) : Returned × State :=
  if s.set ≠ .no then (.refused, s)
  else
    let logPath := c.path ++ "/log.nx"
    match c.fails with
    | some .outDirectory | some .crashPath | some .crashDirectory | some .logPath => (.failed, s)
    | some (.sqliteOpen handle) => (.failed, { s with db := if handle then some logPath else none })
    | some .argStatement | some .argTable | some .syscallStatement | some .syscallTable =>
        (.failed, { s with db := some logPath })
    | none => (.ok, { s with db := some logPath, totalSyscalls := c.syscallMax })

/-- A set-up that is not refused fails. -/
def Fails (s : State) (c : Call) : Prop :=
  s.set = .no → c.fails ≠ none

/-- A set-up leaves the flag as it is. -/
theorem setupLogModule_set (s : State) (c : Call) :
  (setupLogModule s c).2.set = s.set
  := by
  rw [setupLogModule]
  split
  · rfl
  · simp only
    split <;> rfl

/-- A set-up that is not refused succeeds if and only if none of its calls fails. -/
theorem setupLogModule_returned {s : State} (h : s.set = .no) (c : Call) :
  (setupLogModule s c).1 = if c.fails = none then .ok else .failed
  := by
  obtain ⟨path, syscallMax, fails⟩ := c
  cases fails with
  | none => simp [setupLogModule, h]
  | some step => cases step <;> simp [setupLogModule, h]

end Log

/-- The module `log`, which has no clean-up. -/
def log : SetupModule Log.State Log.Call where
  init := ⟨.no, 0, none⟩
  flag s := s.set ≠ .no
  isSetup _ := true
  exec s c := some (Log.setupLogModule s c)
  refuses := by
    intro s c x _ hflag hexec
    cases hexec
    apply if_pos (of_decide_eq_true hflag)
  accepts := by
    intro s c x _ hflag hexec
    cases hexec
    have hset : s.set = .no := by simpa using hflag
    rw [Log.setupLogModule_returned hset]
    split <;> simp

theorem keeps_log_iff (s : Log.State) (c : Log.Call) :
  log.Keeps s c ↔ Log.Fails s c
  := by
  rw [SetupModule.keeps_setup_iff (m := log) rfl rfl]
  simp only [log, Log.setupLogModule_set, Log.Fails]
  by_cases hset : s.set = .no
  · simp [hset, Log.setupLogModule_returned hset]
  · simp [hset]

/-- For each module and along every sequence of calls, the module is a proper machine with two
states if and only if no seeding of `crypto` fails, no clean-up of `resource` fails while it is
set up, and every set-up of `log` fails. -/
theorem proper_iff (cryptoCalls : List Crypto.Call) (resourceCalls : List Resource.Call)
    (logCalls : List Log.Call) :
  (AllSteps crypto.step crypto.Proper crypto.start cryptoCalls ↔
      AllSteps crypto.step (fun t c => Crypto.Seeds t.state c) crypto.start cryptoCalls) ∧
    (AllSteps resource.step resource.Proper resource.start resourceCalls ↔
      AllSteps resource.step (fun t c => Resource.Cleans t.state c) resource.start
        resourceCalls) ∧
    (AllSteps log.step log.Proper log.start logCalls ↔
      AllSteps log.step (fun t c => Log.Fails t.state c) log.start logCalls)
  := by
  simp only [← keeps_crypto_iff, ← keeps_resource_iff, ← keeps_log_iff]
  exact ⟨SetupModule.allSteps_proper_iff cryptoCalls,
    SetupModule.allSteps_proper_iff resourceCalls, SetupModule.allSteps_proper_iff logCalls⟩

/-- A failed seeding of `crypto`, a clean-up of `resource` after a set-up without pools, and a
set-up of `log`. -/
theorem proper_not_any :
  ¬ AllSteps crypto.step crypto.Proper crypto.start [⟨.crypto, .notDetected, false⟩] ∧
    ¬ AllSteps resource.step resource.Proper resource.start
      [.setup .noCache true true none, .cleanup false true] ∧
    ¬ AllSteps log.step log.Proper log.start [⟨"out", 1, none⟩]
  := by
  refine ⟨?_, ?_, ?_⟩
  · rintro ⟨h, -⟩
    have hproper : crypto.ProperSetup _ _ _ := h _ _ rfl
    cases hproper.failed nofun
  · rintro ⟨-, h⟩
    cases (h _ rfl).1 _ _ rfl rfl
  · rintro ⟨h, -⟩
    have hproper : log.ProperSetup _ _ _ := h _ _ rfl
    cases hproper.ok rfl

end Modules
