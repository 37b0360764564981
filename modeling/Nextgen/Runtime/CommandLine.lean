import Mathlib.Logic.Function.Basic
import Nextgen.Lib.FileTree
import Nextgen.Lib.Getopt
import Nextgen.Runtime.Modules

/-!
# The command line

`parse_cmd_line` with the tables `optstring` and `longopts`.  The options `--crypto` and
`--protocol` have the same letter, and no option has the letter `t`, whose flag network mode asks
for.
-/

open Getopt
open FileTree (S_IFDIR)

namespace CommandLine

/-! ### The parser -/

/-- `enum fuzz_mode`, or another value. -/
inductive FuzzMode where
  | file
  | network
  | syscall
  | other
  deriving DecidableEq

/-- `struct fuzzer_config`. -/
structure FuzzerConfig where
  execPath : Option (List Char)
  inputPath : Option (List Char)
  outputPath : Option (List Char)
  args : Option (List Char)
  smartMode : Bool
  method : Modules.Crypto.Method
  mode : FuzzMode

/-- The files with their modes, or the text of the error, the configuration as it is allocated,
the text of the error if `asprintf` fails, and whether operands may stand among the options. -/
structure Environment where
  stat : List Char → Except String UInt32
  config : Option FuzzerConfig
  asprintfError : Option String
  permute : Bool

/-- The variables `iFlag`, `oFlag` and so on. -/
inductive Flag where
  | i | o | f | n | e | p | a | t | s
  deriving DecidableEq

/-- The local variables of `parse_cmd_line`. -/
structure Parser where
  config : FuzzerConfig
  flags : Flag → Bool

def Parser.set (s : Parser) (x : Flag) : Parser :=
  { s with flags := Function.update s.flags x true }

def optstring : List Char := "p:e:".toList

def longopts : List LongOption :=
  [⟨"in".toList, true, 'i'⟩,
   ⟨"out".toList, true, 'o'⟩,
   ⟨"exec".toList, true, 'e'⟩,
   ⟨"crypto".toList, true, 'c'⟩,
   ⟨"port".toList, true, 'p'⟩,
   ⟨"address".toList, true, 'a'⟩,
   ⟨"protocol".toList, true, 'c'⟩,
   ⟨"args".toList, true, 'x'⟩,
   ⟨"file".toList, false, 'f'⟩,
   ⟨"network".toList, false, 'n'⟩,
   ⟨"syscall".toList, false, 's'⟩,
   ⟨"help".toList, false, 'h'⟩,
   ⟨"dumb".toList, false, 'd'⟩,
   ⟨"verbose".toList, false, 'v'⟩]

def table (permute : Bool) : Options :=
  ⟨optstring, longopts, permute⟩

/-- The texts of `display_help_banner`. -/
def helpBanner : List String :=
  ["Nextgen is a Genetic File, Syscall, and Network Fuzzer.\n",
   "To use the file fuzzer in smart mode run the command below.\n",
   "sudo ./nextgen --file --in /path/to/in/directory --out /path/to/out/directory " ++
     "--exec /path/to/target/exec .\n",
   "To use the syscall fuzzer in smart mode run.\n",
   "sudo ./nextgen --syscall --out /path/to/out/directory\n",
   "To use dumb mode just pass --dumb with any of the above commands.\n"]

/-- A result, or the texts that are written when there is none. -/
abbrev Result (α : Type) : Type :=
  Except (List String) α

/-- Another text is written after those of a failure. -/
def orWrite {α : Type} (r : Result α) (text : String) : Result α :=
  r.mapError (· ++ [text])

def S_IXUSR : UInt32 := 0o100

/-- The setters of a path, after the tests of their two arguments for `NULL`. -/
def withPath (config : Option FuzzerConfig) (path : Option (List Char))
    (k : FuzzerConfig → List Char → Result FuzzerConfig) : Result FuzzerConfig :=
  match config, path with
  | none, _ => .error ["Parser context is not allocated\n"]
  | some _, none => .error ["Path supplied is NULL\n"]
  | some config, some path => k config path

/-- A path is set if the file has a bit of its mode. -/
def setPathWith (env : Environment) (bit : UInt32) (text : String)
    (set : FuzzerConfig → List Char → FuzzerConfig) (config : Option FuzzerConfig)
    (path : Option (List Char)) : Result FuzzerConfig :=
  withPath config path fun config path =>
    match env.stat path with
    | .error e => .error ["Can't get stats: " ++ e ++ "\n"]
    | .ok mode => if mode &&& bit ≠ 0 then .ok (set config path) else .error [text]

def setInputPath (env : Environment) :
    Option FuzzerConfig → Option (List Char) → Result FuzzerConfig :=
  setPathWith env S_IFDIR "Input path is not a directory\n" fun config path =>
    { config with inputPath := some path }

def setExecPath (env : Environment) :
    Option FuzzerConfig → Option (List Char) → Result FuzzerConfig :=
  setPathWith env S_IXUSR "Exec path is not a excutable\n" fun config path =>
    { config with execPath := some path }

def setOutputPath (env : Environment) (config : Option FuzzerConfig) (path : Option (List Char)) :
    Result FuzzerConfig :=
  withPath config path fun config path =>
    match env.stat path with
    | .ok _ => .error ["Path already exist\n"]
    | .error _ => .ok { config with outputPath := some path }

def setFuzzMode (config : FuzzerConfig) (mode : FuzzMode) : Result FuzzerConfig :=
  match mode with
  | .file | .syscall | .network => .ok { config with mode := mode }
  | .other => .error ["Unknown fuzz mode\n"]

def setCryptoMethod (config : FuzzerConfig) (method : Modules.Crypto.Method) :
    Result FuzzerConfig :=
  match method with
  | .crypto | .noCrypto => .ok { config with method := method }
  | .other => .error ["Unknown crypto method\n"]

def initFuzzerConfig (env : Environment) : Result FuzzerConfig :=
  match env.config with
  | none => .error ["Failed to allocate fuzzer config\n"]
  | some config => .ok config

/-- The body of the loop. -/
def parseOption (env : Environment) (s : Parser) (ch : Char) (optarg : Option (List Char)) :
    Result Parser :=
  match ch with
  | 'h' => .error helpBanner
  | 'p' => .ok (s.set .p)
  | 'a' => .ok (s.set .a)
  | 't' => .ok (s.set .t)
  | 'e' => do
      let config ← orWrite (setExecPath env s.config optarg) "Can't set exec path\n"
      return { s with config := config }.set .e
  | 'i' => do
      let config ← orWrite (setInputPath env s.config optarg) "Can't set input path\n"
      return { s with config := config }.set .i
  | 'o' => do
      let config ← orWrite (setOutputPath env s.config optarg) "Can't set output path\n"
      return { s with config := config }.set .o
  | 'f' => do
      let config ← orWrite (setFuzzMode s.config .file) "Can't set fuzz mode\n"
      return { s with config := config }.set .f
  | 'n' => do
      let config ← orWrite (setFuzzMode s.config .network) "Can't set fuzz mode\n"
      return { s with config := config }.set .n
  | 's' => do
      let config ← orWrite (setFuzzMode s.config .syscall) "Can't set fuzz mode\n"
      return { s with config := config }.set .s
  | 'c' => do
      let config ← orWrite (setCryptoMethod s.config .noCrypto) "Can't set crypto method\n"
      return { s with config := config }
  | 'd' => .ok { s with config := { s.config with smartMode := false } }
  | 'v' => .ok s
  | 'x' =>
      match env.asprintfError with
      | some e => .error ["asprintf: " ++ e ++ "\n"]
      | none => .ok { s with config := { s.config with args := optarg.getD "(null)".toList } }
  | _ => .error helpBanner

/-- The loop, over what `getopt_long` gives. -/
def parseOptions (env : Environment) : Parser → List Occurrence → Result Parser
  | s, [] => .ok s
  | s, o :: occs => do
      let s ← parseOption env s o.val o.optarg
      parseOptions env s occs

/-- The tests after the loop. -/
def checkFlags (s : Parser) : Result FuzzerConfig :=
  if s.flags .f ≠ true ∧ s.flags .n ≠ true ∧ s.flags .s ≠ true then .error helpBanner
  else if s.flags .f = true ∧ (s.flags .i = false ∨ s.flags .o = false ∨ s.flags .e = false) then
    .error ["Pass --exec , --in and --out for file mode\n"]
  else if s.flags .n = true ∧ (s.flags .a = false ∨ s.flags .t = false ∨ s.flags .o = false) then
    .error ["Pass --address , --port, --protocol, and --out for network mode\n"]
  else if s.flags .s = true ∧ s.flags .o ≠ true then
    .error ["Pass --out for syscall mode\n"]
  else .ok s.config

/-- What the calls of `getopt_long` give. -/
def occurrences (env : Environment) (argv : List (List Char)) : List Occurrence :=
  (table env.permute).getoptLong argv.tail

/-- `parse_cmd_line`. -/
def parseCmdLine (env : Environment) (argv : List (List Char)) : Result FuzzerConfig :=
  if argv.length = 1 then .error helpBanner
  else do
    let config ← orWrite (initFuzzerConfig env) "Can't init parser context\n"
    let config := { config with smartMode := true }
    let config ← orWrite (setCryptoMethod config .crypto) "Can't set crypto method\n"
    let s ← parseOptions env ⟨config, fun _ => false⟩ (occurrences env argv)
    checkFlags s

/-! ### What it should do -/

/-- An option has a name in the table.  A short one is the long option with its letter. -/
def Names (o : Opt) (name : String) : Prop :=
  match o with
  | .long o => o.name = name.toList
  | .short c => (longopts.find? (·.val = c)).map LongOption.name = some name.toList

instance (o : Opt) (name : String) : Decidable (Names o name) :=
  match o with
  | .long o => inferInstanceAs (Decidable (o.name = name.toList))
  | .short _ => inferInstanceAs (Decidable (_ = some name.toList))

/-- An option is given. -/
def Given (occs : List Occurrence) (name : String) : Prop :=
  ∃ o optarg, .given o optarg ∈ occs ∧ Names o name

instance (occs : List Occurrence) (name : String) : Decidable (Given occs name) :=
  decidable_of_iff (∃ x ∈ occs, ∃ o ∈ x.opt, Names o name) <| by
    constructor
    · rintro ⟨x, hx, o, ho, hname⟩
      cases x with
      | unknown => cases ho
      | given o optarg =>
          cases ho
          exact ⟨o, optarg, hx, hname⟩
    · rintro ⟨o, optarg, ho, hname⟩
      exact ⟨_, ho, o, rfl, hname⟩

/-- A file has a bit of its mode. -/
def Environment.HasBit (env : Environment) (bit : UInt32) (path : List Char) : Prop :=
  ∃ mode, env.stat path = .ok mode ∧ mode &&& bit ≠ 0

/-- There is no file at a path. -/
def Environment.IsNew (env : Environment) (path : List Char) : Prop :=
  ∃ e, env.stat path = .error e

/-- An option that is neither `--help` nor unknown, with a path that passes its check. -/
def Allowed (env : Environment) : Occurrence → Prop
  | .unknown => False
  | .given o optarg =>
      ¬ Names o "help" ∧ ∀ path ∈ optarg,
        (Names o "exec" → env.HasBit S_IXUSR path) ∧ (Names o "in" → env.HasBit S_IFDIR path) ∧
        (Names o "out" → env.IsNew path)

/-- The documented modes. -/
structure Documented (env : Environment) (occs : List Occurrence) : Prop where
  allowed : ∀ o ∈ occs, Allowed env o
  mode : Given occs "file" ∨ Given occs "network" ∨ Given occs "syscall"
  file : Given occs "file" → Given occs "in" ∧ Given occs "out" ∧ Given occs "exec"
  network : Given occs "network" →
    Given occs "address" ∧ Given occs "port" ∧ Given occs "protocol" ∧ Given occs "out"
  syscall : Given occs "syscall" → Given occs "out"

/-- A configuration is returned for the documented modes only, with the method and the mode of the
command line. -/
def ParsesDocumented (env : Environment) (argv : List (List Char)) : Prop :=
  ((∃ config, parseCmdLine env argv = .ok config) ↔ Documented env (occurrences env argv)) ∧
  ∀ config, parseCmdLine env argv = .ok config →
    (config.method = .noCrypto ↔ Given (occurrences env argv) "crypto") ∧
    (config.smartMode = false ↔ Given (occurrences env argv) "dumb")

/-! ### The setters -/

theorem orWrite_eq_ok {α : Type} {r : Result α} {text : String} {a : α} :
  orWrite r text = .ok a ↔ r = .ok a
  := by
  cases r with
  | error e => simp [orWrite, Except.mapError]
  | ok a => simp [orWrite, Except.mapError]

/-- A setter with its error path succeeds if and only if the setter does. -/
theorem exists_ok_iff {r : Result FuzzerConfig} {text : String} {f : FuzzerConfig → Parser} :
  (∃ s', (orWrite r text >>= fun config => pure (f config)) = .ok s') ↔ ∃ config, r = .ok config
  := by
  constructor
  · rintro ⟨s', hs'⟩
    obtain ⟨config, hconfig, -⟩ := Except.bind_eq_ok.mp hs'
    exact ⟨config, orWrite_eq_ok.mp hconfig⟩
  · rintro ⟨config, hconfig⟩
    exact ⟨f config, Except.bind_eq_ok.mpr ⟨config, orWrite_eq_ok.mpr hconfig, rfl⟩⟩

section Setters

variable {env : Environment} {config config' : FuzzerConfig} {path : Option (List Char)}

theorem setPathWith_eq_ok {bit : UInt32} {text : String}
    {set : FuzzerConfig → List Char → FuzzerConfig} :
  setPathWith env bit text set (some config) path = .ok config' ↔
    ∃ p, path = some p ∧ env.HasBit bit p ∧ config' = set config p
  := by
  cases path with
  | none => simp [setPathWith, withPath]
  | some p =>
      cases hstat : env.stat p with
      | error e => simp [setPathWith, withPath, Environment.HasBit, hstat]
      | ok mode =>
          by_cases hbit : mode &&& bit = 0
          · simp [setPathWith, withPath, Environment.HasBit, hstat, hbit]
          · simp [setPathWith, withPath, Environment.HasBit, hstat, hbit, eq_comm]

theorem setOutputPath_eq_ok :
  setOutputPath env (some config) path = .ok config' ↔
    ∃ p, path = some p ∧ env.IsNew p ∧ config' = { config with outputPath := some p }
  := by
  cases path with
  | none => simp [setOutputPath, withPath]
  | some p =>
      cases hstat : env.stat p with
      | error e => simp [setOutputPath, withPath, Environment.IsNew, hstat, eq_comm]
      | ok mode => simp [setOutputPath, withPath, Environment.IsNew, hstat]

end Setters

/-! ### The loop -/

/-- The letter at which a flag is set. -/
def Flag.letter : Flag → Char
  | .i => 'i'
  | .o => 'o'
  | .f => 'f'
  | .n => 'n'
  | .e => 'e'
  | .p => 'p'
  | .a => 'a'
  | .t => 't'
  | .s => 's'

/-- What the letters of some options do to the variables that are read later. -/
structure Follows (s : Parser) (letters : List Char) (s' : Parser) : Prop where
  flags : ∀ x, s'.flags x = (s.flags x || letters.contains x.letter)
  method : s'.config.method = .noCrypto ↔ s.config.method = .noCrypto ∨ 'c' ∈ letters
  smartMode : s'.config.smartMode = false ↔ s.config.smartMode = false ∨ 'd' ∈ letters

theorem Follows.nil (s : Parser) :
  Follows s [] s
  := by
  constructor
  · intro x
    exact (Bool.or_false _).symm
  · simp
  · simp

theorem Follows.cons {s s' s'' : Parser} {c : Char} {letters : List Char}
    (h : Follows s [c] s') (h' : Follows s' letters s'') :
  Follows s (c :: letters) s''
  := by
  constructor
  · intro x
    rw [h'.flags, h.flags, Bool.or_assoc]
    simp
  · rw [h'.method, h.method, or_assoc, List.mem_singleton, List.mem_cons]
  · rw [h'.smartMode, h.smartMode, or_assoc, List.mem_singleton, List.mem_cons]

theorem Flag.mem_all (x : Flag) :
  x ∈ [Flag.i, .o, .f, .n, .e, .p, .a, .t, .s]
  := by
  cases x <;> decide

/-- No two flags have the same letter. -/
theorem Flag.letter_injective {x y : Flag} (h : x.letter = y.letter) :
  x = y
  := by
  have hall : ∀ x ∈ [Flag.i, .o, .f, .n, .e, .p, .a, .t, .s],
      ∀ y ∈ [Flag.i, .o, .f, .n, .e, .p, .a, .t, .s], x.letter = y.letter → x = y := by
    decide +kernel
  apply hall x _ y _ h <;> apply Flag.mem_all

/-- A flag is set, and the configuration keeps the method and the mode. -/
theorem Follows.set {s : Parser} {config : FuzzerConfig} (x : Flag)
    (hmethod : config.method = s.config.method) (hsmart : config.smartMode = s.config.smartMode) :
  Follows s [x.letter] (Parser.set { s with config := config } x)
  := by
  constructor
  · intro y
    by_cases hxy : y = x
    · subst hxy
      simp [Parser.set]
    · have hne : y.letter ≠ x.letter := mt Flag.letter_injective hxy
      simp [Parser.set, hxy, hne]
  · have hne : 'c' ≠ x.letter := by cases x <;> decide
    simp [Parser.set, hmethod, hne]
  · have hne : 'd' ≠ x.letter := by cases x <;> decide
    simp [Parser.set, hsmart, hne]

/-- A letter that no flag has changes the configuration only. -/
theorem Follows.config {s : Parser} {c : Char} {config : FuzzerConfig}
    (hflag : ∀ x ∈ [Flag.i, .o, .f, .n, .e, .p, .a, .t, .s], x.letter ≠ c)
    (hmethod : config.method = .noCrypto ↔ s.config.method = .noCrypto ∨ 'c' = c)
    (hsmart : config.smartMode = false ↔ s.config.smartMode = false ∨ 'd' = c) :
  Follows s [c] { s with config := config }
  := by
  constructor
  · intro x
    have hne : x.letter ≠ c := hflag x x.mem_all
    simp [hne]
  · rw [List.mem_singleton]
    exact hmethod
  · rw [List.mem_singleton]
    exact hsmart

/-- Each letter sets its flag, and only `c` and `d` change the method and the mode. -/
theorem parseOption_follows {env : Environment} {s s' : Parser} {ch : Char}
    {optarg : Option (List Char)} (h : parseOption env s ch optarg = .ok s') :
  Follows s [ch] s'
  := by
  unfold parseOption at h
  split at h
  · cases h
  · cases h
    exact .set .p rfl rfl
  · cases h
    exact .set .a rfl rfl
  · cases h
    exact .set .t rfl rfl
  · obtain ⟨config, hconfig, hs⟩ := Except.bind_eq_ok.mp h
    obtain ⟨p, -, -, rfl⟩ := setPathWith_eq_ok.mp (orWrite_eq_ok.mp hconfig)
    cases hs
    exact .set .e rfl rfl
  · obtain ⟨config, hconfig, hs⟩ := Except.bind_eq_ok.mp h
    obtain ⟨p, -, -, rfl⟩ := setPathWith_eq_ok.mp (orWrite_eq_ok.mp hconfig)
    cases hs
    exact .set .i rfl rfl
  · obtain ⟨config, hconfig, hs⟩ := Except.bind_eq_ok.mp h
    obtain ⟨p, -, -, rfl⟩ := setOutputPath_eq_ok.mp (orWrite_eq_ok.mp hconfig)
    cases hs
    exact .set .o rfl rfl
  · cases h
    exact .set .f rfl rfl
  · cases h
    exact .set .n rfl rfl
  · cases h
    exact .set .s rfl rfl
  · cases h
    exact .config (by decide) (by simp) (by simp)
  · cases h
    exact .config (by decide) (by simp) (by simp)
  · cases h
    exact .config (by decide) (by simp) (by simp)
  · split at h
    · cases h
    · cases h
      exact .config (by decide) (by simp) (by simp)
  · cases h

theorem parseOptions_follows {env : Environment} {occs : List Occurrence} {s s' : Parser}
    (h : parseOptions env s occs = .ok s') :
  Follows s (occs.map Occurrence.val) s'
  := by
  induction occs generalizing s with
  | nil =>
      cases h
      exact .nil _
  | cons o occs ih =>
      obtain ⟨r, hr, hrest⟩ := Except.bind_eq_ok.mp h
      exact (parseOption_follows hr).cons (ih hrest)

/-- An option fails only for `--help`, for a path that does not pass its check, or if `asprintf`
fails. -/
theorem parseOption_ok_iff {env : Environment} {s : Parser} {ch : Char}
    {optarg : Option (List Char)}
    (hknown : ch ∈ ['h', 'p', 'a', 't', 'e', 'i', 'o', 'f', 'n', 's', 'c', 'd', 'v', 'x'])
    (hpath : ch ∈ ['e', 'i', 'o'] → optarg.isSome) :
  (∃ s', parseOption env s ch optarg = .ok s') ↔
    ch ≠ 'h' ∧
    (∀ path ∈ optarg, (ch = 'e' → env.HasBit S_IXUSR path) ∧ (ch = 'i' → env.HasBit S_IFDIR path) ∧
      (ch = 'o' → env.IsNew path)) ∧
    (ch = 'x' → env.asprintfError = none)
  := by
  unfold parseOption
  split
  · simp
  · simp
  · simp
  · simp
  · obtain ⟨path, rfl⟩ := Option.isSome_iff_exists.mp (hpath (by decide))
    rw [exists_ok_iff]
    simp [setExecPath, setPathWith_eq_ok]
  · obtain ⟨path, rfl⟩ := Option.isSome_iff_exists.mp (hpath (by decide))
    rw [exists_ok_iff]
    simp [setInputPath, setPathWith_eq_ok]
  · obtain ⟨path, rfl⟩ := Option.isSome_iff_exists.mp (hpath (by decide))
    rw [exists_ok_iff]
    simp [setOutputPath_eq_ok]
  · rw [exists_ok_iff]
    simp [setFuzzMode]
  · rw [exists_ok_iff]
    simp [setFuzzMode]
  · rw [exists_ok_iff]
    simp [setFuzzMode]
  · rw [exists_ok_iff]
    simp [setCryptoMethod]
  · simp
  · simp
  · cases env.asprintfError with
    | none => simp
    | some e => simp
  · simp_all

/-! ### The options of the tables -/

/-- The options, with whether they take an argument. -/
def entries : List (Opt × Bool) :=
  (.short 'p', true) :: (.short 'e', true) :: longopts.map fun o => (.long o, o.hasArg)

theorem mem_entries_of_has {permute : Bool} {o : Opt} {hasArg : Bool}
    (h : (table permute).Has o hasArg) :
  (o, hasArg) ∈ entries
  := by
  cases o with
  | long o =>
      obtain ⟨hmem, rfl⟩ := h
      apply List.mem_cons_of_mem
      apply List.mem_cons_of_mem
      exact List.mem_map_of_mem hmem
  | short c =>
      have hc : c = 'p' ∨ c = 'e' := by
        obtain ⟨hmem, hcolon⟩ := Options.mem_of_short h
        have hmem : c ∈ ['p', ':', 'e', ':'] := hmem
        simp only [List.mem_cons, List.not_mem_nil, or_false, hcolon, false_or] at hmem
        exact hmem
      rcases hc with rfl | rfl
      · cases h
        exact List.mem_cons_self
      · cases h
        apply List.mem_cons_of_mem
        exact List.mem_cons_self

/-- A letter occurs if and only if one of the options that have it in the tables is given. -/
theorem mem_letters_iff {env : Environment} {argv : List (List Char)} {c : Char}
    (names : List String) (hunknown : c ≠ '?')
    (h : ∀ e ∈ entries, e.1.val = c ↔ ∃ name ∈ names, Names e.1 name) :
  c ∈ (occurrences env argv).map Occurrence.val ↔
    ∃ name ∈ names, Given (occurrences env argv) name
  := by
  have hmem : ∀ o optarg, .given o optarg ∈ occurrences env argv →
      (o.val = c ↔ ∃ name ∈ names, Names o name) := by
    intro o optarg ho
    exact h _ (mem_entries_of_has (Options.accepts_of_mem_getoptLong argv.tail _ ho))
  rw [List.mem_map]
  constructor
  · rintro ⟨o, ho, hval⟩
    cases o with
    | unknown => exact absurd hval.symm hunknown
    | given o optarg =>
        obtain ⟨name, hname, hnames⟩ := (hmem o optarg ho).mp hval
        exact ⟨name, hname, o, optarg, ho, hnames⟩
  · rintro ⟨name, hname, o, optarg, ho, hnames⟩
    exact ⟨_, ho, (hmem o optarg ho).mpr ⟨name, hname, hnames⟩⟩

theorem given_cons {o : Occurrence} {occs : List Occurrence} {name : String} :
  Given (o :: occs) name ↔ Given [o] name ∨ Given occs name
  := by
  constructor
  · rintro ⟨opt, optarg, hmem, hname⟩
    rcases List.mem_cons.mp hmem with rfl | hmem
    · exact .inl ⟨opt, optarg, List.mem_singleton_self _, hname⟩
    · exact .inr ⟨opt, optarg, hmem, hname⟩
  · rintro (⟨opt, optarg, hmem, hname⟩ | ⟨opt, optarg, hmem, hname⟩)
    · exact ⟨opt, optarg, List.mem_cons.mpr (.inl (List.mem_singleton.mp hmem)), hname⟩
    · exact ⟨opt, optarg, List.mem_cons_of_mem o hmem, hname⟩

theorem given_singleton {o : Opt} {optarg : Option (List Char)} {name : String} :
  Given [.given o optarg] name ↔ Names o name
  := by
  constructor
  · rintro ⟨opt, arg, hmem, hname⟩
    cases List.mem_singleton.mp hmem
    exact hname
  · intro hname
    exact ⟨o, optarg, List.mem_singleton_self _, hname⟩

section Loop

variable {env : Environment} {s : Parser}

theorem exists_parseOption_iff {permute : Bool} {o : Occurrence}
    (ho : (table permute).Accepts o) :
  (∃ s', parseOption env s o.val o.optarg = .ok s') ↔
    Allowed env o ∧ (Given [o] "args" → env.asprintfError = none)
  := by
  cases o with
  | unknown => simp [parseOption, Occurrence.val, Allowed]
  | given o optarg =>
      have hmem := mem_entries_of_has ho
      have hknown : ∀ e ∈ entries,
          e.1.val ∈ ['h', 'p', 'a', 't', 'e', 'i', 'o', 'f', 'n', 's', 'c', 'd', 'v', 'x'] := by
        decide
      have hpath : ∀ e ∈ entries, e.1.val ∈ ['e', 'i', 'o'] → e.2 = true := by decide
      have hhelp : ∀ e ∈ entries, e.1.val = 'h' ↔ Names e.1 "help" := by decide
      have hexec : ∀ e ∈ entries, e.1.val = 'e' ↔ Names e.1 "exec" := by decide
      have hin : ∀ e ∈ entries, e.1.val = 'i' ↔ Names e.1 "in" := by decide
      have hout : ∀ e ∈ entries, e.1.val = 'o' ↔ Names e.1 "out" := by decide
      have hargs : ∀ e ∈ entries, e.1.val = 'x' ↔ Names e.1 "args" := by decide
      simp only [Occurrence.val, Occurrence.optarg]
      rw [parseOption_ok_iff (hknown _ hmem) (hpath _ hmem), given_singleton, Allowed,
        ← hhelp _ hmem, ← hexec _ hmem, ← hin _ hmem, ← hout _ hmem, ← hargs _ hmem, and_assoc]

/-- The loop ends without an error if and only if every option is allowed, and `asprintf` does not
fail when it is called. -/
theorem exists_parseOptions_iff {permute : Bool} {occs : List Occurrence}
    (hoccs : ∀ o ∈ occs, (table permute).Accepts o) :
  (∃ s', parseOptions env s occs = .ok s') ↔
    (∀ o ∈ occs, Allowed env o) ∧ (Given occs "args" → env.asprintfError = none)
  := by
  induction occs generalizing s with
  | nil => simp [parseOptions, Given]
  | cons o occs ih =>
      obtain ⟨ho, hoccs⟩ := List.forall_mem_cons.mp hoccs
      rw [List.forall_mem_cons, given_cons, or_imp]
      constructor
      · rintro ⟨s', hs'⟩
        obtain ⟨r, hr, hrest⟩ := Except.bind_eq_ok.mp hs'
        obtain ⟨hallowed, hargs⟩ := (exists_parseOption_iff ho).mp ⟨r, hr⟩
        obtain ⟨hallowed', hargs'⟩ := (ih hoccs).mp ⟨s', hrest⟩
        exact ⟨⟨hallowed, hallowed'⟩, hargs, hargs'⟩
      · rintro ⟨⟨hallowed, hallowed'⟩, hargs, hargs'⟩
        obtain ⟨r, hr⟩ := (exists_parseOption_iff (s := s) ho).mpr ⟨hallowed, hargs⟩
        obtain ⟨s', hrest⟩ := (ih (s := r) hoccs).mpr ⟨hallowed', hargs'⟩
        exact ⟨s', Except.bind_eq_ok.mpr ⟨r, hr, hrest⟩⟩

theorem checkFlags_eq_ok {config : FuzzerConfig} :
  checkFlags s = .ok config ↔
    s.config = config ∧ (s.flags .f = true ∨ s.flags .n = true ∨ s.flags .s = true) ∧
    (s.flags .f = true → s.flags .i = true ∧ s.flags .o = true ∧ s.flags .e = true) ∧
    (s.flags .n = true → s.flags .a = true ∧ s.flags .t = true ∧ s.flags .o = true) ∧
    (s.flags .s = true → s.flags .o = true)
  := by
  rw [checkFlags]
  grind

end Loop

/-! ### The command line -/

section Line

variable {env : Environment} {argv : List (List Char)}

/-- The variables before the loop. -/
def start (config : FuzzerConfig) : Parser :=
  ⟨{ config with smartMode := true, method := .crypto }, fun _ => false⟩

theorem parseCmdLine_eq_ok {config : FuzzerConfig} :
  parseCmdLine env argv = .ok config ↔
    argv.length ≠ 1 ∧ ∃ c s, env.config = some c ∧
      parseOptions env (start c) (occurrences env argv) = .ok s ∧ checkFlags s = .ok config
  := by
  rw [parseCmdLine]
  split
  · simp_all
  · rename_i hlength
    cases hconfig : env.config with
    | none => simp [initFuzzerConfig, hconfig, orWrite, Except.mapError, bind, Except.bind]
    | some c =>
        simp only [initFuzzerConfig, hconfig]
        change (parseOptions env (start c) (occurrences env argv) >>= checkFlags) = _ ↔ _
        constructor
        · intro h
          obtain ⟨s, hs, hcheck⟩ := Except.bind_eq_ok.mp h
          exact ⟨hlength, c, s, rfl, hs, hcheck⟩
        · rintro ⟨-, c, s, ⟨⟩, hs, hcheck⟩
          exact Except.bind_eq_ok.mpr ⟨s, hs, hcheck⟩

section Run

variable {c : FuzzerConfig} {s : Parser}
  (h : parseOptions env (start c) (occurrences env argv) = .ok s)
include h

theorem flag_eq_true_iff (x : Flag) (names : List String)
    (hx : ∀ e ∈ entries, e.1.val = x.letter ↔ ∃ name ∈ names, Names e.1 name) :
  s.flags x = true ↔ ∃ name ∈ names, Given (occurrences env argv) name
  := by
  have hunknown : x.letter ≠ '?' := by cases x <;> decide
  rw [(parseOptions_follows h).flags, ← mem_letters_iff names hunknown hx]
  simp [start]

/-- The letter of the method is that of `--crypto` and of `--protocol`. -/
theorem method_eq_noCrypto_iff :
  s.config.method = .noCrypto ↔
    Given (occurrences env argv) "crypto" ∨ Given (occurrences env argv) "protocol"
  := by
  rw [(parseOptions_follows h).method,
    mem_letters_iff ["crypto", "protocol"] (by decide) (by decide)]
  simp [start]

theorem smartMode_eq_false_iff :
  s.config.smartMode = false ↔ Given (occurrences env argv) "dumb"
  := by
  rw [(parseOptions_follows h).smartMode, mem_letters_iff ["dumb"] (by decide) (by decide)]
  simp [start]

/-- The tests after the loop ask for the documented options, and refuse network mode, since no
option has the letter `t`. -/
theorem checkFlags_iff {config : FuzzerConfig} :
  checkFlags s = .ok config ↔
    s.config = config ∧
    (Given (occurrences env argv) "file" ∨ Given (occurrences env argv) "syscall") ∧
    (Given (occurrences env argv) "file" → Given (occurrences env argv) "in" ∧
      Given (occurrences env argv) "out" ∧ Given (occurrences env argv) "exec") ∧
    ¬ Given (occurrences env argv) "network" ∧
    (Given (occurrences env argv) "syscall" → Given (occurrences env argv) "out")
  := by
  have hf := flag_eq_true_iff h .f ["file"] (by decide)
  have hn := flag_eq_true_iff h .n ["network"] (by decide)
  have hs := flag_eq_true_iff h .s ["syscall"] (by decide)
  have hi := flag_eq_true_iff h .i ["in"] (by decide)
  have ho := flag_eq_true_iff h .o ["out"] (by decide)
  have he := flag_eq_true_iff h .e ["exec"] (by decide)
  have ht := flag_eq_true_iff h .t [] (by decide)
  simp only [List.mem_singleton, exists_eq_left] at hf hn hs hi ho he
  simp only [List.not_mem_nil, false_and, exists_false, iff_false] at ht
  rw [checkFlags_eq_ok, hf, hn, hs, hi, ho, he]
  constructor
  · rintro ⟨hconfig, hmode, hfile, hnetwork, hsyscall⟩
    have hnot : ¬ Given (occurrences env argv) "network" := fun hn => ht (hnetwork hn).2.1
    exact ⟨hconfig, hmode.imp_right fun h => h.resolve_left hnot, hfile, hnot, hsyscall⟩
  · rintro ⟨hconfig, hmode, hfile, hnot, hsyscall⟩
    exact ⟨hconfig, hmode.imp_right .inr, hfile, fun hn => absurd hn hnot, hsyscall⟩

end Run

/-- A configuration is returned for the documented modes other than network mode, if no call
fails. -/
theorem exists_parseCmdLine_iff :
  (∃ config, parseCmdLine env argv = .ok config) ↔
    Documented env (occurrences env argv) ∧ env.config.isSome ∧
    (Given (occurrences env argv) "args" → env.asprintfError = none) ∧
    ¬ Given (occurrences env argv) "network"
  := by
  have haccepts : ∀ o ∈ occurrences env argv, (table env.permute).Accepts o :=
    Options.accepts_of_mem_getoptLong argv.tail
  constructor
  · rintro ⟨config, hparse⟩
    obtain ⟨-, c, s, hconfig, hs, hcheck⟩ := parseCmdLine_eq_ok.mp hparse
    obtain ⟨-, hmode, hfile, hnetwork, hsyscall⟩ := (checkFlags_iff hs).mp hcheck
    obtain ⟨hallowed, hargs⟩ := (exists_parseOptions_iff haccepts).mp ⟨s, hs⟩
    have hdocumented : Documented env (occurrences env argv) :=
      ⟨hallowed, hmode.imp_right .inr, hfile, fun h => absurd h hnetwork, hsyscall⟩
    refine ⟨hdocumented, ?_, hargs, hnetwork⟩
    rw [hconfig]
    rfl
  · rintro ⟨hdocumented, hconfig, hargs, hnetwork⟩
    obtain ⟨c, hconfig⟩ := Option.isSome_iff_exists.mp hconfig
    obtain ⟨s, hs⟩ := (exists_parseOptions_iff (s := start c) haccepts).mpr
      ⟨hdocumented.allowed, hargs⟩
    have hmode : Given (occurrences env argv) "file" ∨ Given (occurrences env argv) "syscall" :=
      hdocumented.mode.imp_right fun h => h.resolve_left hnetwork
    have hcheck := (checkFlags_iff hs).mpr
      ⟨rfl, hmode, hdocumented.file, hnetwork, hdocumented.syscall⟩
    refine ⟨s.config, parseCmdLine_eq_ok.mpr ⟨?_, c, s, hconfig, hs, hcheck⟩⟩
    intro hlength
    -- a mode is an option, and the program's name alone gives none
    have htail : argv.tail = [] := by
      rw [← List.length_eq_zero_iff, List.length_tail, hlength]
    rw [occurrences, htail] at hmode
    rcases hmode with ⟨_, _, hmem, _⟩ | ⟨_, _, hmem, _⟩
    · cases hmem
    · cases hmem

/-- The method and the mode of a configuration that is returned. -/
theorem method_smartMode_of_parseCmdLine {config : FuzzerConfig}
    (h : parseCmdLine env argv = .ok config) :
  (config.method = .noCrypto ↔
    Given (occurrences env argv) "crypto" ∨ Given (occurrences env argv) "protocol") ∧
  (config.smartMode = false ↔ Given (occurrences env argv) "dumb")
  := by
  obtain ⟨-, c, s, -, hs, hcheck⟩ := parseCmdLine_eq_ok.mp h
  obtain ⟨rfl, -⟩ := (checkFlags_iff hs).mp hcheck
  exact ⟨method_eq_noCrypto_iff hs, smartMode_eq_false_iff hs⟩

end Line

/-- The documented modes are parsed if and only if a documented command line does not ask for
network mode, gives `--protocol` only together with `--crypto`, and no call fails on it. -/
theorem parsesDocumented_iff (env : Environment) (argv : List (List Char)) :
  ParsesDocumented env argv ↔
    (Documented env (occurrences env argv) →
      env.config.isSome ∧ (Given (occurrences env argv) "args" → env.asprintfError = none) ∧
      ¬ Given (occurrences env argv) "network" ∧
      (Given (occurrences env argv) "protocol" → Given (occurrences env argv) "crypto"))
  := by
  rw [ParsesDocumented, exists_parseCmdLine_iff]
  constructor
  · rintro ⟨hiff, hconfig⟩ hdocumented
    obtain ⟨-, halloc, hargs, hnetwork⟩ := hiff.mpr hdocumented
    refine ⟨halloc, hargs, hnetwork, ?_⟩
    intro hprotocol
    obtain ⟨config, hparse⟩ :=
      exists_parseCmdLine_iff.mpr ⟨hdocumented, halloc, hargs, hnetwork⟩
    exact (hconfig config hparse).1.mp
      ((method_smartMode_of_parseCmdLine hparse).1.mpr (.inr hprotocol))
  · intro h
    constructor
    · constructor
      · rintro ⟨hdocumented, -⟩
        exact hdocumented
      · intro hdocumented
        obtain ⟨halloc, hargs, hnetwork, -⟩ := h hdocumented
        exact ⟨hdocumented, halloc, hargs, hnetwork⟩
    · intro config hparse
      obtain ⟨hdocumented, -⟩ := exists_parseCmdLine_iff.mp ⟨config, hparse⟩
      obtain ⟨-, -, -, hcrypto⟩ := h hdocumented
      obtain ⟨hmethod, hsmart⟩ := method_smartMode_of_parseCmdLine hparse
      rw [or_iff_left_of_imp hcrypto] at hmethod
      exact ⟨hmethod, hsmart⟩

/-- No files, and no call that fails. -/
def plain : Environment where
  stat _ := .error "No such file or directory"
  config := some ⟨none, none, none, none, true, .crypto, .file⟩
  asprintfError := none
  permute := true

theorem allowed_plain {occs : List Occurrence} (hunknown : .unknown ∉ occs)
    (h : ∀ name ∈ ["help", "exec", "in"], ¬ Given occs name) :
  ∀ o ∈ occs, Allowed plain o
  := by
  intro o ho
  cases o with
  | unknown => exact hunknown ho
  | given o optarg =>
      have hnot : ∀ name ∈ ["help", "exec", "in"], ¬ Names o name :=
        fun name hname hnames => h name hname ⟨o, optarg, ho, hnames⟩
      refine ⟨hnot "help" (by simp), ?_⟩
      intro path _
      exact ⟨fun hexec => absurd hexec (hnot "exec" (by simp)),
        fun hin => absurd hin (hnot "in" (by simp)), fun _ => ⟨_, rfl⟩⟩

/-- `--network` with all that it asks for. -/
def networkLine : List (List Char) :=
  ["nextgen", "--network", "--address", "::1", "--port", "80", "--protocol", "tcp", "--out",
    "out"].map String.toList

/-- `--syscall` with `--protocol`. -/
def syscallLine : List (List Char) :=
  ["nextgen", "--syscall", "--out", "out", "--protocol", "tcp"].map String.toList

/-- Network mode is refused, and `--protocol` changes the method. -/
theorem not_parsesDocumented_network :
  ¬ ParsesDocumented plain networkLine ∧ ¬ ParsesDocumented plain syscallLine
  := by
  constructor
  · have hdocumented : Documented plain (occurrences plain networkLine) :=
      ⟨allowed_plain (by decide) (by decide), by decide, by decide, by decide, by decide⟩
    rintro ⟨hiff, -⟩
    obtain ⟨-, -, -, hnetwork⟩ := exists_parseCmdLine_iff.mp (hiff.mpr hdocumented)
    exact hnetwork (by decide)
  · have hdocumented : Documented plain (occurrences plain syscallLine) :=
      ⟨allowed_plain (by decide) (by decide), by decide, by decide, by decide, by decide⟩
    rintro ⟨hiff, hconfig⟩
    obtain ⟨config, hparse⟩ := hiff.mpr hdocumented
    have hmethod : config.method = .noCrypto :=
      (method_smartMode_of_parseCmdLine hparse).1.mpr (by decide)
    have hcrypto : ¬ Given (occurrences plain syscallLine) "crypto" := by decide
    exact hcrypto ((hconfig config hparse).1.mp hmethod)

end CommandLine
