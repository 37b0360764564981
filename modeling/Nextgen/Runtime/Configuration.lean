import Nextgen.Runtime.CommandLine

/-!
# The configuration that is returned

When `parse_cmd_line` accepts a command line, each field of the configuration is that of the last
option for it.  A field for which there is no option is left as it was allocated, and the memory
comes from `malloc`.  The fields that the mode needs are set, and the paths in them have passed
their checks.
-/

open Getopt
open FileTree (S_IFDIR)

namespace CommandLine

/-- The argument of an option of some name. -/
def argument (name : String) : Occurrence → Option (List Char)
  | .given o optarg => if Names o name then optarg else none
  | .unknown => none

/-- The argument of the last option of some name. -/
def lastArgument (occs : List Occurrence) (name : String) : Option (List Char) :=
  occs.reverse.findSome? (argument name)

/-- The mode that an option asks for. -/
def askedMode : Occurrence → Option FuzzMode
  | .given o _ =>
      if Names o "file" then some .file
      else if Names o "network" then some .network
      else if Names o "syscall" then some .syscall
      else none
  | .unknown => none

/-- The mode that is asked for last. -/
def lastMode (occs : List Occurrence) : Option FuzzMode :=
  occs.reverse.findSome? askedMode

/-- The last option for a field sets it, and without one it stays as it is. -/
structure Configures (config : FuzzerConfig) (occs : List Occurrence) (config' : FuzzerConfig) :
    Prop where
  execPath : config'.execPath = (lastArgument occs "exec").or config.execPath
  inputPath : config'.inputPath = (lastArgument occs "in").or config.inputPath
  outputPath : config'.outputPath = (lastArgument occs "out").or config.outputPath
  args : config'.args = (lastArgument occs "args").or config.args
  mode : config'.mode = (lastMode occs).getD config.mode

/-- The mode is one that there is, and what it needs has passed its check. -/
structure WellFormed (env : Environment) (config : FuzzerConfig) : Prop where
  mode : config.mode = .file ∨ config.mode = .syscall
  outputPath : ∃ path ∈ config.outputPath, env.IsNew path
  execPath : config.mode = .file → ∃ path ∈ config.execPath, env.HasBit S_IXUSR path
  inputPath : config.mode = .file → ∃ path ∈ config.inputPath, env.HasBit S_IFDIR path

/-! ### The last option -/

theorem lastArgument_cons (o : Occurrence) (occs : List Occurrence) (name : String) :
  lastArgument (o :: occs) name = (lastArgument occs name).or (lastArgument [o] name)
  := by
  rw [lastArgument, List.reverse_cons, List.findSome?_append]
  rfl

theorem lastMode_cons (o : Occurrence) (occs : List Occurrence) :
  lastMode (o :: occs) = (lastMode occs).or (lastMode [o])
  := by
  rw [lastMode, List.reverse_cons, List.findSome?_append]
  rfl

theorem Configures.nil (config : FuzzerConfig) :
  Configures config [] config
  := ⟨rfl, rfl, rfl, rfl, rfl⟩

theorem Configures.cons {config config' config'' : FuzzerConfig} {o : Occurrence}
    {occs : List Occurrence} (h : Configures config [o] config')
    (h' : Configures config' occs config'') :
  Configures config (o :: occs) config''
  := by
  constructor
  · rw [h'.execPath, h.execPath, lastArgument_cons o occs, Option.or_assoc]
  · rw [h'.inputPath, h.inputPath, lastArgument_cons o occs, Option.or_assoc]
  · rw [h'.outputPath, h.outputPath, lastArgument_cons o occs, Option.or_assoc]
  · rw [h'.args, h.args, lastArgument_cons o occs, Option.or_assoc]
  · rw [h'.mode, h.mode, lastMode_cons o occs]
    cases lastMode occs with
    | none => rfl
    | some mode => rfl

/-! ### One option -/

/-- What a letter sets. -/
structure Assigns (config : FuzzerConfig) (ch : Char) (optarg : Option (List Char))
    (config' : FuzzerConfig) : Prop where
  execPath : config'.execPath = (if ch = 'e' then optarg else none).or config.execPath
  inputPath : config'.inputPath = (if ch = 'i' then optarg else none).or config.inputPath
  outputPath : config'.outputPath = (if ch = 'o' then optarg else none).or config.outputPath
  args : config'.args = (if ch = 'x' then optarg else none).or config.args
  mode : config'.mode = (if ch = 'f' then some .file else if ch = 'n' then some .network
    else if ch = 's' then some .syscall else none : Option FuzzMode).getD config.mode

theorem parseOption_assigns {env : Environment} {s s' : Parser} {ch : Char}
    {optarg : Option (List Char)} (hargs : ch = 'x' → optarg.isSome)
    (h : parseOption env s ch optarg = .ok s') :
  Assigns s.config ch optarg s'.config
  := by
  unfold parseOption at h
  split at h
  · cases h
  · cases h
    exact ⟨rfl, rfl, rfl, rfl, rfl⟩
  · cases h
    exact ⟨rfl, rfl, rfl, rfl, rfl⟩
  · cases h
    exact ⟨rfl, rfl, rfl, rfl, rfl⟩
  · obtain ⟨config, hconfig, hs⟩ := Except.bind_eq_ok.mp h
    obtain ⟨p, rfl, -, rfl⟩ := setPathWith_eq_ok.mp (orWrite_eq_ok.mp hconfig)
    cases hs
    exact ⟨rfl, rfl, rfl, rfl, rfl⟩
  · obtain ⟨config, hconfig, hs⟩ := Except.bind_eq_ok.mp h
    obtain ⟨p, rfl, -, rfl⟩ := setPathWith_eq_ok.mp (orWrite_eq_ok.mp hconfig)
    cases hs
    exact ⟨rfl, rfl, rfl, rfl, rfl⟩
  · obtain ⟨config, hconfig, hs⟩ := Except.bind_eq_ok.mp h
    obtain ⟨p, rfl, -, rfl⟩ := setOutputPath_eq_ok.mp (orWrite_eq_ok.mp hconfig)
    cases hs
    exact ⟨rfl, rfl, rfl, rfl, rfl⟩
  · cases h
    exact ⟨rfl, rfl, rfl, rfl, rfl⟩
  · cases h
    exact ⟨rfl, rfl, rfl, rfl, rfl⟩
  · cases h
    exact ⟨rfl, rfl, rfl, rfl, rfl⟩
  · cases h
    exact ⟨rfl, rfl, rfl, rfl, rfl⟩
  · cases h
    exact ⟨rfl, rfl, rfl, rfl, rfl⟩
  · cases h
    exact ⟨rfl, rfl, rfl, rfl, rfl⟩
  · obtain ⟨args, rfl⟩ := Option.isSome_iff_exists.mp (hargs rfl)
    split at h
    · cases h
    · cases h
      exact ⟨rfl, rfl, rfl, rfl, rfl⟩
  · cases h

section Options

variable {o : Opt} {optarg : Option (List Char)}

/-- The options of some name are those with its letter. -/
theorem lastArgument_given (hmem : (o, optarg.isSome) ∈ entries) (ch : Char) {name : String}
    (hname : ∀ e ∈ entries, e.1.val = ch ↔ Names e.1 name) :
  lastArgument [.given o optarg] name = if o.val = ch then optarg else none
  := by
  have hsingle : lastArgument [.given o optarg] name = argument name (.given o optarg) := by
    simp [lastArgument]
  rw [hsingle, argument]
  simp only [hname _ hmem]

theorem lastMode_given (hmem : (o, optarg.isSome) ∈ entries) :
  lastMode [.given o optarg] = if o.val = 'f' then some .file else if o.val = 'n' then some .network
    else if o.val = 's' then some .syscall else none
  := by
  have hfile : ∀ e ∈ entries, e.1.val = 'f' ↔ Names e.1 "file" := by decide
  have hnetwork : ∀ e ∈ entries, e.1.val = 'n' ↔ Names e.1 "network" := by decide
  have hsyscall : ∀ e ∈ entries, e.1.val = 's' ↔ Names e.1 "syscall" := by decide
  have hsingle : lastMode [.given o optarg] = askedMode (.given o optarg) := by
    simp [lastMode]
  rw [hsingle, askedMode]
  simp only [hfile _ hmem, hnetwork _ hmem, hsyscall _ hmem]

end Options

section Loop

variable {env : Environment} {permute : Bool} {s s' : Parser}

theorem parseOption_configures {o : Occurrence} (ho : (table permute).Accepts o)
    (h : parseOption env s o.val o.optarg = .ok s') :
  Configures s.config [o] s'.config
  := by
  cases o with
  | unknown => cases h
  | given o optarg =>
      have hmem := mem_entries_of_has ho
      have hargs : ∀ e ∈ entries, e.1.val = 'x' → e.2 = true := by decide
      have hassigns := parseOption_assigns (hargs _ hmem) h
      constructor
      · rw [lastArgument_given hmem 'e' (by decide)]
        exact hassigns.execPath
      · rw [lastArgument_given hmem 'i' (by decide)]
        exact hassigns.inputPath
      · rw [lastArgument_given hmem 'o' (by decide)]
        exact hassigns.outputPath
      · rw [lastArgument_given hmem 'x' (by decide)]
        exact hassigns.args
      · rw [lastMode_given hmem]
        exact hassigns.mode

theorem parseOptions_configures {occs : List Occurrence}
    (hoccs : ∀ o ∈ occs, (table permute).Accepts o) (h : parseOptions env s occs = .ok s') :
  Configures s.config occs s'.config
  := by
  induction occs generalizing s with
  | nil =>
      cases h
      exact .nil _
  | cons o occs ih =>
      obtain ⟨ho, hoccs⟩ := List.forall_mem_cons.mp hoccs
      obtain ⟨r, hr, hrest⟩ := Except.bind_eq_ok.mp h
      exact (parseOption_configures ho hr).cons (ih hoccs hrest)

end Loop

/-! ### What is accepted -/

section Line

variable {env : Environment} {occs : List Occurrence}

/-- An option with an argument that is given has a last argument. -/
theorem exists_lastArgument {permute : Bool} {name : String}
    (hname : ∀ e ∈ entries, Names e.1 name → e.2 = true)
    (hoccs : ∀ o ∈ occs, (table permute).Accepts o) (hgiven : Given occs name) :
  ∃ o path, .given o (some path) ∈ occs ∧ Names o name ∧ lastArgument occs name = some path
  := by
  obtain ⟨o, optarg, hmem, hnames⟩ := hgiven
  have hsome : optarg.isSome = true := hname _ (mem_entries_of_has (hoccs _ hmem)) hnames
  have hlast : (lastArgument occs name).isSome = true := by
    rw [lastArgument, List.findSome?_isSome_iff]
    refine ⟨_, List.mem_reverse.mpr hmem, ?_⟩
    rw [argument, if_pos hnames]
    exact hsome
  obtain ⟨path, hpath⟩ := Option.isSome_iff_exists.mp hlast
  obtain ⟨o', ho', harg⟩ := List.exists_of_findSome?_eq_some hpath
  cases o' with
  | unknown => cases harg
  | given o' optarg' =>
      obtain ⟨hnames', rfl⟩ := Option.ite_none_right_eq_some.mp harg
      exact ⟨o', path, List.mem_reverse.mp ho', hnames', hpath⟩

/-- The mode that is asked for last is asked for. -/
theorem given_of_lastMode {mode : FuzzMode} (h : lastMode occs = some mode) :
  mode = .file ∧ Given occs "file" ∨ mode = .network ∧ Given occs "network" ∨
    mode = .syscall ∧ Given occs "syscall"
  := by
  obtain ⟨o, ho, hmode⟩ := List.exists_of_findSome?_eq_some h
  cases o with
  | unknown => cases hmode
  | given o optarg =>
      have hmem := List.mem_reverse.mp ho
      rw [askedMode] at hmode
      split at hmode
      · rename_i hname
        cases hmode
        exact .inl ⟨rfl, o, optarg, hmem, hname⟩
      · split at hmode
        · rename_i hname
          cases hmode
          exact .inr (.inl ⟨rfl, o, optarg, hmem, hname⟩)
        · obtain ⟨hname, hmode⟩ := Option.ite_none_right_eq_some.mp hmode
          cases hmode
          exact .inr (.inr ⟨rfl, o, optarg, hmem, hname⟩)

theorem exists_lastMode (h : Given occs "file" ∨ Given occs "syscall") :
  ∃ mode, lastMode occs = some mode
  := by
  apply Option.isSome_iff_exists.mp
  rw [lastMode, List.findSome?_isSome_iff]
  rcases h with ⟨o, optarg, hmem, hname⟩ | ⟨o, optarg, hmem, hname⟩
  · refine ⟨_, List.mem_reverse.mpr hmem, ?_⟩
    rw [askedMode, if_pos hname]
    rfl
  · refine ⟨_, List.mem_reverse.mpr hmem, ?_⟩
    rw [askedMode]
    split
    · rfl
    · split
      · rfl
      · rfl

end Line

/-- When a command line is accepted, every field of the configuration is that of the last option for
it, or was left as it was allocated if there is none.  The mode is one that there is, and the paths
that it needs are set and have passed their checks. -/
theorem parseCmdLine_configures {env : Environment} {argv : List (List Char)}
    {config : FuzzerConfig} (h : parseCmdLine env argv = .ok config) :
  WellFormed env config ∧
    ∃ c, env.config = some c ∧ Configures c (occurrences env argv) config
  := by
  have haccepts : ∀ o ∈ occurrences env argv, (table env.permute).Accepts o :=
    Options.accepts_of_mem_getoptLong argv.tail
  obtain ⟨-, c, s, hconfig, hs, hcheck⟩ := parseCmdLine_eq_ok.mp h
  obtain ⟨rfl, hmode, hfile, hnetwork, hsyscall⟩ := (checkFlags_iff hs).mp hcheck
  obtain ⟨hallowed, -⟩ := (exists_parseOptions_iff haccepts).mp ⟨s, hs⟩
  have hconfigures : Configures (start c).config (occurrences env argv) s.config :=
    parseOptions_configures haccepts hs
  obtain ⟨mode, hlast⟩ := exists_lastMode hmode
  have hset : s.config.mode = mode := by
    rw [hconfigures.mode, hlast]
    rfl
  have hasked := given_of_lastMode hlast
  have hgiven : s.config.mode = .file → Given (occurrences env argv) "file" := by
    intro hmode
    rw [← hset, hmode] at hasked
    rcases hasked with ⟨-, hgiven⟩ | ⟨hne, -⟩ | ⟨hne, -⟩
    · exact hgiven
    · cases hne
    · cases hne
  refine ⟨⟨?_, ?_, ?_, ?_⟩, c, hconfig, ?_⟩
  · rw [hset]
    rcases hasked with ⟨rfl, -⟩ | ⟨-, hgiven⟩ | ⟨rfl, -⟩
    · exact .inl rfl
    · cases hnetwork hgiven
    · exact .inr rfl
  · have hout : Given (occurrences env argv) "out" := hmode.elim (fun h => (hfile h).2.1) hsyscall
    obtain ⟨o, path, hmem, hname, hpath⟩ := exists_lastArgument (by decide) haccepts hout
    refine ⟨path, ?_, ((hallowed _ hmem).2 path rfl).2.2 hname⟩
    rw [hconfigures.outputPath, hpath]
    rfl
  · intro hmode
    obtain ⟨-, -, hexec⟩ := hfile (hgiven hmode)
    obtain ⟨o, path, hmem, hname, hpath⟩ := exists_lastArgument (by decide) haccepts hexec
    refine ⟨path, ?_, ((hallowed _ hmem).2 path rfl).1 hname⟩
    rw [hconfigures.execPath, hpath]
    rfl
  · intro hmode
    obtain ⟨hin, -, -⟩ := hfile (hgiven hmode)
    obtain ⟨o, path, hmem, hname, hpath⟩ := exists_lastArgument (by decide) haccepts hin
    refine ⟨path, ?_, ((hallowed _ hmem).2 path rfl).2.1 hname⟩
    rw [hconfigures.inputPath, hpath]
    rfl
  · -- the variables that are set before the loop are none of these fields
    obtain ⟨hexec, hin, hout, hargs, hmode⟩ := hconfigures
    exact ⟨hexec, hin, hout, hargs, hmode⟩

/-- The output path is given twice. -/
def twoOutputs : List (List Char) :=
  ["nextgen", "--out", "a", "--syscall", "--out=b"].map String.toList

theorem parseCmdLine_configures_twoOutputs :
  ∃ config, parseCmdLine plain twoOutputs = .ok config ∧ WellFormed plain config ∧
    ∃ c, plain.config = some c ∧ Configures c (occurrences plain twoOutputs) config
  := ⟨_, rfl, parseCmdLine_configures rfl⟩

end CommandLine
