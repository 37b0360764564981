import Nextgen.File.Loop

/-!
# The crashes of the file fuzzer

`handle_crash` puts `crash_dir` behind the path of the test case and not behind that of the output
directory.  The test case is a file, so that nothing is saved, and it is removed at the end of the
iteration.
-/

open Transition

namespace FileFuzzer

/-- The directory that is meant for the files that crash the target. -/
def crashDir (out : Path) : Path :=
  "crash_dir" :: out

/-- `create_out_directory`. -/
def createOutDirectory (t : Files) (out : Path) : Option Files :=
  (t.mkdir out).bind fun t => t.mkdir (crashDir out)

/-- The iteration runs the target, which crashes. -/
def Outcome.crashes : Outcome → Bool
  | .run status _ _ => status.crashed
  | _ => false

/-- After an iteration in which the target crashes there is a file in the crash directory with the
bytes of the test case. -/
def CrashSaved (cfg : Config) (out : Path) (s : State) (a : Iteration) : Prop :=
  a.outcome.crashes = true → ∀ s', step cfg s a = some s' →
    ∀ c ∈ s'.tested.getLast?, ∃ name, s'.files.read (name :: crashDir out) = some c.bytes

/-- The target does not crash in an iteration that is made. -/
def NoCrash (cfg : Config) (s : State) (a : Iteration) : Prop :=
  step cfg s a ≠ none → a.outcome.crashes = false

/-- There is nothing in the crash directory. -/
def CrashDirEmpty (out : Path) (t : Files) : Prop :=
  ∀ name, t.node (name :: crashDir out) = none

/-- An output directory is new, and so is its crash directory. -/
theorem createOutDirectory_empty {t t' : Files} {out : Path}
    (h : createOutDirectory t out = some t') :
  CrashDirEmpty out t'
  := by
  intro name
  obtain ⟨t₁, -, hcrash⟩ := Option.bind_eq_some_iff.mp h
  obtain ⟨hnew, -, hother⟩ := FileTree.mkdir_eq_some hcrash
  rw [hother _ (List.cons_ne_self _ _)]
  by_contra hne
  have hdir := t₁.parent name (crashDir out) hne
  rw [hnew] at hdir
  cases hdir

section Steps

variable {cfg : Config} {s s' : State} {a : Iteration} {out : Path}

/-- No iteration puts a file into the crash directory. -/
theorem step_crashDirEmpty (h : CrashDirEmpty out s.files) (hstep : step cfg s a = some s') :
  CrashDirEmpty out s'.files
  := by
  obtain ⟨-, rfl⟩ | ⟨-, seed, bytes, hm⟩ := step_cases hstep
  · apply h
  · intro name
    have hne : name :: crashDir out ≠ a.filePath := by
      simp [crashDir, Iteration.filePath, tmp]
    rw [hm.node _ hne]
    apply FileTree.node_store_eq_none.mpr (h name)

/-- The file of a crash is lost. -/
theorem not_crashSaved (h : CrashDirEmpty out s.files) (hstep : step cfg s a = some s')
    (hcrash : a.outcome.crashes = true) :
  ¬ CrashSaved cfg out s a
  := by
  intro hsaved
  obtain ⟨hnot, -⟩ | ⟨-, seed, bytes, hm⟩ := step_cases hstep
  · cases houtcome : a.outcome with
    | run status saved unlinked => simp [houtcome, Outcome.mutates] at hnot
    | _ => simp [houtcome, Outcome.crashes] at hcrash
  · have hruns : a.outcome.runs = true := by
      cases houtcome : a.outcome with
      | run status saved unlinked => rfl
      | _ => simp [houtcome, Outcome.crashes] at hcrash
    have hlast : s'.tested.getLast?
        = some ⟨a.mutation, testBytes seed a (mutateFile bytes a.mutation)⟩ := by
      rw [hm.tested, if_pos hruns, List.getLast?_concat]
    obtain ⟨name, hname⟩ := hsaved hcrash s' hstep _ hlast
    rw [FileTree.read_eq_some, step_crashDirEmpty h hstep name] at hname
    cases hname

theorem crashSaved_iff_noCrash (h : CrashDirEmpty out s.files) :
  CrashSaved cfg out s a ↔ NoCrash cfg s a
  := by
  constructor
  · intro hsaved hne
    obtain ⟨s', hstep⟩ := Option.ne_none_iff_exists'.mp hne
    by_contra hcrash
    apply not_crashSaved h hstep (eq_true_of_ne_false hcrash) hsaved
  · intro hno hcrash s' hstep
    rw [hno (by simp [hstep])] at hcrash
    cases hcrash

end Steps

/-- With an output directory that was just created, along every run of the loop the file of each
crash is saved if and only if there is no crash at all. -/
theorem crashSaved_iff (cfg : Config) (out : Path) {t₀ t₁ t : Files}
    (hout : createOutDirectory t₀ out = some t₁)
    (hkept : ∀ name, t.node (name :: crashDir out) = t₁.node (name :: crashDir out))
    (iterations : List Iteration) :
  AllSteps (step cfg) (CrashSaved cfg out) (State.init t) iterations ↔
    AllSteps (step cfg) (NoCrash cfg) (State.init t) iterations
  := by
  have hinit : CrashDirEmpty out t := by
    intro name
    rw [hkept, createOutDirectory_empty hout name]
  apply allSteps_iff_of_invariant (I := fun s => CrashDirEmpty out s.files) _ _ hinit
  · intro s a s' h _ hstep
    apply step_crashDirEmpty h hstep
  · intro s a h
    apply crashSaved_iff_noCrash h

/-- The small file system with an output directory. -/
def outFiles : Files :=
  (createOutDirectory plainFiles ["out"]).getD plainFiles

theorem crashSaved_exited :
  (run (step plainConfig) (State.init outFiles) [plainIteration .xor .exited]).isSome ∧
    AllSteps (step plainConfig) (CrashSaved plainConfig ["out"]) (State.init outFiles)
      [plainIteration .xor .exited]
  := by
  use rfl
  have hout : createOutDirectory plainFiles ["out"] = some outFiles := rfl
  apply (crashSaved_iff plainConfig ["out"] hout (fun _ => rfl) _).mpr
  exact ⟨fun _ => rfl, fun _ _ => trivial⟩

/-- The seed crashes the target, and is not saved. -/
theorem crashSaved_not_sigsegv :
  ¬ AllSteps (step plainConfig) (CrashSaved plainConfig ["out"]) (State.init outFiles)
    [plainIteration .xor (.signalled .sigsegv)]
  := by
  rintro ⟨hsaved, -⟩
  have hout : createOutDirectory plainFiles ["out"] = some outFiles := rfl
  apply not_crashSaved (createOutDirectory_empty hout) rfl rfl hsaved

end FileFuzzer
