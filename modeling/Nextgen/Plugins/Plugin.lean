import Nextgen.Lib.Format
import Nextgen.Utils.Names

/-!
# Counting and loading plugins

`count_plugins` and `load_all_plugins` walk along the directory of the plugins and look at the
extension of each file that is not hidden.  `get_extension` gives what follows the last period and
a newline, which both walks compare with `.so` together with its period.  The array of the plugins
is never allocated.
-/

open Bytes Utils

namespace Plugins

/-- `strncmp`: the difference of the first two bytes that differ, among the first `n` and up to the
end of a string. -/
def strncmp : ℕ → Buffer → Buffer → ℤ
  | 0, _, _ => 0
  | n + 1, a :: s, b :: t =>
      if a = b then if a = 0 then 0 else strncmp n s t else a.toNat - b.toNat
  | _ + 1, _, _ => 0

/-- `struct plugin_ctx`. -/
structure PluginCtx where
  pluginName : Buffer
  pluginPath : Buffer
  pluginHandle : ℕ

/-- The variables of the module: `plugin_count`, and `plugins` with its elements. -/
structure State where
  pluginCount : UInt32
  plugins : Option (List (Option PluginCtx))

/-- Where the program begins. -/
def State.init : State := ⟨0, none⟩

/-- The system: for each walk whether `opendir` succeeds, and for each entry which call of
`get_extension` fails; for each entry whether the calls before the array is used succeed, whether
the two that set the fields do, and what `dlopen` gives. -/
structure System where
  opendir : Bool
  opendirAgain : Bool
  extension : ℕ → Option NameCall
  extensionAgain : ℕ → Option NameCall
  currentDir : ℕ → Option Buffer
  asprintf : ℕ → Bool
  setPath : ℕ → Bool
  setName : ℕ → Bool
  dlopen : Buffer → Option ℕ

/-- An access through a pointer that is null or past the end of the array. -/
inductive Fault where
  | null
  | outOfBounds (i : ℕ)
  deriving DecidableEq, Repr

/-- What the load has done: the elements it accessed and the files it opened. -/
structure Trace where
  accessed : List ℕ
  opened : List Buffer

/-! ### The functions -/

/-- The filter of both walks: `d_name` does not start with a period, it has an extension, and the
extension compares equal with `.so`. -/
def selected (dName : CString) (failing : Option NameCall) : Bool :=
  if dName.bytes.head? = some period then false
  else
    match getExtension dName.bytes failing with
    | none => false
    | some fileExtension => strncmp 3 (fileExtension ++ [0]) (ascii ".so" ++ [0]) = 0

/-- The walk of `count_plugins` from entry number `k` on. -/
def countLoop (extension : ℕ → Option NameCall) : ℕ → List CString → UInt32 → UInt32
  | _, [], count => count
  | k, dName :: entries, count =>
      countLoop extension (k + 1) entries
        (if selected dName (extension k) then count + 1 else count)

/-- `count_plugins`. -/
def countPlugins (sys : System) (entries : List CString) (count : UInt32) : ℤ × UInt32 :=
  if !sys.opendir then (-1, count) else (0, countLoop sys.extension 0 entries count)

/-- Access the element `plugins[i]`. -/
def access (s : State) (i : ℕ) : Except Fault PluginCtx :=
  match s.plugins with
  | none => .error .null
  | some plugins =>
      match plugins[i]? with
      | none => .error (.outOfBounds i)
      | some none => .error .null
      | some (some plugin) => .ok plugin

def State.set (s : State) (i : ℕ) (plugin : PluginCtx) : State :=
  { s with plugins := s.plugins.map fun plugins => plugins.set i (some plugin) }

/-- The walk of `load_all_plugins` from entry number `k` on, with `i` plugins loaded. -/
def loadLoop (sys : System) :
    ℕ → List CString → ℕ → State → Trace → Except Fault (ℤ × State × Trace)
  | _, [], _, s, trace => .ok (0, s, trace)
  | k, dName :: entries, i, s, trace =>
      if selected dName (sys.extensionAgain k) then
        match sys.currentDir k with
        | none => .ok (-1, s, trace)
        | some currentDir =>
            if !sys.asprintf k then .ok (-1, s, trace)
            else do
              let pluginPath := currentDir ++ ascii "/src/plugins/" ++ dName.bytes
              let plugin ← access s i
              let trace := { trace with accessed := trace.accessed ++ [i] }
              if !sys.setPath k then return (-1, s, trace)
              else
                let s := s.set i { plugin with pluginPath := pluginPath }
                if !sys.setName k then return (-1, s, trace)
                else
                  let s := s.set i
                    { plugin with
                      pluginPath := pluginPath
                      pluginName := lastComponent pluginPath }
                  match sys.dlopen pluginPath with
                  | none => return (-1, s, { trace with opened := trace.opened ++ [pluginPath] })
                  | some pluginHandle =>
                      loadLoop sys (k + 1) entries (i + 1)
                        (s.set i ⟨lastComponent pluginPath, pluginPath, pluginHandle⟩)
                        { trace with opened := trace.opened ++ [pluginPath] }
      else loadLoop sys (k + 1) entries i s trace

/-- `load_all_plugins`. -/
def loadAllPlugins (sys : System) (entries : List CString) (s : State) :
    Except Fault (ℤ × State × Trace) :=
  if s.pluginCount = 0 then .ok (0, s, ⟨[], []⟩)
  else if !sys.opendirAgain then .ok (-1, s, ⟨[], []⟩)
  else loadLoop sys 0 entries 0 s ⟨[], []⟩

/-- `setup_plugin_module`. -/
def setupPluginModule (sys : System) (entries : List CString) (s : State) :
    Except Fault (ℤ × State × Trace) :=
  match countPlugins sys entries s.pluginCount with
  | (rtrn, count) =>
      let s := { s with pluginCount := count }
      if rtrn < 0 then .ok (-1, s, ⟨[], []⟩)
      else (loadAllPlugins sys entries s).map fun (rtrn, s, trace) =>
        (if rtrn < 0 then -1 else 0, s, trace)

/-! ### What they should do -/

/-- A file that is not hidden and whose name ends in `.so`. -/
def IsPlugin (dName : CString) : Prop :=
  dName.bytes.head? ≠ some period ∧ ascii ".so" <:+ dName.bytes

instance (dName : CString) : Decidable (IsPlugin dName) :=
  inferInstanceAs (Decidable (_ ∧ _))

/-- The plugins of a directory. -/
def plugins (entries : List CString) : List CString :=
  entries.filter fun dName => decide (IsPlugin dName)

/-- `plugin_count` is the number of plugins, the elements of the array up to that number are
accessed, and each plugin is opened once. -/
def Discovers (entries : List CString) (setup : Except Fault (ℤ × State × Trace)) : Prop :=
  ∃ rtrn s trace, setup = .ok (rtrn, s, trace) ∧
    s.pluginCount.toNat = (plugins entries).length ∧
    (∀ i, i ∈ trace.accessed ↔ i < s.pluginCount.toNat) ∧
    ∃ dir, trace.opened =
      (plugins entries).map fun dName => dir ++ ascii "/src/plugins/" ++ dName.bytes

/-! ### The filter -/

/-- An extension of `get_extension` does not start with a period. -/
theorem selected_eq_false (dName : CString) (failing : Option NameCall) :
  selected dName failing = false
  := by
  rw [selected]
  split
  · rfl
  · split
    · rfl
    · rename_i fileExtension hextension
      obtain ⟨r, t, ht, -, rfl⟩ := getExtension_eq_some hextension
      have hperiod := period_notMem_line ht
      obtain ⟨b, rest, hcons⟩ := List.exists_cons_of_ne_nil (List.append_ne_nil_of_right_ne_nil t
        (List.cons_ne_nil newline []))
      have hb : b ≠ period := by
        rintro rfl
        apply hperiod
        rw [hcons]
        exact List.mem_cons_self
      have hcmp : strncmp 3 (t ++ [newline] ++ [0]) (ascii ".so" ++ [0]) =
          b.toNat - period.toNat := by
        rw [hcons]
        exact if_neg hb
      rw [hcmp, decide_eq_false_iff_not, sub_toNat_eq_zero_iff]
      exact hb

theorem countLoop_eq (extension : ℕ → Option NameCall) (k : ℕ) (entries : List CString)
    (count : UInt32) :
  countLoop extension k entries count = count
  := by
  induction entries generalizing k with
  | nil => rfl
  | cons dName entries ih =>
      rw [countLoop, selected_eq_false]
      exact ih (k + 1)

theorem loadLoop_eq (sys : System) (k : ℕ) (entries : List CString) (i : ℕ) (s : State)
    (trace : Trace) :
  loadLoop sys k entries i s trace = .ok (0, s, trace)
  := by
  induction entries generalizing k with
  | nil => rfl
  | cons dName entries ih =>
      rw [loadLoop, selected_eq_false]
      exact ih (k + 1)

/-! ### The whole set-up -/

/-- A set-up changes nothing, and uses no element of the array. -/
theorem setupPluginModule_eq (sys : System) (entries : List CString) (s : State) :
  ∃ rtrn, setupPluginModule sys entries s = .ok (rtrn, s, ⟨[], []⟩)
  := by
  have hload : ∃ rtrn, loadAllPlugins sys entries s = .ok (rtrn, s, ⟨[], []⟩) := by
    rw [loadAllPlugins]
    split
    · exact ⟨0, rfl⟩
    · split
      · exact ⟨-1, rfl⟩
      · exact ⟨0, loadLoop_eq sys 0 entries 0 s ⟨[], []⟩⟩
  obtain ⟨rtrn, hload⟩ := hload
  rw [setupPluginModule, countPlugins]
  cases sys.opendir with
  | false => exact ⟨-1, rfl⟩
  | true =>
      refine ⟨if rtrn < 0 then -1 else 0, ?_⟩
      rw [if_neg (by decide), countLoop_eq]
      exact congrArg (Except.map _) hload

/-- The set-up finds the plugins if and only if there is none. -/
theorem discovers_setupPluginModule_iff (sys : System) (entries : List CString) :
  Discovers entries (setupPluginModule sys entries .init) ↔
    ∀ dName ∈ entries, dName.bytes.head? ≠ some period → ¬ ascii ".so" <:+ dName.bytes
  := by
  obtain ⟨rtrn, hsetup⟩ := setupPluginModule_eq sys entries .init
  have hempty : plugins entries = [] ↔
      ∀ dName ∈ entries, dName.bytes.head? ≠ some period → ¬ ascii ".so" <:+ dName.bytes := by
    rw [plugins, List.filter_eq_nil_iff]
    simp only [decide_eq_true_eq]
    simp only [IsPlugin, not_and]
  rw [← hempty]
  constructor
  · rintro ⟨rtrn', s, trace, hsetup', hcount, -⟩
    cases hsetup.symm.trans hsetup'
    exact List.eq_nil_of_length_eq_zero hcount.symm
  · intro hnone
    refine ⟨rtrn, _, _, hsetup, ?_, ?_, [], ?_⟩
    · rw [hnone]
      rfl
    · intro i
      exact iff_of_false (List.not_mem_nil) (Nat.not_lt_zero i)
    · rw [hnone]
      rfl

/-- A system on which every call succeeds. -/
def plainSystem : System where
  opendir := true
  opendirAgain := true
  extension _ := none
  extensionAgain _ := none
  currentDir _ := some (ascii "/nextgen")
  asprintf _ := true
  setPath _ := true
  setName _ := true
  dlopen _ := some 0

/-- A directory with the file `png.so`. -/
def oneFile : List CString := [⟨ascii "png.so", nonzero_of_mem_ascii (by decide)⟩]

theorem not_discovers_oneFile :
  ¬ Discovers oneFile (setupPluginModule plainSystem oneFile .init)
  := by
  rintro ⟨rtrn, s, trace, hsetup, hcount, -⟩
  obtain ⟨rtrn', hsetup'⟩ := setupPluginModule_eq plainSystem oneFile .init
  cases hsetup'.symm.trans hsetup
  cases hcount

end Plugins
