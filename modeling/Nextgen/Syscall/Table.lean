import Nextgen.Lib.Transition
import Nextgen.Syscall.Dispatch
import Mathlib.Logic.Function.Basic

/-!
# The owners of the system call table

`get_syscall_table` makes a copy of the table of the platform until `setup_syscall_module` has
succeeded, and gives out the table of the module itself from then on.  `cleanup_syscall_table`
unmaps the table that it is given, and before that the object to which the first element of the
table points, which is an entry of the platform.
-/

open Syscall Transition

namespace SyscallTable

/-- `struct syscall_entry` with the fields that `build_syscall_table` sets. -/
structure EntryObject where
  entry : Entry
  argContextArray : List (Option ArgContext)
  testSyscall : Option TestSyscall

/-- An entry before the first build. -/
def EntryObject.fresh (entry : Entry) : EntryObject :=
  ⟨entry, List.replicate ARG_LIMIT none, none⟩

/-- `struct syscall_table`.  The elements of `sysEntry` point to entries of the platform. -/
structure Table where
  totalSyscalls : ℕ
  sysEntry : List (Option ℕ)

/-- The entries of a platform, and which of them `munmap` takes away at the address of an entry:
those on the pages of that entry, or none where it refuses an address inside a page. -/
structure Platform where
  entries : List Entry
  unmaps : ℕ → ℕ → Bool

/-- The memory of the module and of its callers.  A table is at an address in shared memory, and
`held` has the variables in which callers keep what `get_syscall_table` returned. -/
structure State where
  sysTable : Option ℕ
  tableSet : Bool
  tables : ℕ → Option Table
  entries : ℕ → Option EntryObject
  held : List (Option ℕ)

/-- Where the program begins. -/
def State.init (p : Platform) : State where
  sysTable := none
  tableSet := false
  tables _ := none
  entries e := p.entries[e]?.map .fresh
  held := []

/-- `get_table`. -/
def getTable (p : Platform) : Table where
  totalSyscalls := p.entries.length
  sysEntry :=
    (List.range p.entries.length).map some ++ List.replicate (56 - p.entries.length) none

/-! ### Building a table -/

/-- The inner loop of `build_syscall_table`, and whether it comes to its end. -/
def EntryObject.setContexts (o : EntryObject) : List ℕ → EntryObject × Bool
  | [] => (o, true)
  | counter :: counters =>
      let context := getArgContext (o.entry.argType counter)
      let o := { o with argContextArray := o.argContextArray.set counter context }
      if context.isSome then o.setContexts counters else (o, false)

/-- The body of the outer loop. -/
def EntryObject.build (o : EntryObject) : EntryObject × Bool :=
  let o :=
    { o with
      entry := { o.entry with status := .on }
      testSyscall := some (setTestSyscall o.entry.id) }
  o.setContexts (List.range o.entry.totalArgs)

/-- The outer loop: the entries after it, and whether it comes to its end.  It faults at an element
that does not point to an entry in memory. -/
def buildEntries (t : Table) (entries : ℕ → Option EntryObject) :
    List ℕ → Option ((ℕ → Option EntryObject) × Bool)
  | [] => some (entries, true)
  | i :: is =>
      t.sysEntry[i]?.join.bind fun e =>
        (entries e).bind fun o =>
          let entries := Function.update entries e (some o.build.1)
          if o.build.2 then buildEntries t entries is else some (entries, false)

/-- `build_syscall_table`, given the address of the shared memory that it gets.  The copy is left
behind when an argument has no context. -/
def buildSyscallTable (p : Platform) (s : State) : Option ℕ → Option (Option ℕ × State)
  | none => some (none, s)
  | some address =>
      if (s.tables address).isSome then none
      else
        let table := getTable p
        (buildEntries table s.entries (List.range table.totalSyscalls)).map fun built =>
          let s :=
            { s with
              tables := Function.update s.tables address (some table)
              entries := built.1 }
          (if built.2 then some address else none, s)

/-- `get_syscall_table`. -/
def getSyscallTable (p : Platform) (s : State) (shared : Option ℕ) : Option (Option ℕ × State) :=
  if s.tableSet then some (s.sysTable, s) else buildSyscallTable p s shared

/-- `free_shared` at a pointer to an entry. -/
def freeEntry (p : Platform) (entries : ℕ → Option EntryObject) :
    Option ℕ → ℕ → Option EntryObject
  | none => entries
  | some first => fun e => if p.unmaps first e then none else entries e

/-- `cleanup_syscall_table` on one of the variables, which is set to `NULL`. -/
def cleanupSyscallTable (p : Platform) (s : State) (i : ℕ) : Option State :=
  s.held[i]?.join.bind fun address =>
    (s.tables address).map fun table =>
      { s with
        -- the array is taken for a pointer, and so its first element is freed
        entries := freeEntry p s.entries table.sysEntry[0]?.join
        tables := Function.update s.tables address none
        held := s.held.set i none }

/-- `setup_syscall_module`, given whether `get_core_count` succeeds, the memory for the table, and
whether the rest of the calls succeed. -/
def setupSyscallModule (p : Platform) (s : State) (coreCount : Bool) (shared : Option ℕ)
    (rest : Bool) : Option State :=
  if coreCount then
    (getSyscallTable p s shared).map fun (table, s) =>
      { s with sysTable := table, tableSet := s.tableSet || (table.isSome && rest) }
  else some s

/-- The calls. -/
inductive Action where
  | setup (coreCount : Bool) (shared : Option ℕ) (rest : Bool)
  | get (shared : Option ℕ)
  | cleanup (i : ℕ)

def step (p : Platform) (s : State) : Action → Option State
  | .setup coreCount shared rest => setupSyscallModule p s coreCount shared rest
  | .get shared =>
      (getSyscallTable p s shared).map fun (table, s) => { s with held := s.held ++ [table] }
  | .cleanup i => cleanupSyscallTable p s i

/-! ### Reading the table -/

/-- The table that `sys_table` points to. -/
def State.table (s : State) : Option Table :=
  s.sysTable.bind s.tables

/-- `get_total_syscalls`. -/
def getTotalSyscalls (s : State) : Option ℕ :=
  s.table.map Table.totalSyscalls

/-- `get_entry`, which returns a pointer unless it faults. -/
def getEntry (s : State) (syscallNumber : ℕ) : Option (Option ℕ) :=
  s.table.bind fun t =>
    if syscallNumber > t.totalSyscalls then some none else t.sysEntry[syscallNumber]?

/-- What `pick_syscall` stores in the context of the child. -/
structure Picked where
  syscallName : String
  syscallNumber : ℕ
  totalArgs : ℕ
  syscallSymbol : Symbol
  needAlarm : YesNo
  hadError : YesNo

/-- What `pick_syscall` stores for an entry. -/
def EntryObject.picked (o : EntryObject) (num : ℕ) : Picked :=
  ⟨o.entry.syscallName, num, o.entry.totalArgs, o.entry.syscallSymbol, o.entry.needAlarm, .no⟩

/-- `pick_syscall` with the number that it draws. -/
def pickSyscall (s : State) (num : ℕ) : Option Picked :=
  s.table.bind fun t =>
    t.sysEntry[num]?.join.bind fun e =>
      (s.entries e).map fun o => o.picked num

/-- `get_entry` returns a pointer to an entry in memory, which is the one that `pick_syscall`
reads. -/
structure Reads (s : State) (n e : ℕ) (o : EntryObject) : Prop where
  getEntry : getEntry s n = some (some e)
  entry : s.entries e = some o
  pickSyscall : pickSyscall s n = some (o.picked n)

/-- The table of the module is in memory and is what it was in an earlier state, and so are its
entries. -/
structure Kept (s₀ s : State) : Prop where
  sysTable : s.sysTable = s₀.sysTable
  mapped : s.table.isSome
  table : s.table = s₀.table
  reads : ∀ total, getTotalSyscalls s₀ = some total → ∀ n < total,
    ∃ e o, Reads s₀ n e o ∧ Reads s n e o

/-- A call of `cleanup_syscall_table` is not on the table of the module, and `munmap` at the first
entry takes away no entry of that table. -/
def Spares (p : Platform) (s : State) : Action → Prop
  | .setup _ _ _ | .get _ => True
  | .cleanup i => ∀ address table, s.held[i]?.join = some address → s.tables address = some table →
      s.sysTable ≠ some address ∧
        ∀ first, table.sysEntry[0]?.join = some first → ∀ total, getTotalSyscalls s = some total →
          ∀ n < total, ∀ e, getEntry s n = some (some e) → p.unmaps first e = false

section Reading

variable {s s₀ : State} {t : Table} {n e : ℕ} {o : EntryObject}

theorem getEntry_eq (ht : s.table = some t) (hn : n < t.totalSyscalls) :
  getEntry s n = t.sysEntry[n]?
  := by
  rw [getEntry, ht, Option.bind_some, if_neg (Nat.lt_asymm hn)]

theorem reads_iff (ht : s.table = some t) (hn : n < t.totalSyscalls) :
  Reads s n e o ↔ t.sysEntry[n]? = some (some e) ∧ s.entries e = some o
  := by
  constructor
  · intro h
    rw [← getEntry_eq ht hn]
    exact ⟨h.getEntry, h.entry⟩
  · rintro ⟨hslot, hentry⟩
    constructor
    · rw [getEntry_eq ht hn, hslot]
    · apply hentry
    · simp [pickSyscall, ht, hslot, hentry]

/-- The table is kept when the pointer, the table and its entries are. -/
theorem kept_iff_of_table (ht : s₀.table = some t) :
  Kept s₀ s ↔ s.sysTable = s₀.sysTable ∧ s.table = some t ∧ ∀ n < t.totalSyscalls,
    ∃ e o, t.sysEntry[n]? = some (some e) ∧ s₀.entries e = some o ∧ s.entries e = some o
  := by
  constructor
  · intro h
    have hst := h.table.trans ht
    use h.sysTable, hst
    intro n hn
    obtain ⟨e, o, h₀, h⟩ := h.reads t.totalSyscalls (by rw [getTotalSyscalls, ht]; rfl) n hn
    obtain ⟨hslot, hentry₀⟩ := (reads_iff ht hn).mp h₀
    use e, o, hslot, hentry₀, h.entry
  · rintro ⟨hsys, hst, hentries⟩
    refine ⟨hsys, by rw [hst]; rfl, hst.trans ht.symm, ?_⟩
    intro total htotal n hn
    rw [getTotalSyscalls, ht] at htotal
    cases htotal
    obtain ⟨e, o, hslot, hentry₀, hentry⟩ := hentries n hn
    exact ⟨e, o, (reads_iff ht hn).mpr ⟨hslot, hentry₀⟩, (reads_iff hst hn).mpr ⟨hslot, hentry⟩⟩

end Reading

/-! ### Setting up the module -/

/-- A table that is built to its end points to entries in memory. -/
theorem buildEntries_spec {t : Table} {entries entries' : ℕ → Option EntryObject} {is : List ℕ}
    (h : buildEntries t entries is = some (entries', true)) :
  (∀ e, (entries e).isSome → (entries' e).isSome) ∧
    ∀ i ∈ is, ∃ e, t.sysEntry[i]? = some (some e) ∧ (entries' e).isSome
  := by
  induction is generalizing entries with
  | nil =>
      cases h
      exact ⟨fun _ => id, fun _ hi => nomatch hi⟩
  | cons i is ih =>
      obtain ⟨e, hslot, h⟩ := Option.bind_eq_some_iff.mp h
      obtain ⟨o, hentry, h⟩ := Option.bind_eq_some_iff.mp h
      simp only at h
      split at h
      · obtain ⟨hkeep, hrest⟩ := ih h
        have hkeep' : ∀ e', (entries e').isSome → (entries' e').isSome := by
          intro e' he'
          apply hkeep
          by_cases heq : e' = e
          · rw [heq, Function.update_self]
            rfl
          · rw [Function.update_of_ne heq]
            apply he'
        use hkeep'
        intro j hj
        rcases List.mem_cons.mp hj with rfl | hj
        · use e, Option.join_eq_some_iff.mp hslot
          apply hkeep' e
          rw [hentry]
          rfl
        · apply hrest j hj
      · cases h

/-- What `build_syscall_table` returns is a copy of the table of the platform. -/
theorem buildSyscallTable_spec {p : Platform} {s s' : State} {shared table : Option ℕ}
    (h : buildSyscallTable p s shared = some (table, s')) :
  s'.tableSet = s.tableSet ∧ ∀ address, table = some address →
    s'.tables address = some (getTable p) ∧ ∀ n < (getTable p).totalSyscalls,
      ∃ e, (getTable p).sysEntry[n]? = some (some e) ∧ (s'.entries e).isSome
  := by
  cases shared with
  | none =>
      cases h
      exact ⟨rfl, fun _ h => nomatch h⟩
  | some address =>
      rw [buildSyscallTable] at h
      split at h
      · cases h
      · obtain ⟨⟨entries, built⟩, hbuild, heq⟩ := Option.map_eq_some_iff.mp h
        cases heq
        use rfl
        intro address' htable
        cases built with
        | false => cases htable
        | true =>
            cases htable
            constructor
            · apply Function.update_self
            · intro n hn
              apply (buildEntries_spec hbuild).2 n (List.mem_range.mpr hn)

section Calls

variable {p : Platform} {s s' : State} {a : Action}

/-- The first successful set-up leaves a table whose entries are in memory. -/
theorem kept_of_setup (hset : s.tableSet = false) (hstep : step p s a = some s')
    (hset' : s'.tableSet = true) :
  Kept s' s'
  := by
  have hget : ∀ {shared table s₁}, getSyscallTable p s shared = some (table, s₁) →
      buildSyscallTable p s shared = some (table, s₁) := by
    intro shared table s₁ h
    rw [getSyscallTable, hset] at h
    apply h
  cases a with
  | setup coreCount shared rest =>
      rw [step, setupSyscallModule] at hstep
      split at hstep
      · obtain ⟨⟨table, s₁⟩, hbuild, rfl⟩ := Option.map_eq_some_iff.mp hstep
        obtain ⟨hset₁, hcopy⟩ := buildSyscallTable_spec (hget hbuild)
        simp only [hset₁, hset, Bool.false_or, Bool.and_eq_true] at hset'
        obtain ⟨address, rfl⟩ := Option.isSome_iff_exists.mp hset'.1
        obtain ⟨htable, hentries⟩ := hcopy address rfl
        refine (kept_iff_of_table (t := getTable p) ?_).mpr ⟨rfl, htable, ?_⟩
        · apply htable
        intro n hn
        obtain ⟨e, hslot, hentry⟩ := hentries n hn
        obtain ⟨o, ho⟩ := Option.isSome_iff_exists.mp hentry
        exact ⟨e, o, hslot, ho, ho⟩
      · cases hstep
        cases hset.symm.trans hset'
  | get shared =>
      obtain ⟨⟨table, s₁⟩, hbuild, rfl⟩ := Option.map_eq_some_iff.mp hstep
      have hset₁ := (buildSyscallTable_spec (hget hbuild)).1
      cases (hset₁.trans hset).symm.trans hset'
  | cleanup i =>
      obtain ⟨address, -, hstep⟩ := Option.bind_eq_some_iff.mp hstep
      obtain ⟨table, -, rfl⟩ := Option.map_eq_some_iff.mp hstep
      cases hset.symm.trans hset'

/-- Once the module is set up it stays so, and only `cleanup_syscall_table` changes tables and
entries. -/
theorem step_of_tableSet (hset : s.tableSet = true) (hstep : step p s a = some s') :
  s'.tableSet = true ∧
    ((Spares p s a ∧ s'.sysTable = s.sysTable ∧ s'.tables = s.tables ∧ s'.entries = s.entries) ∨
      ∃ i, a = .cleanup i ∧ cleanupSyscallTable p s i = some s')
  := by
  cases a with
  | setup coreCount shared rest =>
      rw [step, setupSyscallModule] at hstep
      split at hstep
      · simp only [getSyscallTable, hset] at hstep
        cases hstep
        exact ⟨by simp [hset], .inl ⟨trivial, rfl, rfl, rfl⟩⟩
      · cases hstep
        exact ⟨hset, .inl ⟨trivial, rfl, rfl, rfl⟩⟩
  | get shared =>
      simp only [step, getSyscallTable, hset] at hstep
      cases hstep
      exact ⟨hset, .inl ⟨trivial, rfl, rfl, rfl⟩⟩
  | cleanup i =>
      refine ⟨?_, .inr ⟨i, rfl, hstep⟩⟩
      obtain ⟨address, -, hstep⟩ := Option.bind_eq_some_iff.mp hstep
      obtain ⟨table, -, rfl⟩ := Option.map_eq_some_iff.mp hstep
      apply hset

/-- `munmap` takes away an entry in memory or leaves it as it is. -/
theorem freeEntry_eq_some_iff {entries : ℕ → Option EntryObject} {first : Option ℕ} {e : ℕ}
    {o : EntryObject} (h : entries e = some o) :
  freeEntry p entries first e = some o ↔ ∀ e', first = some e' → p.unmaps e' e = false
  := by
  cases first with
  | none => simp [freeEntry, h]
  | some e' => simp [freeEntry, h]

/-- A call of `cleanup_syscall_table` keeps the table if and only if it spares it. -/
theorem kept_cleanup_iff {s₀ : State} {i : ℕ} (h : Kept s₀ s)
    (hstep : cleanupSyscallTable p s i = some s') :
  Kept s₀ s' ↔ Spares p s (.cleanup i)
  := by
  obtain ⟨t, hst⟩ := Option.isSome_iff_exists.mp h.mapped
  have ht := h.table.symm.trans hst
  obtain ⟨hsys, -, hentries⟩ := (kept_iff_of_table ht).mp h
  obtain ⟨address, hheld, hstep⟩ := Option.bind_eq_some_iff.mp hstep
  obtain ⟨table, htable, rfl⟩ := Option.map_eq_some_iff.mp hstep
  rw [kept_iff_of_table ht]
  constructor
  · rintro ⟨-, hst', hentries'⟩ address' table' hheld' htable'
    cases hheld.symm.trans hheld'
    cases htable.symm.trans htable'
    constructor
    · intro heq
      simp [State.table, heq] at hst'
    · intro first hfirst total htotal n hn e hentry
      rw [getTotalSyscalls, hst] at htotal
      cases htotal
      rw [getEntry_eq hst hn] at hentry
      obtain ⟨e', o, hslot, ho₀, ho'⟩ := hentries' n hn
      cases hentry.symm.trans hslot
      obtain ⟨e', o', hslot', ho₀', ho⟩ := hentries n hn
      cases hslot.symm.trans hslot'
      cases ho₀.symm.trans ho₀'
      apply (freeEntry_eq_some_iff ho).mp ho' first hfirst
  · intro hspares
    obtain ⟨hne, hfirst⟩ := hspares address table hheld htable
    refine ⟨hsys, ?_, ?_⟩
    · obtain ⟨own, hown, hst⟩ := Option.bind_eq_some_iff.mp hst
      have hne' : own ≠ address := by
        rintro rfl
        apply hne hown
      simp only [State.table, hown, Option.bind_some, Function.update_of_ne hne', hst]
    · intro n hn
      obtain ⟨e, o, hslot, ho₀, ho⟩ := hentries n hn
      refine ⟨e, o, hslot, ho₀, (freeEntry_eq_some_iff ho).mpr ?_⟩
      intro first hslot₀
      apply hfirst first hslot₀ t.totalSyscalls _ n hn e
      · rw [getEntry_eq hst hn, hslot]
      · rw [getTotalSyscalls, hst]
        rfl

/-- A call after the set-up keeps the table if and only if it spares it. -/
theorem kept_step_iff {s₀ : State} (h : Kept s₀ s) (hset : s.tableSet = true)
    (hstep : step p s a = some s') :
  Kept s₀ s' ↔ Spares p s a
  := by
  obtain ⟨-, ⟨hspares, hsys, htables, hentries⟩ | ⟨i, rfl, hcleanup⟩⟩ := step_of_tableSet hset hstep
  · obtain ⟨t, ht⟩ := Option.isSome_iff_exists.mp h.mapped
    have hst : s'.table = s.table := by
      rw [State.table, State.table, hsys, htables]
    have hiff := kept_iff_of_table (s := s') (h.table.symm.trans ht)
    rw [hsys, hst, hentries, ← kept_iff_of_table (h.table.symm.trans ht)] at hiff
    simp [hiff, h, hspares]
  · apply kept_cleanup_iff h hcleanup

/-- A call that faults frees nothing. -/
theorem spares_of_step_eq_none (h : step p s a = none) :
  Spares p s a
  := by
  cases a with
  | setup | get => trivial
  | cleanup i =>
      intro address table hheld htable
      simp [step, cleanupSyscallTable, hheld, htable] at h

end Calls

/-- After the first successful set-up, along every sequence of calls the table of the module stays
as it is and readable if and only if every call of `cleanup_syscall_table` spares it. -/
theorem kept_iff_spares (p : Platform) {s s' : State} {a : Action} (hset : s.tableSet = false)
    (hstep : step p s a = some s') (hset' : s'.tableSet = true) (calls : List Action) :
  AllStates (step p) (Kept s') s' calls ↔ AllSteps (step p) (Spares p) s' calls
  := by
  have hkept := kept_of_setup hset hstep hset'
  apply allStates_iff_allSteps (I := fun t => t.tableSet = true) _ _ _ hset' hkept
  · intro t a t' hset hstep
    apply (step_of_tableSet hset hstep).1
  · intro t a t' hset hkept hstep
    apply kept_step_iff hkept hset hstep
  · intro t a hstep
    apply spares_of_step_eq_none hstep

/-- A platform on which `munmap` refuses the address of an entry. -/
def linux : Platform :=
  ⟨Linux.linuxSyscallTable, fun _ _ => false⟩

/-- A set-up in which every call succeeds. -/
def plainSetup : Action :=
  .setup true (some 0) true

/-- Where calls lead that do not fault. -/
def after (calls : List Action) : State :=
  (run (step linux) (State.init linux) calls).getD (State.init linux)

/-- A copy that was made before the set-up can be cleaned up after it. -/
theorem kept_copy :
  step linux (after [.get (some 1)]) plainSetup = some (after [.get (some 1), plainSetup]) ∧
    AllStates (step linux) (Kept (after [.get (some 1), plainSetup]))
      (after [.get (some 1), plainSetup]) [.cleanup 0, .get none]
  := by
  have hstep : step linux (after [.get (some 1)]) plainSetup
      = some (after [.get (some 1), plainSetup]) := rfl
  use hstep
  apply (kept_iff_spares linux rfl hstep rfl _).mpr
  refine ⟨?_, fun _ _ => ⟨trivial, fun _ _ => trivial⟩⟩
  intro address table hheld _
  cases hheld
  constructor
  · intro heq
    cases heq
  · intros
    rfl

/-- The calls of `create_first_generation`. -/
def createFirstGeneration (s : State) : List Action :=
  [.get none, .cleanup s.held.length]

/-- After the set-up, `create_first_generation` unmaps the table of the module. -/
theorem kept_not_createFirstGeneration :
  (after [plainSetup]).tableSet = true ∧
    ¬ AllStates (step linux) (Kept (after [plainSetup])) (after [plainSetup])
      (createFirstGeneration (after [plainSetup]))
  := by
  use rfl
  rintro ⟨-, h⟩
  have hmapped := ((h _ rfl).2 _ rfl).mapped
  cases hmapped

end SyscallTable
