import Nextgen.Syscall.Table

/-!
# What building a table does to its entries

The copy that `build_syscall_table` makes of a table on disk has the same pointers, so the loops
write to the entries on disk.  Each entry gets its test function and the contexts of its arguments,
and is switched on.  An argument of the type `PTRACE_REQUEST` has no context, and then there is no
table.
-/

open Syscall

namespace SyscallTable

/-- A table on disk: the number of its entries and of their arguments is that of the arrays at
most, and its elements point to entries.  Two elements may point to the same entry. -/
structure OnDisk where
  table : Table
  entries : ℕ → Option EntryObject
  total_le : table.totalSyscalls ≤ 56
  totalArgs_le : ∀ e o, entries e = some o → o.entry.totalArgs ≤ ARG_LIMIT
  contexts_length : ∀ e o, entries e = some o → o.argContextArray.length = ARG_LIMIT
  present : ∀ i < table.totalSyscalls,
    ∃ e o, table.sysEntry[i]? = some (some e) ∧ entries e = some o

/-- `build_syscall_table` on a table on disk when the memory for the copy is there: the copy, and
the entries. -/
def buildTable (table : Table) (entries : ℕ → Option EntryObject) :
    Option (Option Table × (ℕ → Option EntryObject)) :=
  (buildEntries table entries (List.range table.totalSyscalls)).map fun built =>
    (if built.2 then some table else none, built.1)

/-- The build of the module is that of the table of the platform. -/
theorem buildSyscallTable_eq_buildTable (p : Platform) {s : State} {address : ℕ}
    (hfree : s.tables address = none) :
  buildSyscallTable p s (some address) =
    (buildTable (getTable p) s.entries).map fun built =>
      (built.1.map fun _ => address,
        { s with
          tables := Function.update s.tables address (some (getTable p))
          entries := built.2 })
  := by
  simp only [buildSyscallTable, buildTable, hfree, Option.isSome_none, Bool.false_eq_true, if_false,
    Option.map_map]
  congr 1
  funext built
  cases hbuilt : built.2 <;> simp [hbuilt]

/-! ### What it should do -/

/-- An element of the table points to the entry. -/
def OnDisk.Lists (d : OnDisk) (e : ℕ) (o : EntryObject) : Prop :=
  (∃ i < d.table.totalSyscalls, d.table.sysEntry[i]? = some (some e)) ∧ d.entries e = some o

/-- The contexts of the arguments are filled in, and all else but the test function stays. -/
def FilledIn (o o' : EntryObject) : Prop :=
  o'.entry = o.entry ∧
  (∀ c < o.entry.totalArgs, ∃ context, o'.argContextArray[c]? = some (some context) ∧
    context.type = o.entry.argType c) ∧
  ∀ c, o.entry.totalArgs ≤ c → o'.argContextArray[c]? = o.argContextArray[c]?

/-- The build returns the table with the missing parts of its entries filled in, and a second
build changes nothing. -/
def FillsIn (d : OnDisk) : Prop :=
  ∃ entries, buildTable d.table d.entries = some (some d.table, entries) ∧
    (∀ e o, d.Lists e o → ∃ o', entries e = some o' ∧ FilledIn o o') ∧
    (∀ e, (∀ o, ¬ d.Lists e o) → entries e = d.entries e) ∧
    buildTable d.table entries = some (some d.table, entries)

/-! ### One entry -/

theorem getArgContext_isSome_iff (type : ArgType) :
  (getArgContext type).isSome ↔ type ≠ .ptraceRequest
  := by
  cases type <;> simp [getArgContext]

/-- A context has the type that it was looked up for. -/
theorem type_of_getArgContext {type : ArgType} {context : ArgContext}
    (h : getArgContext type = some context) :
  context.type = type
  := by
  cases type <;> cases h <;> rfl

attribute [ext] EntryObject

namespace EntryObject

/-- All arguments of an entry have contexts. -/
def HasContexts (o : EntryObject) : Prop :=
  ∀ c < o.entry.totalArgs, o.entry.argType c ≠ .ptraceRequest

theorem setContexts_fst (o : EntryObject) (counters : List ℕ) :
  (o.setContexts counters).1.entry = o.entry ∧
    (o.setContexts counters).1.testSyscall = o.testSyscall ∧
    (o.setContexts counters).1.argContextArray.length = o.argContextArray.length
  := by
  induction counters generalizing o with
  | nil => exact ⟨rfl, rfl, rfl⟩
  | cons c counters ih =>
      rw [setContexts]
      split
      · obtain ⟨hentry, htest, hlength⟩ := ih _
        rw [hentry, htest, hlength]
        exact ⟨rfl, rfl, List.length_set⟩
      · exact ⟨rfl, rfl, List.length_set⟩

theorem setContexts_snd (o : EntryObject) (counters : List ℕ) :
  (o.setContexts counters).2 = true ↔ ∀ c ∈ counters, o.entry.argType c ≠ .ptraceRequest
  := by
  induction counters generalizing o with
  | nil => simp [setContexts]
  | cons c counters ih =>
      rw [setContexts, List.forall_mem_cons, ← getArgContext_isSome_iff]
      split
      · rename_i hcontext
        rw [ih]
        exact (and_iff_right hcontext).symm
      · rename_i hcontext
        apply iff_of_false
        · simp
        · exact fun h => hcontext h.1

/-- After the loop the elements at the counters are the contexts, and the others as before. -/
theorem setContexts_getElem? {o : EntryObject} {counters : List ℕ}
    (h : (o.setContexts counters).2 = true) {c : ℕ} (hc : c < o.argContextArray.length) :
  (o.setContexts counters).1.argContextArray[c]? =
    if c ∈ counters then some (getArgContext (o.entry.argType c)) else o.argContextArray[c]?
  := by
  induction counters generalizing o with
  | nil => rfl
  | cons b counters ih =>
      have hb : (getArgContext (o.entry.argType b)).isSome := by
        rw [getArgContext_isSome_iff]
        exact (setContexts_snd o _).mp h b List.mem_cons_self
      rw [setContexts] at h ⊢
      rw [if_pos hb] at h ⊢
      rw [ih h (by rw [List.length_set]; exact hc)]
      by_cases hmem : c ∈ counters
      · rw [if_pos hmem, if_pos (List.mem_cons_of_mem b hmem)]
      · rw [if_neg hmem]
        by_cases hcb : c = b
        · subst hcb
          rw [if_pos List.mem_cons_self]
          exact List.getElem?_set_self hc
        · rw [if_neg (by simp [hcb, hmem])]
          exact List.getElem?_set_ne (fun heq => hcb heq.symm)

theorem build_fst_entry (o : EntryObject) :
  o.build.1.entry = { o.entry with status := .on } ∧
    o.build.1.testSyscall = some (setTestSyscall o.entry.id) ∧
    o.build.1.argContextArray.length = o.argContextArray.length
  := setContexts_fst _ _

theorem build_snd_iff (o : EntryObject) :
  o.build.2 = true ↔ o.HasContexts
  := by
  rw [build, setContexts_snd]
  simp only [List.mem_range]
  rfl

theorem hasContexts_build_iff (o : EntryObject) :
  o.build.1.HasContexts ↔ o.HasContexts
  := by
  rw [HasContexts, (build_fst_entry o).1]
  rfl

theorem build_getElem? {o : EntryObject} (h : o.build.2 = true) {c : ℕ}
    (hc : c < o.argContextArray.length) :
  o.build.1.argContextArray[c]? =
    if c < o.entry.totalArgs then some (getArgContext (o.entry.argType c))
    else o.argContextArray[c]?
  := by
  rw [build] at h ⊢
  rw [setContexts_getElem? h hc]
  simp only [List.mem_range]
  rfl

/-- An entry that was built is not changed by another build. -/
theorem build_build {o : EntryObject} (h : o.build.2 = true) :
  o.build.1.build.1 = o.build.1
  := by
  have h' : o.build.1.build.2 = true := by
    rw [build_snd_iff, hasContexts_build_iff, ← build_snd_iff]
    exact h
  obtain ⟨hentry, htest, hlength⟩ := build_fst_entry o
  obtain ⟨hentry', htest', hlength'⟩ := build_fst_entry o.build.1
  have hcontexts : o.build.1.build.1.argContextArray = o.build.1.argContextArray := by
    apply List.ext_getElem?
    intro c
    by_cases hc : c < o.argContextArray.length
    · rw [build_getElem? h' (hlength ▸ hc), build_getElem? h hc, hentry]
      show (if c < o.entry.totalArgs then some (getArgContext (o.entry.argType c)) else _) = _
      split <;> rfl
    · rw [List.getElem?_eq_none (by omega), List.getElem?_eq_none (by omega)]
  have hentry'' : o.build.1.build.1.entry = o.build.1.entry := by
    rw [hentry', hentry]
  have htest'' : o.build.1.build.1.testSyscall = o.build.1.testSyscall := by
    rw [htest', htest, hentry]
  exact EntryObject.ext hentry'' hcontexts htest''

/-- The build fills in what is missing if the entry is switched on already. -/
theorem filledIn_build_iff {o : EntryObject} (h : o.build.2 = true)
    (hargs : o.entry.totalArgs ≤ o.argContextArray.length) :
  FilledIn o o.build.1 ↔ o.entry.status = .on
  := by
  obtain ⟨hentry, -, hlength⟩ := build_fst_entry o
  constructor
  · rintro ⟨hsame, -⟩
    rw [← hsame, hentry]
  · intro hon
    refine ⟨?_, ?_, ?_⟩
    · rw [hentry, ← hon]
    · intro c hc
      have hsome : (getArgContext (o.entry.argType c)).isSome := by
        rw [getArgContext_isSome_iff]
        exact (build_snd_iff o).mp h c hc
      obtain ⟨context, hcontext⟩ := Option.isSome_iff_exists.mp hsome
      refine ⟨context, ?_, type_of_getArgContext hcontext⟩
      rw [build_getElem? h (by omega), if_pos hc, hcontext]
    · intro c hc
      by_cases hlt : c < o.argContextArray.length
      · rw [build_getElem? h hlt, if_neg (by omega)]
      · rw [List.getElem?_eq_none (by omega), List.getElem?_eq_none (by omega)]

end EntryObject

/-! ### The whole table -/

section Entries

variable {t : Table} {entries : ℕ → Option EntryObject} {is : List ℕ}

/-- The entries after a build: those that elements of the table point to are built. -/
def builtEntries (t : Table) (entries : ℕ → Option EntryObject) (is : List ℕ) (e : ℕ) :
    Option EntryObject :=
  if ∃ i ∈ is, t.sysEntry[i]? = some (some e) then (entries e).map fun o => o.build.1
  else entries e

/-- The elements of the table point to entries whose arguments have contexts. -/
def Buildable (t : Table) (entries : ℕ → Option EntryObject) (is : List ℕ) : Prop :=
  ∀ i ∈ is, ∃ e o, t.sysEntry[i]? = some (some e) ∧ entries e = some o ∧ o.HasContexts

/-- An entry that was built is as good as before for another build. -/
theorem buildable_update_iff {e : ℕ} {o : EntryObject} (he : entries e = some o) :
  Buildable t (Function.update entries e (some o.build.1)) is ↔ Buildable t entries is
  := by
  have hentry (e' : ℕ) : (∃ o', Function.update entries e (some o.build.1) e' = some o' ∧
      o'.HasContexts) ↔ ∃ o', entries e' = some o' ∧ o'.HasContexts := by
    by_cases heq : e' = e
    · subst heq
      simp [Function.update_self, he, o.hasContexts_build_iff]
    · rw [Function.update_of_ne heq]
  simp only [Buildable, exists_and_left, hentry]

/-- A build after that of one entry comes to the same as with the entry before it. -/
theorem builtEntries_update {i e : ℕ} {o : EntryObject} (hslot : t.sysEntry[i]? = some (some e))
    (he : entries e = some o) (hbuild : o.build.2 = true) :
  builtEntries t (Function.update entries e (some o.build.1)) is = builtEntries t entries (i :: is)
  := by
  funext e'
  rw [builtEntries, builtEntries]
  by_cases heq : e' = e
  · subst heq
    have hfirst : ∃ j ∈ i :: is, t.sysEntry[j]? = some (some e') := ⟨i, List.mem_cons_self, hslot⟩
    rw [if_pos hfirst, Function.update_self, he]
    simp only [Option.map_some, o.build_build hbuild, ite_self]
  · have hiff : (∃ j ∈ i :: is, t.sysEntry[j]? = some (some e')) ↔
        ∃ j ∈ is, t.sysEntry[j]? = some (some e') := by
      simp only [List.mem_cons, exists_eq_or_imp]
      apply or_iff_right
      rw [hslot]
      rintro ⟨⟩
      exact heq rfl
    simp only [hiff, Function.update_of_ne heq]

/-- The outer loop comes to its end if and only if the entries can be built. -/
theorem buildEntries_eq_some_iff {entries' : ℕ → Option EntryObject} :
  buildEntries t entries is = some (entries', true) ↔
    Buildable t entries is ∧ entries' = builtEntries t entries is
  := by
  induction is generalizing entries with
  | nil =>
      simp [buildEntries, Buildable, builtEntries, eq_comm, funext_iff]
  | cons i is ih =>
      rw [buildEntries]
      constructor
      · intro h
        obtain ⟨e, hjoin, h⟩ := Option.bind_eq_some_iff.mp h
        obtain ⟨o, he, h⟩ := Option.bind_eq_some_iff.mp h
        have hslot := Option.join_eq_some_iff.mp hjoin
        simp only at h
        split at h
        · rename_i hbuild
          obtain ⟨hrest, rfl⟩ := ih.mp h
          rw [buildable_update_iff he] at hrest
          constructor
          · rw [Buildable, List.forall_mem_cons]
            exact ⟨⟨e, o, hslot, he, o.build_snd_iff.mp hbuild⟩, hrest⟩
          · exact builtEntries_update hslot he hbuild
        · cases h
      · rintro ⟨hbuildable, rfl⟩
        rw [Buildable, List.forall_mem_cons] at hbuildable
        obtain ⟨⟨e, o, hslot, he, hcontexts⟩, hrest⟩ := hbuildable
        have hbuild := o.build_snd_iff.mpr hcontexts
        rw [hslot, Option.join_some, Option.bind_some, he, Option.bind_some]
        simp only [hbuild, if_true]
        rw [ih, buildable_update_iff he]
        exact ⟨hrest, (builtEntries_update hslot he hbuild).symm⟩

theorem buildTable_eq_some_iff {entries' : ℕ → Option EntryObject} :
  buildTable t entries = some (some t, entries') ↔
    Buildable t entries (List.range t.totalSyscalls) ∧
      entries' = builtEntries t entries (List.range t.totalSyscalls)
  := by
  rw [← buildEntries_eq_some_iff, buildTable, Option.map_eq_some_iff]
  constructor
  · rintro ⟨⟨built, finished⟩, hbuild, heq⟩
    cases finished with
    | false => cases heq
    | true =>
        cases heq
        exact hbuild
  · intro hbuild
    exact ⟨_, hbuild, rfl⟩

/-- The copy that a build gives has the elements of the table. -/
theorem eq_of_buildTable {t' : Table} {entries' : ℕ → Option EntryObject}
    (h : buildTable t entries = some (some t', entries')) :
  t' = t
  := by
  obtain ⟨⟨built, finished⟩, -, heq⟩ := Option.map_eq_some_iff.mp h
  cases finished with
  | false => cases heq
  | true =>
      cases heq
      rfl

end Entries

/-! ### The table of a platform -/

section Platform

variable {entry : Entry} {b : BuiltEntry}

/-- The object of an entry that was built. -/
def EntryObject.ofBuilt (b : BuiltEntry) : EntryObject :=
  ⟨b.entry, b.argContextArray.map some ++
    List.replicate (ARG_LIMIT - b.argContextArray.length) none, some b.testSyscall⟩

theorem buildEntry_isSome_iff (entry : Entry) :
  (buildEntry entry).isSome ↔ (EntryObject.fresh entry).HasContexts
  := by
  rw [buildEntry, Option.isSome_map, isSome_mapM_iff]
  simp only [List.mem_range, getArgContext_isSome_iff]
  rfl

/-- `buildEntry` makes of an entry what the loop makes of it. -/
theorem build_fresh (hargs : entry.totalArgs ≤ ARG_LIMIT) (h : buildEntry entry = some b) :
  (EntryObject.fresh entry).build.1 = .ofBuilt b
  := by
  have hbuild : (EntryObject.fresh entry).build.2 = true := by
    rw [EntryObject.build_snd_iff, ← buildEntry_isSome_iff, h]
    rfl
  obtain ⟨hentry, htest, hlength⟩ := (EntryObject.fresh entry).build_fst_entry
  obtain ⟨contexts, hcontexts, rfl⟩ := Option.map_eq_some_iff.mp h
  rw [mapM_eq_some_iff] at hcontexts
  have htotal : contexts.length = entry.totalArgs := by
    have := congrArg List.length hcontexts
    simpa using this.symm
  apply EntryObject.ext hentry _ htest
  apply List.ext_getElem?
  intro c
  show _ = (contexts.map some ++ List.replicate (ARG_LIMIT - contexts.length) none)[c]?
  by_cases hc : c < ARG_LIMIT
  · rw [EntryObject.build_getElem? hbuild (by simpa [EntryObject.fresh] using hc)]
    show (if c < entry.totalArgs then some (getArgContext (entry.argType c))
      else (List.replicate ARG_LIMIT none)[c]?) = _
    split
    · rename_i hlt
      rw [List.getElem?_append_left (by simpa [htotal] using hlt), ← hcontexts]
      simp [hlt]
    · rename_i hnot
      rw [List.getElem?_append_right (by simpa [htotal] using hnot)]
      have hrest : c - contexts.length < ARG_LIMIT - contexts.length := by omega
      simp [hc, hrest]
  · rw [List.getElem?_eq_none, List.getElem?_eq_none]
    · simp
      omega
    · rw [hlength]
      simpa [EntryObject.fresh] using hc

theorem getTable_sysEntry (p : Platform) {i : ℕ} (hi : i < p.entries.length) :
  (getTable p).sysEntry[i]? = some (some i)
  := by
  rw [getTable, List.getElem?_append_left (by simpa using hi)]
  simp [hi]

theorem init_entries (p : Platform) (e : ℕ) :
  (State.init p).entries e = p.entries[e]?.map EntryObject.fresh
  := rfl

/-- The table of the platform lists all its entries. -/
theorem builtEntries_getTable (p : Platform) (e : ℕ) :
  builtEntries (getTable p) (State.init p).entries (List.range (getTable p).totalSyscalls) e =
    p.entries[e]?.map fun entry => (EntryObject.fresh entry).build.1
  := by
  rw [builtEntries, init_entries]
  by_cases he : e < p.entries.length
  · rw [if_pos ⟨e, List.mem_range.mpr he, getTable_sysEntry p he⟩, Option.map_map]
    rfl
  · rw [List.getElem?_eq_none (Nat.le_of_not_lt he)]
    simp

theorem buildable_getTable_iff (p : Platform) :
  Buildable (getTable p) (State.init p).entries (List.range (getTable p).totalSyscalls) ↔
    ∀ entry ∈ p.entries, (buildEntry entry).isSome
  := by
  simp only [buildEntry_isSome_iff]
  constructor
  · intro h entry hentry
    obtain ⟨i, hi, rfl⟩ := List.mem_iff_getElem.mp hentry
    obtain ⟨e, o, hslot, he, hcontexts⟩ := h i (List.mem_range.mpr hi)
    cases (getTable_sysEntry p hi).symm.trans hslot
    rw [init_entries, List.getElem?_eq_getElem hi] at he
    cases he
    exact hcontexts
  · intro h i hi
    have hlt : i < p.entries.length := List.mem_range.mp hi
    refine ⟨i, .fresh p.entries[i], getTable_sysEntry p hlt, ?_, h _ (List.getElem_mem hlt)⟩
    rw [init_entries, List.getElem?_eq_getElem hlt]
    rfl

theorem builtEntries_eq_ofBuilt (p : Platform)
    (hargs : ∀ entry ∈ p.entries, entry.totalArgs ≤ ARG_LIMIT) {built : List BuiltEntry}
    (h : p.entries.mapM buildEntry = some built) :
  builtEntries (getTable p) (State.init p).entries (List.range (getTable p).totalSyscalls) =
    fun e => built[e]?.map .ofBuilt
  := by
  funext e
  rw [builtEntries_getTable]
  have hget : p.entries[e]?.map buildEntry = built[e]?.map some := by
    rw [← List.getElem?_map, mapM_eq_some_iff.mp h, List.getElem?_map]
  cases hentry : p.entries[e]? with
  | none =>
      rw [hentry] at hget
      rw [Option.map_eq_none_iff.mp hget.symm]
      rfl
  | some entry =>
      rw [hentry] at hget
      obtain ⟨b, hb, heq⟩ := Option.map_eq_some_iff.mp hget.symm
      rw [hb, Option.map_some, Option.map_some,
        build_fresh (hargs entry (List.mem_of_getElem? hentry)) heq.symm]

/-- The first build of the module succeeds if and only if `Syscall.buildSyscallTable` makes a table
of the entries of the platform, and then the entries are those of that table. -/
theorem buildSyscallTable_init_iff (p : Platform)
    (hargs : ∀ entry ∈ p.entries, entry.totalArgs ≤ ARG_LIMIT) (address : ℕ) (s' : State) :
  buildSyscallTable p (State.init p) (some address) = some (some address, s') ↔
    ∃ built, Syscall.buildSyscallTable true p.entries = some built ∧
      s' = { State.init p with
        tables := Function.update (State.init p).tables address (some (getTable p))
        entries := fun e => built[e]?.map .ofBuilt }
  := by
  have hmap : ∀ built, Syscall.buildSyscallTable true p.entries = some built ↔
      p.entries.mapM buildEntry = some built := fun _ => Iff.rfl
  rw [buildSyscallTable_eq_buildTable p rfl, Option.map_eq_some_iff]
  simp only [hmap]
  constructor
  · rintro ⟨⟨table, entries⟩, hbuild, heq⟩
    obtain ⟨htable, rfl⟩ := Prod.mk.inj heq
    obtain ⟨t, rfl, -⟩ := Option.map_eq_some_iff.mp htable
    cases eq_of_buildTable hbuild
    obtain ⟨hbuildable, rfl⟩ := buildTable_eq_some_iff.mp hbuild
    rw [buildable_getTable_iff, ← isSome_mapM_iff] at hbuildable
    obtain ⟨built, hbuilt⟩ := Option.isSome_iff_exists.mp hbuildable
    exact ⟨built, hbuilt, by rw [builtEntries_eq_ofBuilt p hargs hbuilt]⟩
  · rintro ⟨built, hbuilt, rfl⟩
    refine ⟨_, buildTable_eq_some_iff.mpr ⟨?_, rfl⟩, ?_⟩
    · rw [buildable_getTable_iff, ← isSome_mapM_iff, hbuilt]
      rfl
    · rw [builtEntries_eq_ofBuilt p hargs hbuilt]
      rfl

end Platform

namespace OnDisk

variable (d : OnDisk)

theorem buildable_iff :
  Buildable d.table d.entries (List.range d.table.totalSyscalls) ↔
    ∀ e o, d.Lists e o → o.HasContexts
  := by
  constructor
  · rintro hbuildable e o ⟨⟨i, hi, hslot⟩, he⟩
    obtain ⟨e', o', hslot', he', hcontexts⟩ := hbuildable i (List.mem_range.mpr hi)
    cases hslot.symm.trans hslot'
    cases he.symm.trans he'
    exact hcontexts
  · intro hall i hi
    obtain ⟨e, o, hslot, he⟩ := d.present i (List.mem_range.mp hi)
    exact ⟨e, o, hslot, he, hall e o ⟨⟨i, List.mem_range.mp hi, hslot⟩, he⟩⟩

theorem builtEntries_of_lists {e : ℕ} {o : EntryObject} (h : d.Lists e o) :
  builtEntries d.table d.entries (List.range d.table.totalSyscalls) e = some o.build.1
  := by
  obtain ⟨⟨i, hi, hslot⟩, he⟩ := h
  rw [builtEntries, if_pos ⟨i, List.mem_range.mpr hi, hslot⟩, he]
  rfl

/-- What the table does not list is not built. -/
theorem builtEntries_of_not_lists {e : ℕ} (h : ∀ o, ¬ d.Lists e o) :
  builtEntries d.table d.entries (List.range d.table.totalSyscalls) e = d.entries e
  := by
  rw [builtEntries]
  split
  · rename_i hlisted
    obtain ⟨i, hi, hslot⟩ := hlisted
    cases he : d.entries e with
    | none => rfl
    | some o => exact absurd ⟨⟨i, List.mem_range.mp hi, hslot⟩, he⟩ (h o)
  · rfl

/-- A second build finds entries that are built. -/
theorem builtEntries_builtEntries (h : ∀ e o, d.Lists e o → o.HasContexts) :
  let is := List.range d.table.totalSyscalls
  Buildable d.table (builtEntries d.table d.entries is) is ∧
    builtEntries d.table (builtEntries d.table d.entries is) is
      = builtEntries d.table d.entries is
  := by
  intro is
  constructor
  · intro i hi
    obtain ⟨e, o, hslot, he⟩ := d.present i (List.mem_range.mp hi)
    have hlists : d.Lists e o := ⟨⟨i, List.mem_range.mp hi, hslot⟩, he⟩
    refine ⟨e, o.build.1, hslot, d.builtEntries_of_lists hlists, ?_⟩
    rw [o.hasContexts_build_iff]
    exact h e o hlists
  · funext e
    rw [builtEntries]
    split
    · rename_i hlisted
      obtain ⟨i, hi, hslot⟩ := hlisted
      obtain ⟨e', o, hslot', he⟩ := d.present i (List.mem_range.mp hi)
      cases hslot.symm.trans hslot'
      have hlists : d.Lists e o := ⟨⟨i, List.mem_range.mp hi, hslot⟩, he⟩
      rw [d.builtEntries_of_lists hlists, Option.map_some,
        o.build_build (o.build_snd_iff.mpr (h e o hlists))]
    · rfl

end OnDisk

/-- The build only fills in what is missing if and only if every entry of the table is switched on
and none has an argument of the type `PTRACE_REQUEST`. -/
theorem buildTable_fillsIn_iff (d : OnDisk) :
  FillsIn d ↔ ∀ e o, d.Lists e o →
    o.entry.status = .on ∧ ∀ c < o.entry.totalArgs, o.entry.argType c ≠ .ptraceRequest
  := by
  have hargs {e : ℕ} {o : EntryObject} (h : d.Lists e o) :
      o.entry.totalArgs ≤ o.argContextArray.length := by
    rw [d.contexts_length e o h.2]
    exact d.totalArgs_le e o h.2
  constructor
  · rintro ⟨entries, hbuild, hfilled, -⟩ e o hlists
    obtain ⟨hbuildable, rfl⟩ := buildTable_eq_some_iff.mp hbuild
    have hcontexts := d.buildable_iff.mp hbuildable e o hlists
    obtain ⟨o', ho', hfilled⟩ := hfilled e o hlists
    cases (d.builtEntries_of_lists hlists).symm.trans ho'
    refine ⟨?_, hcontexts⟩
    exact (o.filledIn_build_iff (o.build_snd_iff.mpr hcontexts) (hargs hlists)).mp hfilled
  · intro hall
    have hcontexts : ∀ e o, d.Lists e o → o.HasContexts := fun e o hlists => (hall e o hlists).2
    refine ⟨_, buildTable_eq_some_iff.mpr ⟨d.buildable_iff.mpr hcontexts, rfl⟩, ?_, ?_, ?_⟩
    · intro e o hlists
      refine ⟨o.build.1, d.builtEntries_of_lists hlists, ?_⟩
      rw [o.filledIn_build_iff (o.build_snd_iff.mpr (hcontexts e o hlists)) (hargs hlists)]
      exact (hall e o hlists).1
    · intro e hnot
      exact d.builtEntries_of_not_lists hnot
    · obtain ⟨hagain, hsame⟩ := d.builtEntries_builtEntries hcontexts
      exact buildTable_eq_some_iff.mpr ⟨hagain, hsame.symm⟩

/-- A table with one entry. -/
def OnDisk.single (entry : Entry) (h : entry.totalArgs ≤ ARG_LIMIT) : OnDisk where
  table := ⟨1, [some 0]⟩
  entries e := if e = 0 then some (.fresh entry) else none
  total_le := by decide
  totalArgs_le := by
    intro e o he
    obtain ⟨-, he⟩ := Option.ite_none_right_eq_some.mp he
    cases he
    exact h
  contexts_length := by
    intro e o he
    obtain ⟨-, he⟩ := Option.ite_none_right_eq_some.mp he
    cases he
    rfl
  present := by
    intro i hi
    cases Nat.lt_one_iff.mp hi
    exact ⟨0, _, rfl, rfl⟩

/-- An entry that is switched off, and one with a `PTRACE_REQUEST`. -/
theorem not_fillsIn_single :
  ¬ FillsIn (.single { Linux.entryRead with status := .off } (by decide)) ∧
  ¬ FillsIn (.single { Linux.entryRead with args := [(.ptraceRequest, .generateFd)] } (by decide))
  := by
  constructor
  · rintro ⟨entries, hbuild, hfilled, -⟩
    obtain ⟨-, rfl⟩ := buildTable_eq_some_iff.mp hbuild
    obtain ⟨o, ho, hentry, -⟩ := hfilled 0 _ ⟨⟨0, by decide, rfl⟩, rfl⟩
    cases ho
    cases congrArg Entry.status hentry
  · rintro ⟨entries, hbuild, -⟩
    have hnull : some none = some (some _) := congrArg (Option.map Prod.fst) hbuild
    cases hnull

end SyscallTable
