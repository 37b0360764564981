import Mathlib.Data.Int.Notation
import Nextgen.Lib.Bytes
import Nextgen.Lib.Links
import Nextgen.Lib.Transition

/-!
# Deleting a directory

`delete_directory` and `delete_dir_contents`, which removes what `fts_read` returns while it
walks through a directory.  With `FTS_LOGICAL` the walk follows symbolic links: an entry that
leads to a directory is returned before and after what is in that directory, and any other
entry once.  What `stat` gives for an entry is tested with the single bit `S_IFDIR`, which is
also set in the types of sockets and of block devices.
-/

open Bytes FileTree

universe u

namespace DeleteDirectory

variable {N : Type u}

/-- What is not a directory. -/
inductive Inode (N : Type u) where
  | regular (contents : Buffer)
  | fifo
  | charDevice
  | blockDevice
  | socket
  | link (target : List N)

abbrev Files (N : Type u) := FileTree N (Inode N)

/-- The path of a link. -/
def Inode.target : Inode N → Option (List N)
  | link l => some l
  | _ => none

/-- The type in `st_mode`. -/
def Inode.mode : Inode N → UInt32
  | regular _ => 0o100000
  | fifo => 0o010000
  | charDevice => 0o020000
  | blockDevice => 0o060000
  | socket => 0o140000
  | link _ => 0o120000

/-- The names in each directory in the order of `entcmp`, what may be removed, and how many
links within each other are followed. -/
structure System (N : Type u) where
  listing : List N → List N
  permitted : List N → Bool
  links : ℕ

section Calls

variable [DecidableEq N] (sys : System N)

/-- `stat`: the type of what a path leads to. -/
def stat (t : Files N) (p : List N) : Option UInt32 :=
  (resolve Inode.target t sys.links p).bind fun q =>
    match t.node q with
    | none => none
    | some .dir => some S_IFDIR
    | some (.file b) => some b.mode

/-- `rmdir`, which removes an empty directory. -/
def rmdir (t : Files N) (p : List N) : Option (Files N) :=
  (lresolve Inode.target t sys.links p).bind fun q =>
    if q ≠ [] ∧ sys.permitted q ∧ t.isDir q ∧ ∀ c ∈ sys.listing q, (t.node (c :: q)).isNone then
      some (t.prune q)
    else none

/-- `unlink`, which removes what is not a directory. -/
def unlink (t : Files N) (p : List N) : Option (Files N) :=
  (lresolve Inode.target t sys.links p).bind fun q =>
    if sys.permitted q then t.unlink q else none

/-- `opendir`: the directory that a path leads to. -/
def opendir (t : Files N) (p : List N) : Option (List N) :=
  (resolve Inode.target t sys.links p).filter fun q => t.isDir q

/-- Why a walk has ended early: the rounds are used up, or `delete_dir_contents` has returned
`-1`. -/
inductive Stop (N : Type u) where
  | running
  | failed (t : Files N)

/-- The body of the loop of `delete_dir_contents` for an entry of the walk. -/
def visit (dir : List N) (t : Files N) (f : List N) : Except (Stop N) (Files N) :=
  if f = dir then .ok t
  else
    match stat sys t f with
    | none => .error (.failed t)
    | some mode =>
        if mode &&& S_IFDIR ≠ 0 then .ok ((rmdir sys t f).getD t)
        else
          match unlink sys t f with
          | none => .error (.failed t)
          | some t => .ok t

/-- An entry is `FTS_D`, not `FTS_DC`, if it leads to a directory that is not among those above
it. -/
def isFtsD (t : Files N) (ancestors : List (List N)) (f : List N) : Bool :=
  match opendir sys t f with
  | none => false
  | some d => d ∉ ancestors

/-- The entries with some names of the directory `d`, that was reached as `f`, and which of
them are `FTS_D`. -/
def ftsEntries (t : Files N) (ancestors : List (List N)) (f d names : List N) :
    List (List N × Bool) :=
  (names.filter fun c => (t.node (c :: d)).isSome).map fun c =>
    (c :: f, isFtsD sys t ancestors (c :: f))

/-- `fts_build`, which reads the whole directory. -/
def ftsBuild (t : Files N) (ancestors : List (List N)) (f d : List N) :
    List (List N × Bool) :=
  ftsEntries sys t ancestors f d (sys.listing d)

/-- Go through the entries of a directory, with a function for those that are `FTS_D` and one
for the others. -/
def entries (deeper once : Files N → List N → Except (Stop N) (Files N)) :
    List (List N × Bool) → Files N → Except (Stop N) (Files N)
  | [], t => .ok t
  | (f, ftsD) :: rest, t =>
      ((if ftsD then deeper else once) t f).bind fun t => entries deeper once rest t

/-- The walk through a directory and below it, and what the loop does with it.  The directory
is returned first, and again at the end unless it can no longer be read (`FTS_DNR`). -/
def walk (dir : List N) : ℕ → List (List N) → Files N → List N → Except (Stop N) (Files N)
  | 0, _, _, _ => .error .running
  | fuel + 1, ancestors, t, f =>
      (visit sys dir t f).bind fun t =>
        match opendir sys t f with
        | none => .ok t
        | some d =>
            (entries (walk dir fuel (d :: ancestors)) (visit sys dir)
              (ftsBuild sys t (d :: ancestors) f d) t).bind fun t => visit sys dir t f

/-- `delete_dir_contents`. -/
def deleteDirContents (fuel : ℕ) (t : Files N) (dir : List N) : Except (Stop N) (Files N) :=
  walk sys dir fuel [] t dir

/-- `delete_directory`: the value it returns and the files, or `none` while it runs. -/
def deleteDirectory (fuel : ℕ) (t : Files N) : Option (List N) → Option (ℤ × Files N)
  | none => some (-1, t)
  | some path =>
      match stat sys t path with
      | none => some (-1, t)
      | some mode =>
          if mode &&& S_IFDIR ≠ 0 then
            match deleteDirContents sys fuel t path with
            | .error .running => none
            | .error (.failed t) => some (-1, t)
            | .ok t =>
                match rmdir sys t path with
                | none => some (-1, t)
                | some t => some (0, t)
          else some (-1, t)

end Calls

/-! ### What `stat` finds -/

/-- The path leads to a file that is neither a socket nor a block device. -/
def LeadsToPlain (sys : System N) (t : Files N) (e : List N) : Prop :=
  ∃ q b, resolve Inode.target t sys.links e = some q ∧ t.node q = some (.file b) ∧
    b ≠ .socket ∧ b ≠ .blockDevice

section Stat

variable {sys : System N} {t : Files N} {e : List N}

/-- What `stat` gives, it gives in a larger tree. -/
theorem stat_mono {s : Files N} (hsub : Sub s t) {f : List N} {mode : UInt32}
    (h : stat sys s f = some mode) :
  stat sys t f = some mode
  := by
  obtain ⟨q, hq, hmode⟩ := Option.bind_eq_some_iff.mp h
  rw [stat, resolve_mono hsub hq, Option.bind_some]
  split at hmode
  · cases hmode
  · rename_i hdir
    rw [hsub q _ hdir]
    exact hmode
  · rename_i b hfile
    rw [hsub q _ hfile]
    exact hmode

/-- The names of all entries are listed. -/
def Complete (sys : System N) (t : Files N) : Prop :=
  ∀ c p, t.node (c :: p) ≠ none → c ∈ sys.listing p

theorem Complete.sub {s : Files N} (h : Complete sys t) (hsub : Sub s t) :
  Complete sys s
  := by
  intro c p hne
  obtain ⟨x, hx⟩ := Option.ne_none_iff_exists'.mp hne
  apply h c p
  exact Option.ne_none_iff_exists'.mpr ⟨x, hsub _ x hx⟩

/-- Nothing is below an empty directory. -/
theorem Complete.eq_of_suffix (h : Complete sys t) {q e : List N}
    (hempty : ∀ c ∈ sys.listing q, t.node (c :: q) = none) (he : t.node e ≠ none)
    (hsuffix : q <:+ e) :
  e = q
  := by
  by_contra hne
  obtain ⟨c, hc⟩ := exists_cons_suffix hsuffix hne
  have hbelow : t.node (c :: q) ≠ none := mt (node_eq_none_of_suffix · hc) he
  exact hbelow (hempty c (h c q hbelow))

/-- A file that `stat` does not find, or finds to be of a type with the bit `S_IFDIR`. -/
def Stuck (sys : System N) (e : List N) (t : Files N) : Prop :=
  (∃ b, t.node e = some (.file b)) ∧
    ∀ mode, stat sys t e = some mode → mode &&& S_IFDIR ≠ 0

theorem Stuck.of_node_eq {s : Files N} {e : List N} (h : Stuck sys e t) (hsub : Sub s t)
    (hnode : s.node e = t.node e) :
  Stuck sys e s
  := by
  constructor
  · rw [hnode]
    exact h.1
  · intro mode hmode
    exact h.2 mode (stat_mono hsub hmode)

theorem mode_and_eq_zero_iff (b : Inode N) :
  b.mode &&& S_IFDIR = 0 ↔ b ≠ .socket ∧ b ≠ .blockDevice
  := by
  cases b with
  | regular =>
      rw [Inode.mode]
      exact iff_of_true rfl ⟨nofun, nofun⟩
  | fifo =>
      rw [Inode.mode]
      exact iff_of_true rfl ⟨nofun, nofun⟩
  | charDevice =>
      rw [Inode.mode]
      exact iff_of_true rfl ⟨nofun, nofun⟩
  | link =>
      rw [Inode.mode]
      exact iff_of_true rfl ⟨nofun, nofun⟩
  | blockDevice =>
      rw [Inode.mode]
      exact iff_of_false (by decide) fun h => h.2 rfl
  | socket =>
      rw [Inode.mode]
      exact iff_of_false (by decide) fun h => h.1 rfl

theorem leadsToPlain_iff :
  LeadsToPlain sys t e ↔ ∃ mode, stat sys t e = some mode ∧ mode &&& S_IFDIR = 0
  := by
  constructor
  · rintro ⟨q, b, hq, hb, hplain⟩
    use b.mode
    rw [stat, hq, Option.bind_some, hb]
    exact ⟨rfl, (mode_and_eq_zero_iff b).mpr hplain⟩
  · rintro ⟨mode, hmode, hbit⟩
    obtain ⟨q, hq, hnode⟩ := Option.bind_eq_some_iff.mp hmode
    split at hnode
    · cases hnode
    · cases hnode
      exact absurd hbit (by decide)
    · rename_i b hb
      cases hnode
      exact ⟨q, b, hq, hb, (mode_and_eq_zero_iff b).mp hbit⟩

/-- A file is stuck unless it leads to one that can be unlinked. -/
theorem stuck_or_leadsToPlain {b : Inode N} (h : t.node e = some (.file b)) :
  Stuck sys e t ∨ LeadsToPlain sys t e
  := by
  by_cases hplain : LeadsToPlain sys t e
  · exact .inr hplain
  · left
    use ⟨b, h⟩
    intro mode hmode hbit
    exact hplain (leadsToPlain_iff.mpr ⟨mode, hmode, hbit⟩)

theorem Stuck.not_leadsToPlain (h : Stuck sys e t) :
  ¬ LeadsToPlain sys t e
  := by
  intro hplain
  obtain ⟨mode, hmode, hbit⟩ := leadsToPlain_iff.mp hplain
  exact h.2 mode hmode hbit

theorem stat_of_dir (h : t.node e = some .dir) :
  stat sys t e = some S_IFDIR
  := by
  rw [stat, resolve_of_dir h, Option.bind_some, h]

theorem opendir_of_dir (h : t.node e = some .dir) :
  opendir sys t e = some e
  := by
  rw [opendir, resolve_of_dir h, Option.filter_some, if_pos (isDir_iff.mpr h)]

end Stat

/-! ### What a walk keeps -/

section Entries

variable {t t' : Files N}

theorem entries_invariant {I : Files N → Prop}
    {deeper once : Files N → List N → Except (Stop N) (Files N)}
    (hdeeper : ∀ s f s', I s → deeper s f = .ok s' → I s')
    (honce : ∀ s f s', I s → once s f = .ok s' → I s') (es : List (List N × Bool))
    (hI : I t) (h : entries deeper once es t = .ok t') :
  I t'
  := by
  induction es generalizing t with
  | nil =>
      cases h
      exact hI
  | cons e es ih =>
      obtain ⟨f, ftsD⟩ := e
      obtain ⟨s, hs, hrest⟩ := Except.bind_eq_ok.mp h
      apply ih _ hrest
      cases ftsD with
      | true => exact hdeeper t f s hI hs
      | false => exact honce t f s hI hs

end Entries

section Invariant

variable [DecidableEq N] {sys : System N} {dir : List N} {t t' : Files N}

/-- What every visit of an entry keeps holds after a walk. -/
theorem walk_invariant {I : Files N → Prop}
    (hvisit : ∀ s f s', I s → visit sys dir s f = .ok s' → I s') {fuel : ℕ}
    {ancestors : List (List N)} {f : List N} (hI : I t)
    (h : walk sys dir fuel ancestors t f = .ok t') :
  I t'
  := by
  induction fuel generalizing ancestors t t' f with
  | zero => cases h
  | succ fuel ih =>
      obtain ⟨s, hs, hrest⟩ := Except.bind_eq_ok.mp h
      have hIs := hvisit t f s hI hs
      split at hrest
      · cases hrest
        exact hIs
      · rename_i d hd
        obtain ⟨s', hs', hlast⟩ := Except.bind_eq_ok.mp hrest
        apply hvisit s' f t' _ hlast
        exact entries_invariant (fun _ _ _ hI h => ih hI h) hvisit _ hIs hs'

theorem rmdir_eq_some {f : List N} (h : rmdir sys t f = some t') :
  ∃ q, lresolve Inode.target t sys.links f = some q ∧ t.node q = some .dir ∧ t' = t.prune q ∧
    ∀ c ∈ sys.listing q, t.node (c :: q) = none
  := by
  obtain ⟨q, hq, h⟩ := Option.bind_eq_some_iff.mp h
  split at h
  · rename_i hcond
    cases h
    refine ⟨q, hq, isDir_iff.mp hcond.2.2.1, rfl, ?_⟩
    intro c hc
    exact Option.isNone_iff_eq_none.mp (hcond.2.2.2 c hc)
  · cases h

theorem unlink_eq_some {f : List N} (h : unlink sys t f = some t') :
  ∃ q, lresolve Inode.target t sys.links f = some q ∧ t.unlink q = some t'
  := by
  obtain ⟨q, hq, h⟩ := Option.bind_eq_some_iff.mp h
  split at h
  · exact ⟨q, hq, h⟩
  · cases h

/-- One visit of an entry: nothing is done, an empty directory is removed, or a file of a type
without the bit. -/
theorem visit_cases {f : List N} (h : visit sys dir t f = .ok t') :
  t' = t ∨
    (∃ q, t.node q = some .dir ∧ (∀ c ∈ sys.listing q, t.node (c :: q) = none) ∧
      t' = t.prune q) ∨
    ∃ q mode, lresolve Inode.target t sys.links f = some q ∧ stat sys t f = some mode ∧
      mode &&& S_IFDIR = 0 ∧ t.unlink q = some t'
  := by
  rw [visit] at h
  split at h
  · cases h
    exact .inl rfl
  · split at h
    · cases h
    · rename_i mode hmode
      split at h
      · cases hrm : rmdir sys t f with
        | none =>
            rw [hrm] at h
            cases h
            exact .inl rfl
        | some s =>
            rw [hrm] at h
            cases h
            obtain ⟨q, -, hdir, rfl, hempty⟩ := rmdir_eq_some hrm
            exact .inr (.inl ⟨q, hdir, hempty, rfl⟩)
      · rename_i hbit
        split at h
        · cases h
        · rename_i s hs
          cases h
          obtain ⟨q, hq, hunlink⟩ := unlink_eq_some hs
          exact .inr (.inr ⟨q, mode, hq, hmode, not_not.mp hbit, hunlink⟩)

theorem visit_sub {f : List N} (h : visit sys dir t f = .ok t') :
  Sub t' t
  := by
  rcases visit_cases h with rfl | ⟨q, -, -, rfl⟩ | ⟨q, mode, -, -, -, hunlink⟩
  · exact Sub.refl _
  · exact sub_prune t q
  · obtain ⟨hq, hothers⟩ := FileTree.unlink_eq_some hunlink
    intro p x hx
    rcases eq_or_ne p q with rfl | hne
    · rw [hq] at hx
      cases hx
    · rw [← hothers p hne, hx]

/-- A stuck file is never removed. -/
theorem Stuck.visit {e f : List N} (h : Stuck sys e t) (hcomplete : Complete sys t)
    (hvisit : visit sys dir t f = .ok t') :
  Stuck sys e t'
  := by
  obtain ⟨b, hb⟩ := h.1
  have he : t.node e ≠ none := Option.ne_none_iff_exists'.mpr ⟨_, hb⟩
  apply h.of_node_eq (visit_sub hvisit)
  rcases visit_cases hvisit with rfl | ⟨q, hdir, hempty, rfl⟩ | ⟨q, mode, hq, hmode, hbit, hunlink⟩
  · rfl
  · apply if_neg
    intro hsuffix
    obtain rfl := hcomplete.eq_of_suffix hempty he hsuffix
    rw [hb] at hdir
    cases hdir
  · apply (FileTree.unlink_eq_some hunlink).2
    rintro rfl
    rw [stat, resolve_eq_of_lresolve hq he] at hmode
    exact h.2 mode hmode hbit

/-- An entry that leads to a plain file was one that leads to no directory before. -/
theorem isFtsD_of_leadsToPlain {s : Files N} {e : List N} (hsub : Sub t s) (ancestors : List (List N))
    (h : LeadsToPlain sys t e) :
  isFtsD sys s ancestors e = false
  := by
  obtain ⟨q, b, hq, hb, -⟩ := h
  have hnot : s.isDir q = false := by
    rw [isDir, hsub q _ hb]
  rw [isFtsD, opendir, resolve_mono hsub hq, Option.filter_some, hnot]
  rfl

end Invariant

end DeleteDirectory
