import Mathlib.Data.Nat.Notation
import Mathlib.Tactic.Common

/-!
# Trees of files

A file system without links.  A path is the list of its names, the last one first, so that
`c :: p` is the entry `c` of the directory `p`.  Whatever exists is in a directory, and so nothing
exists below a file.
-/

universe u v

/-- A directory, or a file with its contents. -/
inductive FileNode (B : Type v) where
  | dir
  | file (contents : B)

/-- What there is at each path. -/
structure FileTree (N : Type u) (B : Type v) where
  node : List N → Option (FileNode B)
  parent : ∀ c p, node (c :: p) ≠ none → node p = some .dir

namespace FileTree

/-- The bit that the type of a directory has in `st_mode`. -/
abbrev S_IFDIR : UInt32 := 0o040000

variable {N : Type u} {B : Type v} (t : FileTree N B)

def isDir (p : List N) : Bool :=
  match t.node p with
  | some .dir => true
  | _ => false

/-- The contents of a file. -/
def read (p : List N) : Option B :=
  match t.node p with
  | some (.file b) => some b
  | _ => none

section Basic

variable {t} {p : List N} {b : B}

theorem isDir_iff :
  t.isDir p ↔ t.node p = some .dir
  := by
  rw [isDir]
  split
  · simp [*]
  · rename_i hne
    simp only [Bool.false_eq_true, false_iff]
    apply hne

theorem read_eq_some :
  t.read p = some b ↔ t.node p = some (.file b)
  := by
  rw [read]
  split
  · rename_i b' hb'
    simp [hb']
  · rename_i hne
    simp only [reduceCtorEq, false_iff]
    apply hne b

theorem read_congr {t' : FileTree N B} (h : t'.node p = t.node p) :
  t'.read p = t.read p
  := by
  rw [read, read, h]

/-- Nothing exists below a file. -/
theorem node_below (h : t.read p = some b) (c : N) :
  t.node (c :: p) = none
  := by
  by_contra hne
  have hdir := t.parent c p hne
  rw [read_eq_some.mp h] at hdir
  cases hdir

end Basic

variable [DecidableEq N]

/-- Replace the contents of a file that exists. -/
def store (p : List N) (b : B) : FileTree N B where
  node q := if q = p ∧ (t.read p).isSome then some (.file b) else t.node q
  parent := by
    intro c q h
    have hold : t.node (c :: q) ≠ none := by
      split at h
      · rename_i hfile
        obtain ⟨b', hb'⟩ := Option.isSome_iff_exists.mp hfile.2
        rw [hfile.1, read_eq_some.mp hb']
        simp
      · apply h
    have hdir := t.parent c q hold
    rw [if_neg, hdir]
    rintro ⟨rfl, hfile⟩
    simp [read, hdir] at hfile

/-- Create a file in a directory, or replace its contents. -/
def create : List N → B → Option (FileTree N B)
  | [], _ => none
  | c :: p, b =>
      if h : t.isDir p ∧ ¬ t.isDir (c :: p) then
        some
          { node := fun q => if q = c :: p then some (.file b) else t.node q
            parent := by
              intro d q hnode
              have hdir : t.node q = some .dir := by
                split at hnode
                · rename_i heq
                  cases heq
                  apply isDir_iff.mp h.1
                · apply t.parent d q hnode
              rw [if_neg, hdir]
              rintro rfl
              apply h.2 (isDir_iff.mpr hdir) }
      else none

/-- Remove a file. -/
def unlink (p : List N) : Option (FileTree N B) :=
  if h : (t.read p).isSome then
    some
      { node := fun q => if q = p then none else t.node q
        parent := by
          intro c q hnode
          split at hnode
          · cases hnode rfl
          · have hdir := t.parent c q hnode
            rw [if_neg, hdir]
            rintro rfl
            simp [read, hdir] at h }
  else none

/-- Make a directory where there is nothing. -/
def mkdir : List N → Option (FileTree N B)
  | [] => none
  | c :: p =>
      if h : t.isDir p ∧ (t.node (c :: p)).isNone then
        some
          { node := fun q => if q = c :: p then some .dir else t.node q
            parent := by
              intro d q hnode
              split at hnode
              · rename_i heq
                cases heq
                rw [if_neg (List.cons_ne_self _ _).symm, isDir_iff.mp h.1]
              · have hdir := t.parent d q hnode
                split
                · rfl
                · apply hdir }
      else none

/-! ### What the operations change -/

section Changes

variable {t} {t' : FileTree N B} {p q : List N} {b : B}

theorem read_store_self (h : (t.read p).isSome) :
  (t.store p b).read p = some b
  := by
  apply read_eq_some.mpr
  rw [store]
  apply if_pos ⟨rfl, h⟩

theorem node_store_of_ne (h : q ≠ p) :
  (t.store p b).node q = t.node q
  := by
  rw [store]
  apply if_neg
  rintro ⟨heq, -⟩
  apply h heq

/-- Storing creates and removes nothing. -/
theorem node_store_eq_none :
  (t.store p b).node q = none ↔ t.node q = none
  := by
  by_cases hq : q = p
  · subst hq
    simp only [store, true_and]
    split
    · rename_i hfile
      obtain ⟨b', hb'⟩ := Option.isSome_iff_exists.mp hfile
      simp [read_eq_some.mp hb']
    · rfl
  · rw [node_store_of_ne hq]

theorem create_eq_some (h : t.create p b = some t') :
  t'.read p = some b ∧ ∀ q, q ≠ p → t'.node q = t.node q
  := by
  cases p with
  | nil => cases h
  | cons c p =>
      rw [create] at h
      split at h
      · cases h
        constructor
        · apply read_eq_some.mpr
          apply if_pos rfl
        · intro q hq
          apply if_neg hq
      · cases h

/-- Nothing can be created in a directory that would be below a file. -/
theorem create_below (h : t.read p = some b) (c d : N) (b' : B) :
  t.create (c :: d :: p) b' = none
  := by
  rw [create, dif_neg]
  rintro ⟨hdir, -⟩
  rw [isDir, node_below h] at hdir
  cases hdir

theorem unlink_eq_some (h : t.unlink p = some t') :
  t'.node p = none ∧ ∀ q, q ≠ p → t'.node q = t.node q
  := by
  rw [unlink] at h
  split at h
  · cases h
    constructor
    · apply if_pos rfl
    · intro q hq
      apply if_neg hq
  · cases h

theorem mkdir_eq_some (h : t.mkdir p = some t') :
  t.node p = none ∧ t'.node p = some .dir ∧ ∀ q, q ≠ p → t'.node q = t.node q
  := by
  cases p with
  | nil => cases h
  | cons c p =>
      rw [mkdir] at h
      split at h
      · rename_i hnew
        cases h
        refine ⟨Option.isNone_iff_eq_none.mp hnew.2, if_pos rfl, ?_⟩
        intro q hq
        apply if_neg hq
      · cases h

end Changes

end FileTree
