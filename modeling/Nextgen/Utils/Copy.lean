import Mathlib.Data.Int.Notation
import Nextgen.Lib.FileTree
import Nextgen.Lib.Bytes

/-!
# Copying a file

`copy_file_to` maps the source into memory and writes the destination through a second
mapping.  The destination is truncated and extended before the last calls that can fail.
-/

open Bytes

universe u

namespace Utils

variable {N : Type u} [DecidableEq N]

/-- The system calls of `copy_file_to` whose failure it notices. -/
inductive CopyCall where
  | openSrc
  | fstat
  | mmapSrc
  | openDst
  | lseek
  | write
  | mmapDst
  | fsync
  deriving DecidableEq, Repr

/-- `get_file_size`.  A size is at most that of an `off_t`, so that the casts between it and
`uint64_t` keep it. -/
def getFileSize (t : FileTree N Buffer) (src : List N) (failing : Option CopyCall) : Option ℕ :=
  match t.node src with
  | some (.file contents) =>
      if failing = some .fstat then none else some contents.length
  -- `S_ISREG`
  | _ => none

/-- `map_file_in`: the mapped bytes of the file.  `mmap` rejects the length zero. -/
def mapFileIn (t : FileTree N Buffer) (src : List N) (failing : Option CopyCall) :
    Option Buffer :=
  match getFileSize t src failing with
  | none => none
  | some size => if failing = some .mmapSrc ∨ size = 0 then none else t.read src

/-- `map_file_out`: the value it returns and the files. -/
def mapFileOut (t : FileTree N Buffer) (path : List N) (buf : Buffer)
    (failing : Option CopyCall) : ℤ × FileTree N Buffer :=
  match t.create path [] with
  | none => (-1, t)
  | some opened =>
      if failing = some .openDst then (-1, t)
      else if failing = some .lseek ∨ (buf.length : ℤ) - 1 < 0 then (-1, opened)
      else if failing = some .write then (-1, opened)
      else
        -- the byte written at `size - 1`, after a hole
        let extended := opened.store path (List.replicate (buf.length - 1) 0 ++ [0])
        if failing = some .mmapDst then (-1, extended) else (0, extended.store path buf)

/-- `copy_file_to`, when the call `failing`, if any, fails for lack of resources. -/
def copyFileTo (t : FileTree N Buffer) (src dst : List N) (failing : Option CopyCall) :
    ℤ × FileTree N Buffer :=
  if failing = some .openSrc ∨ (t.node src).isNone then (-1, t)
  else
    match mapFileIn t src failing with
    | none => (-1, t)
    | some fileBuffer =>
        let out := mapFileOut t dst fileBuffer failing
        if out.1 < 0 then (-1, out.2)
        -- `fsync` is called on the source
        else if failing = some .fsync then (-1, out.2)
        else (0, out.2)

/-- A regular file to be copied, and another path at which a file can be created.  A file has one
path only: the destination is no other name of the source, by a link or another spelling. -/
structure CopyTask (N : Type u) [DecidableEq N] where
  files : FileTree N Buffer
  src : List N
  dst : List N
  contents : Buffer
  regular : files.read src = some contents
  creatable : (files.create dst []).isSome
  different : src ≠ dst

/-- The value that `copy_file_to` returns and the files after it. -/
def CopyTask.copied (c : CopyTask N) (failing : Option CopyCall) : ℤ × FileTree N Buffer :=
  copyFileTo c.files c.src c.dst failing

/-- Without a failure the file is copied, and when `-1` is returned the destination is as it
was. -/
def CopyTask.CopiesOrKeeps (c : CopyTask N) (failing : Option CopyCall) : Prop :=
  (failing = none →
    (c.copied failing).1 = 0 ∧ (c.copied failing).2.read c.dst = some c.contents ∧
      (c.copied failing).2.node c.src = c.files.node c.src) ∧
  ((c.copied failing).1 = -1 → (c.copied failing).2.node c.dst = c.files.node c.dst)

/-- The source is not empty if no call fails, and otherwise the destination had the contents
that are left there when the call fails. -/
def CopyTask.Safe (c : CopyTask N) : Option CopyCall → Prop
  | none => c.contents ≠ []
  | some .lseek => c.contents = [] ∨ c.files.read c.dst = some []
  | some .write => c.contents = [] ∨ c.files.read c.dst = some []
  | some .mmapDst =>
      c.contents = [] ∨ c.files.read c.dst = some (List.replicate c.contents.length 0)
  | some .fsync => c.contents = [] ∨ c.files.read c.dst = some c.contents
  | some _ => True

/-! ### The steps -/

section Steps

variable (c : CopyTask N) {failing : Option CopyCall}

/-- The destination is a file with the given contents, and nothing else has changed. -/
def CopyTask.Leaves (b : Buffer) (t : FileTree N Buffer) : Prop :=
  t.read c.dst = some b ∧ ∀ q, q ≠ c.dst → t.node q = c.files.node q

theorem CopyTask.exists_opened :
  ∃ opened, c.files.create c.dst [] = some opened ∧ c.Leaves [] opened
  := by
  obtain ⟨opened, h⟩ := Option.isSome_iff_exists.mp c.creatable
  use opened, h
  apply FileTree.create_eq_some h

theorem CopyTask.Leaves.store {c : CopyTask N} {b : Buffer} {t : FileTree N Buffer}
    (h : c.Leaves b t) (b' : Buffer) :
  c.Leaves b' (t.store c.dst b')
  := by
  constructor
  · apply FileTree.read_store_self
    rw [h.1]
    rfl
  · intro q hq
    rw [FileTree.node_store_of_ne hq, h.2 q hq]

/-- The destination is as it was if it had the contents it is left with. -/
theorem CopyTask.Leaves.node_eq_iff {c : CopyTask N} {b : Buffer} {t : FileTree N Buffer}
    (h : c.Leaves b t) :
  t.node c.dst = c.files.node c.dst ↔ c.files.read c.dst = some b
  := by
  rw [FileTree.read_eq_some.mp h.1, FileTree.read_eq_some]
  exact eq_comm

/-- The mapped source. -/
theorem CopyTask.mapFileIn_eq :
  mapFileIn c.files c.src failing =
    if failing = some .fstat ∨ failing = some .mmapSrc ∨ c.contents = [] then none
    else some c.contents
  := by
  have hnode := FileTree.read_eq_some.mp c.regular
  rw [mapFileIn, getFileSize, hnode]
  by_cases hfstat : failing = some .fstat
  · simp [hfstat]
  · simp [hfstat, c.regular]

/-- An empty source cannot be mapped. -/
theorem CopyTask.copied_of_empty (h : c.contents = []) :
  c.copied failing = (-1, c.files)
  := by
  rw [copied, copyFileTo, c.mapFileIn_eq]
  simp [h]

/-- `map_file_out` on the contents of the source. -/
theorem CopyTask.mapFileOut_eq (h : c.contents ≠ []) (failing : Option CopyCall) :
  ∃ opened extended full, c.Leaves [] opened ∧
    c.Leaves (List.replicate c.contents.length 0) extended ∧ c.Leaves c.contents full ∧
    mapFileOut c.files c.dst c.contents failing =
      if failing = some .openDst then (-1, c.files)
      else if failing = some .lseek then (-1, opened)
      else if failing = some .write then (-1, opened)
      else if failing = some .mmapDst then (-1, extended)
      else (0, full)
  := by
  obtain ⟨opened, hcreate, hopened⟩ := c.exists_opened
  have hpos := List.length_pos_iff.mpr h
  have hzeros : List.replicate (c.contents.length - 1) (0 : UInt8) ++ [0]
      = List.replicate c.contents.length 0 := by
    rw [← List.replicate_succ', Nat.sub_add_cancel hpos]
  have hextended := hopened.store (List.replicate c.contents.length 0)
  refine ⟨opened, _, _, hopened, hextended, hextended.store c.contents, ?_⟩
  have hseek : ¬ (c.contents.length : ℤ) - 1 < 0 := by omega
  simp only [mapFileOut, hcreate, hseek, or_false, hzeros]

/-- `copy_file_to` on a source that is not empty, by the call that fails. -/
theorem CopyTask.copied_of_ne_nil (h : c.contents ≠ []) (failing : Option CopyCall) :
  ∃ opened extended full, c.Leaves [] opened ∧
    c.Leaves (List.replicate c.contents.length 0) extended ∧ c.Leaves c.contents full ∧
    c.copied failing =
      match failing with
      | none => (0, full)
      | some .lseek => (-1, opened)
      | some .write => (-1, opened)
      | some .mmapDst => (-1, extended)
      | some .fsync => (-1, full)
      | some _ => (-1, c.files)
  := by
  obtain ⟨opened, extended, full, hopened, hextended, hfull, hout⟩ :=
    c.mapFileOut_eq h failing
  refine ⟨opened, extended, full, hopened, hextended, hfull, ?_⟩
  have hnode := FileTree.read_eq_some.mp c.regular
  rw [copied, copyFileTo, c.mapFileIn_eq, hnode]
  cases failing with
  | none => simp_all
  | some call => cases call <;> simp_all

end Steps

/-- `copy_file_to` copies the source and otherwise keeps the destination exactly when the
source is not empty, or a call fails that either is made before the destination is opened or
leaves the destination with the contents it had. -/
theorem CopyTask.copiesOrKeeps_iff (c : CopyTask N) (failing : Option CopyCall) :
  c.CopiesOrKeeps failing ↔ c.Safe failing
  := by
  by_cases hempty : c.contents = []
  · rw [CopiesOrKeeps, c.copied_of_empty hempty]
    cases failing with
    | none => simp [Safe, hempty]
    | some call => cases call <;> simp [Safe, hempty]
  · obtain ⟨opened, extended, full, hopened, hextended, hfull, hcopied⟩ :=
      c.copied_of_ne_nil hempty failing
    rw [CopiesOrKeeps, hcopied]
    cases failing with
    | none => simp [Safe, hempty, hfull.1, hfull.2 c.src c.different]
    | some call =>
        cases call <;>
          simp [Safe, hempty, hopened.node_eq_iff, hextended.node_eq_iff, hfull.node_eq_iff]

/-- Two files in one directory, of which the first is copied to the second. -/
def copyTask (contents before : Buffer) : CopyTask String where
  files :=
    { node := fun p =>
        if p = [] then some .dir
        else if p = ["seed"] then some (.file contents)
        else if p = ["copy"] then some (.file before)
        else none
      parent := by
        intro c p h
        have hp : p = [] := by
          by_contra hne
          apply h
          simp [hne]
        rw [hp]
        rfl }
  src := ["seed"]
  dst := ["copy"]
  contents := contents
  regular := rfl
  creatable := rfl
  different := by decide

/-- An empty file is not copied, and when the write fails the destination has lost its
contents. -/
theorem not_copiesOrKeeps_empty_and_write :
  ((copyTask [] [1]).copied none).1 = -1 ∧ ¬ (copyTask [] [1]).CopiesOrKeeps none ∧
    ((copyTask [1] [2]).copied (some .write)).1 = -1 ∧
    ((copyTask [1] [2]).copied (some .write)).2.read ["copy"] = some [] ∧
    ¬ (copyTask [1] [2]).CopiesOrKeeps (some .write)
  := by
  refine ⟨rfl, ?_, rfl, rfl, ?_⟩
  · rintro ⟨hcopied, -⟩
    cases (hcopied rfl).1
  · rintro ⟨-, hkept⟩
    cases hkept rfl

end Utils
