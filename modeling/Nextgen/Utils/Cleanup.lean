import Mathlib.Data.Int.Notation
import Nextgen.Lib.Ownership
import Nextgen.Utils.Names

/-!
# What functions obtain and give back

Descriptors, mappings and blocks of memory in `map_file_in`, `map_file_out`, `copy_file_to`,
`sha256`, `sha512`, `generate_name` and `default_rand_range`.  A variable that is marked
`auto_close` or `auto_free` is cleaned up when its block is left, on whichever path that is, but
`close_fd` takes the descriptor zero for none.  A call of `asprintf` that fails leaves a null
pointer.
-/

open Bytes Ownership
open Utils (NameType period)

namespace Cleanup

/-- The resources of a process: a descriptor with its number, a mapping, a block of memory, and
what `BN_new` and `BN_bn2dec` give.  No two that are obtained are the same, even when a number is
used again. -/
inductive Resource where
  | descriptor (number id : ℕ)
  | mapping (id : ℕ)
  | block (id : ℕ)
  | bignum (id : ℕ)
  | decimal (id : ℕ)
  deriving DecidableEq, Repr

/-- The resources of the library for big numbers. -/
def Resource.isDrawn : Resource → Bool
  | bignum _ | decimal _ => true
  | descriptor _ _ | mapping _ | block _ => false

def Resource.isBlock : Resource → Bool
  | block _ => true
  | _ => false

/-- The descriptor zero, which a file gets if standard input is closed. -/
def Resource.isZero : Resource → Bool
  | descriptor 0 _ => true
  | _ => false

def Resource.id : Resource → ℕ
  | descriptor _ id | mapping id | block id | bignum id | decimal id => id

/-- The calls that obtain resources. -/
structure Calls where
  openFile : Allocator Resource
  mmap : Allocator Resource
  malloc : Allocator Resource
  bnNew : Allocator Resource
  bn2dec : Allocator Resource
  descriptors : ∀ {obtained r}, openFile.alloc obtained = some r →
    ∃ number id, r = .descriptor number id
  mappings : ∀ {obtained r}, mmap.alloc obtained = some r → ∃ id, r = .mapping id
  blocks : ∀ {obtained r}, malloc.alloc obtained = some r → ∃ id, r = .block id
  bignums : ∀ {obtained r}, bnNew.alloc obtained = some r → r.isDrawn = true
  decimals : ∀ {obtained r}, bn2dec.alloc obtained = some r → r.isDrawn = true

/-- An allocator of resources that differ from all others by their `id`. -/
def numbered (kind : List Resource → ℕ → Resource)
    (hkind : ∀ obtained id, (kind obtained id).id = id) : Allocator Resource where
  alloc obtained := some (kind obtained (obtained.foldr (fun r n => max n (r.id + 1)) 0))
  fresh := by
    intro obtained r hr
    have hlt : ∀ rs : List Resource, ∀ x ∈ rs,
        x.id < rs.foldr (fun r n => max n (r.id + 1)) 0 := by
      intro rs
      induction rs with
      | nil => exact List.forall_mem_nil _
      | cons y rs ih =>
          intro x hx
          obtain rfl | hx := List.mem_cons.mp hx
          · exact Nat.le_max_right _ _
          · exact Nat.lt_of_lt_of_le (ih x hx) (Nat.le_max_left _ _)
    intro hmem
    cases hr
    have hid := hlt obtained _ hmem
    rw [hkind] at hid
    exact Nat.lt_irrefl _ hid

/-- Calls that obtain what they ask for.  If standard input is closed, the first file that is
opened gets its descriptor. -/
def plainCalls (stdin : Bool) : Calls where
  openFile := numbered
    (fun obtained => .descriptor (if stdin || obtained.any Resource.isZero then 3 else 0))
    (fun _ _ => rfl)
  mmap := numbered (fun _ => .mapping) (fun _ _ => rfl)
  malloc := numbered (fun _ => .block) (fun _ _ => rfl)
  bnNew := numbered (fun _ => .bignum) (fun _ _ => rfl)
  bn2dec := numbered (fun _ => .decimal) (fun _ _ => rfl)
  descriptors := by
    rintro _ _ ⟨⟩
    exact ⟨_, _, rfl⟩
  mappings := by
    rintro _ _ ⟨⟩
    exact ⟨_, rfl⟩
  blocks := by
    rintro _ _ ⟨⟩
    exact ⟨_, rfl⟩
  bignums := by
    rintro _ _ ⟨⟩
    rfl
  decimals := by
    rintro _ _ ⟨⟩
    rfl

/-! ### The functions -/

/-- `close_fd`, the cleanup of `auto_close`.  The value zero stands for no descriptor. -/
def closeFd : Option Resource → Prog Resource Unit
  | some (.descriptor 0 _) => return ()
  | fd => release fd

/-- `cleanup_buf`, the cleanup of `auto_free`. -/
def cleanupBuf (ptr : Option Resource) : Prog Resource Unit :=
  release ptr

/-- `munmap`. -/
def munmap (buf : Option Resource) : Prog Resource Unit :=
  release buf

section Functions

variable (c : Calls)

/-- `asprintf`: the value returned and the string. -/
def asprintf : Prog Resource (ℤ × Option Resource) := do
  let string ← acquire c.malloc
  if string.isNone then return (-1, none) else
  return (0, string)

/-- `map_file_in`: the value returned and `*buf`. -/
def mapFileIn (fd : Option Resource) : Prog Resource (ℤ × Option Resource) := do
  use fd
  -- `fstat`
  if !(← succeeds) then return (-1, none) else
  let buf ← acquire c.mmap
  if buf.isNone then return (-1, none) else
  return (0, buf)

/-- `map_file_out`. -/
def mapFileOut (buf : Option Resource) : Prog Resource ℤ := do
  let fd ← acquire c.openFile
  leaving (closeFd fd) do
    if fd.isNone then return -1 else
    -- `lseek` and `write`
    if !(← succeeds) then return -1 else
    if !(← succeeds) then return -1 else
    let dst ← acquire c.mmap
    if dst.isNone then return -1 else
    use dst
    use buf
    munmap dst
    return 0

/-- `copy_file_to`. -/
def copyFileTo : Prog Resource ℤ := do
  let file ← acquire c.openFile
  leaving (closeFd file) do
    if file.isNone then return -1 else
    let (rtrn, fileBuffer) ← mapFileIn c file
    if rtrn < 0 then return -1 else
    let rtrn ← mapFileOut c fileBuffer
    if rtrn < 0 then
      munmap fileBuffer
      return -1
    else
    -- `fsync`
    if !(← succeeds) then
      munmap fileBuffer
      return -1
    else
    munmap fileBuffer
    return 0

/-- `default_rand_range` and `rand_range_crypto`, which have the same body, when `BN_set_word` and
`BN_rand_range` succeed.  Nothing that they obtain is given back. -/
def defaultRandRange (range : ℕ) : Prog Resource (Option (Fin (range + 1))) := do
  let random ← acquire c.bnNew
  if random.isNone then return none else
  let range1 ← acquire c.bnNew
  if range1.isNone then return none else
  let number ← ask
  let buf ← acquire c.bn2dec
  if buf.isNone then return none else
  -- `strtol`
  use buf
  return some (Fin.ofNat (range + 1) (number.getD 0))

/-- `sha256` and `sha512`, with the value that `*out` has before and after the call. -/
def printHash (input out : Option Resource) : Prog Resource (ℤ × Option Resource) := do
  if !(← succeeds) then return (-1, out) else
  use input
  if !(← succeeds) then return (-1, out) else
  if !(← succeeds) then return (-1, out) else
  let out ← acquire c.malloc
  if out.isNone then return (-1, out) else
  use out
  return (0, out)

/-- `generate_name`: the value returned and `*name`. -/
def generateName (extension : Option Buffer) (type : NameType) :
    Prog Resource (ℤ × Option Resource) := do
  if extension = none ∧ type ≠ .dirName then return (-1, none) else
  let randomData ← acquire c.malloc
  leaving (cleanupBuf randomData) do
    if randomData.isNone then return (-1, none) else
    -- `rand_bytes`
    use randomData
    if !(← succeeds) then return (-1, none) else
    let (rtrn, tmpBuf) ← printHash c randomData none
    leaving (cleanupBuf tmpBuf) do
      if rtrn < 0 then return (-1, none) else
      match type with
      | .dirName => asprintf c
      | .fileName =>
          match strrchr (extension.getD []) period with
          | some _ => asprintf c
          | none => do
              let (rtrn, ext) ← asprintf c
              leaving (cleanupBuf ext) do
                if rtrn < 0 then return (-1, none) else
                asprintf c

end Functions

/-! ### What they own -/

/-- A function returns zero with a new resource, or `-1` without one, and gives back all else
that it obtains. -/
def Yields (kind : ℕ → Resource) (pre : List Resource) (r : ℤ × Option Resource)
    (own : List Resource) : Prop :=
  (∃ id, r = (0, some (kind id)) ∧ own = kind id :: pre) ∨ r = (-1, none) ∧ own = pre

/-- A descriptor that `open` has given. -/
def Calls.Opens (c : Calls) (r : Resource) : Prop :=
  ∃ obtained, c.openFile.alloc obtained = some r

/-- Only descriptors zero are owned beside what was owned before. -/
def Zeros (c : Calls) (pre own : List Resource) : Prop :=
  ∃ zeros, own.Perm (zeros ++ pre) ∧ ∀ x ∈ zeros, x.isZero = true ∧ c.Opens x

/-- Something that still holds when a descriptor zero is owned, too. -/
def AllowsZeros {α : Type} (c : Calls) (Q : α → List Resource → Prop) : Prop :=
  ∀ x r own own', Q x own → own'.Perm (r :: own) → r.isZero = true → c.Opens r → Q x own'

/-- A function returns zero or `-1`, and gives back all that it obtains but descriptors zero. -/
def GivesBack (c : Calls) (pre : List Resource) (r : ℤ) (own : List Resource) : Prop :=
  (r = 0 ∨ r = -1) ∧ Zeros c pre own

section Specifications

variable {c : Calls} {pre : List Resource}

theorem Zeros.refl (c : Calls) (pre : List Resource) :
  Zeros c pre pre
  := ⟨[], .refl _, List.forall_mem_nil _⟩

/-- One more descriptor zero. -/
theorem Zeros.cons {x : Resource} {own own' : List Resource} (h : Zeros c pre own)
    (hperm : own'.Perm (x :: own)) (hzero : x.isZero = true) (hopens : c.Opens x) :
  Zeros c pre own'
  := by
  obtain ⟨zeros, hzeros, hall⟩ := h
  refine ⟨x :: zeros, hperm.trans (hzeros.cons x), ?_⟩
  exact List.forall_mem_cons.mpr ⟨⟨hzero, hopens⟩, hall⟩

theorem Zeros.trans {own own' : List Resource} (h : Zeros c pre own) (h' : Zeros c own own') :
  Zeros c pre own'
  := by
  obtain ⟨zeros, hperm, hall⟩ := h
  obtain ⟨zeros', hperm', hall'⟩ := h'
  refine ⟨zeros' ++ zeros, ?_, List.forall_mem_append.mpr ⟨hall', hall⟩⟩
  rw [List.append_assoc]
  exact hperm'.trans (hperm.append_left zeros')

/-- What a file has when it is opened. -/
theorem Calls.opened (c : Calls) {obtained : List Resource} {r : Resource}
    (h : c.openFile.alloc obtained = some r) :
  ∃ number id, r = .descriptor number id ∧ c.Opens r
  := by
  obtain ⟨number, id, rfl⟩ := c.descriptors h
  exact ⟨number, id, rfl, obtained, h⟩

/-- The cleanup of a descriptor, which is closed unless it is zero. -/
theorem Owns.closing {α : Type} {m : Prog Resource α} {Q : α → List Resource → Prop}
    {number id : ℕ} (hopens : c.Opens (.descriptor number id)) (hzeros : AllowsZeros c Q)
    (hblock : Owns pre m (Apart (some (.descriptor number id)) Q)) :
  Owns pre (leaving (closeFd (some (.descriptor number id))) m) Q
  := by
  cases number with
  | zero =>
      apply Owns.bind hblock
      rintro x own ⟨others, hperm, hx⟩
      exact Owns.pure (hzeros x _ others own hx hperm rfl hopens)
  | succ number =>
      apply Owns.leaving _ hblock
      exact owns_release _

/-- A call that leaves descriptors zero, before a program to which they do not matter. -/
theorem Owns.gaveBack {β : Type} {m : Prog Resource ℤ} {f : ℤ → Prog Resource β}
    {R : β → List Resource → Prop} (vars : List Resource)
    (hm : Owns (vars ++ pre) m (GivesBack c (vars ++ pre)))
    (hf : ∀ r pre', Zeros c pre pre' → Owns (vars ++ pre') (f r) R) :
  Owns (vars ++ pre) (m >>= f) R
  := by
  apply Owns.bind hm
  rintro r own ⟨-, zeros, hperm, hzeros⟩
  refine Owns.perm ?_ (hperm.trans (List.perm_append_comm_assoc zeros vars pre))
  exact hf r (zeros ++ pre) ⟨zeros, .refl _, hzeros⟩

theorem owns_cleanupBuf (ptr : Option Resource) :
  Owns ptr.toList (cleanupBuf ptr) fun _ own => own = []
  := owns_release ptr

theorem owns_munmap (buf : Option Resource) :
  Owns buf.toList (munmap buf) fun _ own => own = []
  := owns_release buf

theorem owns_asprintf :
  Owns pre (asprintf c) (Yields .block pre)
  := by
  apply Owns.acquired c.blocks
  · exact Owns.pure (.inr ⟨rfl, rfl⟩)
  · rintro _ ⟨id, rfl⟩
    exact Owns.pure (.inl ⟨id, rfl, rfl⟩)

theorem owns_mapFileIn {fd : Resource} (hfd : fd ∈ pre) :
  Owns pre (mapFileIn c (some fd)) (Yields .mapping pre)
  := by
  apply Owns.used hfd
  apply Owns.checked
  intro ok
  split
  · exact Owns.pure (.inr ⟨rfl, rfl⟩)
  apply Owns.acquired c.mappings
  · exact Owns.pure (.inr ⟨rfl, rfl⟩)
  · rintro _ ⟨id, rfl⟩
    exact Owns.pure (.inl ⟨id, rfl, rfl⟩)

/-- Resources of the library for big numbers are owned beside what was owned before. -/
def Draws (n : ℕ) (pre own : List Resource) : Prop :=
  ∃ drawn, own = drawn ++ pre ∧ (∀ x ∈ drawn, x.isDrawn = true) ∧ drawn.length = n

theorem Draws.refl (pre : List Resource) :
  Draws 0 pre pre
  := ⟨[], rfl, List.forall_mem_nil _, rfl⟩

theorem Draws.mem {n : ℕ} {own : List Resource} {x : Resource} (h : Draws n pre own)
    (hx : x ∈ pre) :
  x ∈ own
  := by
  obtain ⟨drawn, rfl, -, -⟩ := h
  exact List.mem_append_right drawn hx

theorem Draws.cons {n : ℕ} {own : List Resource} {x : Resource} (h : Draws n pre own)
    (hx : x.isDrawn = true) :
  Draws (n + 1) pre (x :: own)
  := by
  obtain ⟨drawn, rfl, hdrawn, rfl⟩ := h
  exact ⟨x :: drawn, rfl, List.forall_mem_cons.mpr ⟨hx, hdrawn⟩, rfl⟩

theorem Draws.trans {m n : ℕ} {own own' : List Resource} (h : Draws m pre own)
    (h' : Draws n own own') :
  Draws (m + n) pre own'
  := by
  obtain ⟨drawn, rfl, hdrawn, rfl⟩ := h
  obtain ⟨drawn', rfl, hdrawn', rfl⟩ := h'
  refine ⟨drawn' ++ drawn, (List.append_assoc _ _ _).symm, ?_, ?_⟩
  · exact List.forall_mem_append.mpr ⟨hdrawn', hdrawn⟩
  · rw [List.length_append, Nat.add_comm]

/-- Three resources are left when a number is drawn, and fewer when not. -/
theorem owns_defaultRandRange (range : ℕ) :
  Owns pre (defaultRandRange c range) fun r own =>
    (∃ number, r = some number ∧ Draws 3 pre own) ∨ ∃ n ≤ 2, r = none ∧ Draws n pre own
  := by
  apply Owns.acquired c.bignums
  · exact Owns.pure (.inr ⟨0, by decide, rfl, .refl pre⟩)
  intro random hrandom
  apply Owns.acquired c.bignums
  · exact Owns.pure (.inr ⟨1, by decide, rfl, (Draws.refl pre).cons hrandom⟩)
  intro range1 hrange
  have hdraws : Draws 2 pre (range1 :: random :: pre) := ((Draws.refl pre).cons hrandom).cons hrange
  apply Owns.asked
  intro number
  apply Owns.acquired c.decimals
  · exact Owns.pure (.inr ⟨2, Nat.le_refl 2, rfl, hdraws⟩)
  intro buf hbuf
  apply Owns.used List.mem_cons_self
  exact Owns.pure (.inl ⟨_, rfl, hdraws.cons hbuf⟩)

/-- A value is returned from a block in which a variable has the resource obtained last. -/
theorem owns_leave {r : ℤ} {own : List Resource} (hr : r = 0 ∨ r = -1) (x : Resource)
    (hzeros : Zeros c pre own) :
  Owns (x :: own) (pure r) (Apart (some x) (GivesBack c pre))
  := Owns.pure (Apart.head ⟨hr, hzeros⟩)

theorem givesBack_allowsZeros (c : Calls) (pre : List Resource) :
  AllowsZeros c (GivesBack c pre)
  := by
  rintro r x own own' ⟨hr, hown⟩ hperm hzero hopens
  exact ⟨hr, hown.cons hperm hzero hopens⟩

theorem owns_mapFileOut {buf : Resource} (hbuf : buf ∈ pre) :
  Owns pre (mapFileOut c (some buf)) (GivesBack c pre)
  := by
  apply Owns.acquired c.opened
  · apply Owns.leaving (owns_release none)
    exact Owns.pure (Apart.none ⟨.inr rfl, .refl c pre⟩)
  rintro _ ⟨number, id, rfl, hopens⟩
  apply Owns.closing hopens (givesBack_allowsZeros c pre)
  apply Owns.checked
  intro seeked
  split
  · exact owns_leave (.inr rfl) _ (.refl c pre)
  apply Owns.checked
  intro written
  split
  · exact owns_leave (.inr rfl) _ (.refl c pre)
  apply Owns.acquired c.mappings
  · exact owns_leave (.inr rfl) _ (.refl c pre)
  rintro _ ⟨dst, rfl⟩
  apply Owns.used List.mem_cons_self
  apply Owns.used (List.mem_cons_of_mem _ (List.mem_cons_of_mem _ hbuf))
  apply Owns.cleaned [] (owns_munmap (some (.mapping dst)))
  exact owns_leave (.inl rfl) _ (.refl c pre)

theorem owns_copyFileTo :
  Owns pre (copyFileTo c) (GivesBack c pre)
  := by
  apply Owns.acquired c.opened
  · apply Owns.leaving (owns_release none)
    exact Owns.pure (Apart.none ⟨.inr rfl, .refl c pre⟩)
  rintro _ ⟨number, id, rfl, hopens⟩
  apply Owns.closing hopens (givesBack_allowsZeros c pre)
  apply Owns.bind (owns_mapFileIn List.mem_cons_self)
  rintro _ _ (⟨buffer, rfl, rfl⟩ | ⟨rfl, rfl⟩)
  · apply Owns.gaveBack [.mapping buffer, .descriptor number id]
      (owns_mapFileOut List.mem_cons_self)
    intro rtrn pre' hzeros
    -- the mapping is removed on all three paths
    have hunmap : ∀ r : ℤ, r = 0 ∨ r = -1 →
        Owns (.mapping buffer :: .descriptor number id :: pre')
          (do munmap (some (.mapping buffer)); return r)
          (Apart (some (.descriptor number id)) (GivesBack c pre)) := by
      intro r hr
      apply Owns.cleaned [] (owns_munmap (some (.mapping buffer)))
      exact owns_leave hr _ hzeros
    split
    · exact hunmap _ (.inr rfl)
    apply Owns.checked
    intro synced
    split
    · exact hunmap _ (.inr rfl)
    · exact hunmap _ (.inl rfl)
  · exact owns_leave (.inr rfl) _ (.refl c pre)

/-- `sha256` and `sha512` leave `*out` as it was, or make it a null pointer or a new block. -/
theorem owns_printHash {input : Resource} (out : Option Resource) (hinput : input ∈ pre) :
  Owns pre (printHash c (some input) out) fun r own =>
    Yields .block pre r own ∨ r = (-1, out) ∧ own = pre
  := by
  apply Owns.checked
  intro initialised
  split
  · exact Owns.pure (.inr ⟨rfl, rfl⟩)
  apply Owns.used hinput
  apply Owns.checked
  intro updated
  split
  · exact Owns.pure (.inr ⟨rfl, rfl⟩)
  apply Owns.checked
  intro final
  split
  · exact Owns.pure (.inr ⟨rfl, rfl⟩)
  apply Owns.acquired c.blocks
  · exact Owns.pure (.inl (.inr ⟨rfl, rfl⟩))
  rintro _ ⟨id, rfl⟩
  apply Owns.used List.mem_cons_self
  exact Owns.pure (.inl (.inl ⟨id, rfl, rfl⟩))

/-- What a block yields beside the resource of a variable. -/
theorem Yields.apart {kind : ℕ → Resource} {x : Resource} {r : ℤ × Option Resource}
    {own : List Resource} (h : Yields kind (x :: pre) r own) :
  Apart (some x) (Yields kind pre) r own
  := by
  obtain ⟨id, rfl, rfl⟩ | ⟨rfl, rfl⟩ := h
  · exact ⟨kind id :: pre, .swap _ _ _, .inl ⟨id, rfl, rfl⟩⟩
  · exact ⟨pre, .refl _, .inr ⟨rfl, rfl⟩⟩

theorem owns_generateName (extension : Option Buffer) (type : NameType) :
  Owns pre (generateName c extension type) (Yields .block pre)
  := by
  have hfail : ∀ {pre : List Resource}, Owns pre (pure (-1, none)) (Yields .block pre) :=
    Owns.pure (.inr ⟨rfl, rfl⟩)
  unfold generateName
  split
  · exact hfail
  apply Owns.acquired c.blocks
  · apply Owns.leaving (owns_cleanupBuf none)
    exact Owns.pure (Apart.none (.inr ⟨rfl, rfl⟩))
  rintro _ ⟨randomData, rfl⟩
  apply Owns.leaving (owns_cleanupBuf (some (.block randomData)))
  refine Owns.imp ?_ fun _ _ => Yields.apart
  apply Owns.used List.mem_cons_self
  apply Owns.checked
  intro drawn
  split
  · exact hfail
  apply Owns.bind (owns_printHash none List.mem_cons_self)
  intro r own hr
  have hyields : Yields .block (.block randomData :: pre) r own := hr.elim id .inr
  obtain ⟨tmpBuf, rfl, rfl⟩ | ⟨rfl, rfl⟩ := hyields
  · apply Owns.leaving (owns_cleanupBuf (some (.block tmpBuf)))
    refine Owns.imp ?_ fun _ _ => Yields.apart
    cases type with
    | dirName => exact owns_asprintf
    | fileName =>
        show Owns _ (match strrchr (extension.getD []) period with | some _ => _ | none => _) _
        cases strrchr (extension.getD []) period with
        | some _ => exact owns_asprintf
        | none =>
            apply Owns.bind owns_asprintf
            rintro _ _ (⟨ext, rfl, rfl⟩ | ⟨rfl, rfl⟩)
            · apply Owns.leaving (owns_cleanupBuf (some (.block ext)))
              exact owns_asprintf.imp fun _ _ => Yields.apart
            · apply Owns.leaving (owns_cleanupBuf none)
              exact Owns.pure (Apart.none (.inr ⟨rfl, rfl⟩))
  · apply Owns.leaving (owns_cleanupBuf none)
    exact Owns.pure (Apart.none (.inr ⟨rfl, rfl⟩))

end Specifications

end Cleanup
