import Nextgen.Utils.Cleanup

/-!
# What the loop of the file fuzzer obtains and gives back

`start_main_file_loop` of `file.c` with `mutate_file` of `mutate.c`, the default random generator,
and `run_test_case` and `handle_crash` of `file-freebsd.c`.  In each iteration a seed is opened and
mapped and strings for the names are made.  The descriptor and the strings belong to variables
that are cleaned up, but for the descriptor zero; the mapping is removed by `mem_free_shared`, which
is reached only if all calls before it succeed.
-/

open Bytes Ownership Cleanup

namespace FileResources

/-- Why `start_main_file_loop` returns before it is stopped. -/
inductive Failure where
  | getFile
  | mapFileIn
  | mutateFile
  | generateName
  | asprintf
  | mapFileOut
  | runTestCase
  | unlink
  deriving DecidableEq, Repr

/-- Where the loop is: it goes on, it was stopped, or it returned after a failure. -/
inductive Loop where
  | running
  | stopped
  | failed (f : Failure)
  deriving DecidableEq, Repr

/-! ### The functions -/

section Functions

variable (c : Calls) {last : ℕ} (fileArray : Fin (last + 1) → Buffer)

/-- What `get_file` returns and its `*file` and `*extension`, with the text of the extension. -/
structure GotFile where
  rtrn : ℤ
  file : Option Resource
  fileExtension : Option Resource
  text : Buffer

/-- `get_file`, with the extensions of the files in `file_array`. -/
def getFile : Prog Resource GotFile := do
  match ← defaultRandRange c last with
  | none => return ⟨-1, none, none, []⟩
  | some offset =>
      let file ← acquire c.openFile
      if file.isNone then return ⟨-1, file, none, []⟩ else
      let (rtrn, extension) ← asprintf c
      if rtrn < 0 then return ⟨-1, file, extension, []⟩ else
      return ⟨0, file, extension, fileArray offset⟩

/-- `flip_byte_mutator`. -/
def flipByteMutator (size : ℕ) (file : Option Resource) : Prog Resource ℤ := do
  match ← defaultRandRange c size with
  | none => return -1
  | some _ =>
      use file
      return 0

/-- `flip_bit_mutator`. -/
def flipBitMutator (size : ℕ) (file : Option Resource) : Prog Resource ℤ := do
  match ← defaultRandRange c size with
  | none => return -1
  | some _ =>
      match ← defaultRandRange c 8 with
      | none => return -1
      | some _ =>
          use file
          return 0

/-- `xor_mutator`. -/
def xorMutator (_size : ℕ) (_file : Option Resource) : Prog Resource ℤ := return 0

/-- `mutator_array`. -/
def mutatorArray : Fin 3 → ℕ → Option Resource → Prog Resource ℤ
  | 0 => flipByteMutator c
  | 1 => flipBitMutator c
  | 2 => xorMutator

/-- `mutate_file`, which calls `mutate_file_randomly` for every file. -/
def mutateFile (size : ℕ) (file : Option Resource) : Prog Resource ℤ := do
  match ← defaultRandRange c 2 with
  | none => return -1
  | some offset => mutatorArray c offset size file

/-- `handle_crash`. -/
def handleCrash (extension : Buffer) : Prog Resource ℤ := do
  let (rtrn, fileName) ← Cleanup.generateName c (some extension) .fileName
  leaving (cleanupBuf fileName) do
    if rtrn < 0 then return -1 else
    let (rtrn, path) ← asprintf c
    leaving (cleanupBuf path) do
      if rtrn < 0 then return -1 else
      let rtrn ← copyFileTo c
      if rtrn < 0 then return -1 else
      return 0

/-- `run_test_case` in the parent.  An error of `pthread_create` is a positive number, which is
not noticed. -/
def runTestCase (extension : Buffer) : Prog Resource ℤ := do
  -- `fork`
  if !(← succeeds) then return -1 else
  -- the target was terminated by `SIGSEGV` or `SIGBUS`
  if ← succeeds then
    let _ ← handleCrash c extension
    return 0
  else
  return 0

/-- An iteration of `start_main_file_loop` after `mutate_file`.  `log_file` does nothing and
returns zero. -/
def runMutated (text : Buffer) (fileBuffer : Option Resource) : Prog Resource Loop := do
  let (rtrn, fileName) ← Cleanup.generateName c (some text) .fileName
  leaving (cleanupBuf fileName) do
    if rtrn < 0 then return .failed .generateName else
    let (rtrn, filePath) ← Cleanup.asprintf c
    leaving (cleanupBuf filePath) do
      if rtrn < 0 then return .failed .asprintf else
      let rtrn ← Cleanup.mapFileOut c fileBuffer
      if rtrn < 0 then return .failed .mapFileOut else
      let rtrn ← runTestCase c text
      if rtrn < 0 then return .failed .runTestCase else
      -- `mem_free_shared`
      munmap fileBuffer
      if !(← succeeds) then return .failed .unlink else
      return .running

/-- An iteration of `start_main_file_loop` after `map_file_in`. -/
def test (text : Buffer) (fileSize : ℕ) (fileBuffer : Option Resource) : Prog Resource Loop := do
  let rtrn ← mutateFile c fileSize fileBuffer
  if rtrn < 0 then return .failed .mutateFile else
  runMutated c text fileBuffer

/-- An iteration of `start_main_file_loop`. -/
def iteration : Prog Resource Loop := do
  let got ← getFile c fileArray
  leaving (closeFd got.file) do
    leaving (cleanupBuf got.fileExtension) do
      if got.rtrn < 0 then return .failed .getFile else
      let (rtrn, fileBuffer) ← Cleanup.mapFileIn c got.file
      if rtrn < 0 then return .failed .mapFileIn else
      let fileSize ← ask
      test c got.text (fileSize.getD 0) fileBuffer

/-- The first iterations of `start_main_file_loop`. -/
def startMainFileLoop : ℕ → Prog Resource Loop
  | 0 => return .running
  | n + 1 => do
      -- `stop_ptr`
      if ← succeeds then return .stopped else
      match ← iteration c fileArray with
      | .running => startMainFileLoop n
      | other => return other

end Functions

/-! ### What an iteration leaves -/

/-- The failures between `map_file_in` and `mem_free_shared`. -/
def Failure.leavesMapping : Failure → Bool
  | mutateFile | generateName | asprintf | mapFileOut | runTestCase => true
  | getFile | mapFileIn | unlink => false

/-- The resources that are neither of the library for big numbers nor a descriptor zero. -/
def ordinary (rs : List Resource) : List Resource :=
  rs.filter fun r => !r.isDrawn && !r.isZero

/-- The mapping of the seed is left after a failure while it is there, and nothing otherwise. -/
def Leaves : Loop → List Resource → Prop
  | .failed f, left => if f.leavesMapping then ∃ id, left = [.mapping id] else left = []
  | _, left => left = []

/-- What the loop has left: a mapping or nothing, descriptors zero, and at least some resources of
the library for big numbers if it goes on. -/
structure Leftover (c : Calls) (least : ℕ) (r : Loop) (left : List Resource) : Prop where
  leaves : Leaves r (ordinary left)
  zeros : ∀ x ∈ left, x.isZero = true → c.Opens x
  draws : r = .running → least ≤ left.countP Resource.isDrawn

/-- What is owned is what was owned before and what is left. -/
def Left (c : Calls) (least : ℕ) (pre : List Resource) (r : Loop) (own : List Resource) : Prop :=
  ∃ left, own.Perm (left ++ pre) ∧ Leftover c least r left

section Leftovers

variable {c : Calls} {least : ℕ} {r : Loop} {pre own own' : List Resource}

/-- What was left before is left, too. -/
theorem Left.append {lost : List Resource} (h : Left c least own r own')
    (hperm : own.Perm (lost ++ pre)) (hordinary : ordinary lost = [])
    (hzeros : ∀ x ∈ lost, x.isZero = true → c.Opens x) :
  Left c (least + lost.countP Resource.isDrawn) pre r own'
  := by
  obtain ⟨left, hperm', hleaves, hzeros', hdraws⟩ := h
  refine ⟨left ++ lost, ?_, ?_, List.forall_mem_append.mpr ⟨hzeros', hzeros⟩, ?_⟩
  · rw [List.append_assoc]
    exact hperm'.trans (hperm.append_left left)
  · rw [ordinary, List.filter_append]
    show Leaves r (ordinary left ++ ordinary lost)
    rw [hordinary, List.append_nil]
    exact hleaves
  · intro hr
    rw [List.countP_append]
    exact Nat.add_le_add_right (hdraws hr) _

theorem Left.draws {n : ℕ} (h : Left c least own r own') (hdraws : Draws n pre own) :
  Left c (least + n) pre r own'
  := by
  obtain ⟨drawn, rfl, hdrawn, rfl⟩ := hdraws
  have hcount : drawn.countP Resource.isDrawn = drawn.length := List.countP_eq_length.mpr hdrawn
  rw [← hcount]
  apply h.append (.refl _)
  · apply List.filter_eq_nil_iff.mpr
    intro x hx
    simp [hdrawn x hx]
  · intro x hx hzero
    cases x with
    | descriptor number id => cases hdrawn _ hx
    | _ => cases hzero

theorem Left.zeros (h : Left c least own r own') (hzeros : Zeros c pre own) :
  Left c least pre r own'
  := by
  obtain ⟨zeros, hperm, hall⟩ := hzeros
  have hcount : zeros.countP Resource.isDrawn = 0 := by
    apply List.countP_eq_zero.mpr
    intro x hx hdrawn
    cases x with
    | descriptor number id => cases hdrawn
    | _ => cases (hall _ hx).1
  have hleft := h.append hperm ?_ fun x hx _ => (hall x hx).2
  · rw [hcount] at hleft
    exact hleft
  · apply List.filter_eq_nil_iff.mpr
    intro x hx
    simp [(hall x hx).1]

/-- An iteration that completes, and then what comes after it. -/
theorem Left.trans {least' : ℕ} (h : Left c least own r own')
    (h' : Left c least' pre .running own) :
  Left c (least + least') pre r own'
  := by
  obtain ⟨left, hperm, hleaves, hzeros, hdraws⟩ := h'
  obtain ⟨left', hperm', hleaves', hzeros', hdraws'⟩ := h.append hperm hleaves hzeros
  refine ⟨left', hperm', hleaves', hzeros', ?_⟩
  intro hr
  exact Nat.le_trans (Nat.add_le_add_left (hdraws rfl) least) (hdraws' hr)

theorem Left.mono {least' : ℕ} (h : Left c least pre r own)
    (hle : r = .running → least' ≤ least) :
  Left c least' pre r own
  := by
  obtain ⟨left, hperm, hleaves, hzeros, hdraws⟩ := h
  exact ⟨left, hperm, hleaves, hzeros, fun hr => Nat.le_trans (hle hr) (hdraws hr)⟩

theorem Left.of_nothing (hleaves : Leaves r []) (hzeros : Zeros c pre own) :
  Left c 0 pre r own
  := by
  have hnothing : Left c 0 own r own :=
    ⟨[], .refl _, hleaves, List.forall_mem_nil _, fun _ => Nat.le_refl 0⟩
  exact hnothing.zeros hzeros

theorem left_allowsZeros (c : Calls) (least : ℕ) (pre : List Resource) :
  AllowsZeros c (Left c least pre)
  := by
  rintro r x own own' ⟨left, hperm, hleaves, hzeros, hdraws⟩ hperm' hzero hopens
  refine ⟨x :: left, hperm'.trans (hperm.cons x), ?_, ?_, ?_⟩
  · rw [ordinary, List.filter_cons_of_neg (by simp [hzero])]
    exact hleaves
  · exact List.forall_mem_cons.mpr ⟨fun _ => hopens, hzeros⟩
  · intro hr
    exact Nat.le_trans (hdraws hr) ((List.sublist_cons_self x left).countP_le)

end Leftovers

/-! ### The functions of an iteration -/

section Iterations

variable {c : Calls} {last : ℕ} {pre : List Resource}

/-- A value is returned when the string of a variable was not made. -/
theorem owns_leave_none {α : Type} {x : α} {Q : α → List Resource → Prop} (h : Q x pre) :
  Owns pre (leaving (cleanupBuf none) (pure x)) Q
  := by
  apply Owns.leaving (owns_cleanupBuf none)
  exact Owns.pure (Apart.none h)

theorem owns_handleCrash (extension : Buffer) :
  Owns pre (handleCrash c extension) (GivesBack c pre)
  := by
  apply Owns.bind (owns_generateName (some extension) .fileName)
  rintro _ _ (⟨fileName, rfl, rfl⟩ | ⟨rfl, rfl⟩)
  · apply Owns.leaving (owns_cleanupBuf (some (.block fileName)))
    apply Owns.bind owns_asprintf
    rintro _ _ (⟨path, rfl, rfl⟩ | ⟨rfl, rfl⟩)
    · apply Owns.leaving (owns_cleanupBuf (some (.block path)))
      apply Owns.gaveBack [.block path, .block fileName] owns_copyFileTo
      intro rtrn pre' hzeros
      have hleave : ∀ r : ℤ, r = 0 ∨ r = -1 → Owns (.block path :: .block fileName :: pre') (pure r)
          (Apart (some (.block path)) (Apart (some (.block fileName)) (GivesBack c pre))) := by
        intro r hr
        exact Owns.pure (Apart.head (Apart.head ⟨hr, hzeros⟩))
      split
      · exact hleave _ (.inr rfl)
      · exact hleave _ (.inl rfl)
    · exact owns_leave_none (Apart.head ⟨.inr rfl, .refl c pre⟩)
  · exact owns_leave_none ⟨.inr rfl, .refl c _⟩

theorem owns_runTestCase (extension : Buffer) :
  Owns pre (runTestCase c extension) (GivesBack c pre)
  := by
  apply Owns.checked
  intro forked
  split
  · exact Owns.pure ⟨.inr rfl, .refl c pre⟩
  apply Owns.checked
  intro crashed
  split
  · apply Owns.bind (owns_handleCrash extension)
    rintro _ own ⟨-, hzeros⟩
    exact Owns.pure ⟨.inl rfl, hzeros⟩
  · exact Owns.pure ⟨.inl rfl, .refl c pre⟩

/-- What `get_file` has obtained belongs to `*file` and `*extension`, but for the draw. -/
theorem owns_getFile (fileArray : Fin (last + 1) → Buffer) :
  Owns pre (getFile c fileArray) fun got own => ∃ n pre', Draws n pre pre' ∧
    ((got.rtrn = -1 ∧ got.file = none ∧ got.fileExtension = none ∧ own = pre') ∨
    ∃ number id, got.file = some (.descriptor number id) ∧ c.Opens (.descriptor number id) ∧
      ((got.rtrn = -1 ∧ got.fileExtension = none ∧ own = .descriptor number id :: pre') ∨
        ∃ ext, got.rtrn = 0 ∧ got.fileExtension = some (.block ext) ∧ 3 ≤ n ∧
          own = .block ext :: .descriptor number id :: pre'))
  := by
  apply Owns.bind (owns_defaultRandRange last)
  rintro _ pre' (⟨offset, rfl, hdraws⟩ | ⟨n, -, rfl, hdraws⟩)
  · apply Owns.acquired c.opened
    · exact Owns.pure ⟨3, pre', hdraws, .inl ⟨rfl, rfl, rfl, rfl⟩⟩
    rintro _ ⟨number, id, rfl, hopens⟩
    apply Owns.bind owns_asprintf
    rintro _ _ (⟨ext, rfl, rfl⟩ | ⟨rfl, rfl⟩)
    · exact Owns.pure
        ⟨3, pre', hdraws, .inr ⟨number, id, rfl, hopens, .inr ⟨ext, rfl, rfl, by decide, rfl⟩⟩⟩
    · exact Owns.pure ⟨3, pre', hdraws, .inr ⟨number, id, rfl, hopens, .inl ⟨rfl, rfl, rfl⟩⟩⟩
  · exact Owns.pure ⟨n, pre', hdraws, .inl ⟨rfl, rfl, rfl, rfl⟩⟩

/-- The mutators only draw. -/
theorem owns_mutatorArray (offset : Fin 3) (size : ℕ) {file : Resource} (hfile : file ∈ pre) :
  Owns pre (mutatorArray c offset size (some file)) fun _ own => ∃ n, Draws n pre own
  := by
  match offset with
  | 0 =>
      apply Owns.bind (owns_defaultRandRange size)
      rintro _ own (⟨_, rfl, hdraws⟩ | ⟨n, -, rfl, hdraws⟩)
      · apply Owns.used (hdraws.mem hfile)
        exact Owns.pure ⟨3, hdraws⟩
      · exact Owns.pure ⟨n, hdraws⟩
  | 1 =>
      apply Owns.bind (owns_defaultRandRange size)
      rintro _ own (⟨_, rfl, hdraws⟩ | ⟨n, -, rfl, hdraws⟩)
      · apply Owns.bind (owns_defaultRandRange 8)
        rintro _ own' (⟨_, rfl, hdraws'⟩ | ⟨n, -, rfl, hdraws'⟩)
        · apply Owns.used (hdraws'.mem (hdraws.mem hfile))
          exact Owns.pure ⟨_, hdraws.trans hdraws'⟩
        · exact Owns.pure ⟨_, hdraws.trans hdraws'⟩
      · exact Owns.pure ⟨n, hdraws⟩
  | 2 => exact Owns.pure ⟨0, .refl pre⟩

theorem owns_mutateFile (size : ℕ) {file : Resource} (hfile : file ∈ pre) :
  Owns pre (mutateFile c size (some file)) fun r own => ∃ n, Draws n pre own ∧ (0 ≤ r → 3 ≤ n)
  := by
  apply Owns.bind (owns_defaultRandRange 2)
  rintro _ own (⟨offset, rfl, hdraws⟩ | ⟨n, -, rfl, hdraws⟩)
  · refine (owns_mutatorArray offset size (hdraws.mem hfile)).imp ?_
    rintro r _ ⟨n, hdraws'⟩
    exact ⟨3 + n, hdraws.trans hdraws', fun _ => Nat.le_add_right 3 n⟩
  · refine Owns.pure ⟨n, hdraws, ?_⟩
    intro h
    omega

/-- A failure leaves the mapping beside the extension of a variable and the descriptor of another
one. -/
theorem apart_mapping {f : Failure} {number id ext buffer : ℕ} {own : List Resource}
    (hf : f.leavesMapping = true) (hzeros : Zeros c pre own) :
  Apart (some (.block ext)) (Apart (some (.descriptor number id)) (Left c 0 pre))
    (.failed f) (.mapping buffer :: .block ext :: .descriptor number id :: own)
  := by
  have hleaves : Leaves (.failed f) (ordinary [.mapping buffer]) := by
    rw [Leaves, if_pos hf]
    exact ⟨buffer, rfl⟩
  have hzero : ∀ x ∈ [Resource.mapping buffer], x.isZero = true → c.Opens x :=
    List.forall_mem_singleton.mpr (by rintro ⟨⟩)
  have hleft : Left c 0 own (.failed f) (.mapping buffer :: own) :=
    ⟨[.mapping buffer], .refl _, hleaves, hzero, by rintro ⟨⟩⟩
  exact ⟨_, .swap _ _ _, _, .swap _ _ _, hleft.zeros hzeros⟩

/-- The part of an iteration after `mutate_file`, when the extension belongs to a variable and the
descriptor to another one. -/
theorem owns_runMutated (text : Buffer) (number id ext buffer : ℕ) :
  Owns (.mapping buffer :: .block ext :: .descriptor number id :: pre)
    (runMutated c text (some (.mapping buffer)))
    (Apart (some (.block ext)) (Apart (some (.descriptor number id)) (Left c 0 pre)))
  := by
  apply Owns.bind (owns_generateName (some text) .fileName)
  rintro _ _ (⟨fileName, rfl, rfl⟩ | ⟨rfl, rfl⟩)
  · apply Owns.leaving (owns_cleanupBuf (some (.block fileName)))
    apply Owns.bind owns_asprintf
    rintro _ _ (⟨filePath, rfl, rfl⟩ | ⟨rfl, rfl⟩)
    · apply Owns.leaving (owns_cleanupBuf (some (.block filePath)))
      apply Owns.gaveBack [.block filePath, .block fileName, .mapping buffer, .block ext,
        .descriptor number id] (owns_mapFileOut (by simp))
      intro rtrn pre₁ hzeros₁
      split
      · exact Owns.pure (Apart.head (Apart.head (apart_mapping rfl hzeros₁)))
      apply Owns.gaveBack [.block filePath, .block fileName, .mapping buffer, .block ext,
        .descriptor number id] (owns_runTestCase text)
      intro rtrn pre₂ hzeros₂
      have hzeros : Zeros c pre pre₂ := hzeros₁.trans hzeros₂
      split
      · exact Owns.pure (Apart.head (Apart.head (apart_mapping rfl hzeros)))
      apply Owns.cleaned [.block filePath, .block fileName] (owns_munmap (some (.mapping buffer)))
      apply Owns.checked
      intro unlinked
      have hleave : ∀ r : Loop, Leaves r [] →
          Owns (.block filePath :: .block fileName :: .block ext :: .descriptor number id :: pre₂)
            (pure r)
            (Apart (some (.block filePath)) (Apart (some (.block fileName))
              (Apart (some (.block ext)) (Apart (some (.descriptor number id))
                (Left c 0 pre))))) := by
        intro r hr
        exact Owns.pure
          (Apart.head (Apart.head (Apart.head (Apart.head (.of_nothing hr hzeros)))))
      split
      · exact hleave _ rfl
      · exact hleave _ rfl
    · exact owns_leave_none (Apart.head (apart_mapping rfl (.refl c pre)))
  · exact owns_leave_none (apart_mapping rfl (.refl c pre))

theorem owns_test (text : Buffer) (size number id ext buffer : ℕ) :
  Owns (.mapping buffer :: .block ext :: .descriptor number id :: pre)
    (test c text size (some (.mapping buffer)))
    (Apart (some (.block ext)) (Apart (some (.descriptor number id)) (Left c 3 pre)))
  := by
  apply Owns.bind (owns_mutateFile size List.mem_cons_self)
  rintro rtrn _ ⟨n, ⟨drawn, rfl, hdrawn, rfl⟩, hthree⟩
  have hdraws : Draws drawn.length pre (drawn ++ pre) := ⟨drawn, rfl, hdrawn, rfl⟩
  -- what was drawn is put below the resources of the variables
  refine Owns.perm ?_ (List.perm_append_comm_assoc drawn
    [.mapping buffer, .block ext, .descriptor number id] pre)
  split
  · refine Owns.pure ((apart_mapping rfl (.refl c _)).imp fun _ h => h.imp fun _ h => ?_)
    apply (h.draws hdraws).mono
    rintro ⟨⟩
  · refine (owns_runMutated text number id ext buffer).imp ?_
    intro r own h
    refine h.imp fun _ h => h.imp fun _ h => (h.draws hdraws).mono fun _ => ?_
    omega

theorem owns_iteration (fileArray : Fin (last + 1) → Buffer) :
  Owns pre (iteration c fileArray) (Left c 6 pre)
  := by
  apply Owns.bind (owns_getFile fileArray)
  rintro ⟨_, _, _, text⟩ _ ⟨n, pre', hdraws, hgot⟩
  have hfailed : ∀ f : Failure, Leaves (.failed f) [] → Left c 6 pre (.failed f) pre' := by
    intro f hf
    apply ((Left.of_nothing hf (.refl c pre')).draws hdraws).mono
    rintro ⟨⟩
  obtain ⟨rfl, rfl, rfl, rfl⟩ | ⟨number, id, rfl, hopens, hext⟩ := hgot
  · apply Owns.leaving (owns_release none)
    exact owns_leave_none (Apart.none (hfailed .getFile rfl))
  apply Owns.closing hopens (left_allowsZeros c 6 pre)
  obtain ⟨rfl, rfl, rfl⟩ | ⟨ext, rfl, rfl, hthree, rfl⟩ := hext
  · exact owns_leave_none (Apart.head (hfailed .getFile rfl))
  apply Owns.leaving (owns_cleanupBuf (some (.block ext)))
  apply Owns.bind (owns_mapFileIn (by simp))
  rintro _ _ (⟨buffer, rfl, rfl⟩ | ⟨rfl, rfl⟩)
  · apply Owns.asked
    intro size
    refine (owns_test text (size.getD 0) number id ext buffer).imp ?_
    intro r own h
    refine h.imp fun _ h => h.imp fun _ h => (h.draws hdraws).mono fun _ => ?_
    omega
  · exact Owns.pure (Apart.head (Apart.head (hfailed .mapFileIn rfl)))

theorem owns_startMainFileLoop (fileArray : Fin (last + 1) → Buffer) (n : ℕ) :
  Owns pre (startMainFileLoop c fileArray n) (Left c (6 * n) pre)
  := by
  induction n generalizing pre with
  | zero => exact Owns.pure (.of_nothing rfl (.refl c pre))
  | succ n ih =>
      apply Owns.checked
      intro stopped
      split
      · have hstopped : Left c 0 pre .stopped pre := .of_nothing rfl (.refl c pre)
        exact Owns.pure (hstopped.mono (by rintro ⟨⟩))
      apply Owns.bind (owns_iteration fileArray)
      rintro r own h
      cases r with
      | running => exact ih.imp fun r own' h' => h'.trans h
      | stopped => exact Owns.pure (h.mono (by rintro ⟨⟩))
      | failed f => exact Owns.pure (h.mono (by rintro ⟨⟩))

end Iterations

/-- Whatever calls fail, the loop never uses or gives back anything twice or too late.  After any
number of iterations it has given back all that it has obtained, but for the mapping of the last
seed if it has returned after a failure between `map_file_in` and `mem_free_shared`, for a
descriptor zero, and for what the random generator has obtained: at least six resources in each
iteration. -/
theorem startMainFileLoop_leaves (c : Calls) {last : ℕ} (fileArray : Fin (last + 1) → Buffer)
    (n : ℕ) (p : Process Resource) :
  ∃ r p' left, startMainFileLoop c fileArray n p = .ok (r, p') ∧
    (∀ x, x ∈ p'.heap.live ↔ x ∈ left ∨ x ∈ p.heap.live) ∧
    left.Nodup ∧ (∀ x ∈ left, x ∉ p.heap.obtained) ∧ Leftover c (6 * n) r left
  := by
  obtain ⟨r, p', own, hrun, hadds, left, hperm, hleft⟩ :=
    (owns_startMainFileLoop fileArray n).run p
  rw [List.append_nil] at hperm
  have hadds := hadds.perm hperm
  exact ⟨r, p', left, hrun, hadds.live, hadds.nodup, hadds.new, hleft⟩

/-- A process that has obtained nothing yet, whose calls succeed and whose loop is not stopped. -/
def plainProcess : Process Resource :=
  ⟨Heap.empty, none :: List.replicate 60 (some 0)⟩

/-- One iteration with a target that crashes, when standard input is closed: the descriptor of the
seed is zero, and it is left open. -/
theorem startMainFileLoop_leaves_zero :
  ∃ p' left, startMainFileLoop (plainCalls false) (fun _ : Fin 1 => [116, 120, 116]) 1 plainProcess
      = .ok (.running, p') ∧
    (∀ x, x ∈ p'.heap.live ↔ x ∈ left) ∧ .descriptor 0 3 ∈ left ∧
    Leftover (plainCalls false) 6 .running left
  := by
  have hrun : (startMainFileLoop (plainCalls false) (fun _ : Fin 1 => [116, 120, 116]) 1
      plainProcess).toOption.map (fun x => (x.1, x.2.heap.live.filter Resource.isZero))
        = some (.running, [.descriptor 0 3]) := by
    decide +kernel
  obtain ⟨r, p', left, hok, hlive, -, -, hleft⟩ := startMainFileLoop_leaves (plainCalls false)
    (fun _ : Fin 1 => [116, 120, 116]) 1 plainProcess
  rw [hok] at hrun
  simp only [Except.toOption, Option.map_some, Option.some.injEq, Prod.mk.injEq] at hrun
  obtain ⟨rfl, hzero⟩ := hrun
  have hall : ∀ x, x ∈ p'.heap.live ↔ x ∈ left := by
    intro x
    rw [hlive]
    simp [plainProcess, Heap.empty]
  refine ⟨p', left, hok, hall, ?_, hleft⟩
  apply (hall _).mp
  apply List.mem_of_mem_filter (p := Resource.isZero)
  rw [hzero]
  exact List.mem_cons_self

end FileResources
