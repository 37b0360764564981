import Nextgen.Lib.Transition
import Mathlib.Algebra.Group.Nat.Defs
import Mathlib.Data.Int.Notation
import Mathlib.Data.List.Basic

/-!
# Epoch sections of a thread

The thread contexts of `epoch.c`.  A thread keeps the epoch sections it has open in an
array of pointers to heap copies of them: `epochStart` stores the section it began at
index `section_count`, after growing the array when `section_count` is greater than
`buf_size`, and `epochStop` ends and frees the last one.

An access outside the array, through a null array or through an element that was never
written has no defined result, and is a `Fault` of the model.  A `State` records beside
the thread the sections that are open, the last one first, so that the sections stored in
the array can be compared with them.
-/

universe u

open Transition

namespace Epoch

/-- An undefined memory access. -/
inductive Fault where
  | outOfBounds (index : ℕ)
  | nullPointer
  | uninitialised
  deriving DecidableEq, Repr

/-- An element of the section array: not written yet, null, or a pointer to a copy of an
epoch section. -/
inductive Cell (S : Type u) where
  | uninit
  | null
  | ptr (s : S)
  deriving DecidableEq, Repr

/-- `struct thread_ctx`.  `sections` is the array `section` with the elements it has been
allocated, `none` when the pointer is null; the counters are `uint32_t`. -/
structure ThreadCtx (S : Type u) where
  sections : Option (List (Cell S))
  sectionCount : ℕ
  bufSize : ℕ
  deriving DecidableEq, Repr

/-- What the calls made by `epoch_start` return: whether `reallocarray` and the allocator
succeed, and the section that `epoch_begin` fills in. -/
structure Outcome (S : Type u) where
  reallocOk : Bool
  allocOk : Bool
  began : S

/-- Arithmetic on `uint32_t` wraps around. -/
def u32 (n : ℕ) : ℕ := n % 2 ^ 32

variable {S : Type u}

/-! ### The operations -/

/-- `init_thread`, given which of its three allocations succeed.  When the last one fails
the thread is freed, which makes `thread` null, before its record is. -/
def initThread (threadOk recordOk sectionOk : Bool) : Except Fault (Option (ThreadCtx S)) :=
  if !threadOk then .ok none
  else if !recordOk then .ok none
  else if !sectionOk then .error .nullPointer
  else .ok (some
    { sections := some (List.replicate 8 .uninit)
      sectionCount := 0
      bufSize := 8 })

/-- `reallocarray` on the section array: the new array has the elements of the old one as
far as it reaches. -/
def reallocarray (ok : Bool) (sections : Option (List (Cell S))) (nmemb : ℕ) :
    Option (List (Cell S)) :=
  if ok then
    let cells := sections.getD []
    some (cells.take nmemb ++ List.replicate (nmemb - cells.length) .uninit)
  else none

/-- The assignment `thread->section[k] = cell`. -/
def writeSection (t : ThreadCtx S) (k : ℕ) (cell : Cell S) : Except Fault (ThreadCtx S) :=
  match t.sections with
  | none => .error .nullPointer
  | some cells =>
      if k < cells.length then .ok { t with sections := some (cells.set k cell) }
      else .error (.outOfBounds k)

/-- The value of `thread->section[k]`. -/
def readSection (t : ThreadCtx S) (k : ℕ) : Except Fault (Cell S) :=
  match t.sections with
  | none => .error .nullPointer
  | some cells =>
      match cells[k]? with
      | none => .error (.outOfBounds k)
      | some .uninit => .error .uninitialised
      | some cell => .ok cell

/-- The part of `epoch_start` after the growth of the array: allocate the section, begin
it, copy it to the heap and count it. -/
def openSection (t : ThreadCtx S) (count : ℕ) (o : Outcome S) :
    Except Fault (ℤ × ThreadCtx S) :=
  if o.allocOk then
    -- the pointer is stored before `epoch_begin`, the section copied behind it afterwards
    (writeSection t count .uninit).bind fun t =>
      (writeSection t count (.ptr o.began)).map fun t =>
        (0, { t with sectionCount := u32 (count + 1) })
  else
    (writeSection t count .null).map fun t => (-1, t)

/-- `epoch_start`: the value returned and the thread afterwards. -/
def epochStart (t : ThreadCtx S) (o : Outcome S) : Except Fault (ℤ × ThreadCtx S) :=
  if t.sectionCount > t.bufSize then
    match reallocarray o.reallocOk t.sections (u32 (t.bufSize * 2)) with
    | none => .ok (-1, { t with sections := none })
    | some cells =>
        openSection { t with sections := some cells, bufSize := u32 (t.bufSize * 2) }
          t.sectionCount o
  else openSection t t.sectionCount o

/-- `epoch_stop`: the section passed to `epoch_end` and the thread afterwards. -/
def epochStop (t : ThreadCtx S) : Except Fault (Cell S × ThreadCtx S) :=
  let count := u32 (t.sectionCount + (2 ^ 32 - 1))
  (readSection t count).bind fun cell =>
    (writeSection { t with sectionCount := count } count .null).map fun t => (cell, t)

/-- The loop of `stop_all_sections` from index `i` on, `todo` sections before its end. -/
def stopSections : ℕ → ℕ → ThreadCtx S → Except Fault (List (Cell S) × ThreadCtx S)
  | 0, _, t => .ok ([], t)
  | todo + 1, i, t =>
      (readSection t i).bind fun cell =>
        (writeSection t i .null).bind fun t =>
          (stopSections todo (i + 1) t).map fun (cells, t) => (cell :: cells, t)

/-- `stop_all_sections`: the sections passed to `epoch_end` and the thread afterwards. -/
def stopAllSections (t : ThreadCtx S) : Except Fault (List (Cell S) × ThreadCtx S) :=
  (stopSections t.sectionCount 0 t).map fun (cells, t) => (cells, { t with sectionCount := 0 })

/-! ### Runs of matched calls -/

/-- A thread and the sections it has open, the last one first. -/
structure State (S : Type u) where
  thread : ThreadCtx S
  opened : List S

/-- A call of `epoch_start` or of `epoch_stop`. -/
inductive Call (S : Type u) where
  | start (o : Outcome S)
  | stop

/-- One call.  A successful `epochStart` opens the section it began, and `epochStop` may be
called only while a section is open. -/
def step (s : State S) : Call S → Option (State S)
  | .start o =>
      match epochStart s.thread o with
      | .error _ => none
      | .ok (rtrn, t) => some ⟨t, if rtrn = 0 then o.began :: s.opened else s.opened⟩
  | .stop =>
      match s.opened with
      | [] => none
      | _ :: opened =>
          match epochStop s.thread with
          | .error _ => none
          | .ok (_, t) => some ⟨t, opened⟩

/-- Both counters and the length of the array are the same, and so are its first `section_count`
elements, which are the sections open. -/
structure Unchanged (t t' : ThreadCtx S) : Prop where
  sectionCount : t'.sectionCount = t.sectionCount
  bufSize : t'.bufSize = t.bufSize
  sections : ∃ cells cells', t.sections = some cells ∧ t'.sections = some cells' ∧
    cells'.length = cells.length ∧ cells'.take t.sectionCount = cells.take t.sectionCount

/-- What a call is to do: stay inside the array; leave the thread unchanged when it returns
`-1`; end the section opened last. -/
def CallMeets (s : State S) : Call S → Prop
  | .start o => ∃ rtrn t, epochStart s.thread o = .ok (rtrn, t) ∧
      (rtrn = -1 → Unchanged s.thread t)
  | .stop => ∀ sec opened, s.opened = sec :: opened →
      ∃ t, epochStop s.thread = .ok (.ptr sec, t)

/-- The thread counts the open sections, and its array has `buf_size` elements. -/
def StateMeets (s : State S) : Prop :=
  s.thread.sectionCount = s.opened.length ∧
    ∃ cells, s.thread.sections = some cells ∧ cells.length = s.thread.bufSize

/-- `epochStart` is called only while fewer sections are open than `initThread` makes room
for. -/
def ShallowStart (s : State S) : Call S → Prop
  | .start _ => s.opened.length < 8
  | .stop => True

instance : ∀ (s : State S) (c : Call S), Decidable (ShallowStart s c)
  | s, .start _ => inferInstanceAs (Decidable (s.opened.length < 8))
  | _, .stop => isTrue trivial

/-- The thread has the array of `initThread`, which holds the open sections in the order in
which they were opened. -/
structure Inv (s : State S) (cells : List (Cell S)) : Prop where
  sections : s.thread.sections = some cells
  bufSize : s.thread.bufSize = 8
  sectionCount : s.thread.sectionCount = s.opened.length
  length : cells.length = 8
  depth : s.opened.length ≤ 8
  stored : cells.take s.opened.length = (s.opened.map Cell.ptr).reverse

theorem u32_of_lt {n : ℕ} (h : n < 2 ^ 32) :
  u32 n = n
  := Nat.mod_eq_of_lt h

/-- Decrementing a positive `uint32_t` does not wrap. -/
theorem u32_pred {n : ℕ} (h : n < 2 ^ 32) :
  u32 (n + 1 + (2 ^ 32 - 1)) = n
  := by
  rw [u32]
  omega

theorem writeSection_of_lt {t : ThreadCtx S} {cells : List (Cell S)} {k : ℕ} (cell : Cell S)
    (hsections : t.sections = some cells) (hk : k < cells.length) :
  writeSection t k cell = .ok { t with sections := some (cells.set k cell) }
  := by
  simp only [writeSection, hsections, hk, ↓reduceIte]

theorem readSection_ptr {t : ThreadCtx S} {cells : List (Cell S)} {k : ℕ} {sec : S}
    (hsections : t.sections = some cells) (hk : cells[k]? = some (.ptr sec)) :
  readSection t k = .ok (.ptr sec)
  := by
  simp only [readSection, hsections, hk]

theorem writeSection_sectionCount {t t' : ThreadCtx S} {k : ℕ} {cell : Cell S}
    (h : writeSection t k cell = .ok t') :
  t'.sectionCount = t.sectionCount
  := by
  rw [writeSection] at h
  split at h
  · cases h
  · split at h
    · cases h
      rfl
    · cases h

/-- `epochStart` counts the section it opens when its allocations succeed. -/
theorem epochStart_sectionCount {t t' : ThreadCtx S} {o : Outcome S} {rtrn : ℤ}
    (halloc : o.allocOk = true) (hrealloc : o.reallocOk = true)
    (h : epochStart t o = .ok (rtrn, t')) :
  t'.sectionCount = u32 (t.sectionCount + 1)
  := by
  have hopen : ∀ {t₀ : ThreadCtx S}, openSection t₀ t.sectionCount o = .ok (rtrn, t') →
      t'.sectionCount = u32 (t.sectionCount + 1) := by
    intro t₀ h
    rw [openSection, if_pos halloc] at h
    obtain ⟨t₁, -, h⟩ := Except.bind_eq_ok.mp h
    obtain ⟨t₂, -, h⟩ := Except.map_eq_ok.mp h
    cases h
    rfl
  rw [epochStart] at h
  split at h
  · rw [reallocarray, if_pos hrealloc] at h
    apply hopen h
  · apply hopen h

/-- `epochStop` discounts a section, wrapping round when none is counted. -/
theorem epochStop_sectionCount {t t' : ThreadCtx S} {cell : Cell S}
    (h : epochStop t = .ok (cell, t')) :
  t'.sectionCount = u32 (t.sectionCount + (2 ^ 32 - 1))
  := by
  rw [epochStop] at h
  obtain ⟨cell', -, h⟩ := Except.bind_eq_ok.mp h
  obtain ⟨t₁, hwrite, h⟩ := Except.map_eq_ok.mp h
  cases h
  apply writeSection_sectionCount hwrite

section Steps

variable {s : State S} {cells : List (Cell S)}

/-- While at most eight sections are open the array is not grown. -/
theorem epochStart_eq_openSection (h : Inv s cells) (o : Outcome S) :
  epochStart s.thread o = openSection s.thread s.opened.length o
  := by
  have hle : ¬ s.thread.sectionCount > s.thread.bufSize := by
    rw [h.sectionCount, h.bufSize]
    have := h.depth
    omega
  rw [epochStart, if_neg hle, h.sectionCount]

theorem Inv.lt_length (h : Inv s cells) (hdepth : s.opened.length < 8) :
  s.opened.length < cells.length
  := by
  rw [h.length]
  apply hdepth

/-- A section that is begun is stored after the open ones. -/
theorem epochStart_success (h : Inv s cells) (hdepth : s.opened.length < 8) {o : Outcome S}
    (halloc : o.allocOk = true) :
  ∃ t, epochStart s.thread o = .ok (0, t) ∧
    Inv ⟨t, o.began :: s.opened⟩ (cells.set s.opened.length (.ptr o.began))
  := by
  have hlt := h.lt_length hdepth
  rw [epochStart_eq_openSection h, openSection, if_pos halloc,
    writeSection_of_lt _ h.sections hlt]
  simp only [Except.bind]
  rw [writeSection_of_lt _ rfl (by simpa using hlt), List.set_set]
  refine ⟨_, rfl, rfl, h.bufSize, ?_, ?_, hdepth, ?_⟩
  · apply u32_of_lt
    omega
  · rw [List.length_set, h.length]
  · have hget : (cells.set s.opened.length (.ptr o.began))[s.opened.length]? =
        some (.ptr o.began) := by
      rw [List.getElem?_set_self hlt]
    rw [List.length_cons, List.take_add_one, hget, List.take_set_of_le (Nat.le_refl _), h.stored]
    simp

/-- When the allocator fails the thread is unchanged. -/
theorem epochStart_failure (h : Inv s cells) (hdepth : s.opened.length < 8) {o : Outcome S}
    (halloc : o.allocOk = false) :
  ∃ t, epochStart s.thread o = .ok (-1, t) ∧ Unchanged s.thread t ∧
    Inv ⟨t, s.opened⟩ (cells.set s.opened.length .null)
  := by
  have hlt := h.lt_length hdepth
  have htake : (cells.set s.opened.length .null).take s.opened.length
      = cells.take s.opened.length :=
    List.take_set_of_le (Nat.le_refl _)
  rw [epochStart_eq_openSection h, openSection, if_neg (by simp [halloc]),
    writeSection_of_lt _ h.sections hlt]
  refine ⟨_, rfl, ⟨rfl, rfl, cells, _, h.sections, rfl, List.length_set, ?_⟩,
    ⟨rfl, h.bufSize, h.sectionCount, ?_, h.depth, ?_⟩⟩
  · rw [h.sectionCount, htake]
  · rw [List.length_set, h.length]
  · rw [htake, h.stored]

/-- With eight sections open the next one is stored outside the array. -/
theorem epochStart_full (h : Inv s cells) (hdepth : s.opened.length = 8) (o : Outcome S) :
  epochStart s.thread o = .error (.outOfBounds 8)
  := by
  have hwrite : ∀ cell, writeSection s.thread 8 cell = .error (.outOfBounds 8) := by
    intro cell
    simp only [writeSection, h.sections, h.length, Nat.lt_irrefl, ↓reduceIte]
  rw [epochStart_eq_openSection h, hdepth, openSection]
  split
  · rw [hwrite]
    rfl
  · rw [hwrite]
    rfl

/-- `epochStop` ends the section opened last. -/
theorem epochStop_last (h : Inv s cells) {sec : S} {opened : List S}
    (hopened : s.opened = sec :: opened) :
  ∃ t, epochStop s.thread = .ok (.ptr sec, t) ∧
    Inv ⟨t, opened⟩ (cells.set opened.length .null)
  := by
  have hdepth := h.depth
  have hstored := h.stored
  rw [hopened, List.length_cons] at hdepth hstored
  have hlt : opened.length < cells.length := by
    rw [h.length]
    omega
  rw [List.take_succ_eq_append_getElem hlt, List.map_cons, List.reverse_cons] at hstored
  obtain ⟨htake, hlast⟩ := List.append_inj' hstored rfl
  have hget : cells[opened.length]? = some (.ptr sec) := by
    rw [List.getElem?_eq_getElem hlt, List.singleton_inj.mp hlast]
  have hcount : u32 (s.thread.sectionCount + (2 ^ 32 - 1)) = opened.length := by
    rw [h.sectionCount, hopened, List.length_cons]
    apply u32_pred
    omega
  have hwrite := writeSection_of_lt (t := { s.thread with sectionCount := opened.length })
    .null h.sections hlt
  simp only [epochStop, hcount, readSection_ptr h.sections hget, Except.bind, hwrite]
  refine ⟨_, rfl, rfl, h.bufSize, rfl, ?_, Nat.le_of_succ_le hdepth, ?_⟩
  · rw [List.length_set, h.length]
  · rw [List.take_set_of_le (Nat.le_refl _), htake]

/-- A call that meets what it is to do keeps the invariant. -/
theorem step_inv {c : Call S} {s' : State S} (h : ∃ cells, Inv s cells) (hmeets : CallMeets s c)
    (hstep : step s c = some s') :
  ∃ cells, Inv s' cells
  := by
  obtain ⟨cells, h⟩ := h
  cases c with
  | start o =>
      obtain ⟨rtrn, t, hstart, -⟩ := hmeets
      have hdepth : s.opened.length < 8 := by
        apply Nat.lt_of_le_of_ne h.depth
        intro hfull
        rw [epochStart_full h hfull] at hstart
        cases hstart
      cases halloc : o.allocOk with
      | true =>
          obtain ⟨t, ht, h'⟩ := epochStart_success h hdepth halloc
          simp only [step, ht, ↓reduceIte, Option.some.injEq] at hstep
          subst hstep
          exact ⟨_, h'⟩
      | false =>
          obtain ⟨t, ht, -, h'⟩ := epochStart_failure h hdepth halloc
          simp only [step, ht, Int.reduceNeg, reduceCtorEq, ↓reduceIte, Option.some.injEq] at hstep
          subst hstep
          exact ⟨_, h'⟩
  | stop =>
      rcases hopened : s.opened with _ | ⟨sec, opened⟩
      · simp only [step, hopened, reduceCtorEq] at hstep
      · obtain ⟨t, ht, h'⟩ := epochStop_last h hopened
        simp only [step, hopened, ht, Option.some.injEq] at hstep
        subst hstep
        exact ⟨_, h'⟩

/-- A call of `epochStart` meets what it is to do exactly when fewer than eight sections
are open, and a call of `epochStop` always does. -/
theorem callMeets_iff_shallowStart (h : Inv s cells) (c : Call S) :
  CallMeets s c ↔ ShallowStart s c
  := by
  cases c with
  | start o =>
      constructor
      · rintro ⟨rtrn, t, hstart, -⟩
        apply Nat.lt_of_le_of_ne h.depth
        intro hfull
        rw [epochStart_full h hfull] at hstart
        cases hstart
      · intro hdepth
        cases halloc : o.allocOk with
        | true =>
            obtain ⟨t, ht, -⟩ := epochStart_success h hdepth halloc
            use 0, t, ht
            intro hrtrn
            cases hrtrn
        | false =>
            obtain ⟨t, ht, hunchanged, -⟩ := epochStart_failure h hdepth halloc
            use -1, t, ht
            intro _
            apply hunchanged
  | stop =>
      constructor
      · intro _
        trivial
      · intro _ sec opened hopened
        obtain ⟨t, ht, -⟩ := epochStop_last h hopened
        use t

theorem Inv.stateMeets (h : Inv s cells) :
  StateMeets s
  := by
  use h.sectionCount, cells, h.sections
  rw [h.length, h.bufSize]

end Steps

/-- A thread of `initThread` has an array of eight elements and no section. -/
theorem initThread_inv {threadOk recordOk sectionOk : Bool} {t : ThreadCtx S}
    (hinit : initThread threadOk recordOk sectionOk = .ok (some t)) :
  Inv ⟨t, []⟩ (List.replicate 8 .uninit)
  := by
  simp only [initThread] at hinit
  split at hinit
  · cases hinit
  · split at hinit
    · cases hinit
    · split at hinit
      · cases hinit
      · cases hinit
        constructor <;> simp

/-- A run of matched calls on a thread of `initThread` stays inside the section array, counts
the open sections, ends them last in first out and leaves the thread unchanged when
`epochStart` fails, if and only if it calls `epochStart` only while fewer than eight sections
are open. -/
theorem epoch_section_stack_iff {threadOk recordOk sectionOk : Bool} {t : ThreadCtx S}
    (hinit : initThread threadOk recordOk sectionOk = .ok (some t)) (calls : List (Call S)) :
  AllSteps step CallMeets ⟨t, []⟩ calls ∧ AllStates step StateMeets ⟨t, []⟩ calls
    ↔ AllSteps step ShallowStart ⟨t, []⟩ calls
  := by
  have hinv : ∃ cells, Inv (S := S) ⟨t, []⟩ cells := ⟨_, initThread_inv hinit⟩
  have hmeet : ∀ {s : State S} {c}, (∃ cells, Inv s cells) → (CallMeets s c ↔ ShallowStart s c) := by
    rintro s c ⟨cells, h⟩
    apply callMeets_iff_shallowStart h c
  rw [← allSteps_iff_of_invariant step_inv hmeet hinv calls]
  constructor
  · rintro ⟨hcalls, -⟩
    apply hcalls
  · intro hcalls
    use hcalls
    apply allStates_of_invariant step_inv _ hinv hcalls
    rintro s ⟨cells, h⟩
    apply h.stateMeets

theorem epoch_section_stack_eight_deep :
  ∃ t : ThreadCtx ℕ, initThread true true true = .ok (some t) ∧
    AllSteps step CallMeets ⟨t, []⟩ (List.replicate 8 (.start ⟨true, true, 0⟩) ++ [.stop])
  := by
  use ⟨some (List.replicate 8 .uninit), 0, 8⟩, rfl
  have hinit : initThread true true true
      = .ok (some (⟨some (List.replicate 8 .uninit), 0, 8⟩ : ThreadCtx ℕ)) := rfl
  apply ((epoch_section_stack_iff hinit _).mpr _).1
  decide +kernel

/-- Nine nested calls of `epochStart` write past the end of the array. -/
theorem epoch_section_stack_nine_deep :
  ∃ t : ThreadCtx ℕ, initThread true true true = .ok (some t) ∧
    ¬ AllSteps step CallMeets ⟨t, []⟩
      (List.replicate 8 (.start ⟨true, true, 0⟩) ++ [.start ⟨true, true, 0⟩])
  := by
  use ⟨some (List.replicate 8 .uninit), 0, 8⟩, rfl
  intro hcalls
  obtain ⟨rtrn, t, hstart, -⟩ := AllSteps.at_run hcalls rfl
  have hfault : epochStart (⟨some (List.replicate 8 (.ptr 0)), 8, 8⟩ : ThreadCtx ℕ)
      ⟨true, true, 0⟩ = .error (.outOfBounds 8) := rfl
  cases hfault.symm.trans hstart

end Epoch
