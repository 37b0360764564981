import Nextgen.Concurrent.Epoch

/-!
# Ending all sections of a thread

`stop_all_sections` after a last `epoch_start`, as `exit_child` calls them.  All open sections are
ended if and only if the section array holds them among its counted elements, these have all been
written, and there is room for one more.
-/

universe u

namespace Epoch

variable {S : Type u}

/-- The section array has the elements that `buf_size` says. -/
structure Allocated (t : ThreadCtx S) : Prop where
  bufSize : t.bufSize < 2 ^ 32
  length : ∀ cells, t.sections = some cells → cells.length = t.bufSize

/-- The array has room for a section, and holds all open ones among those that are counted. -/
structure Holds (t : ThreadCtx S) (opened : List S) (cells : List (Cell S)) : Prop where
  sections : t.sections = some cells
  room : t.sectionCount < cells.length
  written : ∀ cell ∈ cells.take t.sectionCount, cell ≠ .uninit
  stored : ∀ sec ∈ opened, .ptr sec ∈ cells.take t.sectionCount

section StopAll

variable {t t' : ThreadCtx S} {cells ended : List (Cell S)} {todo i : ℕ}

theorem readSection_eq_ok {cell : Cell S} (hsections : t.sections = some cells) :
  readSection t i = .ok cell ↔ cells[i]? = some cell ∧ cell ≠ .uninit
  := by
  simp only [readSection, hsections]
  split
  · rename_i hnone
    simp [hnone]
  · rename_i huninit
    simp only [huninit, Option.some.injEq, reduceCtorEq, false_iff]
    rintro ⟨rfl, hne⟩
    apply hne rfl
  · rename_i cell' hne hcell
    simp only [hcell, Option.some.injEq, Except.ok.injEq]
    constructor
    · rintro rfl
      exact ⟨rfl, hne⟩
    · rintro ⟨rfl, -⟩
      rfl

/-- The loop of `stop_all_sections` ends the sections of the elements it goes through, which have
to be written. -/
theorem stopSections_eq_ok (hsections : t.sections = some cells)
    (h : stopSections todo i t = .ok (ended, t')) :
  ended = (cells.drop i).take todo ∧ ended.length = todo ∧ ∀ cell ∈ ended, cell ≠ .uninit
  := by
  induction todo generalizing i t cells ended with
  | zero =>
      cases h
      simp
  | succ todo ih =>
      obtain ⟨cell, hread, h⟩ := Except.bind_eq_ok.mp h
      obtain ⟨hcell, hne⟩ := (readSection_eq_ok hsections).mp hread
      obtain ⟨hi, hget⟩ := List.getElem?_eq_some_iff.mp hcell
      obtain ⟨t₁, hwrite, h⟩ := Except.bind_eq_ok.mp h
      obtain ⟨⟨ended₁, t₂⟩, hrest, h⟩ := Except.map_eq_ok.mp h
      cases h
      rw [writeSection_of_lt _ hsections hi] at hwrite
      cases hwrite
      obtain ⟨rfl, hlength, hwritten⟩ := ih rfl hrest
      rw [List.drop_set_of_lt (Nat.lt_succ_self i)] at hlength hwritten ⊢
      rw [List.drop_eq_getElem_cons hi, hget, List.take_succ_cons]
      refine ⟨rfl, ?_, ?_⟩
      · rw [List.length_cons, hlength]
      · rintro cell' (_ | ⟨_, hmem⟩)
        · apply hne
        · apply hwritten cell' hmem

theorem stopSections_of_written (hsections : t.sections = some cells)
    (hlength : i + todo ≤ cells.length)
    (hwritten : ∀ cell ∈ (cells.drop i).take todo, cell ≠ .uninit) :
  ∃ t', stopSections todo i t = .ok ((cells.drop i).take todo, t')
  := by
  induction todo generalizing i t cells with
  | zero => exact ⟨t, rfl⟩
  | succ todo ih =>
      have hi : i < cells.length := by omega
      rw [List.drop_eq_getElem_cons hi, List.take_succ_cons] at hwritten ⊢
      have hread : readSection t i = .ok cells[i] := by
        apply (readSection_eq_ok hsections).mpr
        exact ⟨List.getElem?_eq_getElem hi, hwritten _ List.mem_cons_self⟩
      have hdrop : (cells.set i .null).drop (i + 1) = cells.drop (i + 1) :=
        List.drop_set_of_lt (Nat.lt_succ_self i)
      obtain ⟨t₁, hrest⟩ := ih (t := { t with sections := some (cells.set i .null) })
        (i := i + 1) rfl (by rw [List.length_set]; omega) (by
          intro cell hcell
          rw [hdrop] at hcell
          apply hwritten cell (List.mem_cons_of_mem _ hcell))
      rw [hdrop] at hrest
      use t₁
      simp only [stopSections, hread, writeSection_of_lt _ hsections hi, Except.bind, hrest,
        Except.map]

/-- A section is stored at an index of the array. -/
theorem openSection_of_lt (o : Outcome S) (hsections : t.sections = some cells)
    (hi : i < cells.length) :
  openSection t i o = .ok (if o.allocOk
    then (0, { t with
      sections := some (cells.set i (.ptr o.began))
      sectionCount := u32 (i + 1) })
    else (-1, { t with sections := some (cells.set i .null) }))
  := by
  cases halloc : o.allocOk with
  | true =>
      simp only [openSection, halloc, ↓reduceIte, writeSection_of_lt _ hsections hi, Except.bind]
      rw [writeSection_of_lt _ rfl (by simpa using hi), List.set_set]
      rfl
  | false =>
      simp only [openSection, halloc, Bool.false_eq_true, ↓reduceIte,
        writeSection_of_lt _ hsections hi]
      rfl

theorem lt_of_openSection {o : Outcome S} {r : ℤ × ThreadCtx S} (h : openSection t i o = .ok r) :
  ∃ cells, t.sections = some cells ∧ i < cells.length
  := by
  obtain ⟨cell, t', hwrite⟩ : ∃ cell t', writeSection t i cell = .ok t' := by
    rw [openSection] at h
    split at h
    · obtain ⟨t', hwrite, -⟩ := Except.bind_eq_ok.mp h
      exact ⟨_, t', hwrite⟩
    · obtain ⟨t', hwrite, -⟩ := Except.map_eq_ok.mp h
      exact ⟨_, t', hwrite⟩
  rw [writeSection] at hwrite
  split at hwrite
  · cases hwrite
  · rename_i cells hsections
    split at hwrite
    · rename_i hi
      exact ⟨cells, hsections, hi⟩
    · cases hwrite

/-- `stop_all_sections` ends the sections that are counted. -/
theorem stopAllSections_of_written (hsections : t.sections = some cells)
    (hlength : t.sectionCount ≤ cells.length)
    (hwritten : ∀ cell ∈ cells.take t.sectionCount, cell ≠ .uninit) :
  ∃ t', stopAllSections t = .ok (cells.take t.sectionCount, t')
  := by
  have hle : 0 + t.sectionCount ≤ cells.length := by omega
  obtain ⟨t', hstop⟩ := stopSections_of_written hsections hle hwritten
  use { t' with sectionCount := 0 }
  rw [stopAllSections, hstop]
  rfl

/-- The sections that a thread has stored are ended, with the one that is begun before. -/
theorem Holds.stopAll {opened : List S} (h : Holds t opened cells) (hbuf : Allocated t)
    (o : Outcome S) :
  ∃ rtrn t₁ ended t₂, epochStart t o = .ok (rtrn, t₁) ∧ stopAllSections t₁ = .ok (ended, t₂) ∧
    (∀ sec ∈ opened, .ptr sec ∈ ended) ∧ (o.allocOk = true → .ptr o.began ∈ ended)
  := by
  have hlength := hbuf.length cells h.sections
  have hroom := h.room
  have hsize := hbuf.bufSize
  have hstart : epochStart t o = openSection t t.sectionCount o := by
    rw [epochStart, if_neg (by omega)]
  rw [hstart, openSection_of_lt o h.sections hroom]
  cases halloc : o.allocOk with
  | true =>
      have hcount : u32 (t.sectionCount + 1) = t.sectionCount + 1 := u32_of_lt (by omega)
      have htake : (cells.set t.sectionCount (.ptr o.began)).take (t.sectionCount + 1)
          = cells.take t.sectionCount ++ [.ptr o.began] := by
        rw [List.take_add_one, List.getElem?_set_self hroom, List.take_set_of_le (Nat.le_refl _)]
        rfl
      rw [hcount]
      let t₁ : ThreadCtx S :=
        ⟨some (cells.set t.sectionCount (.ptr o.began)), t.sectionCount + 1, t.bufSize⟩
      obtain ⟨t₂, hstop⟩ := stopAllSections_of_written (t := t₁) rfl
        (by rw [List.length_set]; exact hroom) (by
          intro cell hcell
          rw [htake, List.mem_append, List.mem_singleton] at hcell
          rcases hcell with hcell | rfl
          · apply h.written cell hcell
          · intro hne
            cases hne)
      rw [htake] at hstop
      refine ⟨0, t₁, _, t₂, rfl, hstop, ?_, ?_⟩
      · intro sec hsec
        apply List.mem_append_left _ (h.stored sec hsec)
      · intro _
        apply List.mem_append_right _ List.mem_cons_self
  | false =>
      have htake : (cells.set t.sectionCount .null).take t.sectionCount
          = cells.take t.sectionCount := List.take_set_of_le (Nat.le_refl _)
      let t₁ : ThreadCtx S := { t with sections := some (cells.set t.sectionCount .null) }
      obtain ⟨t₂, hstop⟩ := stopAllSections_of_written (t := t₁) rfl
        (by rw [List.length_set]; exact Nat.le_of_lt hroom) (by
          rw [htake]
          apply h.written)
      rw [htake] at hstop
      refine ⟨-1, t₁, _, t₂, rfl, hstop, h.stored, ?_⟩
      intro hok
      cases hok

/-- `openSection` writes to one element. -/
theorem openSection_sections {o : Outcome S} {rtrn : ℤ} (hsections : t.sections = some cells)
    (hlength : cells.length < 2 ^ 32) (h : openSection t t.sectionCount o = .ok (rtrn, t')) :
  ∃ cell, t'.sections = some (cells.set t.sectionCount cell) ∧ t.sectionCount ≤ t'.sectionCount
  := by
  obtain ⟨cells', hsections', hroom⟩ := lt_of_openSection h
  cases hsections.symm.trans hsections'
  rw [openSection_of_lt o hsections hroom] at h
  cases halloc : o.allocOk with
  | true =>
      rw [halloc] at h
      cases h
      refine ⟨_, rfl, ?_⟩
      rw [u32_of_lt (by omega)]
      apply Nat.le_succ
  | false =>
      rw [halloc] at h
      cases h
      exact ⟨_, rfl, Nat.le_refl _⟩

theorem stopAllSections_eq_ok (hsections : t.sections = some cells)
    (h : stopAllSections t = .ok (ended, t')) :
  ended = cells.take t.sectionCount ∧ ∀ cell ∈ ended, cell ≠ .uninit
  := by
  obtain ⟨⟨ended₁, t₁⟩, hstop, h⟩ := Except.map_eq_ok.mp h
  cases h
  obtain ⟨hended, -, hwritten⟩ := stopSections_eq_ok hsections hstop
  exact ⟨hended, hwritten⟩

/-- Sections cannot be ended while an element that is counted was never written. -/
theorem stopAllSections_unwritten {o : Outcome S} {rtrn : ℤ} {t₁ : ThreadCtx S} {k : ℕ}
    (hsections : t.sections = some cells) (hlength : cells.length < 2 ^ 32)
    (hk : k < t.sectionCount) (hcell : cells[k]? = some .uninit)
    (hopen : openSection t t.sectionCount o = .ok (rtrn, t₁)) :
  stopAllSections t₁ ≠ .ok (ended, t')
  := by
  intro hstop
  obtain ⟨cell, hsections₁, hle⟩ := openSection_sections hsections hlength hopen
  obtain ⟨rfl, hwritten⟩ := stopAllSections_eq_ok hsections₁ hstop
  apply hwritten .uninit _ rfl
  apply List.mem_of_getElem? (i := k)
  rw [List.getElem?_take_of_lt (by omega), List.getElem?_set_ne (by omega), hcell]

/-- An array that had to be grown has an element that is counted and was never written. -/
theorem stopAllSections_grown {o : Outcome S} {rtrn : ℤ} {t₁ : ThreadCtx S} (hbuf : Allocated t)
    (hgrow : t.sectionCount > t.bufSize) (hstart : epochStart t o = .ok (rtrn, t₁)) :
  stopAllSections t₁ ≠ .ok (ended, t')
  := by
  rw [epochStart, if_pos hgrow] at hstart
  cases hrealloc : o.reallocOk with
  | false =>
      rw [reallocarray, hrealloc] at hstart
      cases hstart
      obtain ⟨count, hcount⟩ := Nat.exists_eq_add_of_lt hgrow
      simp [stopAllSections, hcount, stopSections, readSection, Except.bind, Except.map]
  | true =>
      rw [reallocarray, hrealloc] at hstart
      have hold : (t.sections.getD []).length ≤ t.bufSize := by
        cases hsections : t.sections with
        | none => apply Nat.zero_le
        | some cells => apply Nat.le_of_eq (hbuf.length cells hsections)
      have hsize : u32 (t.bufSize * 2) < 2 ^ 32 := Nat.mod_lt _ (by decide)
      generalize u32 (t.bufSize * 2) = n at hstart hsize
      generalize t.sections.getD [] = old at hold hstart
      have hlength : (old.take n ++ List.replicate (n - old.length) Cell.uninit).length = n := by
        simp only [List.length_append, List.length_take, List.length_replicate]
        omega
      simp only [↓reduceIte] at hstart
      obtain ⟨cells, hcells, hroom⟩ := lt_of_openSection hstart
      cases hcells
      rw [hlength] at hroom
      have hk : old.length < t.sectionCount := Nat.lt_of_le_of_lt hold hgrow
      let grown : ThreadCtx S :=
        ⟨some (old.take n ++ List.replicate (n - old.length) .uninit), t.sectionCount, n⟩
      apply stopAllSections_unwritten (t := grown) rfl (by omega) hk _ hstart
      rw [List.take_of_length_le (by omega), List.getElem?_append_right (Nat.le_refl _),
        List.getElem?_replicate_of_lt (by omega)]

/-- A thread all of whose open sections are ended had them stored. -/
theorem holds_of_stopAll {o : Outcome S} {rtrn : ℤ} {t₁ : ThreadCtx S} {opened : List S}
    (hbuf : Allocated t) (hstart : epochStart t o = .ok (rtrn, t₁))
    (hstop : stopAllSections t₁ = .ok (ended, t')) (hfresh : o.began ∉ opened)
    (hended : ∀ sec ∈ opened, .ptr sec ∈ ended) :
  ∃ cells, Holds t opened cells
  := by
  have hle : ¬ t.sectionCount > t.bufSize := by
    intro hgrow
    apply stopAllSections_grown hbuf hgrow hstart hstop
  rw [epochStart, if_neg hle] at hstart
  obtain ⟨cells, hsections, hroom⟩ := lt_of_openSection hstart
  rw [openSection_of_lt o hsections hroom] at hstart
  use cells
  cases halloc : o.allocOk with
  | true =>
      rw [halloc] at hstart
      cases hstart
      have hlength := hbuf.length cells hsections
      have hsize := hbuf.bufSize
      have hcount : u32 (t.sectionCount + 1) = t.sectionCount + 1 := u32_of_lt (by omega)
      obtain ⟨rfl, hwritten⟩ := stopAllSections_eq_ok rfl hstop
      simp only [hcount, List.take_add_one, List.getElem?_set_self hroom,
        List.take_set_of_le (Nat.le_refl _)] at hwritten hended
      refine ⟨hsections, hroom, ?_, ?_⟩
      · intro cell hcell
        apply hwritten cell (List.mem_append_left _ hcell)
      · intro sec hsec
        rcases List.mem_append.mp (hended sec hsec) with hmem | hmem
        · apply hmem
        · cases List.mem_singleton.mp hmem
          cases hfresh hsec
  | false =>
      rw [halloc] at hstart
      cases hstart
      obtain ⟨rfl, hwritten⟩ := stopAllSections_eq_ok rfl hstop
      simp only [List.take_set_of_le (Nat.le_refl _)] at hwritten hended
      exact ⟨hsections, hroom, hwritten, hended⟩

theorem openSection_allocated {o : Outcome S} {rtrn : ℤ} (hbuf : Allocated t)
    (h : openSection t i o = .ok (rtrn, t')) :
  Allocated t'
  := by
  obtain ⟨cells, hsections, hi⟩ := lt_of_openSection h
  rw [openSection_of_lt o hsections hi] at h
  have hlength : ∀ cell : Cell S, (cells.set i cell).length = t.bufSize := by
    intro cell
    rw [List.length_set, hbuf.length cells hsections]
  split at h
  all_goals
    cases h
    use hbuf.bufSize
    rintro _ ⟨⟩
    apply hlength

/-- The array has the elements that `buf_size` says after `epoch_start` as well. -/
theorem epochStart_allocated {o : Outcome S} {rtrn : ℤ} (hbuf : Allocated t)
    (h : epochStart t o = .ok (rtrn, t')) :
  Allocated t'
  := by
  rw [epochStart] at h
  split at h
  · cases hrealloc : o.reallocOk with
    | false =>
        rw [reallocarray, hrealloc] at h
        cases h
        use hbuf.bufSize
        rintro _ ⟨⟩
    | true =>
        rw [reallocarray, hrealloc] at h
        apply openSection_allocated _ h
        use Nat.mod_lt _ (by decide)
        rintro _ ⟨⟩
        simp only [List.length_append, List.length_take, List.length_replicate]
        omega
  · apply openSection_allocated hbuf h

/-- A call of `epoch_start` that fails does not change what the array holds. -/
theorem epochStart_holds_iff {o : Outcome S} (opened : List S) (hbuf : Allocated t)
    (h : epochStart t o = .ok (-1, t')) :
  (∃ cells, Holds t' opened cells) ↔ ∃ cells, Holds t opened cells
  := by
  by_cases hgrow : t.sectionCount > t.bufSize
  · constructor
    · rintro ⟨cells, hholds⟩
      obtain ⟨t₁, hstop⟩ := stopAllSections_of_written hholds.sections
        (Nat.le_of_lt hholds.room) hholds.written
      cases stopAllSections_grown hbuf hgrow h hstop
    · rintro ⟨cells, hholds⟩
      have hlength := hbuf.length cells hholds.sections
      have hroom := hholds.room
      omega
  · rw [epochStart, if_neg hgrow] at h
    obtain ⟨cells, hsections, hroom⟩ := lt_of_openSection h
    rw [openSection_of_lt o hsections hroom] at h
    split at h
    · cases h
    · cases h
      have htake : (cells.set t.sectionCount .null).take t.sectionCount
          = cells.take t.sectionCount := List.take_set_of_le (Nat.le_refl _)
      constructor
      · rintro ⟨_, ⟨⟩, -, hwritten, hstored⟩
        simp only [htake] at hwritten hstored
        exact ⟨cells, hsections, hroom, hwritten, hstored⟩
      · rintro ⟨cells', hsections', hroom', hwritten, hstored⟩
        cases hsections.symm.trans hsections'
        rw [← htake] at hwritten hstored
        exact ⟨_, rfl, by rwa [List.length_set], hwritten, hstored⟩

end StopAll

end Epoch
