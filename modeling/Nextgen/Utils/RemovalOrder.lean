import Nextgen.Utils.Walk

/-!
# The order in which a directory is deleted

What the walk through a directory comes to before an entry, and so what is gone when it comes
to it, and which files can be removed then.  A part of the walk settles what it should remove,
and parts that do so can be put together.
-/

open FileTree

universe u

namespace DeleteDirectory

variable {N : Type u}

/-- A directory to be deleted, with what is below it: finitely many levels, and all of it may
be removed.  The directories can be read, and the paths of the walk are shorter than `PATH_MAX`, so
that `fts_read` fails nowhere. -/
structure Deletion (N : Type u) where
  sys : System N
  files : Files N
  path : List N
  nonroot : path ≠ []
  directory : files.node path = some .dir
  nodup : ∀ p, (sys.listing p).Nodup
  complete : Complete sys files
  depth : ℕ
  finite : ∀ q, files.node (q ++ path) ≠ none → q.length ≤ depth
  permitted : ∀ p, path <:+ p → sys.permitted p = true

namespace Deletion

/-- The walk comes to `q` before it comes to `e`: in a directory below the path, or the path
itself, the entry that `q` is at or below is listed before the one that `e` is at or below. -/
def Before (v : Deletion N) (q e : List N) : Prop :=
  ∃ p c d, v.path <:+ p ∧ c :: p <:+ q ∧ d :: p <:+ e ∧
    ∃ cs ds, v.sys.listing p = cs ++ d :: ds ∧ c ∈ cs

/-- What is gone when the walk has been through the first entries of a directory. -/
def Gone (v : Deletion N) (p cs q : List N) : Prop :=
  v.Before q p ∨ ∃ c ∈ cs, c :: p <:+ q

section Order

variable {v : Deletion N} {p q e : List N}

/-- A name is listed once. -/
theorem not_mem_listing {d : N} {cs ds : List N} (h : v.sys.listing p = cs ++ d :: ds) :
  d ∉ cs ∧ d ∉ ds
  := by
  have hnodup := v.nodup p
  rw [h] at hnodup
  obtain ⟨-, hds, hdisjoint⟩ := List.nodup_append.mp hnodup
  constructor
  · intro hd
    exact hdisjoint d hd d List.mem_cons_self rfl
  · exact (List.nodup_cons.mp hds).1

/-- A list has one suffix of a length. -/
theorem suffix_unique {a b l : List N} (ha : a <:+ l) (hb : b <:+ l)
    (hlength : a.length = b.length) :
  a = b
  := (List.suffix_of_suffix_length_le ha hb (Nat.le_of_eq hlength)).eq_of_length hlength

theorem Before.not_suffix (h : v.Before q e) :
  ¬ e <:+ q ∧ ¬ q <:+ e
  := by
  obtain ⟨p, c, d, -, hc, hd, cs, ds, hlisting, hmem⟩ := h
  have hne : c ≠ d := by
    rintro rfl
    exact (not_mem_listing hlisting).1 hmem
  constructor
  · intro he
    exact hne (List.cons.inj (suffix_unique hc (hd.trans he) rfl)).1
  · intro hq
    exact hne (List.cons.inj (suffix_unique (hc.trans hq) hd rfl)).1

theorem not_before_path (q : List N) :
  ¬ v.Before q v.path
  := by
  rintro ⟨p, c, d, hp, -, hd, -⟩
  have h := hp.length_le
  have h' := hd.length_le
  rw [List.length_cons] at h'
  omega

/-- What comes before an entry of a directory. -/
theorem before_cons_iff {d : N} {cs ds : List N} (hp : v.path <:+ p)
    (hlisting : v.sys.listing p = cs ++ d :: ds) :
  v.Before q (d :: p) ↔ v.Gone p cs q
  := by
  constructor
  · rintro ⟨p', c', d', hp', hc', hd', cs', ds', hlisting', hmem⟩
    rcases List.suffix_cons_iff.mp hd' with heq | hsuffix
    · obtain ⟨rfl, rfl⟩ := List.cons.inj heq
      obtain ⟨rfl, -, -⟩ := (List.append_cons_inj_of_notMem (not_mem_listing hlisting').1
        (not_mem_listing hlisting').2).mp (hlisting'.symm.trans hlisting)
      exact .inr ⟨c', hmem, hc'⟩
    · exact .inl ⟨p', c', d', hp', hc', hsuffix, cs', ds', hlisting', hmem⟩
  · rintro (⟨p', c', d', hp', hc', hd', hrest⟩ | ⟨c, hc, hq⟩)
    · exact ⟨p', c', d', hp', hc', hd'.trans (List.suffix_cons d p), hrest⟩
    · exact ⟨p, c, d, hp, hq, List.suffix_refl _, cs, ds, hlisting, hc⟩

theorem gone_concat_iff {d : N} {cs ds : List N} (hp : v.path <:+ p)
    (hlisting : v.sys.listing p = cs ++ d :: ds) :
  (v.Before q (d :: p) ∨ d :: p <:+ q) ↔ v.Gone p (cs ++ [d]) q
  := by
  rw [before_cons_iff hp hlisting]
  constructor
  · rintro ((hbefore | ⟨c, hc, hq⟩) | hq)
    · exact .inl hbefore
    · exact .inr ⟨c, List.mem_append_left _ hc, hq⟩
    · exact .inr ⟨d, List.mem_append_right _ List.mem_cons_self, hq⟩
  · rintro (hbefore | ⟨c, hc, hq⟩)
    · exact .inl (.inl hbefore)
    · rcases List.mem_append.mp hc with hc | hc
      · exact .inl (.inr ⟨c, hc, hq⟩)
      · obtain rfl := List.mem_singleton.mp hc
        exact .inr hq

theorem gone_or_suffix_iff {cs : List N} :
  (v.Gone p cs q ∨ p <:+ q) ↔ (v.Before q p ∨ p <:+ q)
  := by
  constructor
  · rintro ((hbefore | ⟨c, -, hq⟩) | hq)
    · exact .inl hbefore
    · exact .inr ((List.suffix_cons c p).trans hq)
    · exact .inr hq
  · rintro (hbefore | hq)
    · exact .inl (.inl hbefore)
    · exact .inr hq

/-- A directory whose entries are gone is still there, and empty. -/
theorem emptied_of_left {s : Files N} (hdir : v.files.node p = some .dir)
    (h : Left v.files s (v.Gone p (v.sys.listing p))) :
  s.node p = some .dir ∧ ∀ c ∈ v.sys.listing p, s.node (c :: p) = none
  := by
  constructor
  · rw [(h p).2, hdir]
    rintro (hbefore | ⟨c, -, hc⟩)
    · exact hbefore.not_suffix.1 (List.suffix_refl p)
    · have := hc.length_le
      rw [List.length_cons] at this
      omega
  · intro c hc
    exact (h (c :: p)).1 (.inr ⟨c, hc, List.suffix_refl _⟩)

end Order

/-! ### What can be deleted -/

/-- When everything before the entry is gone, it still leads to such a file. -/
def Unlinkable (v : Deletion N) (e : List N) : Prop :=
  ∃ s, Left v.files s (v.Before · e) ∧ LeadsToPlain v.sys s e

/-- So does everything at and below a path that is not a directory. -/
def Removable (v : Deletion N) (p : List N) : Prop :=
  ∀ e, p <:+ e → ∀ b, v.files.node e = some (.file b) → v.Unlinkable e

section Removable

variable {v : Deletion N} {s : Files N} {p e : List N}

/-- The walk comes to an entry before it is gone. -/
theorem node_eq_of_left {q : List N} (h : Left v.files s (v.Before · e)) (hq : e <:+ q) :
  s.node q = v.files.node q
  := (h q).2 fun hbefore => hbefore.not_suffix.1 hq

/-- A stuck file was not unlinkable. -/
theorem not_unlinkable_of_stuck (h : Left v.files s (v.Before · e)) (hstuck : Stuck v.sys e s) :
  ¬ v.Unlinkable e
  := by
  rintro ⟨s', hs', hplain⟩
  rw [hs'.unique h] at hplain
  exact hstuck.not_leadsToPlain hplain

/-- A file below which there is nothing. -/
theorem removable_file_iff {b : Inode N} (hb : v.files.node e = some (.file b)) :
  v.Removable e ↔ v.Unlinkable e
  := by
  constructor
  · intro h
    exact h e (List.suffix_refl e) b hb
  · intro h q hq b' hb'
    rcases eq_or_ne q e with rfl | hne
    · exact h
    · rw [node_eq_none_of_file hb hq hne] at hb'
      cases hb'

theorem removable_dir_iff (hdir : v.files.node p = some .dir) :
  v.Removable p ↔ ∀ c ∈ v.sys.listing p, v.Removable (c :: p)
  := by
  constructor
  · intro h c _ e he
    exact h e ((List.suffix_cons c p).trans he)
  · intro h e he b hb
    have hne : e ≠ p := by
      rintro rfl
      rw [hdir] at hb
      cases hb
    obtain ⟨c, hc⟩ := exists_cons_suffix he hne
    have hentry : v.files.node (c :: p) ≠ none := by
      intro hnone
      rw [node_eq_none_of_suffix hnone hc] at hb
      cases hb
    exact h c (v.complete c p hentry) e hc b hb

theorem removable_of_none (h : v.files.node e = none) :
  v.Removable e
  := by
  intro q hq b hb
  rw [node_eq_none_of_suffix h hq] at hb
  cases hb

/-- What does not exist can be counted as gone. -/
theorem left_of_none {gone : List N → Prop} (hleft : Left v.files s gone)
    (h : v.files.node e = none) :
  Left v.files s fun q => gone q ∨ e <:+ q
  := by
  intro q
  constructor
  · rintro (hq | hq)
    · exact (hleft q).1 hq
    · by_contra hne
      obtain ⟨x, hx⟩ := Option.ne_none_iff_exists'.mp hne
      have hfiles := hleft.sub q x hx
      rw [node_eq_none_of_suffix h hq] at hfiles
      cases hfiles
  · intro hq
    exact (hleft q).2 (not_or.mp hq).1

end Removable

/-- There are fewer levels than a number at and below a path. -/
def Within (v : Deletion N) (p : List N) (levels : ℕ) : Prop :=
  ∀ q, v.files.node (q ++ p) ≠ none → q.length < levels

theorem Within.cons {v : Deletion N} {p : List N} {levels : ℕ} (h : v.Within p (levels + 1))
    (d : N) :
  v.Within (d :: p) levels
  := by
  intro q hq
  rw [List.append_cons] at hq
  have hlt := h (q ++ [d]) hq
  rw [List.length_append, List.length_singleton] at hlt
  exact Nat.lt_of_succ_lt_succ hlt

/-! ### Parts of the walk -/

/-- Some file below the path is stuck. -/
def StuckBelow (v : Deletion N) (s : Files N) : Prop :=
  Sub s v.files ∧ ∃ e, v.path <:+ e ∧ Stuck v.sys e s

/-- A part of the walk has removed what it should, and all of it was removable, or some file is
stuck and it was not. -/
def Settled (v : Deletion N) (gone : List N → Prop) (removable : Prop) (s : Files N) : Prop :=
  (Left v.files s gone ∧ removable) ∨ (v.StuckBelow s ∧ ¬ removable)

/-- Whatever a part of the walk comes to is settled, and it comes to its end if all it should
remove is removable and there are enough rounds. -/
def Settles (v : Deletion N) (run : Except (Stop N) (Files N)) (gone : List N → Prop)
    (removable enough : Prop) : Prop :=
  (∀ s, run = .ok s → v.Settled gone removable s) ∧ (removable → enough → ∃ s, run = .ok s)

section Settles

variable {v : Deletion N} {run : Except (Stop N) (Files N)} {gone gone' : List N → Prop}
  {removable removable' enough enough' : Prop} {s : Files N}

theorem Settles.of_ok (hrun : run = .ok s) (hleft : Left v.files s gone) (h : removable) :
  v.Settles run gone removable enough
  := by
  constructor
  · intro s' hs'
    cases hrun.symm.trans hs'
    exact .inl ⟨hleft, h⟩
  · intro _ _
    exact ⟨s, hrun⟩

theorem Settles.of_stuckBelow (hrun : ∀ s, run = .ok s → v.StuckBelow s) (h : ¬ removable) :
  v.Settles run gone removable enough
  := by
  constructor
  · intro s hs
    exact .inr ⟨hrun s hs, h⟩
  · intro hremovable
    exact absurd hremovable h

theorem Settles.congr (h : v.Settles run gone removable enough)
    (hgone : ∀ q, gone q ↔ gone' q) (hremovable : removable ↔ removable')
    (henough : enough' → enough) :
  v.Settles run gone' removable' enough'
  := by
  constructor
  · intro s hs
    rcases h.1 s hs with ⟨hleft, hyes⟩ | ⟨hstuck, hnot⟩
    · exact .inl ⟨hleft.congr hgone, hremovable.mp hyes⟩
    · exact .inr ⟨hstuck, mt hremovable.mpr hnot⟩
  · intro hyes hrounds
    exact h.2 (hremovable.mpr hyes) (henough hrounds)

/-- One part after the other, if the second leaves a stuck file stuck. -/
theorem Settles.bind {f : Files N → Except (Stop N) (Files N)}
    (h : v.Settles run gone removable enough)
    (hstuck : ∀ s s', v.StuckBelow s → f s = .ok s' → v.StuckBelow s')
    (hnext : ∀ s, run = .ok s → Left v.files s gone →
      v.Settles (f s) gone' removable' enough) :
  v.Settles (run.bind f) gone' (removable ∧ removable') enough
  := by
  constructor
  · intro s' hs'
    obtain ⟨s, hs, hf⟩ := Except.bind_eq_ok.mp hs'
    rcases h.1 s hs with ⟨hleft, hfirst⟩ | ⟨hbelow, hnot⟩
    · rcases (hnext s hs hleft).1 s' hf with ⟨hleft', hsecond⟩ | ⟨hbelow, hnot⟩
      · exact .inl ⟨hleft', hfirst, hsecond⟩
      · exact .inr ⟨hbelow, fun hboth => hnot hboth.2⟩
    · exact .inr ⟨hstuck s s' hbelow hf, fun hboth => hnot hboth.1⟩
  · rintro ⟨hfirst, hsecond⟩ henough
    obtain ⟨s, hs⟩ := h.2 hfirst henough
    obtain ⟨hleft, -⟩ := (h.1 s hs).resolve_right fun hnot => hnot.2 hfirst
    obtain ⟨s', hs'⟩ := (hnext s hs hleft).2 hsecond henough
    exact ⟨s', Except.bind_eq_ok.mpr ⟨s, hs, hs'⟩⟩

end Settles

end Deletion

end DeleteDirectory
