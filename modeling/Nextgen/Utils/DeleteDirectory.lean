import Nextgen.Utils.RemovalOrder

/-!
# `delete_directory`

The walk removes a directory if all files below it can be removed, and otherwise leaves a file
that is never removed, so that the directory cannot be removed either.
-/

open FileTree

universe u

namespace DeleteDirectory

variable {N : Type u} [DecidableEq N]

namespace Deletion

/-- `delete_directory` returns zero after a number of rounds, what was at the path and below it
is gone, and everything else is unchanged. -/
def Deletes (v : Deletion N) : Prop :=
  ∃ rounds, ∀ fuel, rounds ≤ fuel →
    ∃ t, deleteDirectory v.sys fuel v.files (some v.path) = some (0, t) ∧
      (∀ q, v.path <:+ q → t.node q = none) ∧
      ∀ q, ¬ v.path <:+ q → t.node q = v.files.node q

/-! ### Steps of the walk -/

section Steps

variable {v : Deletion N} {s s' : Files N} {p e : List N} {d : N}

theorem StuckBelow.visit {f : List N} (h : v.StuckBelow s)
    (hvisit : visit v.sys v.path s f = .ok s') :
  v.StuckBelow s'
  := by
  obtain ⟨hsub, e, he, hstuck⟩ := h
  exact ⟨(visit_sub hvisit).trans hsub, e, he, hstuck.visit (v.complete.sub hsub) hvisit⟩

theorem StuckBelow.walk {fuel : ℕ} {ancestors : List (List N)} {f : List N}
    (h : v.StuckBelow s) (hwalk : walk v.sys v.path fuel ancestors s f = .ok s') :
  v.StuckBelow s'
  := walk_invariant (fun _ _ _ h hvisit => h.visit hvisit) h hwalk

theorem StuckBelow.entries {fuel : ℕ} {ancestors : List (List N)} {es : List (List N × Bool)}
    (h : v.StuckBelow s)
    (hentries : entries (DeleteDirectory.walk v.sys v.path fuel ancestors)
      (DeleteDirectory.visit v.sys v.path) es s = .ok s') :
  v.StuckBelow s'
  := entries_invariant (fun _ _ _ h hwalk => StuckBelow.walk h hwalk)
    (fun _ _ _ h hvisit => h.visit hvisit) es h hentries

/-- A file that leads to a plain file is removed. -/
theorem visit_of_leadsToPlain {b : Inode N} (hp : v.path <:+ p) (hne : e ≠ v.path)
    (he : p <:+ e) (h : Left v.files s (v.Before · e))
    (hb : v.files.node e = some (.file b)) (hplain : LeadsToPlain v.sys s e) :
  ∃ s', visit v.sys v.path s e = .ok s' ∧
    Left v.files s' fun q => v.Before q e ∨ e <:+ q
  := by
  have hnode : s.node e = some (.file b) := by
    rw [node_eq_of_left h (List.suffix_refl e), hb]
  have hread : (s.read e).isSome := by
    rw [read_eq_some.mpr hnode]
    rfl
  obtain ⟨mode, hmode, hbit⟩ := leadsToPlain_iff.mp hplain
  obtain ⟨s', hs'⟩ : ∃ s', s.unlink e = some s' := by
    rw [FileTree.unlink, dif_pos hread]
    exact ⟨_, rfl⟩
  have hunlink : unlink v.sys s e = some s' := by
    rw [unlink, lresolve_of_node (Option.ne_none_iff_exists'.mpr ⟨_, hnode⟩),
      Option.bind_some, if_pos (v.permitted e (hp.trans he)), hs']
  use s'
  constructor
  · rw [DeleteDirectory.visit, if_neg hne, hmode]
    simp only [hbit, ne_eq, not_true_eq_false, if_false]
    rw [hunlink]
  · obtain ⟨hgone, hothers⟩ := FileTree.unlink_eq_some hs'
    intro q
    rcases eq_or_ne q e with rfl | hq
    · exact ⟨fun _ => hgone, fun hnot => absurd (.inr (List.suffix_refl q)) hnot⟩
    · rw [hothers q hq]
      constructor
      · rintro (hbefore | hbelow)
        · exact (h q).1 hbefore
        · exact node_eq_none_of_file hnode hbelow hq
      · intro hnot
        exact (h q).2 (not_or.mp hnot).1

theorem rmdir_of_dir (hp : v.path <:+ p) (hdir : s.node p = some .dir) :
  rmdir v.sys s p =
    if ∀ c ∈ v.sys.listing p, s.node (c :: p) = none then some (s.prune p) else none
  := by
  have hnil : p ≠ [] := by
    rintro rfl
    exact v.nonroot (List.suffix_nil.mp hp)
  rw [rmdir, lresolve_of_node (Option.ne_none_iff_exists'.mpr ⟨_, hdir⟩), Option.bind_some]
  simp only [hnil, ne_eq, not_false_eq_true, v.permitted p hp, isDir_iff.mpr hdir, true_and,
    Option.isNone_iff_eq_none]

/-- A visit of a directory removes it if it is empty. -/
theorem visit_of_dir (hp : v.path <:+ p) (hne : p ≠ v.path) (hdir : s.node p = some .dir) :
  visit v.sys v.path s p =
    .ok (if ∀ c ∈ v.sys.listing p, s.node (c :: p) = none then s.prune p else s)
  := by
  rw [DeleteDirectory.visit, if_neg hne, stat_of_dir hdir]
  simp only [rmdir_of_dir hp hdir]
  rw [if_pos (by decide)]
  split <;> rfl

end Steps

/-! ### The whole walk -/

/-- What a walk through a directory below the path comes to. -/
def WalkSettles (v : Deletion N) (fuel : ℕ) : Prop :=
  ∀ p s ancestors, v.path <:+ p → p ≠ v.path → v.files.node p = some .dir →
    Left v.files s (v.Before · p) → (∀ a ∈ ancestors, a.length < p.length) →
    (∀ s', walk v.sys v.path fuel ancestors s p = .ok s' →
      v.Settled (fun q => v.Before q p ∨ p <:+ q) (v.Removable p) s') ∧
    (v.Removable p → (∀ q, v.files.node (q ++ p) ≠ none → q.length < fuel) →
      ∃ s', walk v.sys v.path fuel ancestors s p = .ok s')

section Walk

variable {v : Deletion N} {s built : Files N} {p e : List N} {d : N} {fuel : ℕ}
  {ancestors : List (List N)}

/-- One entry of a directory, which `fts_build` saw in an earlier state `built`. -/
theorem entry_settles (ih : v.WalkSettles fuel) (hp : v.path <:+ p)
    (hsub : Sub s built) (hleft : Left v.files s (v.Before · (d :: p)))
    (hexists : v.files.node (d :: p) ≠ none) (hancestors : ∀ a ∈ ancestors, a.length ≤ p.length) :
  v.Settles
    ((if isFtsD v.sys built ancestors (d :: p) then walk v.sys v.path fuel ancestors
      else visit v.sys v.path) s (d :: p))
    (fun q => v.Before q (d :: p) ∨ d :: p <:+ q) (v.Removable (d :: p)) (v.Within (d :: p) fuel)
  := by
  have hpath : v.path <:+ d :: p := hp.trans (List.suffix_cons d p)
  have hne : d :: p ≠ v.path := by
    intro heq
    have := hp.length_le
    rw [← heq, List.length_cons] at this
    omega
  have hnode := node_eq_of_left hleft (List.suffix_refl (d :: p))
  cases hkind : v.files.node (d :: p) with
  | none => exact absurd hkind hexists
  | some x =>
      rw [hkind] at hnode
      cases x with
      | dir =>
          have hftsD : isFtsD v.sys built ancestors (d :: p) = true := by
            rw [isFtsD, opendir_of_dir (hsub _ _ hnode)]
            simp only [decide_eq_true_eq]
            intro hmem
            have := hancestors _ hmem
            rw [List.length_cons] at this
            omega
          rw [hftsD]
          apply ih (d :: p) s ancestors hpath hne hkind hleft
          intro a ha
          exact Nat.lt_succ_of_le (hancestors a ha)
      | file b =>
          rw [removable_file_iff hkind]
          rcases stuck_or_leadsToPlain hnode with hstuck | hplain
          · apply Settles.of_stuckBelow _ (not_unlinkable_of_stuck hleft hstuck)
            intro s' hs'
            have hbelow : v.StuckBelow s := ⟨hleft.sub, d :: p, hpath, hstuck⟩
            split at hs'
            · exact hbelow.walk hs'
            · exact hbelow.visit hs'
          · obtain ⟨s', hs', hleft'⟩ := visit_of_leadsToPlain hp hne (List.suffix_cons d p) hleft
              hkind hplain
            rw [isFtsD_of_leadsToPlain hsub ancestors hplain]
            exact .of_ok hs' hleft' ⟨s, hleft, hplain⟩

theorem entry_sub {s' : Files N} {f : List N} {ftsD : Bool}
    (h : (if ftsD then walk v.sys v.path fuel ancestors else visit v.sys v.path) s f = .ok s') :
  Sub s' s
  := by
  split at h
  · exact walk_invariant (I := fun t => Sub t s)
      (fun _ _ _ hsub hvisit => (visit_sub hvisit).trans hsub) (Sub.refl s) h
  · exact visit_sub h

/-- The entries of a directory that `fts_build` has read. -/
theorem entries_settle (ih : v.WalkSettles fuel) (hp : v.path <:+ p)
    (hbuilt : Left v.files built (v.Before · p))
    (hancestors : ∀ a ∈ ancestors, a.length ≤ p.length) {cs ds : List N}
    (hlisting : v.sys.listing p = cs ++ ds) (hsub : Sub s built)
    (hleft : Left v.files s (v.Gone p cs)) :
  v.Settles
    (entries (walk v.sys v.path fuel ancestors) (visit v.sys v.path)
      (ftsEntries v.sys built ancestors p p ds) s)
    (v.Gone p (v.sys.listing p)) (∀ c ∈ ds, v.Removable (c :: p)) (v.Within p (fuel + 1))
  := by
  induction ds generalizing cs s with
  | nil =>
      rw [List.append_nil] at hlisting
      rw [hlisting]
      exact .of_ok rfl hleft (List.forall_mem_nil _)
  | cons d ds rest =>
      have hlisting' : v.sys.listing p = (cs ++ [d]) ++ ds := by
        rw [hlisting, List.append_assoc]
        rfl
      have hnode : built.node (d :: p) = v.files.node (d :: p) :=
        node_eq_of_left hbuilt (List.suffix_cons d p)
      rw [List.forall_mem_cons]
      cases hentry : v.files.node (d :: p) with
      | none =>
          have hskip : ftsEntries v.sys built ancestors p p (d :: ds)
              = ftsEntries v.sys built ancestors p p ds := by
            simp [ftsEntries, hnode, hentry]
          have hleft' : Left v.files s (v.Gone p (cs ++ [d])) := by
            refine (left_of_none hleft hentry).congr fun q => ?_
            rw [← gone_concat_iff hp hlisting, before_cons_iff hp hlisting]
          rw [hskip, and_iff_right (removable_of_none hentry)]
          exact rest hlisting' hsub hleft'
      | some x =>
          have hcons : ftsEntries v.sys built ancestors p p (d :: ds)
              = (d :: p, isFtsD v.sys built ancestors (d :: p))
                :: ftsEntries v.sys built ancestors p p ds := by
            simp [ftsEntries, hnode, hentry]
          have hbefore : Left v.files s (v.Before · (d :: p)) :=
            hleft.congr fun q => (before_cons_iff hp hlisting).symm
          have hfirst := (entry_settles ih hp hsub hbefore
            (Option.ne_none_iff_exists'.mpr ⟨x, hentry⟩) hancestors).congr
              (fun q => gone_concat_iff hp hlisting) Iff.rfl fun h => Within.cons h d
          rw [hcons]
          apply hfirst.bind
          · intro s₁ s' hstuck hs'
            exact hstuck.entries hs'
          · intro s₁ hs₁ hleft₁
            exact rest hlisting' ((entry_sub hs₁).trans hsub) hleft₁

/-- The part of a walk between the two visits of its directory. -/
theorem contents_settle (ih : v.WalkSettles fuel) (hp : v.path <:+ p)
    (hdir : v.files.node p = some .dir) (hleft : Left v.files s (v.Before · p))
    (hancestors : ∀ a ∈ ancestors, a.length < p.length) :
  v.Settles
    (entries (walk v.sys v.path fuel (p :: ancestors)) (visit v.sys v.path)
      (ftsBuild v.sys s (p :: ancestors) p p) s)
    (v.Gone p (v.sys.listing p)) (v.Removable p) (v.Within p (fuel + 1))
  := by
  have hlisting : v.sys.listing p = [] ++ v.sys.listing p := rfl
  rw [removable_dir_iff hdir]
  refine entries_settle ih hp hleft ?_ hlisting (Sub.refl s) ?_
  · intro a ha
    rcases List.mem_cons.mp ha with rfl | ha
    · exact Nat.le_refl _
    · exact Nat.le_of_lt (hancestors a ha)
  · refine hleft.congr fun q => ?_
    simp [Gone]

/-- A directory that has been removed cannot be read. -/
theorem opendir_prune (hdir : s.node p = some .dir) :
  opendir v.sys (s.prune p) p = none
  := by
  rw [opendir]
  cases h : resolve Inode.target (s.prune p) v.sys.links p with
  | none => rfl
  | some q =>
      have hq := resolve_mono (sub_prune s p) h
      rw [resolve_of_dir hdir] at hq
      cases hq
      have hnone : (s.prune p).node p = none := if_pos (List.suffix_refl p)
      have hnot : (s.prune p).isDir p = false := by
        rw [isDir, hnone]
      rw [Option.filter_some, hnot]
      rfl

/-- Every walk through a directory below the path removes all of it if it can be removed, and
otherwise leaves a file that is stuck. -/
theorem walk_settles (fuel : ℕ) :
  v.WalkSettles fuel
  := by
  induction fuel with
  | zero =>
      intro p s ancestors hp hne hdir hleft hancestors
      constructor
      · intro s' hs'
        cases hs'
      · intro _ hdepth
        have hlt := hdepth [] (Option.ne_none_iff_exists'.mpr ⟨_, hdir⟩)
        exact absurd hlt (Nat.not_lt_zero _)
  | succ fuel ih =>
      intro p s ancestors hp hne hdir hleft hancestors
      have hnode : s.node p = some .dir := by
        rw [node_eq_of_left hleft (List.suffix_refl p), hdir]
      have hvisit := visit_of_dir hp hne hnode
      show v.Settles _ _ (v.Removable p) (v.Within p (fuel + 1))
      by_cases hempty : ∀ c ∈ v.sys.listing p, s.node (c :: p) = none
      -- the first visit has removed the directory
      · have hwalk : walk v.sys v.path (fuel + 1) ancestors s p = .ok (s.prune p) := by
          rw [walk, hvisit, if_pos hempty]
          simp only [Except.bind, opendir_prune hnode]
        have hremovable : v.Removable p := by
          rw [removable_dir_iff hdir]
          intro c hc
          apply removable_of_none
          rw [← node_eq_of_left hleft (List.suffix_cons c p), hempty c hc]
        exact .of_ok hwalk (prune_left hleft p) hremovable
      · have hwalk : walk v.sys v.path (fuel + 1) ancestors s p =
            (entries (walk v.sys v.path fuel (p :: ancestors)) (visit v.sys v.path)
              (ftsBuild v.sys s (p :: ancestors) p p) s).bind
                fun t => visit v.sys v.path t p := by
          rw [walk, hvisit, if_neg hempty]
          simp only [Except.bind, opendir_of_dir hnode]
        rw [hwalk, ← and_true (v.Removable p)]
        apply (contents_settle ih hp hdir hleft hancestors).bind
        · intro s₁ s' hstuck hs'
          exact hstuck.visit hs'
        · intro s₁ _ hleft₁
          obtain ⟨hnode₁, hempty₁⟩ := emptied_of_left hdir hleft₁
          have hlast : visit v.sys v.path s₁ p = .ok (s₁.prune p) := by
            rw [visit_of_dir hp hne hnode₁, if_pos hempty₁]
          exact .of_ok hlast ((prune_left hleft₁ p).congr fun q => gone_or_suffix_iff) trivial

/-- `delete_dir_contents` empties the path if everything below it can be removed, and otherwise
leaves a file that is stuck, if it returns zero. -/
theorem deleteDirContents_settles (fuel : ℕ) :
  v.Settles (deleteDirContents v.sys fuel v.files v.path)
    (v.Gone v.path (v.sys.listing v.path)) (v.Removable v.path) (v.depth < fuel)
  := by
  have hleft : Left v.files v.files (v.Before · v.path) :=
    fun q => ⟨fun h => absurd h (not_before_path q), fun _ => rfl⟩
  cases fuel with
  | zero =>
      constructor
      · intro s hs
        cases hs
      · intro _ hlt
        exact absurd hlt (Nat.not_lt_zero _)
  | succ fuel =>
      have hancestors : ∀ a ∈ ([] : List (List N)), a.length < v.path.length := by simp
      have hwalk : deleteDirContents v.sys (fuel + 1) v.files v.path =
          entries (walk v.sys v.path fuel [v.path]) (visit v.sys v.path)
            (ftsBuild v.sys v.files [v.path] v.path v.path) v.files := by
        have hvisit : ∀ t, visit v.sys v.path t v.path = .ok t := fun _ => if_pos rfl
        rw [deleteDirContents, walk, hvisit]
        simp only [Except.bind, opendir_of_dir v.directory, hvisit]
        split
        · rename_i hresult
          exact hresult.symm
        · rename_i hresult
          exact hresult.symm
      rw [hwalk]
      apply (contents_settle (walk_settles fuel) (List.suffix_refl _) v.directory hleft
        hancestors).congr (fun _ => Iff.rfl) Iff.rfl
      intro hlt q hq
      exact Nat.lt_of_le_of_lt (v.finite q hq) hlt

/-- When the path cannot be removed in the end, it is because of a stuck file. -/
theorem rmdir_of_stuckBelow (h : v.StuckBelow s) :
  rmdir v.sys s v.path = none
  := by
  obtain ⟨hsub, e, he, ⟨b, hb⟩, -⟩ := h
  have hexists : s.node e ≠ none := Option.ne_none_iff_exists'.mpr ⟨_, hb⟩
  have hne : e ≠ v.path := by
    rintro rfl
    have hdir := hsub _ _ hb
    rw [v.directory] at hdir
    cases hdir
  obtain ⟨c, hc⟩ := exists_cons_suffix he hne
  have hentry : s.node (c :: v.path) ≠ none := mt (node_eq_none_of_suffix · hc) hexists
  rw [rmdir_of_dir (List.suffix_refl _) (s.parent c v.path hentry), if_neg]
  intro hempty
  exact hne ((v.complete.sub hsub).eq_of_suffix hempty hexists he)

/-- `delete_directory` by what its walk comes to. -/
theorem deleteDirectory_eq_some {t : Files N} :
  deleteDirectory v.sys fuel v.files (some v.path) = some (0, t) ↔
    ∃ s, deleteDirContents v.sys fuel v.files v.path = .ok s ∧ rmdir v.sys s v.path = some t
  := by
  rw [deleteDirectory, stat_of_dir v.directory]
  simp only
  rw [if_pos (by decide)]
  split
  · rename_i hrun
    simp [hrun]
  · rename_i hrun
    simp [hrun]
  · rename_i s hrun
    split
    · rename_i hrmdir
      simp [hrun, hrmdir]
    · rename_i t' hrmdir
      simp [hrun, hrmdir]

theorem removable_of_deletes (h : v.Deletes) :
  v.Removable v.path
  := by
  obtain ⟨rounds, hrounds⟩ := h
  obtain ⟨t, ht, -⟩ := hrounds rounds (Nat.le_refl rounds)
  obtain ⟨s, hs, hrmdir⟩ := deleteDirectory_eq_some.mp ht
  rcases (deleteDirContents_settles rounds).1 s hs with ⟨-, hremovable⟩ | ⟨hstuck, -⟩
  · exact hremovable
  · rw [rmdir_of_stuckBelow hstuck] at hrmdir
    cases hrmdir

theorem deletes_of_removable (hremovable : v.Removable v.path) :
  v.Deletes
  := by
  use v.depth + 1
  intro fuel hfuel
  obtain ⟨hsettled, hok⟩ := deleteDirContents_settles (v := v) fuel
  obtain ⟨s, hs⟩ := hok hremovable hfuel
  obtain ⟨hleft, -⟩ := (hsettled s hs).resolve_right fun h => h.2 hremovable
  obtain ⟨hnode, hempty⟩ := emptied_of_left v.directory hleft
  have hrmdir : rmdir v.sys s v.path = some (s.prune v.path) := by
    rw [rmdir_of_dir (List.suffix_refl _) hnode, if_pos hempty]
  have hleft' := (prune_left hleft v.path).congr fun q => gone_or_suffix_iff
  refine ⟨_, deleteDirectory_eq_some.mpr ⟨s, hs, hrmdir⟩, ?_, ?_⟩
  · intro q hq
    exact (hleft' q).1 (.inr hq)
  · intro q hq
    exact (hleft' q).2 (not_or.mpr ⟨not_before_path q, hq⟩)

end Walk

/-- `delete_directory` deletes the directory and nothing else exactly when everything below it
that is not a directory leads, when what the walk comes to before is gone, to a file that is
neither a socket nor a block device. -/
theorem deletes_iff (v : Deletion N) :
  v.Deletes ↔ v.Removable v.path
  := ⟨removable_of_deletes, deletes_of_removable⟩

end Deletion

/-- The directories `d` and `home`, the file `f` in `home`, and an entry `l` of `d`. -/
def twoNodes (l : Inode String) (p : List String) : Option (FileNode (Inode String)) :=
  if p = [] ∨ p = ["d"] ∨ p = ["home"] then some .dir
  else if p = ["f", "home"] then some (.file (.regular []))
  else if p = ["l", "d"] then some (.file l)
  else none

theorem twoNodes_cons {l : Inode String} {c : String} {p : List String}
    (h : twoNodes l (c :: p) ≠ none) :
  (p = [] ∧ (c = "d" ∨ c = "home")) ∨ (p = ["home"] ∧ c = "f") ∨ (p = ["d"] ∧ c = "l")
  := by
  rw [twoNodes] at h
  split at h
  · rename_i hdir
    rcases hdir with hnil | hd | hhome
    · cases hnil
    · cases hd
      exact .inl ⟨rfl, .inl rfl⟩
    · cases hhome
      exact .inl ⟨rfl, .inr rfl⟩
  · split at h
    · rename_i hf
      cases hf
      exact .inr (.inl ⟨rfl, rfl⟩)
    · split at h
      · rename_i hl
        cases hl
        exact .inr (.inr ⟨rfl, rfl⟩)
      · exact absurd rfl h

/-- The directory `d`. -/
def twoDirectories (l : Inode String) : Deletion String where
  sys :=
    { listing := fun p =>
        if p = [] then ["d", "home"] else if p = ["d"] then ["l"]
        else if p = ["home"] then ["f"] else []
      permitted := fun _ => true
      links := 1 }
  files :=
    { node := twoNodes l
      parent := by
        intro c p h
        rcases twoNodes_cons h with ⟨rfl, -⟩ | ⟨rfl, -⟩ | ⟨rfl, -⟩ <;> rfl }
  path := ["d"]
  nonroot := by simp
  directory := rfl
  nodup := by
    intro p
    dsimp only
    split
    · decide
    · split
      · decide
      · split <;> decide
  complete := by
    intro c p h
    rcases twoNodes_cons h with ⟨rfl, rfl | rfl⟩ | ⟨rfl, rfl⟩ | ⟨rfl, rfl⟩ <;> decide
  depth := 1
  finite := by
    intro q h
    cases q with
    | nil => exact Nat.zero_le 1
    | cons c q =>
        have hlength : (q ++ ["d"]).length ≤ 1 := by
          rcases twoNodes_cons (p := q ++ ["d"]) h with ⟨hq, -⟩ | ⟨hq, -⟩ | ⟨hq, -⟩ <;>
            rw [hq] <;> decide
        rw [List.length_append, List.length_singleton] at hlength
        rw [List.length_cons]
        omega
  permitted _ _ := rfl

/-- A link to a directory elsewhere: `-1` is returned, the link is still there, and the file in
the other directory is gone.  A socket, and a link that leads nowhere, are still there too. -/
theorem not_deletes_link :
  ((deleteDirectory (twoDirectories (.link ["home"])).sys 3
      (twoDirectories (.link ["home"])).files (some ["d"])).map fun r =>
        (r.1, (r.2.node ["l", "d"]).isSome, (r.2.node ["f", "home"]).isSome))
      = some (-1, true, false) ∧
    ((deleteDirectory (twoDirectories .socket).sys 3
      (twoDirectories .socket).files (some ["d"])).map fun r =>
        (r.1, (r.2.node ["l", "d"]).isSome)) = some (-1, true) ∧
    ((deleteDirectory (twoDirectories (.link ["x"])).sys 3
      (twoDirectories (.link ["x"])).files (some ["d"])).map fun r =>
        (r.1, (r.2.node ["l", "d"]).isSome)) = some (-1, true) ∧
    ¬ (twoDirectories (.link ["home"])).Deletes
  := by
  refine ⟨rfl, rfl, rfl, ?_⟩
  intro h
  have hremovable := Deletion.removable_of_deletes h
  obtain ⟨s, hleft, q, b, hq, hb, -⟩ := hremovable ["l", "d"] ⟨["l"], rfl⟩ _ rfl
  have hhome := resolve_mono hleft.sub hq
  cases hhome
  cases hleft.sub _ _ hb

end DeleteDirectory
