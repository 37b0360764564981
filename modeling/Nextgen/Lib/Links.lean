import Nextgen.Lib.FileTree

/-!
# Symbolic links

Trees of files some of which are links: `target` gives the path from the root that a link
has.  A path is resolved name by name, and a link on the way is replaced by what its target
resolves to.  Removing files never makes a path lead elsewhere.
-/

universe u v

namespace FileTree

variable {N : Type u} {B : Type v}

/-- A tree is what it has at each path. -/
theorem ext_node {s t : FileTree N B} (h : ∀ q, s.node q = t.node q) :
  s = t
  := by
  obtain ⟨node, _⟩ := s
  obtain ⟨node', _⟩ := t
  obtain rfl : node = node' := by
    funext q
    apply h
  rfl

/-- A path below another one is at or below an entry of it. -/
theorem exists_cons_suffix {p q : List N} (h : p <:+ q) (hne : q ≠ p) :
  ∃ c, c :: p <:+ q
  := by
  obtain ⟨r, rfl⟩ := h
  rcases List.eq_nil_or_concat r with rfl | ⟨r, c, rfl⟩
  · exact absurd rfl hne
  · exact ⟨c, r, by simp⟩

/-- Nothing exists below a path at which nothing exists. -/
theorem node_eq_none_of_suffix {t : FileTree N B} {p q : List N} (h : t.node p = none)
    (hpq : p <:+ q) :
  t.node q = none
  := by
  obtain ⟨r, rfl⟩ := hpq
  induction r with
  | nil => exact h
  | cons c r ih =>
      by_contra hne
      have hdir := t.parent c (r ++ p) hne
      rw [ih] at hdir
      cases hdir

/-- Nothing exists below a file. -/
theorem node_eq_none_of_file {t : FileTree N B} {p q : List N} {b : B}
    (h : t.node p = some (.file b)) (hpq : p <:+ q) (hne : q ≠ p) :
  t.node q = none
  := by
  obtain ⟨c, hc⟩ := exists_cons_suffix hpq hne
  exact node_eq_none_of_suffix (node_below (read_eq_some.mpr h) c) hc

/-! ### Parts of a tree -/

/-- Whatever the first tree has is in the second. -/
def Sub (s t : FileTree N B) : Prop := ∀ q x, s.node q = some x → t.node q = some x

theorem Sub.refl (t : FileTree N B) :
  Sub t t
  := fun _ _ h => h

theorem Sub.trans {r s t : FileTree N B} (h : Sub r s) (h' : Sub s t) :
  Sub r t
  := fun q x hx => h' q x (h q x hx)

/-- What is left of a tree when some of it is gone. -/
def Left (t s : FileTree N B) (gone : List N → Prop) : Prop :=
  ∀ q, (gone q → s.node q = none) ∧ (¬ gone q → s.node q = t.node q)

theorem Left.sub {t s : FileTree N B} {gone : List N → Prop} (h : Left t s gone) :
  Sub s t
  := by
  intro q x hx
  by_cases hq : gone q
  · rw [(h q).1 hq] at hx
    cases hx
  · rw [← (h q).2 hq, hx]

theorem Left.congr {t s : FileTree N B} {gone gone' : List N → Prop} (h : Left t s gone)
    (hiff : ∀ q, gone q ↔ gone' q) :
  Left t s gone'
  := by
  intro q
  rw [← hiff q]
  exact h q

/-- There is one tree that is left. -/
theorem Left.unique {t s s' : FileTree N B} {gone : List N → Prop} (h : Left t s gone)
    (h' : Left t s' gone) :
  s = s'
  := by
  apply ext_node
  intro q
  by_cases hq : gone q
  · rw [(h q).1 hq, (h' q).1 hq]
  · rw [(h q).2 hq, (h' q).2 hq]

section Prune

variable [DecidableEq N]

/-- Remove whatever is at a path and below it. -/
def prune (t : FileTree N B) (p : List N) : FileTree N B where
  node q := if p <:+ q then none else t.node q
  parent := by
    intro c q h
    split at h
    · exact absurd rfl h
    · rename_i hnot
      rw [if_neg fun hq => hnot (hq.trans (List.suffix_cons c q)), t.parent c q h]

theorem prune_left {t s : FileTree N B} {gone : List N → Prop} (h : Left t s gone)
    (p : List N) :
  Left t (s.prune p) fun q => gone q ∨ p <:+ q
  := by
  intro q
  constructor
  · intro hq
    show (if p <:+ q then none else s.node q) = none
    split
    · rfl
    · rename_i hnot
      exact (h q).1 (hq.resolve_right hnot)
  · intro hq
    obtain ⟨hgone, hnot⟩ := not_or.mp hq
    show (if p <:+ q then none else s.node q) = t.node q
    rw [if_neg hnot, (h q).2 hgone]

theorem sub_prune (t : FileTree N B) (p : List N) :
  Sub (t.prune p) t
  := by
  intro q x h
  have h' : (if p <:+ q then none else t.node q) = some x := h
  split at h'
  · cases h'
  · exact h'

end Prune

/-! ### Resolving paths -/

section Resolve

variable (target : B → Option (List N))

/-- Where an entry leads, when `link` resolves the targets of links. -/
def last (t : FileTree N B) (link : List N → Option (List N)) (q : List N) : Option (List N) :=
  match t.node q with
  | none => none
  | some .dir => some q
  | some (.file b) =>
      match target b with
      | none => some q
      | some l => link l

/-- Resolve a path name by name. -/
def follow (t : FileTree N B) (link : List N → Option (List N)) : List N → Option (List N)
  | [] => some []
  | c :: p => (follow t link p).bind fun d => last target t link (c :: d)

/-- Resolve a path with at most `n` links within each other. -/
def resolve (t : FileTree N B) : ℕ → List N → Option (List N)
  | 0 => follow target t fun _ => none
  | n + 1 => follow target t (resolve t n)

/-- Resolve all but the last name of a path. -/
def lresolve (t : FileTree N B) (n : ℕ) : List N → Option (List N)
  | [] => some []
  | c :: p => (resolve target t n p).map (c :: ·)

/-- The resolution of the targets of the links on a path. -/
def links (t : FileTree N B) : ℕ → List N → Option (List N)
  | 0, _ => none
  | n + 1, p => resolve target t n p

variable {target} {s t : FileTree N B} {n : ℕ} {p q : List N}

theorem resolve_eq_follow :
  resolve target t n = follow target t (links target t n)
  := by
  cases n <;> rfl

theorem resolve_nil :
  resolve target t n [] = some []
  := by
  rw [resolve_eq_follow, follow]

theorem resolve_cons (c : N) (p : List N) :
  resolve target t n (c :: p) =
    (resolve target t n p).bind fun d => last target t (links target t n) (c :: d)
  := by
  rw [resolve_eq_follow, follow]

theorem last_mono {link link' : List N → Option (List N)} (hsub : Sub s t)
    (hlink : ∀ l x, link l = some x → link' l = some x) {x : List N}
    (h : last target s link q = some x) :
  last target t link' q = some x
  := by
  rw [last] at h ⊢
  split at h
  · cases h
  · rename_i hdir
    rw [hsub q _ hdir]
    exact h
  · rename_i b hfile
    rw [hsub q _ hfile]
    split at h
    · rename_i hnone
      simp only [hnone]
      exact h
    · rename_i l hl
      simp only [hl]
      exact hlink l x h

theorem follow_mono {link link' : List N → Option (List N)} (hsub : Sub s t)
    (hlink : ∀ l x, link l = some x → link' l = some x) {x : List N}
    (h : follow target s link p = some x) :
  follow target t link' p = some x
  := by
  induction p generalizing x with
  | nil => exact h
  | cons c p ih =>
      obtain ⟨d, hd, hx⟩ := Option.bind_eq_some_iff.mp h
      rw [follow, ih hd]
      exact last_mono hsub hlink hx

/-- Where a path leads, it leads in a larger tree. -/
theorem resolve_mono (hsub : Sub s t) {x : List N} (h : resolve target s n p = some x) :
  resolve target t n p = some x
  := by
  induction n generalizing p x with
  | zero => exact follow_mono hsub (fun _ _ h => h) h
  | succ n ih => exact follow_mono hsub (fun _ _ h => ih h) h

/-- The path of a directory leads to itself. -/
theorem resolve_of_dir (h : t.node p = some .dir) :
  resolve target t n p = some p
  := by
  induction p with
  | nil => exact resolve_nil
  | cons c p ih =>
      have hparent := t.parent c p (Option.ne_none_iff_exists'.mpr ⟨_, h⟩)
      rw [resolve_cons, ih hparent, Option.bind_some, last, h]

theorem lresolve_of_node (h : t.node p ≠ none) :
  lresolve target t n p = some p
  := by
  cases p with
  | nil => rfl
  | cons c p => rw [lresolve, resolve_of_dir (t.parent c p h), Option.map_some]

/-- A path leads to where the entry it names leads. -/
theorem resolve_eq_of_lresolve (h : lresolve target t n p = some q) (hq : t.node q ≠ none) :
  resolve target t n p = resolve target t n q
  := by
  cases p with
  | nil =>
      cases h
      rfl
  | cons c p =>
      obtain ⟨d, hd, rfl⟩ := Option.map_eq_some_iff.mp h
      rw [resolve_cons, hd, resolve_cons, resolve_of_dir (t.parent c d hq)]

end Resolve

end FileTree
