import Mathlib.Data.List.Basic

/-!
# Lists with one element changed

What the elements of a list and the number of those with a property are after one of them is
replaced or erased or one is added.
-/

universe u v

namespace ListUpdate

variable {α : Type u}

/-- An element of an updated list is the new one or an old one at another index. -/
theorem getElem?_set_some {l : List α} {k j : ℕ} {a b : α} (h : (l.set k a)[j]? = some b) :
  (j = k ∧ b = a) ∨ (j ≠ k ∧ l[j]? = some b)
  := by
  rcases eq_or_ne k j with rfl | hne
  · rw [List.getElem?_set_self'] at h
    obtain ⟨_, -, hb⟩ := Option.map_eq_some_iff.mp h
    exact .inl ⟨rfl, hb.symm⟩
  · rw [List.getElem?_set_ne hne] at h
    exact .inr ⟨hne.symm, h⟩

/-- An element that is replaced by itself. -/
theorem set_eq_self {l : List α} {k : ℕ} {a : α} (h : l[k]? = some a) :
  l.set k a = l
  := by
  obtain ⟨hlt, rfl⟩ := List.getElem?_eq_some_iff.mp h
  apply List.set_getElem_self hlt

/-- A new element that is changed. -/
theorem modify_set (l : List α) (k : ℕ) (a : α) (f : α → α) :
  (l.set k a).modify k f = l.set k (f a)
  := by
  induction l generalizing k with
  | nil => simp
  | cons x l ih =>
      cases k with
      | zero => rfl
      | succ k => rw [List.set_cons_succ, List.modify_succ_cons, ih, List.set_cons_succ]

/-- The images of a list with one element changed. -/
theorem map_modify {β : Type v} {f : α → β} {g : α → α} {h : β → β}
    (hcomm : ∀ a, f (g a) = h (f a)) (l : List α) (k : ℕ) :
  (l.modify k g).map f = (l.map f).modify k h
  := by
  induction l generalizing k with
  | nil => simp
  | cons x l ih =>
      cases k with
      | zero => simp [List.modify_zero_cons, hcomm]
      | succ k => rw [List.modify_succ_cons, List.map_cons, ih, List.map_cons,
          List.modify_succ_cons]

/-- An update moves an element from one count to another. -/
theorem countP_set (p : α → Bool) {l : List α} {k : ℕ} {a b : α} (h : l[k]? = some a) :
  (l.set k b).countP p + (p a).toNat = l.countP p + (p b).toNat
  := by
  induction l generalizing k with
  | nil => cases h
  | cons x l ih =>
      cases k with
      | zero =>
          cases h
          simp only [List.set_cons_zero, List.countP_cons]
          cases p a <;> cases p b <;> simp
      | succ k =>
          have := ih (k := k) h
          simp only [List.set_cons_succ, List.countP_cons]
          omega

/-- An element of a list with one more element. -/
theorem getElem?_concat_some {l : List α} {j : ℕ} {a b : α}
    (h : (l ++ [a])[j]? = some b) :
  l[j]? = some b ∨ (j = l.length ∧ b = a)
  := by
  rcases Nat.lt_trichotomy j l.length with hlt | rfl | hgt
  · rw [List.getElem?_append_left hlt] at h
    exact .inl h
  · rw [List.getElem?_concat_length] at h
    exact .inr ⟨rfl, (Option.some.inj h).symm⟩
  · have hlen : (l ++ [a]).length ≤ j := by
      simpa using Nat.succ_le_of_lt hgt
    rw [List.getElem?_eq_none hlen] at h
    cases h

/-- Erasing an element erases its image from the images. -/
theorem map_erase_perm {β : Type v} [BEq α] [LawfulBEq α] [BEq β] [LawfulBEq β] (f : α → β)
    {l : List α} {a : α} (h : a ∈ l) :
  ((l.erase a).map f).Perm ((l.map f).erase (f a))
  := by
  have hperm := ((List.perm_cons_erase h).map f).erase (f a)
  rw [List.map_cons, List.erase_cons_head] at hperm
  apply hperm.symm

/-- The first element that satisfies a predicate. -/
theorem findIdx?_eq_some_iff {l : List α} {p : α → Bool} {i : ℕ} :
  l.findIdx? p = some i ↔
    (∃ a, l[i]? = some a ∧ p a) ∧ ∀ j < i, ∀ a, l[j]? = some a → ¬ p a
  := by
  rw [List.findIdx?_eq_some_iff_getElem]
  constructor
  · rintro ⟨hi, hp, hbefore⟩
    use ⟨_, List.getElem?_eq_getElem hi, hp⟩
    intro j hj a ha
    obtain ⟨hlt, rfl⟩ := List.getElem?_eq_some_iff.mp ha
    apply hbefore j hj
  · rintro ⟨⟨a, ha, hp⟩, hbefore⟩
    obtain ⟨hi, rfl⟩ := List.getElem?_eq_some_iff.mp ha
    use hi, hp
    intro j hj
    apply hbefore j hj _ (List.getElem?_eq_getElem _)

end ListUpdate
