import Nextgen.Lib.Bytes

/-!
# Text in buffers

The last occurrence of a character in a string, and bytes written as hexadecimal digits.
-/

namespace Bytes

/-! ### The last occurrence of a character -/

/-- The part of a string from the last occurrence of a character on. -/
def strrchr : Buffer → UInt8 → Option Buffer
  | [], _ => none
  | b :: s, c =>
      match strrchr s c with
      | some r => some r
      | none => if b = c then some (b :: s) else none

theorem strrchr_eq_none {s : Buffer} {c : UInt8} :
  strrchr s c = none ↔ c ∉ s
  := by
  induction s with
  | nil => simp [strrchr]
  | cons b s ih =>
      rw [strrchr, List.mem_cons, not_or, ← ih]
      split
      · rename_i r hr
        simp [hr]
      · rename_i hnone
        simp [hnone, eq_comm]

theorem strrchr_append_cons (s : Buffer) {c : UInt8} {t : Buffer} (h : c ∉ t) :
  strrchr (s ++ c :: t) c = some (c :: t)
  := by
  induction s with
  | nil =>
      rw [List.nil_append, strrchr, strrchr_eq_none.mpr h]
      exact if_pos rfl
  | cons b s ih => rw [List.cons_append, strrchr, ih]

/-- A string with a character is split at its last occurrence. -/
theorem exists_last_of_mem {s : Buffer} {c : UInt8} (h : c ∈ s) :
  ∃ r t, s = r ++ c :: t ∧ c ∉ t
  := by
  induction s with
  | nil => cases h
  | cons b s ih =>
      by_cases hs : c ∈ s
      · obtain ⟨r, t, rfl, ht⟩ := ih hs
        exact ⟨b :: r, t, rfl, ht⟩
      · obtain rfl := (List.mem_cons.mp h).resolve_right hs
        exact ⟨[], s, rfl, hs⟩

/-! ### Hexadecimal digits -/

/-- A digit in lower case. -/
def hexDigit (n : ℕ) : UInt8 :=
  if n < 10 then UInt8.ofNat (48 + n) else UInt8.ofNat (87 + n)

/-- The conversion `%02x`. -/
def hexByte (b : UInt8) : Buffer := [hexDigit (b.toNat / 16), hexDigit (b.toNat % 16)]

/-- The digits of all bytes. -/
def hex (bytes : Buffer) : Buffer := bytes.flatMap hexByte

/-- The characters `0` to `9` and `a` to `f`. -/
def IsHexDigit (c : UInt8) : Prop := (48 ≤ c ∧ c ≤ 57) ∨ (97 ≤ c ∧ c ≤ 102)

theorem hexDigit_isHexDigit {n : ℕ} (h : n < 16) :
  IsHexDigit (hexDigit n)
  := by
  have hall : ∀ k : Fin 16, (48 ≤ hexDigit k ∧ hexDigit k ≤ 57) ∨
      (97 ≤ hexDigit k ∧ hexDigit k ≤ 102) := by decide
  exact hall ⟨n, h⟩

theorem hexDigit_injective {m n : ℕ} (hm : m < 16) (hn : n < 16) (h : hexDigit m = hexDigit n) :
  m = n
  := by
  have hall : ∀ j k : Fin 16, hexDigit j = hexDigit k → j = k := by decide
  exact congrArg Fin.val (hall ⟨m, hm⟩ ⟨n, hn⟩ h)

theorem hexByte_injective {a b : UInt8} (h : hexByte a = hexByte b) :
  a = b
  := by
  have ha := a.toNat_lt
  have hb := b.toNat_lt
  obtain ⟨hhigh, hlow⟩ := List.cons.inj h
  have hdiv := hexDigit_injective (by omega) (by omega) hhigh
  have hmod := hexDigit_injective (by omega) (by omega) (List.cons.inj hlow).1
  apply UInt8.toNat_inj.mp
  omega

theorem length_hex (bytes : Buffer) :
  (hex bytes).length = 2 * bytes.length
  := by
  induction bytes with
  | nil => rfl
  | cons b bytes ih =>
      rw [hex, List.flatMap_cons, List.length_append, ← hex, ih, List.length_cons, hexByte,
        List.length_cons, List.length_singleton]
      omega

/-- The digits of the byte number `i` are the two at `2 * i`. -/
theorem getElem?_hex {bytes : Buffer} {i : ℕ} {b : UInt8} (h : bytes[i]? = some b) :
  (hex bytes)[2 * i]? = some (hexDigit (b.toNat / 16)) ∧
    (hex bytes)[2 * i + 1]? = some (hexDigit (b.toNat % 16))
  := by
  induction bytes generalizing i with
  | nil => cases h
  | cons b' bytes ih =>
      cases i with
      | zero =>
          cases h
          exact ⟨rfl, rfl⟩
      | succ i => exact ih h

theorem isHexDigit_of_mem_hex {bytes : Buffer} {c : UInt8} (h : c ∈ hex bytes) :
  IsHexDigit c
  := by
  obtain ⟨b, -, hb⟩ := List.mem_flatMap.mp h
  have hlt := b.toNat_lt
  rcases List.mem_cons.mp hb with rfl | hb
  · apply hexDigit_isHexDigit
    omega
  · obtain rfl := List.mem_singleton.mp hb
    apply hexDigit_isHexDigit
    omega

theorem nonzero_of_mem_hex (bytes : Buffer) :
  ∀ b ∈ hex bytes, b ≠ 0
  := by
  rintro b hb rfl
  have hzero : ¬ IsHexDigit 0 := by
    rw [IsHexDigit]
    decide
  exact hzero (isHexDigit_of_mem_hex hb)

/-- Different bytes have different digits. -/
theorem hex_injective {bytes bytes' : Buffer} (h : hex bytes = hex bytes') :
  bytes = bytes'
  := by
  have hlength : bytes.length = bytes'.length := by
    have := congrArg List.length h
    rw [length_hex, length_hex] at this
    omega
  induction bytes generalizing bytes' with
  | nil => rw [List.eq_nil_of_length_eq_zero hlength.symm]
  | cons b bytes ih =>
      cases bytes' with
      | nil => cases hlength
      | cons b' bytes' =>
          obtain ⟨hb, hrest⟩ := List.append_inj h rfl
          rw [hexByte_injective hb, ih hrest (Nat.succ.inj hlength)]

end Bytes
