import Mathlib.Algebra.Group.Nat.Defs
import Mathlib.Data.Int.Notation
import Mathlib.Data.List.Basic

/-!
# Buffers of bytes

Numbers stored in buffers in little-endian order, writes at the start of a buffer, and the
strings that end at the first zero byte, with the functions that compare them.
-/

namespace Bytes

/-- The contents of a buffer. -/
abbrev Buffer := List UInt8

/-- The low `n` bytes of a number. -/
def le : ℕ → ℕ → Buffer
  | 0, _ => []
  | n + 1, w => UInt8.ofNat w :: le n (w / 256)

/-- The number that a buffer stores. -/
def ofLe : Buffer → ℕ
  | [] => 0
  | b :: bs => b.toNat + 256 * ofLe bs

/-- Write at the start of a buffer, as far as it reaches. -/
def overwrite (buffer bytes : Buffer) : Buffer :=
  bytes.take buffer.length ++ buffer.drop bytes.length

/-- The string at the start of a buffer. -/
def cString (buffer : Buffer) : Buffer :=
  buffer.takeWhile (· != 0)

@[simp]
theorem length_le (n w : ℕ) :
  (le n w).length = n
  := by
  induction n generalizing w with
  | zero => rfl
  | succ n ih => rw [le, List.length_cons, ih]

/-- The number stored in `n` bytes is the one written, up to what fits. -/
theorem ofLe_le (n w : ℕ) :
  ofLe (le n w) = w % 256 ^ n
  := by
  induction n generalizing w with
  | zero => rw [le, ofLe, Nat.pow_zero, Nat.mod_one]
  | succ n ih =>
      have hbyte : (UInt8.ofNat w).toNat = w % 256 := UInt8.toNat_ofNat'
      rw [le, ofLe, ih, hbyte, Nat.pow_succ', Nat.mod_mul]

/-- What was written at the start of a large enough buffer is read back. -/
theorem take_overwrite {buffer bytes : Buffer} {n : ℕ} (hn : bytes.length = n)
    (h : n ≤ buffer.length) :
  (overwrite buffer bytes).take n = bytes
  := by
  have htake : bytes.take buffer.length = bytes := by
    apply List.take_of_length_le
    omega
  rw [overwrite, htake, ← hn, List.take_left]

@[simp]
theorem length_overwrite (buffer bytes : Buffer) :
  (overwrite buffer bytes).length = buffer.length
  := by
  rw [overwrite, List.length_append, List.length_take, List.length_drop]
  omega

/-- A write leaves the bytes behind it. -/
theorem getElem?_overwrite {buffer bytes : Buffer} {k : ℕ} (h : bytes.length ≤ k) :
  (overwrite buffer bytes)[k]? = buffer[k]?
  := by
  rw [overwrite, List.getElem?_append_right (by rw [List.length_take]; omega), List.getElem?_drop,
    List.length_take]
  by_cases hle : bytes.length ≤ buffer.length
  · congr 1
    omega
  · rw [List.getElem?_eq_none (by omega), List.getElem?_eq_none (by omega)]

/-- The bytes of a write that the buffer has room for. -/
theorem getElem?_overwrite_of_lt {buffer bytes : Buffer} {k : ℕ} (hk : k < bytes.length)
    (h : k < buffer.length) :
  (overwrite buffer bytes)[k]? = bytes[k]?
  := by
  rw [overwrite, List.getElem?_append_left (by rw [List.length_take]; omega),
    List.getElem?_take_of_lt h]

/-- A zero-filled buffer stores the empty string. -/
theorem cString_replicate_zero (n : ℕ) :
  cString (List.replicate n 0) = []
  := by
  cases n <;> rfl

/-- A zero byte at the end of a buffer is not part of its string. -/
theorem cString_append_zero (buffer : Buffer) :
  cString (buffer ++ [0]) = cString buffer
  := by
  induction buffer with
  | nil => rfl
  | cons b buffer ih =>
      rw [cString, cString] at *
      rw [List.cons_append, List.takeWhile_cons, List.takeWhile_cons, ih]

/-- A zero-filled buffer stores zero. -/
theorem ofLe_replicate_zero (n : ℕ) :
  ofLe (List.replicate n 0) = 0
  := by
  induction n with
  | zero => rfl
  | succ n ih =>
      rw [List.replicate_succ, ofLe, ih]
      rfl

/-! ### Strings -/

/-- A string, without the zero byte that ends it and that no other byte of it is. -/
structure CString where
  bytes : Buffer
  nonzero : ∀ b ∈ bytes, b ≠ 0
deriving DecidableEq

/-- The memory that a string takes. -/
def CString.memory (s : CString) : Buffer :=
  s.bytes ++ [0]

/-- The length of a string. -/
def CString.strlen (s : CString) : ℕ :=
  s.bytes.length

/-- The difference of the first two bytes that differ, up to the end of a string. -/
def strcmp : Buffer → Buffer → ℤ
  | a :: s, b :: t => if a = b then if a = 0 then 0 else strcmp s t else a.toNat - b.toNat
  | _, _ => 0

/-- The difference of the first two bytes that differ among the first `n`.  No byte beyond the
end of a buffer is compared. -/
def memcmp : Buffer → Buffer → ℕ → ℤ
  | a :: s, b :: t, n + 1 => if a = b then memcmp s t n else a.toNat - b.toNat
  | _, _, _ => 0

theorem sub_toNat_eq_zero_iff {a b : UInt8} :
  ((a.toNat : ℤ) - b.toNat = 0) ↔ a = b
  := by
  rw [Int.sub_eq_zero, Int.ofNat_inj, UInt8.toNat_inj]

theorem strcmp_append_zero_iff :
  ∀ {s t : Buffer}, (∀ b ∈ s, b ≠ 0) → (∀ b ∈ t, b ≠ 0) →
    (strcmp (s ++ [0]) (t ++ [0]) = 0 ↔ s = t)
  | [], [], _, _ => by simp [strcmp]
  | [], b :: t, _, ht => by
      have hb := ht b List.mem_cons_self
      simpa [strcmp, hb.symm] using mt UInt8.toNat_inj.mp hb
  | a :: s, [], hs, _ => by
      have ha := hs a List.mem_cons_self
      simpa [strcmp, ha] using mt UInt8.toNat_inj.mp ha
  | a :: s, b :: t, hs, ht => by
      have ha := hs a List.mem_cons_self
      have ih := strcmp_append_zero_iff (fun c hc => hs c (List.mem_cons_of_mem a hc))
        (fun c hc => ht c (List.mem_cons_of_mem b hc))
      by_cases hab : a = b
      · subst hab
        simp [strcmp, ha, ih]
      · simp [strcmp, hab, sub_toNat_eq_zero_iff]

/-- `strcmp` finds no difference between equal strings only. -/
theorem strcmp_memory_iff (s t : CString) :
  strcmp s.memory t.memory = 0 ↔ s = t
  := by
  rw [CString.memory, CString.memory, strcmp_append_zero_iff s.nonzero t.nonzero, CString.mk.injEq]

theorem memcmp_append_zero_iff :
  ∀ {s t : Buffer}, (∀ b ∈ t, b ≠ 0) →
    (memcmp (s ++ [0]) (t ++ [0]) t.length = 0 ↔ t <+: s)
  | s, [], _ => by
      cases s <;> simp [memcmp]
  | [], b :: t, ht => by
      have hb := ht b List.mem_cons_self
      simpa [memcmp, hb.symm] using mt UInt8.toNat_inj.mp hb
  | a :: s, b :: t, ht => by
      have ih := memcmp_append_zero_iff (s := s) (fun c hc => ht c (List.mem_cons_of_mem b hc))
      by_cases hab : a = b
      · subst hab
        simp [memcmp, ih]
      · simp [memcmp, hab, sub_toNat_eq_zero_iff, List.cons_prefix_cons, Ne.symm hab]

/-- `memcmp` up to the length of the second string finds no difference if and only if that
string is an initial part of the first. -/
theorem memcmp_memory_iff (s t : CString) :
  memcmp s.memory t.memory t.strlen = 0 ↔ t.bytes <+: s.bytes
  := memcmp_append_zero_iff t.nonzero

end Bytes
