import Mathlib.Data.List.TakeWhile
import Nextgen.Lib.Text

/-!
# Text formatted into buffers of a fixed size

The conversions of numbers, and the functions that write a string with its zero byte to a buffer.
These have no result if they write past its end.
-/

namespace Bytes

/-! ### Conversions -/

/-- The bytes of a text in ASCII. -/
def ascii (s : String) : Buffer :=
  s.toList.map fun c => UInt8.ofNat c.toNat

theorem nonzero_of_mem_ascii {s : String} (h : (ascii s).all (· ≠ 0)) :
  ∀ b ∈ ascii s, b ≠ 0
  := by
  simpa using h

/-- The digits of a number, without leading zeros: `%d` with base ten, `%x` with base sixteen. -/
def digits (base n : ℕ) : Buffer :=
  (Nat.toDigits base n).map fun c => UInt8.ofNat c.toNat

theorem nonzero_of_mem_digits {base n : ℕ} (hbase : 1 < base) (hle : base ≤ 16) :
  ∀ b ∈ digits base n, b ≠ 0
  := by
  have hdigit : ∀ d < 16, UInt8.ofNat (Nat.digitChar d).toNat ≠ 0 := by decide
  induction n using Nat.strongRecOn with
  | ind n ih =>
      rw [digits, Nat.toDigits_eq_if hbase]
      split
      · rename_i hlt
        intro b hb
        obtain rfl := List.mem_singleton.mp hb
        exact hdigit n (by omega)
      · rename_i hge
        rw [List.map_append]
        intro b hb
        rcases List.mem_append.mp hb with hb | hb
        · exact ih (n / base) (Nat.div_lt_self (by omega) hbase) b hb
        · obtain rfl := List.mem_singleton.mp hb
          exact hdigit _ (Nat.lt_of_lt_of_le (Nat.mod_lt n (by omega)) hle)

theorem length_digits_le {base n k : ℕ} (hbase : 1 < base) (hk : 0 < k) (hn : n < base ^ k) :
  (digits base n).length ≤ k
  := by
  rw [digits, List.length_map, Nat.length_toDigits_le_iff hbase hk]
  exact hn

/-- The flag `0` of a conversion, with a width. -/
def zeroPad (width : ℕ) (text : Buffer) : Buffer :=
  text.leftpad width 48

/-- The conversion `%02x` of a byte has two digits. -/
theorem zeroPad_digits_byte (b : UInt8) :
  zeroPad 2 (digits 16 b.toNat) = hexByte b
  := by
  have hdigit : ∀ d < 16, UInt8.ofNat (Nat.digitChar d).toNat = hexDigit d := by decide
  have hb := b.toNat_lt
  rw [digits, Nat.toDigits_eq_if (by decide), hexByte]
  split
  · rename_i hlt
    rw [Nat.div_eq_of_lt hlt, Nat.mod_eq_of_lt hlt, ← hdigit _ hlt]
    rfl
  · rw [Nat.toDigits_eq_if (by decide), if_pos (by omega), ← hdigit _ (by omega),
      ← hdigit _ (by omega)]
    rfl

theorem ofLe_lt (buffer : Buffer) :
  ofLe buffer < 256 ^ buffer.length
  := by
  induction buffer with
  | nil => exact Nat.one_pos
  | cons b buffer ih =>
      have hb := b.toNat_lt
      rw [ofLe, List.length_cons, Nat.pow_succ]
      omega

/-! ### Buffers -/

theorem nonzero_of_mem_cString {buffer : Buffer} :
  ∀ b ∈ cString buffer, b ≠ 0
  := by
  intro b hb
  simpa using List.mem_takeWhile_imp hb

/-- The bytes that `strlen` counts are those of the string. -/
theorem take_length_cString (input : Buffer) :
  input.take (cString input).length = cString input
  := by
  have hstart : cString input <+: input := List.takeWhile_prefix _
  exact (List.prefix_iff_eq_take.mp hstart).symm

/-- A string ends at the first zero byte. -/
theorem cString_append_cons_zero {text : Buffer} (htext : ∀ b ∈ text, b ≠ 0) (rest : Buffer) :
  cString (text ++ 0 :: rest) = text
  := by
  rw [cString, List.takeWhile_append_of_pos]
  · simp
  · intro b hb
    simp [htext b hb]

/-- A buffer of a size. -/
structure Block (n : ℕ) where
  bytes : Buffer
  length_eq : bytes.length = n

namespace Block

variable {n : ℕ}

theorem eq_of_bytes {b b' : Block n} (h : b.bytes = b'.bytes) :
  b = b'
  := by
  cases b
  cases b'
  cases h
  rfl

/-- A buffer that is filled with zeros. -/
def zero (n : ℕ) : Block n := ⟨List.replicate n 0, List.length_replicate⟩

/-- Write a string to the start of a buffer. -/
def sprintf (b : Block n) (text : Buffer) : Option (Block n) :=
  if text.length < n then
    some ⟨overwrite b.bytes (text ++ [0]), (length_overwrite _ _).trans b.length_eq⟩
  else none

/-- Append the first `count` bytes of a string to the string in a buffer. -/
def strncat (b : Block n) (src : Buffer) (count : ℕ) : Option (Block n) :=
  b.sprintf (cString b.bytes ++ (cString src).take count)

/-- Write bytes at an offset. -/
def write (b : Block n) (k : ℕ) (bytes : Buffer) : Option (Block n) :=
  if h : k + bytes.length ≤ n then
    some ⟨b.bytes.take k ++ bytes ++ b.bytes.drop (k + bytes.length), by
      simp only [List.length_append, List.length_take, List.length_drop, b.length_eq]
      omega⟩
  else none

/-- Write a string at an offset. -/
def sprintfAt (b : Block n) (k : ℕ) (text : Buffer) : Option (Block n) :=
  b.write k (text ++ [0])

/-- A write that fits is made, and keeps what is before it. -/
theorem exists_write (b : Block n) (k : ℕ) (bytes : Buffer) (h : k + bytes.length ≤ n) :
  ∃ b', b.write k bytes = some b' ∧ b'.bytes.take (k + bytes.length) = b.bytes.take k ++ bytes
  := by
  refine ⟨_, dif_pos h, ?_⟩
  apply List.take_left'
  rw [List.length_append, List.length_take, b.length_eq]
  omega

theorem exists_sprintfAt (b : Block n) (k : ℕ) (text : Buffer) (h : k + text.length < n) :
  ∃ b', b.sprintfAt k text = some b' ∧ b'.bytes.take (k + text.length) = b.bytes.take k ++ text
  := by
  have hzero : (text ++ [0]).length = text.length + 1 := List.length_append
  obtain ⟨b', hwrite, htake⟩ := b.exists_write k (text ++ [0]) (by omega)
  refine ⟨b', hwrite, ?_⟩
  have htaken := congrArg (List.take (k + text.length)) htake
  rw [List.take_take, Nat.min_eq_left (by omega), ← List.append_assoc] at htaken
  rw [htaken]
  apply List.take_left'
  rw [List.length_append, List.length_take, b.length_eq]
  omega

theorem sprintf_eq_none_iff {b : Block n} {text : Buffer} :
  b.sprintf text = none ↔ n ≤ text.length
  := by
  rw [sprintf]
  split
  · rename_i hlt
    exact iff_of_false nofun (Nat.not_le.mpr hlt)
  · rename_i hge
    exact iff_of_true rfl (Nat.le_of_not_lt hge)

theorem length_lt_of_sprintf {b b' : Block n} {text : Buffer} (h : b.sprintf text = some b') :
  text.length < n
  := by
  by_contra hge
  cases (sprintf_eq_none_iff.mpr (Nat.le_of_not_lt hge)).symm.trans h

/-- The string that was written is there. -/
theorem cString_of_sprintf {b b' : Block n} {text : Buffer} (htext : ∀ x ∈ text, x ≠ 0)
    (h : b.sprintf text = some b') :
  cString b'.bytes = text
  := by
  rw [sprintf] at h
  split at h
  · rename_i hlt
    cases h
    have htake : (text ++ [0]).take b.bytes.length = text ++ [0] := by
      apply List.take_of_length_le
      rw [List.length_append, List.length_singleton, b.length_eq]
      omega
    show cString (overwrite b.bytes (text ++ [0])) = text
    rw [overwrite, htake, List.append_assoc]
    exact cString_append_cons_zero htext _
  · cases h

end Block

end Bytes
