import Mathlib.Data.Nat.Bitwise
import Nextgen.Lib.Bytes

/-!
# Strings of bits

`ascii_to_binary` writes the bits of its input as the characters `0` and `1`, and
`binary_to_ascii` is meant to read them back.  Both write to memory from `malloc`, whose
contents are indeterminate until they are written.  The index of the loop and the offset of a
byte are of type `uint32_t`, the lengths of type `uint64_t`.
-/

open Bytes

namespace Utils

/-- Memory in which some bytes have not been written. -/
abbrev Cells := List (Option UInt8)

/-- A call that may not return: it still runs, has written outside the memory it allocated, or
has returned. -/
inductive Run (α : Type) where
  | running
  | outside
  | returned (value : α)
  deriving Repr

/-- The values of `b` in the inner loop. -/
def masks : List UInt8 := [0x80, 0x40, 0x20, 0x10, 0x08, 0x04, 0x02, 0x01]

/-- `ch & b ? '1' : '0'`. -/
def bitChar (ch b : UInt8) : UInt8 := if ch &&& b ≠ 0 then 49 else 48

/-- The characters for one byte of the input, which are indeterminate if the byte is. -/
def bits (ch : Option UInt8) : Cells := masks.map fun b => ch.map (bitChar · b)

/-- Write characters from an offset on, one after the other. -/
def store : Cells → ℕ → Cells → Option Cells
  | out, _, [] => some out
  | out, o, c :: cs => if o < out.length then store (out.set o c) (o + 1) cs else none

/-- The outer loop from an index on. -/
def convert (input : Cells) : ℕ → ℕ → Cells → Run Cells
  | 0, _, _ => .running
  | fuel + 1, i, out =>
      if i < input.length then
        match store out (8 * i % 2 ^ 32) (bits input[i]?.join) with
        | none => .outside
        | some out => convert input fuel ((i + 1) % 2 ^ 32) out
      else .returned out

/-- The value that is returned, the memory that is allocated, and what is stored in `*out_len`,
which is left as it was if the input is empty. -/
structure Converted where
  rtrn : ℤ
  out : Cells
  outLen : Option ℕ
  deriving DecidableEq, Repr

/-- `ascii_to_binary`, with `fuel` rounds of its loop. -/
def asciiToBinary (fuel : ℕ) (malloc : Bool) (input : Cells) : Run Converted :=
  if input.length = 0 then .returned ⟨-1, [], none⟩
  else
    let outLen := input.length * 8 % 2 ^ 64
    if !malloc then .returned ⟨-1, [], some outLen⟩
    else
      match convert input fuel 0 (List.replicate (outLen + 1) none) with
      | .running => .running
      | .outside => .outside
      | .returned out =>
          match store out outLen [some 0] with
          | none => .outside
          | some out => .returned ⟨0, out, some outLen⟩

/-- `binary_to_ascii`, which does not read its input. -/
def binaryToAscii (malloc : Bool) (input : Cells) : Converted :=
  if input.length = 0 then ⟨-1, [], none⟩
  else
    let outLen := input.length / 8
    if !malloc then ⟨-1, [], some outLen⟩
    else ⟨0, (List.replicate (outLen + 1) none).set outLen (some 0), some outLen⟩

/-! ### Writing -/

section Store

variable {out out' cs : Cells} {o : ℕ}

/-- Cells that are replaced by as many others. -/
theorem store_append (before cs old after : Cells) (h : old.length = cs.length) :
  store (before ++ old ++ after) before.length cs = some (before ++ cs ++ after)
  := by
  induction cs generalizing before old with
  | nil =>
      rw [List.eq_nil_of_length_eq_zero h]
      rfl
  | cons c cs ih =>
      cases old with
      | nil => cases h
      | cons d old =>
          have hlt : before.length < (before ++ d :: old ++ after).length := by
            simp
          have hset : (before ++ d :: old ++ after).set before.length c
              = (before ++ [c]) ++ old ++ after := by
            simp
          have hnext := ih (before ++ [c]) old (Nat.succ.inj h)
          rw [List.length_append, List.length_singleton] at hnext
          rw [store, if_pos hlt, hset, hnext, List.append_assoc before]
          rfl

/-- Cells that are not among those written stay as they are. -/
theorem getElem?_store {p : ℕ} (h : store out o cs = some out')
    (hp : p < o ∨ o + cs.length ≤ p) :
  out'[p]? = out[p]?
  := by
  induction cs generalizing out o with
  | nil =>
      cases h
      rfl
  | cons c cs ih =>
      rw [store] at h
      split at h
      · rw [List.length_cons] at hp
        rw [ih h (by omega), List.getElem?_set_ne (by omega)]
      · cases h

end Store

/-! ### Converting to bits -/

/-- All characters of the input. -/
def allBits (input : Cells) : Cells := input.flatMap bits

theorem length_bits (ch : Option UInt8) :
  (bits ch).length = 8
  := List.length_map _

theorem allBits_cons (ch : Option UInt8) (input : Cells) :
  allBits (ch :: input) = bits ch ++ allBits input
  := rfl

theorem allBits_concat (input : Cells) (ch : Option UInt8) :
  allBits (input ++ [ch]) = allBits input ++ bits ch
  := by
  rw [allBits, List.flatMap_append, List.flatMap_singleton, allBits]

@[simp]
theorem length_allBits (input : Cells) :
  (allBits input).length = 8 * input.length
  := by
  induction input with
  | nil => rfl
  | cons ch input ih =>
      rw [allBits_cons, List.length_append, ih, length_bits, List.length_cons]
      omega

theorem getElem?_allBits (input : Cells) {i k : ℕ} (hk : k < 8) :
  (allBits input)[8 * i + k]? = input[i]?.bind fun ch => (bits ch)[k]?
  := by
  induction input generalizing i with
  | nil => rfl
  | cons ch input ih =>
      rw [allBits_cons]
      cases i with
      | zero =>
          rw [List.getElem?_append_left (by rw [length_bits]; omega), Nat.mul_zero, Nat.zero_add]
          rfl
      | succ i =>
          rw [List.getElem?_append_right (by rw [length_bits]; omega), length_bits,
            List.getElem?_cons_succ, ← ih]
          congr 1
          omega

/-- The loop writes what is left of the input behind what has been written. -/
theorem convert_eq (before after : Cells) (fuel : ℕ) (hfuel : after.length < fuel)
    (hlength : (before ++ after).length ≤ 2 ^ 29) :
  convert (before ++ after) fuel before.length
      (allBits before ++ List.replicate (8 * after.length + 1) none)
    = .returned (allBits (before ++ after) ++ [none])
  := by
  induction after generalizing before fuel with
  | nil =>
      cases fuel with
      | zero => cases hfuel
      | succ fuel =>
          rw [convert, if_neg (by simp), List.append_nil]
          rfl
  | cons ch after ih =>
      cases fuel with
      | zero => cases hfuel
      | succ fuel =>
          rw [List.length_append, List.length_cons] at hlength
          have hlt : before.length < (before ++ ch :: after).length := by simp
          have hch : (before ++ ch :: after)[before.length]?.join = ch := by simp
          have hoffset : 8 * before.length % 2 ^ 32 = (allBits before).length := by
            rw [length_allBits]
            apply Nat.mod_eq_of_lt
            omega
          have hnext : (before.length + 1) % 2 ^ 32 = (before ++ [ch]).length := by
            rw [List.length_append, List.length_singleton]
            apply Nat.mod_eq_of_lt
            omega
          have hout : allBits before ++ List.replicate (8 * (after.length + 1) + 1) none
              = allBits before ++ List.replicate 8 none
                ++ List.replicate (8 * after.length + 1) none := by
            rw [List.append_assoc, List.replicate_append_replicate]
            congr 2
            omega
          have hstore := store_append (allBits before) (bits ch) (List.replicate 8 none)
            (List.replicate (8 * after.length + 1) none) (by simp [length_bits])
          have hrest := ih (before ++ [ch]) fuel (Nat.lt_of_succ_lt_succ hfuel) (by
            simp
            omega)
          rw [List.append_assoc, allBits_concat] at hrest
          rw [convert, if_pos hlt, hch, hoffset, List.length_cons, hout, hstore]
          simp only [hnext]
          exact hrest

/-- The result for an input whose offsets do not wrap around. -/
theorem asciiToBinary_eq {input : Cells} (hne : input ≠ []) (hlength : input.length ≤ 2 ^ 29)
    {fuel : ℕ} (hfuel : input.length < fuel) :
  asciiToBinary fuel true input =
    .returned ⟨0, allBits input ++ [some 0], some (8 * input.length)⟩
  := by
  have hzero : input.length ≠ 0 := mt List.eq_nil_of_length_eq_zero hne
  have houtLen : input.length * 8 % 2 ^ 64 = 8 * input.length := by
    rw [Nat.mul_comm]
    apply Nat.mod_eq_of_lt
    omega
  have hconvert : convert input fuel 0 (List.replicate (8 * input.length + 1) none)
      = .returned (allBits input ++ [none]) := convert_eq [] input fuel hfuel hlength
  have hstore := store_append (allBits input) [some 0] [none] [] rfl
  rw [List.append_nil, List.append_nil, length_allBits] at hstore
  simp only [asciiToBinary, if_neg hzero, houtLen, Bool.not_true, Bool.false_eq_true, if_false]
  rw [hconvert]
  simp only [hstore]

/-- Offsets wrap around at `2 ^ 32`, and so nothing is written from there on. -/
theorem getElem?_convert {input out out' : Cells} {fuel i p : ℕ} (hp : 2 ^ 32 ≤ p)
    (h : convert input fuel i out = .returned out') :
  out'[p]? = out[p]?
  := by
  induction fuel generalizing i out with
  | zero => cases h
  | succ fuel ih =>
      rw [convert] at h
      split at h
      · split at h
        · cases h
        · rename_i next hnext
          rw [ih h, getElem?_store hnext]
          right
          rw [length_bits]
          omega
      · cases h
        rfl

/-- What is in the memory when `ascii_to_binary` returns zero. -/
theorem asciiToBinary_returned {input : Cells} {fuel : ℕ} {r : Converted}
    (h : asciiToBinary fuel true input = .returned r) (hrtrn : r.rtrn = 0) :
  ∃ n out, r.outLen = some n ∧
    convert input fuel 0 (List.replicate (n + 1) none) = .returned out ∧
    store out n [some 0] = some r.out
  := by
  simp only [asciiToBinary, Bool.not_true, Bool.false_eq_true, if_false] at h
  split at h
  · cases h
    cases hrtrn
  · split at h
    · cases h
    · cases h
    · rename_i out hout
      split at h
      · cases h
      · rename_i out' hout'
        cases h
        exact ⟨_, out, rfl, hout, hout'⟩

/-- The call returns zero, and the memory has eight characters for each byte and a zero byte
after them. -/
structure WritesBits (input : Buffer) (r : Converted) : Prop where
  rtrn : r.rtrn = 0
  outLen : r.outLen = some (8 * input.length)
  char : ∀ i byte, input[i]? = some byte → ∀ k < 8, r.out[8 * i + k]? =
    some (some (if byte.toNat.testBit (7 - k) then 49 else 48))
  nul : r.out[8 * input.length]? = some (some 0)
  size : r.out.length = 8 * input.length + 1

/-- A mask selects one bit. -/
theorem and_mask_ne_zero_iff (byte : UInt8) {j : ℕ} (hj : j < 8) :
  byte &&& UInt8.ofNat (2 ^ j) ≠ 0 ↔ byte.toNat.testBit j = true
  := by
  have hmask : ∀ j : Fin 8, (UInt8.ofNat (2 ^ j.val)).toNat = 2 ^ j.val := by decide
  have hand : (byte &&& UInt8.ofNat (2 ^ j)).toNat = (byte.toNat.testBit j).toNat * 2 ^ j := by
    rw [UInt8.toNat_and, hmask ⟨j, hj⟩, Nat.and_two_pow]
  rw [Ne, ← UInt8.toNat_inj, hand, UInt8.toNat_zero, Nat.mul_eq_zero]
  cases byte.toNat.testBit j with
  | false => simp
  | true => simp

theorem getElem?_bits (byte : UInt8) {k : ℕ} (hk : k < 8) :
  (bits (some byte))[k]? = some (some (if byte.toNat.testBit (7 - k) then 49 else 48))
  := by
  have hmask : ∀ k : Fin 8, masks[k.val]? = some (UInt8.ofNat (2 ^ (7 - k.val))) := by decide
  have hbit := and_mask_ne_zero_iff byte (j := 7 - k) (by omega)
  rw [bits, List.getElem?_map, hmask ⟨k, hk⟩, Option.map_some, Option.map_some, bitChar]
  simp only [hbit]

/-- `ascii_to_binary` returns after a number of rounds and has then written the bits of its
input. -/
def Converts (input : Buffer) : Prop :=
  ∃ rounds, ∀ fuel, rounds ≤ fuel → ∃ r, asciiToBinary fuel true (input.map some) = .returned r ∧
    WritesBits input r

theorem writesBits_allBits (input : Buffer) :
  WritesBits input ⟨0, allBits (input.map some) ++ [some 0], some (8 * (input.map some).length)⟩
  := by
  constructor
  · rfl
  · rw [List.length_map]
  · intro i byte hbyte k hk
    obtain ⟨hlt, -⟩ := List.getElem?_eq_some_iff.mp hbyte
    show (allBits (input.map some) ++ [some 0])[8 * i + k]? = _
    rw [List.getElem?_append_left (by simp; omega), getElem?_allBits _ hk, List.getElem?_map,
      hbyte, Option.map_some, Option.bind_some, getElem?_bits byte hk]
  · show (allBits (input.map some) ++ [some 0])[8 * input.length]? = _
    rw [List.getElem?_append_right (by simp)]
    simp
  · simp

/-- The characters for the byte `2 ^ 29` and those after it are never written. -/
theorem not_converts_of_lt {input : Buffer} (hlong : 2 ^ 29 < input.length) :
  ¬ Converts input
  := by
  rintro ⟨rounds, hrounds⟩
  obtain ⟨r, hr, hbits⟩ := hrounds rounds (Nat.le_refl rounds)
  obtain ⟨n, out, hn, hconvert, hstore⟩ := asciiToBinary_returned hr hbits.rtrn
  cases hbits.outLen.symm.trans hn
  have hchar := hbits.char _ _ (List.getElem?_eq_getElem hlong) 0 (by decide)
  have hpos : 2 ^ 32 < 8 * input.length + 1 := by omega
  rw [Nat.add_zero, show 8 * 2 ^ 29 = 2 ^ 32 from rfl,
    getElem?_store hstore (.inl (by omega)), getElem?_convert (Nat.le_refl _) hconvert,
    List.getElem?_replicate, if_pos hpos] at hchar
  cases hchar

/-- The index is always less than a length of `2 ^ 32` or more. -/
theorem convert_ne_returned {input : Cells} (hlong : 2 ^ 32 ≤ input.length) {fuel i : ℕ}
    (hi : i < 2 ^ 32) (out out' : Cells) :
  convert input fuel i out ≠ .returned out'
  := by
  induction fuel generalizing i out with
  | zero => exact fun h => by cases h
  | succ fuel ih =>
      rw [convert, if_pos (Nat.lt_of_lt_of_le hi hlong)]
      split
      · exact fun h => by cases h
      · exact ih (Nat.mod_lt _ (by decide)) _

/-- `ascii_to_binary` writes the bits of an input exactly when it has at least one and at most
`2 ^ 29` bytes.  The offset of a later byte wraps around. -/
theorem converts_iff (input : Buffer) :
  Converts input ↔ input ≠ [] ∧ input.length ≤ 2 ^ 29
  := by
  constructor
  · intro h
    constructor
    · rintro rfl
      obtain ⟨rounds, hrounds⟩ := h
      obtain ⟨r, hr, hbits⟩ := hrounds rounds (Nat.le_refl rounds)
      cases hr
      cases hbits.rtrn
    · by_contra hlong
      exact not_converts_of_lt (Nat.lt_of_not_le hlong) h
  · rintro ⟨hne, hlength⟩
    use input.length + 1
    intro fuel hfuel
    refine ⟨_, ?_, writesBits_allBits input⟩
    apply asciiToBinary_eq
    · simpa using hne
    · simpa using hlength
    · rw [List.length_map]
      omega

/-- The characters of the last byte of an input of `2 ^ 29 + 1` bytes are missing, and an input
of `2 ^ 32` bytes is converted forever. -/
theorem not_converts_long :
  ¬ Converts (List.replicate (2 ^ 29 + 1) 97) ∧
    ∀ fuel out out', convert (List.replicate (2 ^ 32) (some 97)) fuel 0 out ≠ .returned out'
  := by
  constructor
  · apply not_converts_of_lt
    rw [List.length_replicate]
    exact Nat.lt_succ_self _
  · intro fuel
    apply convert_ne_returned
    · rw [List.length_replicate]
    · decide

/-! ### Round trips -/

/-- The bytes are got back from their bits. -/
def DecodesBack (s : Buffer) : Prop :=
  ∃ rounds, ∀ fuel, rounds ≤ fuel →
    ∃ r n, asciiToBinary fuel true (s.map some) = .returned r ∧ r.outLen = some n ∧
      let r' := binaryToAscii true (r.out.take n)
      r'.rtrn = 0 ∧ r'.outLen = some s.length ∧ r'.out.take s.length = s.map some

/-- The bits are got back from the bytes they are decoded to. -/
def EncodesBack (t : Buffer) : Prop :=
  let r := binaryToAscii true (t.map some)
  ∃ n, r.outLen = some n ∧ ∃ rounds, ∀ fuel, rounds ≤ fuel →
    ∃ r' n', asciiToBinary fuel true (r.out.take n) = .returned r' ∧ r'.rtrn = 0 ∧
      r'.outLen = some n' ∧ r'.out.take n' = t.map some

/-- Nothing is written to the memory but the zero byte at its end. -/
theorem binaryToAscii_out {input : Cells} {n : ℕ} (h : (binaryToAscii true input).outLen = some n) :
  (binaryToAscii true input).out.take n = List.replicate n none
  := by
  rw [binaryToAscii] at *
  split
  · rename_i hzero
    rw [if_pos hzero] at h
    cases h
  · rename_i hne
    rw [if_neg hne] at h
    cases h
    simp only [Bool.not_true, Bool.false_eq_true, if_false]
    rw [List.take_set_of_le (Nat.le_refl _), List.take_replicate]
    congr 1
    omega

theorem bits_none :
  bits none = List.replicate 8 none
  := rfl

/-- Writing indeterminate values leaves memory indeterminate. -/
theorem store_replicate_none {n o k : ℕ} {out : Cells}
    (h : store (List.replicate n none) o (List.replicate k none) = some out) :
  out = List.replicate n none
  := by
  induction k generalizing o with
  | zero =>
      cases h
      rfl
  | succ k ih =>
      rw [List.replicate_succ, store] at h
      split at h
      · rw [List.set_replicate_self] at h
        exact ih h
      · cases h

theorem convert_replicate_none {m n fuel i : ℕ} {out : Cells}
    (h : convert (List.replicate m none) fuel i (List.replicate n none) = .returned out) :
  out = List.replicate n none
  := by
  induction fuel generalizing i with
  | zero => cases h
  | succ fuel ih =>
      rw [convert] at h
      split at h
      · rename_i hi
        rw [List.length_replicate] at hi
        rw [List.getElem?_replicate, if_pos hi, Option.join_some, bits_none] at h
        split at h
        · cases h
        · rename_i next hnext
          rw [store_replicate_none hnext] at h
          exact ih h
      · cases h
        rfl

/-- Indeterminate memory is not a string. -/
theorem eq_nil_of_replicate_none {n : ℕ} {s : Buffer}
    (h : List.replicate n none = s.map some) :
  s = []
  := by
  cases s with
  | nil => rfl
  | cons b s =>
      have hmem : some b ∈ List.replicate n (none : Option UInt8) := by
        rw [h]
        exact List.mem_cons_self
      cases (List.mem_replicate.mp hmem).2

theorem not_decodesBack (s : Buffer) :
  ¬ DecodesBack s
  := by
  rintro ⟨rounds, hrounds⟩
  obtain ⟨r, n, hr, hn, -, hlength, hout⟩ := hrounds rounds (Nat.le_refl rounds)
  rw [binaryToAscii_out hlength] at hout
  obtain rfl := eq_nil_of_replicate_none hout
  cases hr
  cases hn

theorem not_encodesBack (t : Buffer) :
  ¬ EncodesBack t
  := by
  rintro ⟨n, hn, rounds, hrounds⟩
  obtain ⟨r', n', hr', hrtrn, hn', hout⟩ := hrounds rounds (Nat.le_refl rounds)
  rw [binaryToAscii_out hn] at hr'
  obtain ⟨k, out, hk, hconvert, hstore⟩ := asciiToBinary_returned hr' hrtrn
  cases hk.symm.trans hn'
  rw [convert_replicate_none hconvert, store] at hstore
  split at hstore
  · rw [← Option.some.inj hstore, List.take_set_of_le (Nat.le_refl _),
      List.take_replicate] at hout
    obtain rfl := eq_nil_of_replicate_none hout
    cases hn
  · cases hstore

/-- No bytes are got back from their bits and no bits from their bytes, since
`binary_to_ascii` writes none. -/
theorem not_decodesBack_and_not_encodesBack (s t : Buffer) :
  ¬ DecodesBack s ∧ ¬ EncodesBack t
  := ⟨not_decodesBack s, not_encodesBack t⟩

/-- The letter `a` and its bits, of which nothing is left. -/
theorem not_decodesBack_letter :
  asciiToBinary 2 true [some 97] =
      .returned ⟨0, [48, 49, 49, 48, 48, 48, 48, 49, 0].map some, some 8⟩ ∧
    binaryToAscii true ([48, 49, 49, 48, 48, 48, 48, 49].map some) = ⟨0, [none, some 0], some 1⟩ ∧
    ¬ DecodesBack [97] ∧ ¬ EncodesBack [48, 49, 49, 48, 48, 48, 48, 49]
  := ⟨rfl, rfl, not_decodesBack _, not_encodesBack _⟩

end Utils
