import Nextgen.Lib.Format
import Nextgen.Utils.Names

/-!
# Digests in hexadecimal digits

`sha256` and `sha512` print the digest of a string to a new buffer, two digits for each byte.
Each `sprintf` of the loop also writes a zero byte, which the next one overwrites.
-/

open Bytes

namespace Crypto

/-! ### The functions -/

/-- What the functions of the library return, and the memory that `malloc` gives. -/
structure ShaCalls (size : ℕ) where
  init : ℤ
  update : ℤ
  final : ℤ
  malloc : Option (Block size)

/-- The texts that are printed when a call fails. -/
structure ShaTexts where
  init : String
  update : String
  final : String
  malloc : String

/-- The pointer `*out` after a call. -/
inductive Out (size : ℕ) where
  | unchanged
  | null
  | buffer (out : Block size)

/-- What is returned and printed, and the pointer `*out`. -/
structure Hashed (size : ℕ) where
  rtrn : ℤ
  printed : Option String
  out : Out size

/-- The loop from the byte number `i` on. -/
def printLoop {size : ℕ} : Buffer → ℕ → Block size → Option (Block size)
  | [], _, out => some out
  | b :: hash, i, out => do
      let out ← out.sprintfAt (i * 2) (zeroPad 2 (digits 16 b.toNat))
      printLoop hash (i + 1) out

/-- What the two functions share, with the length of the digests and the index of the last zero
byte.  There is no result if something is written past the end of the buffer. -/
def printHash (digestLength last : ℕ) (texts : ShaTexts) (digest : Buffer → Block digestLength)
    (calls : ShaCalls (digestLength * 2 + 1)) (input : Buffer) :
    Option (Hashed (digestLength * 2 + 1)) :=
  if calls.init < 0 then some ⟨-1, some texts.init, .unchanged⟩
  else if calls.update < 0 then some ⟨-1, some texts.update, .unchanged⟩
  else if calls.final < 0 then some ⟨-1, some texts.final, .unchanged⟩
  else
    let strlen := (cString input).length
    let hash := digest (input.take strlen)
    match calls.malloc with
    | none => some ⟨-1, some texts.malloc, .null⟩
    | some out => do
        let out ← printLoop hash.bytes 0 out
        let out ← out.write last [0]
        return ⟨0, none, .buffer out⟩

/-- `sha512`. -/
def sha512 : (Buffer → Block 64) → ShaCalls 129 → Buffer → Option (Hashed 129) :=
  printHash 64 128
    ⟨"Sha init\n", "Can't update input string\n", "Can't do this\n", "Can't allocate output buf\n"⟩

/-- `sha256`. -/
def sha256 : (Buffer → Block 32) → ShaCalls 65 → Buffer → Option (Hashed 65) :=
  printHash 32 64
    ⟨"Sha Init Error\n", "Sha Update Error\n", "Sha Final Error\n", "Can't allocate output buf\n"⟩

/-! ### What they should do -/

/-- The two functions. -/
inductive Algorithm where
  | sha256
  | sha512

/-- `SHA256_DIGEST_LENGTH` and `SHA512_DIGEST_LENGTH`. -/
def Algorithm.digestLength : Algorithm → ℕ
  | .sha256 => 32
  | .sha512 => 64

def Algorithm.hash : (a : Algorithm) → (Buffer → Block a.digestLength) →
    ShaCalls (a.digestLength * 2 + 1) → Buffer → Option (Hashed (a.digestLength * 2 + 1))
  | .sha256 => Crypto.sha256
  | .sha512 => Crypto.sha512

/-- No call fails. -/
def ShaCalls.Succeed {size : ℕ} (c : ShaCalls size) : Prop :=
  0 ≤ c.init ∧ 0 ≤ c.update ∧ 0 ≤ c.final ∧ c.malloc.isSome

instance {size : ℕ} (c : ShaCalls size) : Decidable c.Succeed :=
  inferInstanceAs (Decidable (_ ∧ _))

/-- A buffer holds the two nibbles of each byte of a digest as digits in lower case, and then a
zero byte. -/
structure Encodes {n : ℕ} (digest : Block n) (out : Block (n * 2 + 1)) : Prop where
  high : ∀ i b, digest.bytes[i]? = some b → out.bytes[2 * i]? = some (hexDigit (b.toNat / 16))
  low : ∀ i b, digest.bytes[i]? = some b → out.bytes[2 * i + 1]? = some (hexDigit (b.toNat % 16))
  lower : ∀ k < 2 * n, ∃ c, out.bytes[k]? = some c ∧ IsHexDigit c
  zero : out.bytes[2 * n]? = some 0

/-- Nothing is written past the end of the buffer, and the buffer encodes the digest unless a call
fails. -/
def Prints {n : ℕ} (digest : Block n) (c : ShaCalls (n * 2 + 1))
    (hashed : Option (Hashed (n * 2 + 1))) : Prop :=
  ∃ r, hashed = some r ∧ (r.rtrn = 0 ↔ c.Succeed) ∧
    (r.rtrn = 0 → ∃ out, r.out = .buffer out ∧ Encodes digest out)

/-- The string that a call gives to its caller. -/
def Hashed.string {size : ℕ} (r : Hashed size) : Option Buffer :=
  match r.out with
  | .buffer out => some (cString out.bytes)
  | .unchanged | .null => none

/-! ### The loop -/

/-- The digits of a digest follow those that are printed already. -/
theorem printLoop_spec {size : ℕ} (hash : Buffer) (i : ℕ) (out : Block size)
    (hsize : (i + hash.length) * 2 < size) :
  ∃ out', printLoop hash i out = some out' ∧
    out'.bytes.take ((i + hash.length) * 2) = out.bytes.take (i * 2) ++ hex hash
  := by
  induction hash generalizing i out with
  | nil =>
      refine ⟨out, rfl, ?_⟩
      rw [List.length_nil, Nat.add_zero, hex, List.flatMap_nil, List.append_nil]
  | cons b hash ih =>
      have hlength : i + (b :: hash).length = i + 1 + hash.length := by
        rw [List.length_cons]
        omega
      rw [hlength] at hsize ⊢
      have htwo : (hexByte b).length = 2 := rfl
      obtain ⟨out₁, hprint, htake₁⟩ := out.exists_sprintfAt (i * 2) (hexByte b) (by omega)
      obtain ⟨out', hrest, htake⟩ := ih (i + 1) out₁ hsize
      refine ⟨out', ?_, ?_⟩
      · rw [printLoop, zeroPad_digits_byte, hprint]
        exact hrest
      · -- the zero byte behind the two digits is not among the bytes that are kept
        rw [htwo, ← Nat.succ_mul] at htake₁
        rw [htake, htake₁, List.append_assoc]
        rfl

/-! ### One call -/

section Call

variable {n : ℕ} {texts : ShaTexts} {digest : Buffer → Block n} {c : ShaCalls (n * 2 + 1)}
  {input : Buffer}

/-- A call that succeeds fills the buffer with the digits and a zero byte. -/
theorem printHash_of_succeed (h : c.Succeed) :
  ∃ out, printHash n (n * 2) texts digest c input = some ⟨0, none, .buffer out⟩ ∧
    out.bytes = hex (digest (cString input)).bytes ++ [0]
  := by
  obtain ⟨hinit, hupdate, hfinal, hmalloc⟩ := h
  obtain ⟨out₀, hout₀⟩ := Option.isSome_iff_exists.mp hmalloc
  have hlength := (digest (cString input)).length_eq
  obtain ⟨out₁, hloop, htake₁⟩ := printLoop_spec (digest (cString input)).bytes 0 out₀ (by omega)
  obtain ⟨out, hwrite, htake⟩ := out₁.exists_write (n * 2) [0] (Nat.le_refl _)
  refine ⟨out, ?_, ?_⟩
  · rw [printHash, if_neg (Int.not_lt.mpr hinit), if_neg (Int.not_lt.mpr hupdate),
      if_neg (Int.not_lt.mpr hfinal)]
    simp only [take_length_cString, hout₀, hloop, hwrite, Option.bind_eq_bind, Option.bind_some]
    rfl
  · rw [Nat.zero_add, hlength, Nat.zero_mul, List.take_zero, List.nil_append] at htake₁
    rw [htake₁, List.length_singleton,
      List.take_of_length_le (Nat.le_of_eq out.length_eq)] at htake
    exact htake

/-- A call that does not succeed returns minus one and gives no string. -/
theorem printHash_of_not_succeed (last : ℕ) (h : ¬ c.Succeed) :
  ∃ r, printHash n last texts digest c input = some r ∧ r.rtrn = -1 ∧ r.string = none
  := by
  rw [printHash]
  split
  · exact ⟨_, rfl, rfl, rfl⟩
  split
  · exact ⟨_, rfl, rfl, rfl⟩
  split
  · exact ⟨_, rfl, rfl, rfl⟩
  rename_i hinit hupdate hfinal
  cases hmalloc : c.malloc with
  | none => exact ⟨_, rfl, rfl, rfl⟩
  | some out =>
      refine absurd ⟨Int.not_lt.mp hinit, Int.not_lt.mp hupdate, Int.not_lt.mp hfinal, ?_⟩ h
      rw [hmalloc]
      rfl

end Call

/-! ### The encoding -/

section Encoding

variable {n : ℕ} {digest : Block n} {out : Block (n * 2 + 1)}

theorem encodes_of_bytes (h : out.bytes = hex digest.bytes ++ [0]) :
  Encodes digest out
  := by
  have hlength : (hex digest.bytes).length = 2 * n := by
    rw [length_hex, digest.length_eq]
  have hlt {i : ℕ} {b : UInt8} (hb : digest.bytes[i]? = some b) : i < n := by
    obtain ⟨hi, -⟩ := List.getElem?_eq_some_iff.mp hb
    rw [← digest.length_eq]
    exact hi
  have hget {k : ℕ} (hk : k < 2 * n) : out.bytes[k]? = (hex digest.bytes)[k]? := by
    rw [h]
    apply List.getElem?_append_left
    rw [hlength]
    exact hk
  constructor
  · intro i b hb
    have hi := hlt hb
    rw [hget (by omega)]
    exact (getElem?_hex hb).1
  · intro i b hb
    have hi := hlt hb
    rw [hget (by omega)]
    exact (getElem?_hex hb).2
  · intro k hk
    rw [← hlength] at hk
    refine ⟨(hex digest.bytes)[k], ?_, isHexDigit_of_mem_hex (List.getElem_mem hk)⟩
    rw [hget (by omega)]
    exact List.getElem?_eq_getElem hk
  · rw [h, List.getElem?_append_right (by omega), hlength, Nat.sub_self]
    rfl

end Encoding

/-! ### The two functions -/

section Functions

variable (a : Algorithm) (digest : Buffer → Block a.digestLength)
  {c : ShaCalls (a.digestLength * 2 + 1)} (input : Buffer)

/-- The index of the last zero byte is the one behind the digits. -/
theorem hash_eq :
  ∃ texts, a.hash = printHash a.digestLength (a.digestLength * 2) texts
  := by
  cases a with
  | sha256 => exact ⟨_, rfl⟩
  | sha512 => exact ⟨_, rfl⟩

theorem hash_of_succeed (h : c.Succeed) :
  ∃ out, a.hash digest c input = some ⟨0, none, .buffer out⟩ ∧
    out.bytes = hex (digest (cString input)).bytes ++ [0]
  := by
  obtain ⟨texts, htexts⟩ := hash_eq a
  rw [htexts]
  exact printHash_of_succeed h

theorem hash_of_not_succeed (h : ¬ c.Succeed) :
  ∃ r, a.hash digest c input = some r ∧ r.rtrn = -1 ∧ r.string = none
  := by
  obtain ⟨texts, htexts⟩ := hash_eq a
  rw [htexts]
  exact printHash_of_not_succeed _ h

theorem prints_hash (c : ShaCalls (a.digestLength * 2 + 1)) :
  Prints (digest (cString input)) c (a.hash digest c input)
  := by
  by_cases h : c.Succeed
  · obtain ⟨out, hhash, hbytes⟩ := hash_of_succeed a digest input h
    exact ⟨_, hhash, iff_of_true rfl h, fun _ => ⟨out, rfl, encodes_of_bytes hbytes⟩⟩
  · obtain ⟨r, hhash, hrtrn, -⟩ := hash_of_not_succeed a digest input h
    have hne : r.rtrn ≠ 0 := by
      rw [hrtrn]
      decide
    exact ⟨r, hhash, iff_of_false hne h, fun hzero => absurd hzero hne⟩

/-- The string is the one of the digits, if there is one. -/
theorem string_hash (c : ShaCalls (a.digestLength * 2 + 1)) :
  (a.hash digest c input).bind Hashed.string =
    if c.Succeed then some (hex (digest (cString input)).bytes) else none
  := by
  split
  · rename_i h
    obtain ⟨out, hhash, hbytes⟩ := hash_of_succeed a digest input h
    have hstring : cString out.bytes = hex (digest (cString input)).bytes := by
      rw [hbytes, cString_append_cons_zero (nonzero_of_mem_hex _)]
    rw [hhash, ← hstring]
    rfl
  · rename_i h
    obtain ⟨r, hhash, -, hstring⟩ := hash_of_not_succeed a digest input h
    rw [hhash]
    exact hstring

end Functions

/-- The string that `generate_name` hashes its data to is the one in the buffer. -/
theorem sha256_string (sha : Utils.Sha256) (c : ShaCalls 65) (input : Buffer) :
  (sha256 (fun bytes => ⟨sha.digest bytes, sha.length bytes⟩) c input).bind Hashed.string =
    Utils.sha256 sha input (if c.Succeed then none else some .hash)
  := by
  have hstring := string_hash .sha256 (fun bytes => ⟨sha.digest bytes, sha.length bytes⟩) input c
  by_cases h : c.Succeed
  · rw [if_pos h]
    exact hstring.trans (if_pos h)
  · rw [if_neg h]
    exact hstring.trans (if_neg h)

/-- Both functions print the digest of the bytes before the first zero byte, and calls that give the
same string have the same digest. -/
theorem hash_prints_digest (a : Algorithm) (digest digest' : Buffer → Block a.digestLength)
    (c c' : ShaCalls (a.digestLength * 2 + 1)) (s s' : CString) (rest rest' : Buffer) :
  Prints (digest s.bytes) c (a.hash digest c (s.memory ++ rest)) ∧
  ∀ text, (a.hash digest c (s.memory ++ rest)).bind Hashed.string = some text →
    (a.hash digest' c' (s'.memory ++ rest')).bind Hashed.string = some text →
    digest s.bytes = digest' s'.bytes
  := by
  have hinput (s : CString) (rest : Buffer) : cString (s.memory ++ rest) = s.bytes := by
    rw [CString.memory, List.append_assoc]
    exact cString_append_cons_zero s.nonzero rest
  constructor
  · have hprints := prints_hash a digest (s.memory ++ rest) c
    rw [hinput] at hprints
    exact hprints
  · intro text htext htext'
    rw [string_hash, Option.ite_none_right_eq_some, hinput] at htext htext'
    obtain ⟨-, htext⟩ := htext
    obtain ⟨-, htext'⟩ := htext'
    apply Block.eq_of_bytes
    apply hex_injective
    exact Option.some.inj (htext.trans htext'.symm)

/-- A digest of zeros. -/
theorem hash_prints_digest_zero :
  ∃ r out, sha256 (fun _ => .zero 32) ⟨1, 1, 1, some (.zero 65)⟩ [97, 0] = some r ∧
    r.rtrn = 0 ∧ r.out = .buffer out ∧ Encodes (.zero 32) out
  := by
  have ha : ∀ b ∈ [(97 : UInt8)], b ≠ 0 := by simp
  have hc : (⟨1, 1, 1, some (.zero 65)⟩ : ShaCalls 65).Succeed :=
    ⟨by decide, by decide, by decide, rfl⟩
  obtain ⟨⟨r, hhash, hrtrn, hout⟩, -⟩ := hash_prints_digest .sha256 (fun _ => .zero 32)
    (fun _ => .zero 32) ⟨1, 1, 1, some (.zero 65)⟩ ⟨1, 1, 1, some (.zero 65)⟩ ⟨[97], ha⟩ ⟨[97], ha⟩
    [] []
  obtain ⟨out, hbuffer, hencodes⟩ := hout (hrtrn.mpr hc)
  exact ⟨r, out, hhash, hrtrn.mpr hc, hbuffer, hencodes⟩

end Crypto
