import Mathlib.Algebra.Group.Nat.Defs
import Nextgen.Runtime.Modules

/-!
# Random numbers in a range

`default_rand_range`, `rand_range_crypto` and `rand_range_no_crypto` as functions of what the
library gives them, and the contract that `struct random_generator` and `rand_range` have
them share: a number from zero to the range, inclusive, or `-1`.
-/

namespace Crypto

/-- What the functions of the library do in one call.  `BN_rand_range` is a partial function
of the bound, which it stays below, and so it fails for the bound zero.  `leftover` is the
number when it fails. -/
structure Library where
  newRandom : Bool
  newRange : Bool
  setWord : Bool
  bnRandRange : ℕ → Option ℕ
  below : ∀ bound x, bnRandRange bound = some x → x < bound
  leftover : ℕ
  bn2dec : Bool
  rand : ℕ
  rand_lt : rand < 2 ^ 31

/-- The operation that a processor traps on. -/
inductive Trap where
  | divisionByZero
  deriving DecidableEq, Repr

/-- `strtol` of the digits of a number, with a `long` of 64 bits. -/
def strtol (n : ℕ) : ℕ := min n (2 ^ 63 - 1)

/-- What `BN_rand_range` gives for `range1`.  If `BN_set_word` fails, which goes unnoticed,
`range1` is still zero. -/
def Library.bignum (l : Library) (range : UInt32) : Option ℕ :=
  l.bnRandRange (if l.setWord then (range + 1).toNat else 0)

/-- `default_rand_range`: the number, or `none` for `-1`.  `BN_set_word` and `BN_rand_range`
return zero when they fail, and only negative values are tested for. -/
def defaultRandRange (l : Library) (range : UInt32) : Option UInt32 :=
  if !l.newRandom then none
  else if !l.newRange then none
  else
    let random := (l.bignum range).getD l.leftover
    if !l.bn2dec then none else some (UInt32.ofNat (strtol random))

/-- `rand_range_crypto`, which has the same body. -/
def randRangeCrypto (l : Library) (range : UInt32) : Option UInt32 := defaultRandRange l range

/-- `rand_range_no_crypto`. -/
def randRangeNoCrypto (l : Library) (range : UInt32) : Except Trap UInt32 :=
  if range = 0 then .error .divisionByZero else .ok (UInt32.ofNat l.rand % range + 1)

/-- `rand_range`, through the pointer that `setup_rand_range` set. -/
def randRange (s : Modules.Crypto.State) (l : Library) (range : UInt32) :
    Except Trap (Option UInt32) :=
  if !s.cryptoSetup then .ok none
  else
    match s.randRangePointer with
    | some .noCrypto => (randRangeNoCrypto l range).map some
    | some .crypto => .ok (randRangeCrypto l range)
    | _ => .ok none

/-! ### The contract -/

/-- The three implementations. -/
inductive Implementation where
  | default
  | crypto
  | noCrypto
  deriving DecidableEq, Repr

/-- A call of an implementation. -/
def Implementation.call (l : Library) (range : UInt32) :
    Implementation → Except Trap (Option UInt32)
  | default => .ok (defaultRandRange l range)
  | crypto => .ok (randRangeCrypto l range)
  | noCrypto => (randRangeNoCrypto l range).map some

/-- Once `setup_crypto_module` has set its flag, `rand_range` is the implementation for the
method it was called with. -/
theorem randRange_setup {c : Modules.Crypto.Call}
    (h : (Modules.Crypto.setupCryptoModule ⟨false, none, false⟩ c).2.cryptoSetup = true)
    (l : Library) (range : UInt32) :
  randRange (Modules.Crypto.setupCryptoModule ⟨false, none, false⟩ c).2 l range =
    (if c.method = .noCrypto then Implementation.noCrypto else .crypto).call l range
  := by
  obtain ⟨method, hardware, seeded⟩ := c
  cases method with
  | noCrypto => rfl
  | crypto =>
      cases hardware with
      | accelerated => rfl
      | notDetected => rfl
      | failed => cases h
  | other => cases h

/-- What the underlying generator gives, or `none` if it fails.  `rand` never does. -/
def Implementation.generated (l : Library) (range : UInt32) : Implementation → Option ℕ
  | noCrypto => some l.rand
  | _ => l.bignum range

/-- The number for an output of the generator. -/
def Implementation.image (range : UInt32) (x : ℕ) : Implementation → ℕ
  | noCrypto => x % range.toNat + 1
  | _ => x

/-- What a call of an implementation is to do.  The values of `rand` are enough for the ranges
below `2 ^ 31` only. -/
structure Contract (i : Implementation) (l : Library) (range : UInt32) : Prop where
  noTrap : i.call l range ≠ .error .divisionByZero
  inRange : ∀ number, i.call l range = .ok (some number) →
    number ≤ range ∧ ∃ x, i.generated l range = some x ∧ number.toNat = i.image range x
  failure : i.generated l range = none → i.call l range = .ok none
  attained : (i = .noCrypto → range.toNat < 2 ^ 31) → ∀ number ≤ range,
    ∃ l', i.generated l' range ≠ none ∧ i.call l' range = .ok (some number)

/-- `BN_rand_range` and the call before it succeed, or one of the failures that are noticed
occurs. -/
def Library.Noticed (l : Library) (range : UInt32) : Prop :=
  (l.setWord = true ∧ l.bnRandRange (range + 1).toNat ≠ none) ∨
    l.newRandom = false ∨ l.newRange = false ∨ l.bn2dec = false

/-- When the contract is met. -/
def Implementation.Meets (l : Library) (range : UInt32) : Implementation → Prop
  | noCrypto => 2 ^ 31 ≤ range.toNat
  | _ => range.toNat ≠ 2 ^ 32 - 1 ∧ l.Noticed range

/-! ### The implementations with big numbers -/

section Bignum

variable {l : Library} {range : UInt32}

theorem toNat_add_one_le (range : UInt32) :
  (range + 1).toNat ≤ range.toNat + 1
  := by
  rw [UInt32.toNat_add]
  apply Nat.mod_le

/-- What `BN_rand_range` gives is in the range. -/
theorem le_of_bignum {x : ℕ} (h : l.bignum range = some x) :
  x ≤ range.toNat
  := by
  have hlt := l.below _ x h
  have hle := toNat_add_one_le range
  split at hlt <;> omega

theorem bignum_eq_none_iff :
  l.bignum range = none ↔ ¬ (l.setWord = true ∧ l.bnRandRange (range + 1).toNat ≠ none)
  := by
  have hzero : l.bnRandRange 0 = none := by
    cases h : l.bnRandRange 0 with
    | none => rfl
    | some x => exact absurd (l.below 0 x h) (Nat.not_lt_zero x)
  cases hset : l.setWord with
  | false => simp [Library.bignum, hset, hzero]
  | true => simp [Library.bignum, hset]

/-- The number that is returned when no failure is noticed. -/
theorem defaultRandRange_eq_some {number : UInt32} :
  defaultRandRange l range = some number ↔
    ¬ (l.newRandom = false ∨ l.newRange = false ∨ l.bn2dec = false) ∧
      number = UInt32.ofNat (strtol ((l.bignum range).getD l.leftover))
  := by
  rw [defaultRandRange]
  cases l.newRandom <;> cases l.newRange <;> cases l.bn2dec <;> simp [eq_comm]

/-- The digits of a number in the range are read back. -/
theorem toNat_strtol {x : ℕ} (h : x ≤ range.toNat) :
  (UInt32.ofNat (strtol x)).toNat = x
  := by
  have hrange := range.toNat_lt
  rw [strtol, Nat.min_eq_left (by omega),
    UInt32.toNat_ofNat_of_lt' (Nat.lt_of_le_of_lt h range.toNat_lt_size)]

/-- A library whose generator gives a chosen number. -/
def Library.giving (x : ℕ) : Library where
  newRandom := true
  newRange := true
  setWord := true
  bnRandRange bound := if x < bound then some x else none
  below := by
    intro bound y h
    split at h
    · cases h
      assumption
    · cases h
  leftover := 0
  bn2dec := true
  rand := 0
  rand_lt := by decide

/-- Every number in the range is returned for some output of the generator, unless the range
is the largest one, for which the bound wraps around. -/
theorem attained_iff :
  (∀ number ≤ range, ∃ l : Library, l.bignum range ≠ none ∧
    defaultRandRange l range = some number) ↔ range.toNat ≠ 2 ^ 32 - 1
  := by
  constructor
  · intro h hmax
    obtain ⟨l, hl, -⟩ := h 0 (UInt32.zero_le)
    obtain ⟨x, hx⟩ := Option.ne_none_iff_exists'.mp hl
    have hbound : (range + 1).toNat = 0 := by
      rw [UInt32.toNat_add, hmax]
      rfl
    have hlt := l.below _ x hx
    rw [hbound, ite_self] at hlt
    exact Nat.not_lt_zero x hlt
  · intro hmax number hnumber
    have hrange := range.toNat_lt
    have hle : number.toNat ≤ range.toNat := UInt32.le_iff_toNat_le.mp hnumber
    have hbound : (range + 1).toNat = range.toNat + 1 := by
      rw [UInt32.toNat_add]
      apply Nat.mod_eq_of_lt
      show range.toNat + 1 < 2 ^ 32
      omega
    have hdraw : (Library.giving number.toNat).bignum range = some number.toNat := by
      rw [Library.bignum, Library.giving, if_pos rfl, hbound]
      apply if_pos
      omega
    refine ⟨Library.giving number.toNat, ?_, ?_⟩
    · rw [hdraw]
      simp
    · rw [defaultRandRange_eq_some, hdraw]
      use by simp [Library.giving]
      apply UInt32.toNat_inj.mp
      rw [Option.getD_some, toNat_strtol hle]

/-- When every failure is noticed, a number that is returned comes from the generator. -/
theorem Library.Noticed.exists_bignum {number : UInt32} (h : l.Noticed range)
    (hnumber : defaultRandRange l range = some number) :
  ∃ x, l.bignum range = some x ∧ number.toNat = x
  := by
  obtain ⟨hok, rfl⟩ := defaultRandRange_eq_some.mp hnumber
  obtain ⟨x, hx⟩ : ∃ x, l.bignum range = some x := by
    apply Option.ne_none_iff_exists'.mp
    intro hnone
    exact bignum_eq_none_iff.mp hnone (h.resolve_right hok)
  use x, hx
  rw [hx, Option.getD_some, toNat_strtol (le_of_bignum hx)]

/-- A failure of the generator is reported exactly when every failure is noticed. -/
theorem noticed_iff :
  l.Noticed range ↔ (l.bignum range = none → defaultRandRange l range = none)
  := by
  constructor
  · intro h hnone
    by_contra hne
    obtain ⟨number, hnumber⟩ := Option.ne_none_iff_exists'.mp hne
    obtain ⟨x, hx, -⟩ := h.exists_bignum hnumber
    rw [hnone] at hx
    cases hx
  · intro h
    by_contra hnot
    obtain ⟨hdraw, hok⟩ := not_or.mp hnot
    have hfailed := h (bignum_eq_none_iff.mpr hdraw)
    rw [defaultRandRange_eq_some.mpr ⟨hok, rfl⟩] at hfailed
    cases hfailed

/-- The contract of an implementation that is `default_rand_range`. -/
theorem contract_bignum_iff {i : Implementation} (hne : i ≠ .noCrypto)
    (hcall : ∀ l, i.call l range = .ok (defaultRandRange l range))
    (hgenerated : ∀ l, i.generated l range = l.bignum range)
    (himage : ∀ x, i.image range x = x) :
  Contract i l range ↔ range.toNat ≠ 2 ^ 32 - 1 ∧ l.Noticed range
  := by
  have hreturned : ∀ {l number}, i.call l range = .ok (some number) ↔
      defaultRandRange l range = some number := by
    intro l number
    rw [hcall, Except.ok.injEq]
  constructor
  · intro h
    constructor
    · apply attained_iff.mp
      intro number hnumber
      obtain ⟨l', hl', hnum⟩ := h.attained (fun hi => absurd hi hne) number hnumber
      rw [hgenerated] at hl'
      exact ⟨l', hl', hreturned.mp hnum⟩
    · apply noticed_iff.mpr
      intro hnone
      have hfailed := h.failure (by rw [hgenerated, hnone])
      rw [hcall, Except.ok.injEq] at hfailed
      exact hfailed
  · rintro ⟨hmax, hnoticed⟩
    constructor
    · rw [hcall]
      exact fun h => by cases h
    · intro number hnum
      obtain ⟨x, hx, hvalue⟩ := hnoticed.exists_bignum (hreturned.mp hnum)
      constructor
      · rw [UInt32.le_iff_toNat_le, hvalue]
        exact le_of_bignum hx
      · use x
        rw [hgenerated, himage, hvalue]
        use hx
    · intro hnone
      rw [hgenerated] at hnone
      rw [hcall, noticed_iff.mp hnoticed hnone]
    · intro _ number hnumber
      obtain ⟨l', hl', hnum⟩ := attained_iff.mpr hmax number hnumber
      use l'
      rw [hgenerated]
      exact ⟨hl', hreturned.mpr hnum⟩

end Bignum

/-! ### The implementation with `rand` -/

section NoCrypto

variable {l : Library} {range : UInt32}

/-- A range that is not zero gives a number from one to the range. -/
theorem randRangeNoCrypto_of_ne_zero (h : range ≠ 0) :
  ∃ number, randRangeNoCrypto l range = .ok number ∧
    number.toNat = l.rand % range.toNat + 1
  := by
  refine ⟨_, if_neg h, ?_⟩
  have hpos : 0 < range.toNat := Nat.pos_of_ne_zero fun hz => h (UInt32.toNat_inj.mp hz)
  have hmod := Nat.mod_lt l.rand hpos
  have hrange := range.toNat_lt
  have hrand := l.rand_lt
  have hvalue : (UInt32.ofNat l.rand).toNat = l.rand := by
    apply UInt32.toNat_ofNat_of_lt'
    exact Nat.lt_trans hrand (by decide)
  rw [UInt32.toNat_add, UInt32.toNat_mod, hvalue]
  apply Nat.mod_eq_of_lt
  show l.rand % range.toNat + 1 < 2 ^ 32
  omega

theorem noCrypto_call_eq_ok {number : UInt32}
    (h : Implementation.noCrypto.call l range = .ok (some number)) :
  range ≠ 0 ∧ number.toNat = l.rand % range.toNat + 1
  := by
  by_cases hzero : range = 0
  · rw [Implementation.call, randRangeNoCrypto, if_pos hzero] at h
    cases h
  · obtain ⟨n, hn, hvalue⟩ := randRangeNoCrypto_of_ne_zero (l := l) hzero
    rw [Implementation.call, hn] at h
    cases h
    exact ⟨hzero, hvalue⟩

theorem contract_noCrypto_iff :
  Contract .noCrypto l range ↔ 2 ^ 31 ≤ range.toNat
  := by
  constructor
  · intro h
    by_contra hlt
    obtain ⟨l', -, hzero⟩ := h.attained (fun _ => Nat.lt_of_not_le hlt) 0 UInt32.zero_le
    have hvalue := (noCrypto_call_eq_ok hzero).2
    rw [UInt32.toNat_zero] at hvalue
    omega
  · intro hle
    have hne : range ≠ 0 := by
      rintro rfl
      rw [UInt32.toNat_zero] at hle
      omega
    obtain ⟨n, hn, -⟩ := randRangeNoCrypto_of_ne_zero (l := l) hne
    constructor
    · rw [Implementation.call, hn]
      exact fun h => by cases h
    · intro number hnumber
      have hvalue := (noCrypto_call_eq_ok hnumber).2
      have hmod := Nat.mod_lt l.rand (y := range.toNat) (by omega)
      constructor
      · rw [UInt32.le_iff_toNat_le, hvalue]
        omega
      · exact ⟨l.rand, rfl, hvalue⟩
    · intro hnone
      cases hnone
    · intro hsmall
      exact absurd (hsmall rfl) (Nat.not_lt_of_le hle)

end NoCrypto

/-- The implementations with big numbers meet the contract exactly when the range is not the
largest one and every failure of the generator comes with one that is noticed.  The one with
`rand`, which never gives zero, meets it exactly for the ranges for which not all numbers are
asked for. -/
theorem contract_iff (i : Implementation) (l : Library) (range : UInt32) :
  Contract i l range ↔ i.Meets l range
  := by
  cases i with
  | default => exact contract_bignum_iff (by decide) (fun _ => rfl) (fun _ => rfl) fun _ => rfl
  | crypto => exact contract_bignum_iff (by decide) (fun _ => rfl) (fun _ => rfl) fun _ => rfl
  | noCrypto => exact contract_noCrypto_iff

/-- The largest range gives zero without a number from the generator, and the range zero
divides by zero. -/
theorem not_contract_bounds :
  defaultRandRange (Library.giving 7) 4294967295 = some 0 ∧
    Implementation.default.generated (Library.giving 7) 4294967295 = none ∧
    ¬ Contract .default (Library.giving 7) 4294967295 ∧
    ¬ Contract .crypto (Library.giving 7) 4294967295 ∧
    Implementation.noCrypto.call (Library.giving 7) 0 = .error .divisionByZero ∧
    ¬ Contract .noCrypto (Library.giving 7) 0
  := by
  refine ⟨rfl, rfl, ?_, ?_, rfl, ?_⟩
  · intro h
    cases h.failure rfl
  · intro h
    cases h.failure rfl
  · intro h
    exact h.noTrap rfl

end Crypto
