import Nextgen.Lib.Text

/-!
# File names and extensions

`get_extension`, `generate_name` with the functions of `crypto.c` that it calls, and the way
of an extension from a seed file through `init_file_ctx`, `get_file`, `generate_name` and
`start_main_file_loop` to the path of the file that is written.  A string is the list of its
characters, and a function that returns `-1` gives `none`.
-/

open Bytes

namespace Utils

abbrev PATH_MAX : ℕ := 4096

abbrev period : UInt8 := 46

abbrev slash : UInt8 := 47

abbrev newline : UInt8 := 10

/-- `enum name_type`. -/
inductive NameType where
  | dirName
  | fileName
  deriving DecidableEq, Repr

/-- The calls whose failure is noticed: `asprintf` in `get_extension` and `get_file`, `malloc`
and `RAND_bytes` in `generate_name`, `malloc` in `sha256`, `asprintf` for the period and the
name in `generate_name`, and `asprintf` for the path. -/
inductive NameCall where
  | extension
  | copy
  | malloc
  | randBytes
  | hash
  | period
  | name
  | path
  deriving DecidableEq, Repr

/-- The function that `SHA256_Update` and `SHA256_Final` compute. -/
structure Sha256 where
  digest : Buffer → Buffer
  length : ∀ input, (digest input).length = 32

/-- The bytes that `RAND_bytes` gives to `generate_name`. -/
structure RandomData where
  bytes : Buffer
  length : bytes.length = PATH_MAX

/-! ### The functions -/

/-- `get_extension`. -/
def getExtension (path : Buffer) (failing : Option NameCall) : Option Buffer :=
  match strrchr path period with
  | none => none
  | some pointer =>
      if failing = some .extension then none
      else some (pointer.drop 1 ++ [newline])

/-- `rand_bytes`, with the zero byte that ends the string. -/
def randBytes (random : RandomData) (failing : Option NameCall) : Option Buffer :=
  if failing = some .randBytes then none else some (random.bytes ++ [0])

/-- `sha256`.  The length of the input is found by `strlen`. -/
def sha256 (sha : Sha256) (input : Buffer) (failing : Option NameCall) : Option Buffer :=
  if failing = some .hash then none else some (hex (sha.digest (cString input)))

/-- The `switch` of `generate_name`, with the hash in hexadecimal digits. -/
def nameOf (hash : Buffer) (failing : Option NameCall) : NameType → Option Buffer → Option Buffer
  | .dirName, _ => if failing = some .name then none else some hash
  | .fileName, none => none
  | .fileName, some extension =>
      match strrchr extension period with
      | none =>
          if failing = some .period then none
          else if failing = some .name then none
          else some (hash ++ period :: extension)
      | some _ => if failing = some .name then none else some (hash ++ extension)

/-- `generate_name`. -/
def generateName (sha : Sha256) (random : RandomData) (extension : Option Buffer)
    (type : NameType) (failing : Option NameCall) : Option Buffer :=
  if extension = none ∧ type ≠ .dirName then none
  else if failing = some .malloc then none
  else
    match randBytes random failing with
    | none => none
    | some randomData =>
        match sha256 sha randomData failing with
        | none => none
        | some tmpBuf => nameOf tmpBuf failing type extension

/-- The path of the file that `start_main_file_loop` writes for a seed: `init_file_ctx` takes
the extension of the seed and `get_file` copies it. -/
def outputPath (sha : Sha256) (random : RandomData) (seed : Buffer)
    (failing : Option NameCall) : Option Buffer :=
  match getExtension seed failing with
  | none => none
  | some extension =>
      if failing = some .copy then none
      else
        match generateName sha random (some extension) .fileName failing with
        | none => none
        | some fileName =>
            if failing = some .path then none
            -- "/tmp/%s"
            else some ([47, 116, 109, 112, 47] ++ fileName)

/-! ### Extensions -/

/-- What follows the last slash of a path. -/
def lastComponent (path : Buffer) : Buffer :=
  match strrchr path slash with
  | none => path
  | some r => r.drop 1

/-- What follows the last period. -/
def afterPeriod (component : Buffer) : Buffer :=
  match strrchr component period with
  | none => component
  | some r => r.drop 1

/-- An extension without its leading period. -/
def withoutPeriod (extension : Buffer) : Buffer :=
  if extension.head? = some period then extension.tail else extension

/-- Hexadecimal digits, a period and the extension without its leading period. -/
def NamedAfter (name extension : Buffer) : Prop :=
  ∃ digits : Buffer, digits.length = 64 ∧ (∀ c ∈ digits, IsHexDigit c) ∧
    name = digits ++ period :: withoutPeriod extension

theorem exists_lastComponent (path : Buffer) :
  ∃ dir, path = dir ++ lastComponent path
  := by
  by_cases h : slash ∈ path
  · obtain ⟨dir, base, rfl, hbase⟩ := exists_last_of_mem h
    use dir ++ [slash]
    rw [lastComponent, strrchr_append_cons dir hbase]
    simp
  · use []
    rw [lastComponent, strrchr_eq_none.mpr h]
    rfl

theorem afterPeriod_append_cons (r : Buffer) {t : Buffer} (h : period ∉ t) :
  afterPeriod (r ++ period :: t) = t
  := by
  rw [afterPeriod, strrchr_append_cons r h]
  rfl

theorem getExtension_append_cons (r : Buffer) {t : Buffer} (h : period ∉ t)
    (failing : Option NameCall) :
  getExtension (r ++ period :: t) failing =
    if failing = some .extension then none else some (t ++ [newline])
  := by
  rw [getExtension, strrchr_append_cons r h]
  rfl

/-- `get_extension` adds a newline to what follows the last period. -/
theorem getExtension_of_mem {path : Buffer} (h : period ∈ lastComponent path)
    (failing : Option NameCall) :
  getExtension path failing =
    if failing = some .extension then none
    else some (afterPeriod (lastComponent path) ++ [newline])
  := by
  obtain ⟨dir, hdir⟩ := exists_lastComponent path
  obtain ⟨stem, t, hlast, ht⟩ := exists_last_of_mem h
  have hpath : path = (dir ++ stem) ++ period :: t := by
    rw [List.append_assoc, ← hlast, ← hdir]
  rw [hlast, afterPeriod_append_cons stem ht, hpath, getExtension_append_cons _ ht]

/-- All that `get_extension` gives. -/
theorem getExtension_eq_some {path extension : Buffer} {failing : Option NameCall}
    (h : getExtension path failing = some extension) :
  ∃ r t, period ∉ t ∧ path = r ++ period :: t ∧ extension = t ++ [newline]
  := by
  by_cases hmem : period ∈ path
  · obtain ⟨r, t, rfl, ht⟩ := exists_last_of_mem hmem
    rw [getExtension_append_cons r ht] at h
    obtain ⟨-, heq⟩ := Option.ite_none_left_eq_some.mp h
    exact ⟨r, t, ht, rfl, (Option.some.inj heq).symm⟩
  · rw [getExtension, strrchr_eq_none.mpr hmem] at h
    cases h

theorem period_notMem_line {t : Buffer} (h : period ∉ t) :
  period ∉ t ++ [newline]
  := by
  rw [List.mem_append, not_or]
  exact ⟨h, by decide⟩

theorem line_ne (t : Buffer) :
  t ++ [newline] ≠ t
  := by
  intro h
  cases List.append_right_eq_self.mp h

/-! ### Names -/

section Names

variable {sha : Sha256} {random : RandomData} {extension : Buffer} {type : NameType}
  {failing : Option NameCall}

/-- The digits at the start of a name. -/
def hashDigits (sha : Sha256) (random : RandomData) : Buffer :=
  hex (sha.digest (cString random.bytes))

theorem length_hashDigits (sha : Sha256) (random : RandomData) :
  (hashDigits sha random).length = 64
  := by
  rw [hashDigits, length_hex, sha.length]

theorem randBytes_eq_some {b : Buffer} (h : randBytes random failing = some b) :
  b = random.bytes ++ [0]
  := by
  obtain ⟨-, hb⟩ := Option.ite_none_left_eq_some.mp h
  exact (Option.some.inj hb).symm

theorem sha256_eq_some {input b : Buffer} (h : sha256 sha input failing = some b) :
  b = hex (sha.digest (cString input))
  := by
  obtain ⟨-, hb⟩ := Option.ite_none_left_eq_some.mp h
  exact (Option.some.inj hb).symm

theorem generateName_eq_some {name : Buffer}
    (h : generateName sha random (some extension) type failing = some name) :
  nameOf (hashDigits sha random) failing type (some extension) = some name
  := by
  obtain ⟨-, hmalloc⟩ := Option.ite_none_left_eq_some.mp h
  obtain ⟨-, hname⟩ := Option.ite_none_left_eq_some.mp hmalloc
  split at hname
  · cases hname
  · rename_i randomData hrandom
    split at hname
    · cases hname
    · rename_i tmpBuf hhash
      rw [sha256_eq_some hhash, randBytes_eq_some hrandom, cString_append_zero] at hname
      exact hname

theorem generateName_none :
  generateName sha random (some extension) type none =
    nameOf (hashDigits sha random) none type (some extension)
  := by
  rw [hashDigits, ← cString_append_zero]
  rfl

/-- A period is added unless the extension has one anywhere. -/
def withPeriod (extension : Buffer) : Buffer :=
  if period ∈ extension then extension else period :: extension

theorem nameOf_fileName_none (hash : Buffer) :
  nameOf hash none .fileName (some extension) = some (hash ++ withPeriod extension)
  := by
  rw [withPeriod, nameOf]
  split
  · rename_i hnone
    rw [if_neg (strrchr_eq_none.mp hnone)]
    rfl
  · rename_i hsome
    have hmem : period ∈ extension := by
      by_contra h
      rw [strrchr_eq_none.mpr h] at hsome
      cases hsome
    rw [if_pos hmem]
    rfl

theorem nameOf_eq_some {hash name : Buffer}
    (h : nameOf hash failing type (some extension) = some name) :
  nameOf hash none type (some extension) = some name
  := by
  cases type with
  | dirName => exact (Option.ite_none_left_eq_some.mp h).2
  | fileName =>
      rw [nameOf] at h ⊢
      split at h
      · obtain ⟨-, hname⟩ := Option.ite_none_left_eq_some.mp h
        exact (Option.ite_none_left_eq_some.mp hname).2
      · exact (Option.ite_none_left_eq_some.mp h).2

/-- A name has the form that an extension asks for if the extension starts with a period or
has none. -/
theorem namedAfter_iff (sha : Sha256) (random : RandomData) (extension : Buffer) :
  NamedAfter (hashDigits sha random ++ withPeriod extension) extension ↔
    extension.head? = some period ∨ period ∉ extension
  := by
  have hhex : ∀ c ∈ hashDigits sha random, IsHexDigit c := fun _ => isHexDigit_of_mem_hex
  have hlength := length_hashDigits sha random
  constructor
  · rintro ⟨digits, hdigits, -, hname⟩
    by_contra hnot
    rw [not_or, not_not] at hnot
    have hsize := congrArg List.length hname
    rw [withPeriod, if_pos hnot.2, withoutPeriod, if_neg hnot.1, List.length_append,
      List.length_append, List.length_cons] at hsize
    omega
  · intro h
    refine ⟨hashDigits sha random, hlength, hhex, ?_⟩
    congr 1
    rcases h with hhead | hnone
    · obtain ⟨t, rfl⟩ := List.head?_eq_some_iff.mp hhead
      rw [withPeriod, if_pos List.mem_cons_self, withoutPeriod, if_pos hhead]
      rfl
    · have hhead : extension.head? ≠ some period := fun h => hnone (List.mem_of_head? h)
      rw [withPeriod, if_neg hnone, withoutPeriod, if_neg hhead]

/-- The path that is written has a newline more than the extension of the seed. -/
theorem outputPath_eq_some {seed path : Buffer}
    (h : outputPath sha random seed failing = some path) :
  ∃ r t, period ∉ t ∧ seed = r ++ period :: t ∧
    path = ([47, 116, 109, 112, 47] ++ hashDigits sha random) ++ period :: (t ++ [newline])
  := by
  rw [outputPath] at h
  split at h
  · cases h
  · rename_i extension hextension
    obtain ⟨r, t, ht, rfl, rfl⟩ := getExtension_eq_some hextension
    obtain ⟨-, hcopy⟩ := Option.ite_none_left_eq_some.mp h
    split at hcopy
    · cases hcopy
    · rename_i name hname
      have hnone := nameOf_eq_some (generateName_eq_some hname)
      rw [nameOf_fileName_none, withPeriod, if_neg (period_notMem_line ht)] at hnone
      cases hnone
      obtain ⟨-, hpath⟩ := Option.ite_none_left_eq_some.mp hcopy
      cases hpath
      refine ⟨r, t, ht, rfl, ?_⟩
      rw [List.append_assoc]

end Names

/-- `get_extension` never gives what follows the last period of the last component.
`generate_name` gives digits, a period and the extension exactly when the extension starts
with a period or has none.  The file that is written never has the extension of its seed. -/
theorem extension_pipeline (sha : Sha256) (random : RandomData) (failing : Option NameCall) :
  (∀ path, period ∈ lastComponent path →
    getExtension path failing ≠ some (afterPeriod (lastComponent path))) ∧
  (∀ extension,
    (∃ name, generateName sha random (some extension) .fileName none = some name ∧
      NamedAfter name extension) ↔
    (extension.head? = some period ∨ period ∉ extension)) ∧
  (∀ seed path, outputPath sha random seed failing = some path →
    getExtension path none ≠ getExtension seed none)
  := by
  refine ⟨?_, ?_, ?_⟩
  · intro path hpath heq
    rw [getExtension_of_mem hpath] at heq
    obtain ⟨-, hline⟩ := Option.ite_none_left_eq_some.mp heq
    exact line_ne _ (Option.some.inj hline)
  · intro extension
    rw [generateName_none, nameOf_fileName_none, ← namedAfter_iff sha random]
    constructor
    · rintro ⟨name, hname, h⟩
      cases hname
      exact h
    · intro h
      exact ⟨_, rfl, h⟩
  · intro seed path hpath heq
    obtain ⟨r, t, ht, rfl, rfl⟩ := outputPath_eq_some hpath
    rw [getExtension_append_cons _ (period_notMem_line ht), getExtension_append_cons _ ht] at heq
    exact line_ne _ (Option.some.inj heq)

/-- The digest of the empty string. -/
def emptyDigest : Buffer :=
  [227, 176, 196, 66, 152, 252, 28, 20, 154, 251, 244, 200, 153, 111, 185, 36, 39, 174, 65, 228,
   100, 155, 147, 76, 164, 149, 153, 27, 120, 82, 184, 85]

/-- A hash function with the digests of SHA-256 at the empty string and at the strings of the bytes
one and two. -/
def knownDigests : Sha256 where
  digest
    | [] => emptyDigest
    | [1] =>
        [75, 245, 18, 47, 52, 69, 84, 197, 59, 222, 46, 187, 140, 210, 183, 227, 209, 96, 10, 214,
         49, 195, 133, 165, 215, 204, 226, 60, 119, 133, 69, 154]
    | [2] =>
        [219, 193, 180, 201, 0, 255, 228, 141, 87, 91, 93, 165, 198, 56, 4, 1, 37, 246, 93, 176,
         254, 62, 36, 73, 75, 118, 234, 152, 100, 87, 217, 134]
    | _ => List.replicate 32 0
  length input := by
    split <;> rfl

/-- Random bytes of which all but the first two are zero. -/
def randomData (a b : UInt8) : RandomData where
  bytes := a :: b :: List.replicate (PATH_MAX - 2) 0
  length := by
    rw [List.length_cons, List.length_cons, List.length_replicate]
    rfl

/-- The seed `a.txt` and the extensions `txt` and `tar.gz`. -/
theorem extension_pipeline_txt :
  getExtension [97, 46, 116, 120, 116] none ≠ some [116, 120, 116] ∧
    (∃ name, generateName knownDigests (randomData 0 0) (some [116, 120, 116]) .fileName none
      = some name ∧ NamedAfter name [116, 120, 116]) ∧
    ∃ path, outputPath knownDigests (randomData 0 0) [97, 46, 116, 120, 116] none = some path ∧
      getExtension path none ≠ getExtension [97, 46, 116, 120, 116] none
  := by
  obtain ⟨hextension, hname, hpath⟩ := extension_pipeline knownDigests (randomData 0 0) none
  refine ⟨?_, ?_, ?_⟩
  · apply hextension [97, 46, 116, 120, 116]
    decide
  · apply (hname _).mpr
    decide
  · exact ⟨_, rfl, hpath _ _ rfl⟩

/-- The extension of `a.txt` ends with a newline, which makes that of the written file end
with two, and the period is missing from a name with the extension `tar.gz`. -/
theorem extension_lost :
  getExtension [97, 46, 116, 120, 116] none = some [116, 120, 116, 10] ∧
    afterPeriod (lastComponent [97, 46, 116, 120, 116]) = [116, 120, 116] ∧
    (outputPath knownDigests (randomData 0 0) [97, 46, 116, 120, 116] none).bind
      (getExtension · none) = some [116, 120, 116, 10, 10] ∧
    generateName knownDigests (randomData 0 0) (some [116, 97, 114, 46, 103, 122]) .fileName none
      = some (hex emptyDigest ++ [116, 97, 114, 46, 103, 122])
  := ⟨rfl, rfl, rfl, rfl⟩

/-! ### Different names -/

/-- What a name has after the digits. -/
def nameSuffix (extension : Buffer) : NameType → Buffer
  | .dirName => []
  | .fileName => withPeriod extension

theorem generateName_eq (sha : Sha256) (random : RandomData) (extension : Buffer)
    (type : NameType) :
  generateName sha random (some extension) type none =
    some (hashDigits sha random ++ nameSuffix extension type)
  := by
  rw [generateName_none]
  cases type with
  | dirName =>
      rw [nameSuffix, List.append_nil]
      rfl
  | fileName => rw [nameOf_fileName_none, nameSuffix]

/-- Two buffers of random bytes give two names that are different. -/
def DifferentNames (sha : Sha256) (random random' : RandomData) (extension : Buffer)
    (type : NameType) : Prop :=
  ∃ name name', generateName sha random (some extension) type none = some name ∧
    generateName sha random' (some extension) type none = some name' ∧ name ≠ name'

/-- Two buffers of random bytes give different names exactly when they differ before the
first zero byte, so that the strings they start with are different. -/
theorem differentNames_iff (sha : Sha256) (random random' : RandomData) (extension : Buffer)
    (type : NameType)
    (hcollision : sha.digest (cString random.bytes) = sha.digest (cString random'.bytes) →
      cString random.bytes = cString random'.bytes) :
  DifferentNames sha random random' extension type ↔
    cString random.bytes ≠ cString random'.bytes
  := by
  rw [DifferentNames, generateName_eq, generateName_eq]
  constructor
  · rintro ⟨name, name', hname, hname', hne⟩ heq
    cases hname
    cases hname'
    apply hne
    rw [hashDigits, hashDigits, heq]
  · intro hne
    refine ⟨_, _, rfl, rfl, ?_⟩
    intro heq
    apply hne
    apply hcollision
    exact hex_injective (List.append_cancel_right heq)

/-- Two buffers that differ in the first byte. -/
theorem differentNames_first_byte :
  DifferentNames knownDigests (randomData 1 0) (randomData 2 0) [] .dirName
  := by
  apply (differentNames_iff knownDigests (randomData 1 0) (randomData 2 0) [] .dirName _).mpr
  · intro h
    cases h
  · intro h
    cases h

/-- Two buffers that differ after a zero byte give the same name. -/
theorem not_differentNames_after_zero :
  (randomData 0 1).bytes ≠ (randomData 0 2).bytes ∧
    ¬ DifferentNames knownDigests (randomData 0 1) (randomData 0 2) [] .dirName
  := by
  constructor
  · intro h
    cases h
  · rintro ⟨name, name', hname, hname', hne⟩
    rw [generateName_eq] at hname hname'
    cases hname
    cases hname'
    exact hne rfl

end Utils
