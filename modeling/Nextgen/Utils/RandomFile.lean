import Nextgen.Lib.Format
import Nextgen.Utils.Copy
import Nextgen.Utils.Names

/-!
# Files with random contents

`create_random_file` asks `generate_file_name` for a name, which returns zero and leaves the name
`NULL`, so that every file is called `(null)`.  The random size is written to the low half of the
caller's variable.
-/

open Bytes

namespace Utils

/-- A random generator: `range` gives a number up to its argument, and `bytes` as many bytes as it
is asked for.  `nameBytes` is what it has for a name. -/
structure RandomGenerator where
  range : (r : UInt32) → Option { n : UInt32 // n ≤ r }
  bytes : (n : UInt32) → Option (Block n.toNat)
  nameBytes : Buffer

/-- A call: the strings, the prior value of `*size`, the generator, the directory that `root` names
among the files, and which of the other calls fail: `asprintf` for the extension and for the path,
the allocation, and those of `map_file_out`. -/
structure RandomFile where
  root : Buffer
  ext : Buffer
  size : UInt64
  random : RandomGenerator
  dir : List Buffer
  files : FileTree Buffer Buffer
  extensionOk : Bool
  pathOk : Bool
  alloc : (n : ℕ) → Option (Block n)
  failing : Option CopyCall

/-- What is returned, `*path` if it is set, `*size` and the files. -/
structure Created where
  rtrn : ℤ
  path : Option Buffer
  size : UInt64
  files : FileTree Buffer Buffer

/-! ### The functions -/

/-- `generate_file_name`: what is returned, and the name. -/
def generateFileName (_extension : Buffer) (_random : RandomGenerator) : ℤ × Option Buffer :=
  (0, none)

/-- The conversion `%s`. -/
def printString : Option Buffer → Buffer
  | none => ascii "(null)"
  | some s => s

/-- A write of 32 bits through the pointer to 64 bits. -/
def setLow (size : UInt64) (n : UInt32) : UInt64 :=
  UInt64.ofNat (size.toNat / 2 ^ 32 * 2 ^ 32 + n.toNat)

/-- The call of `map_file_out` that fails.  A size from `2 ^ 63` on is a negative offset for
`lseek`. -/
def RandomFile.outFailing (c : RandomFile) (size : UInt64) : Option CopyCall :=
  if size.toNat < 2 ^ 63 ∨ c.failing = some .openDst then c.failing else some .lseek

/-- `create_random_file` from the call of `range` on, with the name. -/
def RandomFile.fill (c : RandomFile) (name path : Buffer) : Created :=
  match c.random.range 4095 with
  | none => ⟨-1, some path, c.size, c.files⟩
  | some n =>
      let size := setLow c.size n.1 + 1
      match c.alloc (size.toNat + 1) with
      | none => ⟨-1, some path, size, c.files⟩
      | some junk =>
          match c.random.bytes size.toUInt32 with
          | none => ⟨-1, some path, size, c.files⟩
          | some bytes =>
              -- the zero byte is that of `rand_bytes`
              let junk := overwrite junk.bytes (bytes.bytes ++ [0])
              let out := mapFileOut c.files (name :: c.dir) (junk.take size.toNat)
                (c.outFailing size)
              ⟨if out.1 < 0 then -1 else 0, some path, size, out.2⟩

/-- `create_random_file`. -/
def createRandomFile (c : RandomFile) : Created :=
  match strrchr c.ext period with
  | none =>
      if !c.extensionOk then ⟨-1, none, c.size, c.files⟩
      else
        match generateFileName (period :: c.ext) c.random with
        | (rtrn, name) =>
            if rtrn < 0 then ⟨-1, none, c.size, c.files⟩
            else if !c.pathOk then ⟨-1, none, c.size, c.files⟩
            else c.fill (printString name) (c.root ++ [slash] ++ printString name)
  | some _ =>
      match generateFileName c.ext c.random with
      | (rtrn, name) =>
          if rtrn < 0 then ⟨-1, none, c.size, c.files⟩
          else if !c.pathOk then ⟨-1, none, c.size, c.files⟩
          else c.fill (printString name) (c.root ++ [slash] ++ printString name)

/-! ### What they should do -/

/-- An extension with a period in front. -/
def dotted (ext : Buffer) : Buffer :=
  if ext.head? = some period then ext else period :: ext

/-- When zero is returned, the size is one of a page, the path is in the root directory and has the
extension, and the file there has that size. -/
def Delivers (c : RandomFile) : Prop :=
  (createRandomFile c).rtrn = 0 →
    (1 ≤ (createRandomFile c).size.toNat ∧ (createRandomFile c).size.toNat ≤ 4096) ∧
    ∃ name, (createRandomFile c).path = some (c.root ++ [slash] ++ name) ∧
      name ≠ [] ∧ dotted c.ext <:+ name ∧
      ∃ contents, (createRandomFile c).files.read (name :: c.dir) = some contents ∧
        contents.length = (createRandomFile c).size.toNat

/-- Two successful calls with different random bytes for the name create different paths. -/
def Differ (c c' : RandomFile) : Prop :=
  (createRandomFile c).rtrn = 0 → (createRandomFile c').rtrn = 0 →
    c.random.nameBytes ≠ c'.random.nameBytes →
    (createRandomFile c).path ≠ (createRandomFile c').path

/-- All calls succeed, and a file can be created. -/
structure RandomFile.Completes (c : RandomFile) : Prop where
  extension : period ∈ c.ext ∨ c.extensionOk = true
  path : c.pathOk = true
  range : (c.random.range 4095).isSome
  alloc : ∀ n ∈ c.random.range 4095, (c.alloc ((setLow c.size n.1 + 1).toNat + 1)).isSome
  bytes : ∀ n ∈ c.random.range 4095, (c.random.bytes (setLow c.size n.1 + 1).toUInt32).isSome
  size : c.size.toNat < 2 ^ 63
  create : (c.files.create (ascii "(null)" :: c.dir) []).isSome
  out : ∀ call ∈ [CopyCall.openDst, .lseek, .write, .mmapDst], c.failing ≠ some call

/-! ### The size -/

/-- The high half of the size stays, and the low half is the random number and one. -/
theorem toNat_setLow_add_one (size : UInt64) {n : UInt32} (hn : n ≤ 4095) :
  (setLow size n + 1).toNat = size.toNat / 2 ^ 32 * 2 ^ 32 + n.toNat + 1
  := by
  have hsize := size.toNat_lt
  have hn' : n.toNat ≤ 4095 := UInt32.le_iff_toNat_le.mp hn
  rw [setLow, UInt64.toNat_add, UInt64.toNat_ofNat']
  show ((_ % 2 ^ 64) + 1) % 2 ^ 64 = _
  omega

/-! ### The name -/

/-- Both branches for the extension come to the same name. -/
theorem createRandomFile_eq (c : RandomFile) :
  createRandomFile c =
    if (period ∈ c.ext ∨ c.extensionOk = true) ∧ c.pathOk = true then
      c.fill (ascii "(null)") (c.root ++ [slash] ++ ascii "(null)")
    else ⟨-1, none, c.size, c.files⟩
  := by
  rw [createRandomFile]
  cases hperiod : strrchr c.ext period with
  | none =>
      have hnot := strrchr_eq_none.mp hperiod
      cases hext : c.extensionOk <;> cases hpath : c.pathOk <;>
        simp [hnot, generateFileName, printString]
  | some r =>
      have hmem : period ∈ c.ext := by
        by_contra hnot
        cases (strrchr_eq_none.mpr hnot).symm.trans hperiod
      cases hpath : c.pathOk <;> simp [hmem, generateFileName, printString]

/-- The name `(null)` does not have the extension. -/
theorem not_dotted_suffix (ext : Buffer) :
  ¬ dotted ext <:+ ascii "(null)"
  := by
  intro hsuffix
  have hmem : period ∈ dotted ext := by
    rw [dotted]
    split
    · rename_i hhead
      exact List.mem_of_head? hhead
    · exact List.mem_cons_self
  have hnot : period ∉ ascii "(null)" := by decide
  exact hnot (hsuffix.subset hmem)

/-! ### The whole call -/

theorem mapFileOut_of_create {t opened : FileTree Buffer Buffer} {path : List Buffer} {buf : Buffer}
    {failing : Option CopyCall} (hcreate : t.create path [] = some opened) (hbuf : buf ≠ [])
    (hout : ∀ call ∈ [CopyCall.openDst, .lseek, .write, .mmapDst], failing ≠ some call) :
  (mapFileOut t path buf failing).1 = 0 ∧ (mapFileOut t path buf failing).2.read path = some buf
  := by
  have hpos := List.length_pos_iff.mpr hbuf
  have hseek : ¬ (buf.length : ℤ) - 1 < 0 := by omega
  have hread : ∀ b, (opened.store path b).read path = some b := by
    intro b
    apply FileTree.read_store_self
    rw [(FileTree.create_eq_some hcreate).1]
    rfl
  simp only [List.forall_mem_cons, List.not_mem_nil, false_implies, implies_true, and_true] at hout
  obtain ⟨hopen, hlseek, hwrite, hmmap⟩ := hout
  simp only [mapFileOut, hcreate, hopen, hlseek, hwrite, hmmap, hseek, or_self, if_false]
  refine ⟨trivial, ?_⟩
  apply FileTree.read_store_self
  rw [hread]
  rfl

/-- `map_file_out` returns zero only if the file can be created and none of its calls fails. -/
theorem create_of_mapFileOut {t : FileTree Buffer Buffer} {path : List Buffer} {buf : Buffer}
    {failing : Option CopyCall} (h : ¬ (mapFileOut t path buf failing).1 < 0) :
  (t.create path []).isSome ∧
    ∀ call ∈ [CopyCall.openDst, .lseek, .write, .mmapDst], failing ≠ some call
  := by
  have hminus : (-1 : ℤ) < 0 := by decide
  simp only [List.forall_mem_cons, List.not_mem_nil, false_implies, implies_true, and_true]
  rw [mapFileOut] at h
  cases hcreate : t.create path [] with
  | none => simp [hcreate] at h
  | some opened =>
      simp only [hcreate] at h
      refine ⟨rfl, ?_, ?_, ?_, ?_⟩
      · rintro rfl
        exact h hminus
      · rintro rfl
        exact h hminus
      · rintro rfl
        rw [if_neg (by decide)] at h
        split at h
        · exact h hminus
        · exact h hminus
      · rintro rfl
        rw [if_neg (by decide)] at h
        split at h
        · exact h hminus
        · exact h hminus

section Calls

variable {c : RandomFile}

theorem outFailing_iff {n : UInt32} (hn : n ≤ 4095) :
  (∀ call ∈ [CopyCall.openDst, .lseek, .write, .mmapDst],
      c.outFailing (setLow c.size n + 1) ≠ some call) ↔
    c.size.toNat < 2 ^ 63 ∧
      ∀ call ∈ [CopyCall.openDst, .lseek, .write, .mmapDst], c.failing ≠ some call
  := by
  have hn' : n.toNat ≤ 4095 := UInt32.le_iff_toNat_le.mp hn
  have hsize : (setLow c.size n + 1).toNat < 2 ^ 63 ↔ c.size.toNat < 2 ^ 63 := by
    rw [toNat_setLow_add_one c.size hn]
    omega
  simp only [RandomFile.outFailing, hsize]
  by_cases hlt : c.size.toNat < 2 ^ 63
  · rw [if_pos (.inl hlt)]
    exact (and_iff_right hlt).symm
  · apply iff_of_false _ fun h => hlt h.1
    by_cases hopen : c.failing = some .openDst
    · rw [if_pos (.inr hopen), hopen]
      simp
    · rw [if_neg (not_or_intro hlt hopen)]
      simp

theorem length_take_overwrite {n : ℕ} (junk : Block (n + 1)) (bytes : Buffer) :
  ((overwrite junk.bytes bytes).take n).length = n
  := by
  rw [List.length_take, length_overwrite, junk.length_eq]
  exact Nat.min_eq_left (Nat.le_succ n)

/-- When all calls succeed the file `(null)` is made, with as many bytes as the size says. -/
theorem createRandomFile_of_completes (h : c.Completes) :
  ∃ n : UInt32, n ≤ 4095 ∧ (createRandomFile c).rtrn = 0 ∧
    (createRandomFile c).path = some (c.root ++ [slash] ++ ascii "(null)") ∧
    (createRandomFile c).size = setLow c.size n + 1 ∧
    ∃ contents, (createRandomFile c).files.read (ascii "(null)" :: c.dir) = some contents ∧
      contents.length = (createRandomFile c).size.toNat
  := by
  obtain ⟨⟨n, hn⟩, hrange⟩ := Option.isSome_iff_exists.mp h.range
  obtain ⟨junk, hjunk⟩ := Option.isSome_iff_exists.mp (h.alloc ⟨n, hn⟩ hrange)
  obtain ⟨bytes, hbytes⟩ := Option.isSome_iff_exists.mp (h.bytes ⟨n, hn⟩ hrange)
  obtain ⟨opened, hcreate⟩ := Option.isSome_iff_exists.mp h.create
  have hlength := length_take_overwrite junk (bytes.bytes ++ [0])
  have hne : (overwrite junk.bytes (bytes.bytes ++ [0])).take
      (setLow c.size n + 1).toNat ≠ [] := by
    rw [← List.length_pos_iff, hlength, toNat_setLow_add_one c.size hn]
    omega
  have hcalls := (outFailing_iff hn).mpr ⟨h.size, h.out⟩
  obtain ⟨hzero, hread⟩ := mapFileOut_of_create hcreate hne hcalls
  rw [createRandomFile_eq, if_pos ⟨h.extension, h.path⟩, RandomFile.fill, hrange]
  simp only [hjunk, hbytes]
  refine ⟨n, hn, ?_, trivial, rfl, _, hread, hlength⟩
  rw [hzero]
  rfl

/-- Zero is returned only if all calls succeed. -/
theorem completes_of_rtrn (h : (createRandomFile c).rtrn = 0) :
  c.Completes
  := by
  rw [createRandomFile_eq] at h
  split at h
  · rename_i hok
    rw [RandomFile.fill] at h
    cases hrange : c.random.range 4095 with
    | none => simp [hrange] at h
    | some n =>
        simp only [hrange] at h
        cases hjunk : c.alloc ((setLow c.size n.1 + 1).toNat + 1) with
        | none => simp [hjunk] at h
        | some junk =>
            simp only [hjunk] at h
            cases hbytes : c.random.bytes (setLow c.size n.1 + 1).toUInt32 with
            | none => simp [hbytes] at h
            | some bytes =>
                simp only [hbytes] at h
                split at h
                · cases h
                · rename_i hout
                  obtain ⟨hcreate, hcalls⟩ := create_of_mapFileOut hout
                  obtain ⟨hsize, hcalls⟩ := (outFailing_iff n.2).mp hcalls
                  refine ⟨hok.1, hok.2, by rw [hrange]; rfl, ?_, ?_, hsize, hcreate, hcalls⟩
                  · intro n' hn'
                    cases hrange.symm.trans hn'
                    rw [hjunk]
                    rfl
                  · intro n' hn'
                    cases hrange.symm.trans hn'
                    rw [hbytes]
                    rfl
  · cases h

theorem delivers_iff :
  Delivers c ↔ ¬ c.Completes
  := by
  constructor
  · intro hdelivers hcompletes
    obtain ⟨n, -, hrtrn, hpath, -⟩ := createRandomFile_of_completes hcompletes
    obtain ⟨-, name, hname, -, hsuffix, -⟩ := hdelivers hrtrn
    rw [hpath, Option.some_inj, List.append_cancel_left_eq] at hname
    rw [← hname] at hsuffix
    exact not_dotted_suffix c.ext hsuffix
  · intro hnot hrtrn
    exact absurd (completes_of_rtrn hrtrn) hnot

end Calls

/-- Two calls deliver what they report if and only if some call fails in both of them. -/
theorem createRandomFile_delivers_iff (c c' : RandomFile) :
  (Delivers c ∧ Delivers c' ∧ Differ c c') ↔ ¬ c.Completes ∧ ¬ c'.Completes
  := by
  rw [delivers_iff, delivers_iff]
  constructor
  · rintro ⟨hnot, hnot', -⟩
    exact ⟨hnot, hnot'⟩
  · rintro ⟨hnot, hnot'⟩
    refine ⟨hnot, hnot', ?_⟩
    intro hrtrn
    exact absurd (completes_of_rtrn hrtrn) hnot

/-- What successful calls do reach: the file has the size that is reported, which is one of a page
if and only if the high half of the variable was zero, and the paths are those of the roots. -/
theorem createRandomFile_reaches {c c' : RandomFile} (h : c.Completes) (h' : c'.Completes) :
  (∃ contents, (createRandomFile c).files.read (ascii "(null)" :: c.dir) = some contents ∧
    contents.length = (createRandomFile c).size.toNat) ∧
  ((createRandomFile c).size.toNat ≤ 4096 ↔ c.size.toNat < 2 ^ 32) ∧
  ((createRandomFile c).path ≠ (createRandomFile c').path ↔ c.root ≠ c'.root)
  := by
  obtain ⟨n, hn, -, hpath, hsize, hcontents⟩ := createRandomFile_of_completes h
  obtain ⟨-, -, -, hpath', -⟩ := createRandomFile_of_completes h'
  have hn' : n.toNat ≤ 4095 := UInt32.le_iff_toNat_le.mp hn
  refine ⟨hcontents, ?_, ?_⟩
  · rw [hsize, toNat_setLow_add_one c.size hn]
    omega
  · rw [hpath, hpath', ne_eq, Option.some_inj, List.append_cancel_right_eq,
      List.append_cancel_right_eq]

/-- The directory `/tmp` with nothing in it. -/
def emptyTmp : FileTree Buffer Buffer where
  node p := if p = [] ∨ p = [ascii "tmp"] then some .dir else none
  parent := by
    intro b p h
    have hp : b :: p = [ascii "tmp"] := by
      by_contra hne
      rw [if_neg (by simp [hne])] at h
      exact h rfl
    cases hp
    rfl

/-- A call in which nothing fails. -/
def plainFile (nameBytes : Buffer) : RandomFile where
  root := ascii "/tmp"
  ext := ascii ".txt"
  size := 0
  random := ⟨fun _ => some ⟨0, UInt32.zero_le⟩, fun n => some (.zero n.toNat), nameBytes⟩
  dir := [ascii "tmp"]
  files := emptyTmp
  extensionOk := true
  pathOk := true
  alloc n := some (.zero n)
  failing := none

theorem plainFile_completes (nameBytes : Buffer) :
  (plainFile nameBytes).Completes
  := by
  have hsize : (0 : UInt64).toNat < 2 ^ 63 := by decide
  refine ⟨.inr rfl, rfl, rfl, fun _ _ => rfl, fun _ _ => rfl, hsize, ?_, by simp [plainFile]⟩
  have hdir : emptyTmp.isDir [ascii "tmp"] ∧
      ¬ emptyTmp.isDir (ascii "(null)" :: [ascii "tmp"]) := by
    decide
  show (emptyTmp.create (ascii "(null)" :: [ascii "tmp"]) []).isSome
  rw [FileTree.create, dif_pos hdir]
  rfl

/-- The file is called `(null)` without the extension, and so is that of another call. -/
theorem not_delivers_plainFile :
  ¬ Delivers (plainFile [1]) ∧ ¬ Differ (plainFile [1]) (plainFile [2])
  := by
  constructor
  · rw [delivers_iff]
    exact not_not_intro (plainFile_completes [1])
  · obtain ⟨-, -, hrtrn, hpath, -⟩ := createRandomFile_of_completes (plainFile_completes [1])
    obtain ⟨-, -, hrtrn', hpath', -⟩ := createRandomFile_of_completes (plainFile_completes [2])
    intro hdiffer
    apply hdiffer hrtrn hrtrn' (by decide)
    rw [hpath, hpath']
    rfl

end Utils
