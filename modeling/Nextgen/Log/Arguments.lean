import Mathlib.Algebra.Ring.Nat
import Nextgen.Lib.Format
import Nextgen.Syscall.Dispatch

/-!
# The line that logs the arguments of a system call

`log_arguments` writes one argument after the other to a buffer of 1024 bytes, and appends it to
the line in a buffer of 4096 bytes.  Neither the conversion nor `strncat`, whose bound is the length
of what is appended, looks at the size of the buffer.
-/

open Bytes Syscall

namespace Log

/-- The field `name` of the contexts in `arg_types.c`.  There is none for `PTRACE_REQUEST`. -/
def name : ArgType → String
  | .fileDesc => "FILE_DESC"
  | .voidBuf => "VOID_BUF"
  | .size => "SIZE"
  | .filePath => "FILE_PATH"
  | .openFlag => "OPEN_FLAG"
  | .mode => "MODE"
  | .statFs => "STAT_FS"
  | .statFlag => "STAT_FLAG"
  | .int => "INT"
  | .rusage => "RUSAGE"
  | .pid => "PID"
  | .waitOption => "WAIT_OPTION"
  | .socket => "SOCKET"
  | .whence => "WHENCE"
  | .offset => "OFFSET"
  | .mountType => "MOUNT_TYPE"
  | .dirPath => "DIR_PATH"
  | .mountFlag => "MOUNT_FLAG"
  | .unmountFlag => "UNMOUNT_FLAG"
  | .recvFlag => "RECV_FLAG"
  | .request => "REQUEST"
  | .mountPath => "MOUNT_PATH"
  | .dev => "DEV"
  | .ptraceRequest => ""
  | .message => "MESSAGE"
  | .sendFlag => "SEND_FLAG"
  | .sockaddr => "SOCKADDR"
  | .socklen => "SOCKLEN"
  | .amode => "AMODE"
  | .chflags => "CHFLAGS"

/-- An argument: its context, the pointer to it, and the memory at that pointer, which holds a word
and has an end if it is read as a string. -/
structure Argument where
  context : ArgContext
  listed : getArgContext context.type = some context
  pointer : UInt64
  memory : Buffer
  word : 8 ≤ memory.length
  terminated : context.logType = .path → 0 ∈ memory

/-- What the conversions `%s`, `%p` and `%llu` give for an argument. -/
def Argument.value (a : Argument) : Buffer :=
  match a.context.logType with
  | .path => cString a.memory
  | .pointer => ascii "0x" ++ digits 16 a.pointer.toNat
  | .number => digits 10 (ofLe (a.memory.take 8))

/-- What is written to `arg_value`. -/
def Argument.text (a : Argument) : Buffer :=
  ascii " " ++ ascii (name a.context.type) ++ ascii "=" ++ a.value

/-! ### The function -/

/-- The loop of `log_arguments`. -/
def logLoop : List Argument → Block 1024 → Block 4096 → Option (Block 4096)
  | [], _, syscallLogBuf => some syscallLogBuf
  | a :: args, argValue, syscallLogBuf => do
      let argValue ← argValue.sprintf a.text
      let syscallLogBuf ← syscallLogBuf.strncat argValue.bytes (cString argValue.bytes).length
      logLoop args argValue syscallLogBuf

/-- `log_arguments`, given the memory of its buffers if they can be allocated: what is returned and
printed, unless something is written past the end of a buffer. -/
def logArguments (syscallName : CString) (args : List Argument) (argValue : Option (Block 1024))
    (syscallLogBuf : Option (Block 4096)) : Option (ℤ × Option Buffer) :=
  match argValue, syscallLogBuf with
  | none, _ => some (-1, none)
  | some _, none => some (-1, none)
  | some argValue, some syscallLogBuf => do
      let syscallLogBuf ← syscallLogBuf.sprintf (syscallName.bytes ++ ascii ":")
      let syscallLogBuf ← logLoop args argValue syscallLogBuf
      return (0, some (cString syscallLogBuf.bytes))

/-! ### What it should do -/

/-- The name of the system call and a colon, and for each argument a space, the name of its type,
an equals sign and its value. -/
def line (syscallName : CString) (args : List Argument) : Buffer :=
  syscallName.bytes ++ ascii ":" ++
    args.flatMap fun a => ascii " " ++ ascii (name a.context.type) ++ ascii "=" ++ a.value

/-- Nothing is written past the end of a buffer, and the whole line is printed when zero is
returned. -/
def LogsLine (syscallName : CString) (args : List Argument) (logged : Option (ℤ × Option Buffer)) :
    Prop :=
  ∃ rtrn printed, logged = some (rtrn, printed) ∧
    (rtrn = 0 → printed = some (line syscallName args))

theorem length_line (syscallName : CString) (args : List Argument) :
  (line syscallName args).length =
    syscallName.bytes.length + 1 + (args.map fun a => a.text.length).sum
  := by
  rw [line, List.length_append, List.length_append, List.length_flatMap]
  rfl

/-! ### The bytes of an argument -/

theorem nonzero_of_mem_name (type : ArgType) :
  ∀ b ∈ ascii (name type), b ≠ 0
  := by
  apply nonzero_of_mem_ascii
  cases type <;> decide +kernel

theorem nonzero_of_mem_text (a : Argument) :
  ∀ b ∈ a.text, b ≠ 0
  := by
  have hvalue : ∀ b ∈ a.value, b ≠ 0 := by
    rw [Argument.value]
    split
    · exact nonzero_of_mem_cString
    · intro b hb
      rcases List.mem_append.mp hb with hb | hb
      · exact nonzero_of_mem_ascii (by decide) b hb
      · exact nonzero_of_mem_digits (by decide) (by decide) b hb
    · exact nonzero_of_mem_digits (by decide) (by decide)
  intro b hb
  simp only [Argument.text, List.mem_append] at hb
  rcases hb with ((hb | hb) | hb) | hb
  · exact nonzero_of_mem_ascii (by decide) b hb
  · exact nonzero_of_mem_name _ b hb
  · exact nonzero_of_mem_ascii (by decide) b hb
  · exact hvalue b hb

/-! ### The loop -/

/-- The loop appends all arguments to the line if each of them fits in `arg_value` and all of them
fit in the rest of the line, and writes past the end of a buffer otherwise. -/
theorem logLoop_spec (args : List Argument) (argValue : Block 1024) (syscallLogBuf : Block 4096)
    (hlength : (cString syscallLogBuf.bytes).length < 4096) :
  (∃ printed, logLoop args argValue syscallLogBuf = some printed ∧
    cString printed.bytes = cString syscallLogBuf.bytes ++ args.flatMap Argument.text ∧
    (∀ a ∈ args, a.text.length < 1024) ∧
    (cString syscallLogBuf.bytes ++ args.flatMap Argument.text).length < 4096) ∨
  logLoop args argValue syscallLogBuf = none ∧
    ¬ ((∀ a ∈ args, a.text.length < 1024) ∧
      (cString syscallLogBuf.bytes ++ args.flatMap Argument.text).length < 4096)
  := by
  induction args generalizing argValue syscallLogBuf with
  | nil =>
      left
      rw [List.flatMap_nil, List.append_nil]
      exact ⟨syscallLogBuf, rfl, rfl, List.forall_mem_nil _, hlength⟩
  | cons a args ih =>
      rw [logLoop, List.flatMap_cons, List.forall_mem_cons]
      cases hvalue : argValue.sprintf a.text with
      | none =>
          right
          refine ⟨rfl, ?_⟩
          rintro ⟨⟨hlt, -⟩, -⟩
          exact Nat.not_lt.mpr (Block.sprintf_eq_none_iff.mp hvalue) hlt
      | some argValue' =>
          have hfits := Block.length_lt_of_sprintf hvalue
          have htext := Block.cString_of_sprintf (nonzero_of_mem_text a) hvalue
          rw [Option.bind_eq_bind, Option.bind_some, Block.strncat, List.take_length, htext]
          have hnonzero : ∀ b ∈ cString syscallLogBuf.bytes ++ a.text, b ≠ 0 := by
            intro b hb
            rcases List.mem_append.mp hb with hb | hb
            · exact nonzero_of_mem_cString b hb
            · exact nonzero_of_mem_text a b hb
          cases happend : syscallLogBuf.sprintf (cString syscallLogBuf.bytes ++ a.text) with
          | none =>
              right
              refine ⟨rfl, ?_⟩
              rintro ⟨-, hlt⟩
              have hge := Block.sprintf_eq_none_iff.mp happend
              rw [← List.append_assoc, List.length_append] at hlt
              omega
          | some syscallLogBuf' =>
              have hline := Block.cString_of_sprintf hnonzero happend
              have hrest := ih argValue' syscallLogBuf' <| by
                rw [hline]
                exact Block.length_lt_of_sprintf happend
              rw [hline, List.append_assoc] at hrest
              simpa only [Option.bind_eq_bind, Option.bind_some, hfits, true_and] using hrest

/-- Each argument is shorter than `arg_value`, and the whole line is shorter than
`syscall_log_buf`. -/
def Fits (syscallName : CString) (args : List Argument) : Prop :=
  (∀ a ∈ args, a.text.length < 1024) ∧ (line syscallName args).length < 4096

/-- With both buffers the line is printed if it fits, and something is written past the end of one
of them otherwise. -/
theorem logArguments_spec (syscallName : CString) (args : List Argument) (argValue : Block 1024)
    (syscallLogBuf : Block 4096) :
  (logArguments syscallName args (some argValue) (some syscallLogBuf) =
    some (0, some (line syscallName args)) ∧ Fits syscallName args) ∨
  logArguments syscallName args (some argValue) (some syscallLogBuf) = none ∧
    ¬ Fits syscallName args
  := by
  have hhead : ∀ b ∈ syscallName.bytes ++ ascii ":", b ≠ 0 := by
    intro b hb
    rcases List.mem_append.mp hb with hb | hb
    · exact syscallName.nonzero b hb
    · exact nonzero_of_mem_ascii (by decide) b hb
  rw [logArguments]
  cases hname : syscallLogBuf.sprintf (syscallName.bytes ++ ascii ":") with
  | none =>
      right
      refine ⟨rfl, ?_⟩
      rintro ⟨-, hlt⟩
      have hge := Block.sprintf_eq_none_iff.mp hname
      rw [line, List.length_append] at hlt
      omega
  | some syscallLogBuf' =>
      have hstart := Block.cString_of_sprintf hhead hname
      have hloop := logLoop_spec args argValue syscallLogBuf' <| by
        rw [hstart]
        exact Block.length_lt_of_sprintf hname
      rw [hstart] at hloop
      rw [Option.bind_eq_bind, Option.bind_some]
      rcases hloop with ⟨printed, hrun, hprinted, hfits⟩ | ⟨hrun, hnot⟩
      · left
        rw [hrun]
        exact ⟨congrArg (fun bytes => some ((0 : ℤ), some bytes)) hprinted, hfits⟩
      · right
        rw [hrun]
        exact ⟨rfl, hnot⟩

theorem not_logsLine_of_not_fits {syscallName : CString} {args : List Argument}
    (hnot : ¬ Fits syscallName args) (argValue : Block 1024) (syscallLogBuf : Block 4096) :
  ¬ LogsLine syscallName args (logArguments syscallName args (some argValue) (some syscallLogBuf))
  := by
  rintro ⟨rtrn, printed, hlogged, -⟩
  rcases logArguments_spec syscallName args argValue syscallLogBuf with ⟨-, hfits⟩ | ⟨hnone, -⟩
  · exact hnot hfits
  · cases hnone.symm.trans hlogged

/-- The line is logged if and only if a buffer cannot be allocated, or each argument is shorter than
1024 bytes with its name and the whole line is shorter than 4096 bytes. -/
theorem logsLine_logArguments_iff (syscallName : CString) (args : List Argument)
    (argValue : Option (Block 1024)) (syscallLogBuf : Option (Block 4096)) :
  LogsLine syscallName args (logArguments syscallName args argValue syscallLogBuf) ↔
    argValue = none ∨ syscallLogBuf = none ∨
      ((∀ a ∈ args, a.text.length < 1024) ∧ (line syscallName args).length < 4096)
  := by
  have hfailed : LogsLine syscallName args (some (-1, none)) := ⟨-1, none, rfl, nofun⟩
  cases argValue with
  | none => exact iff_of_true hfailed (.inl rfl)
  | some argValue =>
      cases syscallLogBuf with
      | none => exact iff_of_true hfailed (.inr (.inl rfl))
      | some syscallLogBuf =>
          simp only [reduceCtorEq, false_or]
          rcases logArguments_spec syscallName args argValue syscallLogBuf with
            ⟨hlogged, hfits⟩ | ⟨-, hnot⟩
          · exact iff_of_true ⟨0, _, hlogged, fun _ => rfl⟩ hfits
          · exact iff_of_false (not_logsLine_of_not_fits hnot argValue syscallLogBuf) hnot

/-! ### Short paths -/

theorem length_name_le (type : ArgType) :
  (ascii (name type)).length ≤ 12
  := by
  cases type <;> decide

/-- A number has at most twenty digits and a pointer at most sixteen, so only a path can be long. -/
theorem length_text_le (a : Argument) {n : ℕ} (hn : 20 ≤ n)
    (hpath : a.context.logType = .path → (cString a.memory).length ≤ n) :
  a.text.length ≤ n + 14
  := by
  have hvalue : a.value.length ≤ n := by
    rw [Argument.value]
    split
    · rename_i htype
      exact hpath htype
    · have hdigits : (digits 16 a.pointer.toNat).length ≤ 16 :=
        length_digits_le (by decide) (by decide) a.pointer.toNat_lt
      rw [List.length_append]
      show 2 + _ ≤ n
      omega
    · have hword := ofLe_lt (a.memory.take 8)
      rw [List.length_take, Nat.min_eq_left a.word] at hword
      have hdigits : (digits 10 (ofLe (a.memory.take 8))).length ≤ 20 := by
        apply length_digits_le (by decide) (by decide)
        exact Nat.lt_trans hword (by decide)
      exact Nat.le_trans hdigits hn
  have hname := length_name_le a.context.type
  simp only [Argument.text, List.length_append]
  show 1 + _ + 1 + _ ≤ _
  omega

theorem sum_length_text_le {args : List Argument} {n : ℕ} (h : ∀ a ∈ args, a.text.length ≤ n) :
  (args.map fun a => a.text.length).sum ≤ args.length * n
  := by
  induction args with
  | nil => exact Nat.zero_le _
  | cons a args ih =>
      obtain ⟨ha, hargs⟩ := List.forall_mem_cons.mp h
      rw [List.map_cons, List.sum_cons, List.length_cons, Nat.succ_mul, Nat.add_comm]
      exact Nat.add_le_add (ih hargs) ha

/-- Seven arguments fit, with a name as the tables have it, if no path is longer than 566 bytes. -/
theorem fits_of_short_paths {syscallName : CString} {args : List Argument}
    (hname : syscallName.bytes.length ≤ 30) (hargs : args.length ≤ 7)
    (hpaths : ∀ a ∈ args, a.context.logType = .path → (cString a.memory).length ≤ 566) :
  Fits syscallName args
  := by
  have htext : ∀ a ∈ args, a.text.length ≤ 580 :=
    fun a ha => length_text_le a (by decide) (hpaths a ha)
  constructor
  · intro a ha
    exact Nat.lt_of_le_of_lt (htext a ha) (by decide)
  · have hsum := sum_length_text_le htext
    rw [length_line]
    omega

/-- The name `read`. -/
def read : CString := ⟨ascii "read", nonzero_of_mem_ascii (by decide)⟩

/-- A file path of `n` times the letter `a`. -/
def pathArgument (n : ℕ) (h : 7 ≤ n) : Argument where
  context := ⟨.filePath, .path⟩
  listed := rfl
  pointer := 0
  memory := List.replicate n 97 ++ [0]
  word := by
    rw [List.length_append, List.length_replicate, List.length_singleton]
    omega
  terminated := by simp

theorem length_text_pathArgument (n : ℕ) (h : 7 ≤ n) :
  (pathArgument n h).text.length = n + 11
  := by
  have hpath : cString (List.replicate n 97 ++ [0]) = List.replicate n 97 := by
    apply cString_append_cons_zero
    intro b hb
    rw [List.eq_of_mem_replicate hb]
    decide
  show (ascii " " ++ ascii "FILE_PATH" ++ ascii "=" ++ cString (List.replicate n 97 ++ [0])).length
    = n + 11
  rw [hpath, List.length_append, List.length_replicate, Nat.add_comm]
  rfl

/-- One path of 1013 bytes does not fit in `arg_value`, and five paths of 1000 bytes do not fit in
`syscall_log_buf`. -/
theorem not_logsLine_long_paths :
  let paths₁ := [pathArgument 1013 (by decide)]
  let paths₅ := List.replicate 5 (pathArgument 1000 (by decide))
  ¬ LogsLine read paths₁ (logArguments read paths₁ (some (.zero 1024)) (some (.zero 4096))) ∧
  ¬ LogsLine read paths₅ (logArguments read paths₅ (some (.zero 1024)) (some (.zero 4096)))
  := by
  intro paths₁ paths₅
  have hnot₁ : ¬ Fits read paths₁ := by
    rintro ⟨hfits, -⟩
    have hlt := hfits (pathArgument 1013 (by decide)) List.mem_cons_self
    rw [length_text_pathArgument] at hlt
    omega
  have hnot₅ : ¬ Fits read paths₅ := by
    rintro ⟨-, hlt⟩
    rw [length_line] at hlt
    simp [paths₅, length_text_pathArgument] at hlt
    omega
  exact ⟨not_logsLine_of_not_fits hnot₁ _ _, not_logsLine_of_not_fits hnot₅ _ _⟩

end Log
