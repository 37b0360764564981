import Mathlib.Data.List.TakeWhile

/-!
# Options on a command line

`getopt_long`: the options that an argument vector gives, for short options described by a string
and a table of long options.  All of them have a required argument or none.
-/

namespace Getopt

/-- An entry of the table of long options, with whether it takes an argument and the value that
stands for it. -/
structure LongOption where
  name : List Char
  hasArg : Bool
  val : Char
  deriving DecidableEq

/-- What is accepted.  Unless `permute` is set, the options end at the first operand. -/
structure Options where
  optstring : List Char
  longopts : List LongOption
  permute : Bool

/-- An option of either kind. -/
inductive Opt where
  | short (c : Char)
  | long (o : LongOption)
  deriving DecidableEq

/-- What one call gives: an option with its argument, or a question mark. -/
inductive Occurrence where
  | given (o : Opt) (optarg : Option (List Char))
  | unknown
  deriving DecidableEq

/-- The value of an option. -/
def Opt.val : Opt → Char
  | .short c => c
  | .long o => o.val

/-- What is returned. -/
def Occurrence.val : Occurrence → Char
  | .given o _ => o.val
  | .unknown => '?'

/-- The option, if it is known. -/
def Occurrence.opt : Occurrence → Option Opt
  | .given o _ => some o
  | .unknown => none

/-- The variable `optarg`. -/
def Occurrence.optarg : Occurrence → Option (List Char)
  | .given _ optarg => optarg
  | .unknown => none

/-- One argument: the end of the options, an operand, or options of which the last may wait for its
argument. -/
inductive Element where
  | stop
  | operand
  | options (occurrences : List Occurrence) (pending : Option Opt)

namespace Options

variable (t : Options)

/-- Whether a letter takes an argument, if it is a short option: it does if a colon follows it. -/
def short (c : Char) : Option Bool :=
  if c = ':' then none
  else
    match t.optstring.dropWhile (· ≠ c) with
    | [] => none
    | _ :: rest => some (rest.head? = some ':')

/-- The long option for a name: the one with that name, or the one that the name abbreviates.  An
abbreviation of options that differ is ambiguous. -/
def lookup (name : List Char) : Option LongOption :=
  match t.longopts.find? (·.name = name) with
  | some o => some o
  | none =>
      match t.longopts.filter (name <+: ·.name) with
      | [] => none
      | o :: os => if os.all fun p => p.hasArg = o.hasArg ∧ p.val = o.val then some o else none

/-- The short options of an argument, after the dash. -/
def cluster : List Char → List Occurrence × Option Opt
  | [] => ([], none)
  | c :: cs =>
      match t.short c with
      | none => (.unknown :: (cluster cs).1, (cluster cs).2)
      | some false => (.given (.short c) none :: (cluster cs).1, (cluster cs).2)
      | some true =>
          if cs = [] then ([], some (.short c)) else ([.given (.short c) (some cs)], none)

/-- The long option of an argument, after the two dashes. -/
def longOption (s : List Char) : List Occurrence × Option Opt :=
  match t.lookup (s.takeWhile (· ≠ '=')) with
  | none => ([.unknown], none)
  | some o =>
      match o.hasArg, s.dropWhile (· ≠ '=') with
      | false, [] => ([.given (.long o) none], none)
      | false, _ :: _ => ([.unknown], none)
      | true, [] => ([], some (.long o))
      | true, _ :: value => ([.given (.long o) (some value)], none)

/-- What one argument is. -/
def element (s : List Char) : Element :=
  if s = ['-', '-'] then .stop
  else if s.take 2 = ['-', '-'] then
    .options (t.longOption (s.drop 2)).1 (t.longOption (s.drop 2)).2
  else if s.head? = some '-' ∧ 1 < s.length then .options (t.cluster s.tail).1 (t.cluster s.tail).2
  else .operand

/-- What the calls of `getopt_long` give for the arguments, until it returns minus one. -/
def getoptLong : List (List Char) → List Occurrence
  | [] => []
  | s :: argv =>
      match t.element s with
      | .stop => []
      | .operand => if t.permute then getoptLong argv else []
      | .options occurrences none => occurrences ++ getoptLong argv
      | .options occurrences (some o) =>
          match argv with
          | [] => occurrences ++ [.unknown]
          | value :: argv => occurrences ++ .given o (some value) :: getoptLong argv

/-- An option that is accepted, with an argument or without. -/
def Has : Opt → Bool → Prop
  | .short c, hasArg => t.short c = some hasArg
  | .long o, hasArg => o ∈ t.longopts ∧ o.hasArg = hasArg

/-- A given option is one that is accepted, and its argument is there if it takes one. -/
def Accepts : Occurrence → Prop
  | .given o optarg => t.Has o optarg.isSome
  | .unknown => True

variable {t}

theorem mem_of_short {c : Char} {hasArg : Bool} (h : t.short c = some hasArg) :
  c ∈ t.optstring ∧ c ≠ ':'
  := by
  rw [short] at h
  split at h
  · cases h
  · rename_i hcolon
    refine ⟨?_, hcolon⟩
    by_contra hnot
    have hdrop : t.optstring.dropWhile (· ≠ c) = [] := by
      rw [List.dropWhile_eq_nil_iff]
      intro b hb
      rw [decide_eq_true_eq]
      rintro rfl
      exact hnot hb
    rw [hdrop] at h
    cases h

theorem mem_of_lookup {name : List Char} {o : LongOption} (h : t.lookup name = some o) :
  o ∈ t.longopts
  := by
  rw [lookup] at h
  cases hfind : t.longopts.find? (·.name = name) with
  | some p =>
      rw [hfind] at h
      cases h
      exact List.mem_of_find?_eq_some hfind
  | none =>
      simp only [hfind] at h
      cases hfilter : t.longopts.filter (name <+: ·.name) with
      | nil =>
          rw [hfilter] at h
          cases h
      | cons p os =>
          simp only [hfilter, Option.ite_none_right_eq_some] at h
          obtain ⟨-, h⟩ := h
          cases h
          have hmem : o ∈ t.longopts.filter (name <+: ·.name) := by
            rw [hfilter]
            exact List.mem_cons_self
          exact (List.mem_filter.mp hmem).1

/-- Options that are accepted, of which the last may wait for its argument. -/
def AcceptsAll (t : Options) (r : List Occurrence × Option Opt) : Prop :=
  (∀ o ∈ r.1, t.Accepts o) ∧ ∀ o ∈ r.2, t.Has o true

theorem acceptsAll_singleton {o : Occurrence} (h : t.Accepts o) :
  t.AcceptsAll ([o], none)
  := by
  refine ⟨?_, nofun⟩
  rw [List.forall_mem_singleton]
  exact h

theorem acceptsAll_pending {o : Opt} (h : t.Has o true) :
  t.AcceptsAll ([], some o)
  := by
  refine ⟨nofun, ?_⟩
  rintro _ ⟨⟩
  exact h

theorem acceptsAll_cluster (s : List Char) :
  t.AcceptsAll (t.cluster s)
  := by
  induction s with
  | nil => exact ⟨nofun, nofun⟩
  | cons c cs ih =>
      rw [cluster]
      cases hshort : t.short c with
      | none => exact ⟨List.forall_mem_cons.mpr ⟨trivial, ih.1⟩, ih.2⟩
      | some hasArg =>
          cases hasArg with
          | false => exact ⟨List.forall_mem_cons.mpr ⟨hshort, ih.1⟩, ih.2⟩
          | true =>
              simp only
              split
              · exact acceptsAll_pending hshort
              · exact acceptsAll_singleton hshort

theorem acceptsAll_longOption (s : List Char) :
  t.AcceptsAll (t.longOption s)
  := by
  rw [longOption]
  cases hlookup : t.lookup (s.takeWhile (· ≠ '=')) with
  | none => exact acceptsAll_singleton trivial
  | some o =>
      have hmem := mem_of_lookup hlookup
      simp only
      split
      · rename_i hasArg _
        exact acceptsAll_singleton ⟨hmem, hasArg⟩
      · exact acceptsAll_singleton trivial
      · rename_i hasArg _
        exact acceptsAll_pending ⟨hmem, hasArg⟩
      · rename_i hasArg _
        exact acceptsAll_singleton ⟨hmem, hasArg⟩

theorem acceptsAll_element {s : List Char} {occurrences : List Occurrence} {pending : Option Opt}
    (h : t.element s = .options occurrences pending) :
  t.AcceptsAll (occurrences, pending)
  := by
  rw [element] at h
  split at h
  · cases h
  · split at h
    · cases h
      apply acceptsAll_longOption
    · split at h
      · cases h
        apply acceptsAll_cluster
      · cases h

/-- Every option on the command line is one that is accepted, with an argument if it takes one. -/
theorem accepts_of_mem_getoptLong (argv : List (List Char)) :
  ∀ o ∈ t.getoptLong argv, t.Accepts o
  := by
  fun_induction getoptLong t argv with
  | case1 => exact nofun
  | case2 => exact nofun
  | case3 s argv _ _ ih => exact ih
  | case4 => exact nofun
  | case5 s argv occurrences helement ih =>
      rw [List.forall_mem_append]
      exact ⟨(acceptsAll_element helement).1, ih⟩
  | case6 s occurrences o helement =>
      rw [List.forall_mem_append, List.forall_mem_singleton]
      exact ⟨(acceptsAll_element helement).1, trivial⟩
  | case7 s occurrences o helement value argv ih =>
      have haccepts := acceptsAll_element helement
      rw [List.forall_mem_append, List.forall_mem_cons]
      exact ⟨haccepts.1, haccepts.2 o rfl, ih⟩

end Options

end Getopt
