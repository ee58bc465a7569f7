/-
# Lkmpg.Devtools.Boot -- a test command on its way into the guest

`boot.sh --test CMD` puts the command on the kernel's command line, which `init` reads
back in the guest.  On the way it passes through two command substitutions, the limit of
the kernel, word splitting, pathname expansion, `echo` and two versions of `base64`.
-/
import Lkmpg.Devtools.Setup
import Lkmpg.Theory.Base64
import Lkmpg.Theory.Lines
import Mathlib.Data.Bool.AllAny
import Mathlib.Data.List.DropRight

namespace Lkmpg.Devtools

open Lkmpg.Kernel Lkmpg.Theory

set_option autoImplicit false

def newline : UInt8 := 10

/-- What `$( … )` makes of an output: no NUL, and no newline at the end. -/
def substitute (output : Text) : Text := (output.filter (· ≠ 0)).rdropWhile (· = newline)

/-! ## boot.sh -/

inductive Base64Tool where
  /-- It wraps its lines after 76 characters. -/
  | gnu
  | bsd

/-- `col` characters of the line are written. -/
def wrap (width : Nat) : Nat → Text → Text
  | col, [] => if col = 0 then [] else [newline]
  | col, c :: s => if col = width then newline :: c :: wrap width 1 s else c :: wrap width (col + 1) s

def Base64Tool.encode : Base64Tool → Text → Text
  | .gnu, bs => wrap 76 0 (Base64.encode bs)
  | .bsd, bs => Base64.encode bs ++ [newline]

/-- `base64 | tr -d '\n'` -/
def base64Nowrap (tool : Base64Tool) (bs : Text) : Text :=
  (tool.encode bs).filter (· ≠ newline)

/-- `KCMD`, when `TEST_CMD` is `testCmd`.  It is empty only without `--test`, which ends the
script for an empty command. -/
def kcmd (tool : Base64Tool) (testCmd : Text) : Text :=
  if testCmd ≠ [] then
    text "console=ttyS0 loglevel=7 nokaslr" ++ text " lkmpg.cmd64=" ++
      substitute (base64Nowrap tool testCmd)
  else text "console=ttyS0 loglevel=7 nokaslr"

/-! ## The kernel -/

/-- `COMMAND_LINE_SIZE` of x86, with the NUL. -/
def commandLineSize : Nat := 2048

/-- `/proc/cmdline` -/
def procCmdline (append : Text) : Text := append.take (commandLineSize - 1) ++ [newline]

/-! ## init -/

def isIfs (c : UInt8) : Bool := c = 32 || c = 9 || c = newline

def isGlob (c : UInt8) : Bool := c = 42 || c = 63 || c = 91 || c = 92

structure Guest where
  /-- What pathname expansion makes of a word with a special character. -/
  expand : Text → List Text
  /-- What `base64 -d` prints of a text that is no encoding. -/
  garbled : Text → Text

/-- The words of an unquoted `$( … )`. -/
def Guest.words (g : Guest) (s : Text) : List Text :=
  (fields isIfs (substitute s)).flatMap fun w => if w.any isGlob then g.expand w else [w]

/-- An option of `echo`: `-`, and then `n`, `e` and `E`. -/
def isOption : Text → Bool
  | 45 :: c :: s => (c :: s).all fun c => c = 110 || c = 101 || c = 69
  | _ => false

def echo (arg : Text) : Text :=
  if isOption arg then if arg.any (· = 110) then [] else [newline] else arg ++ [newline]

/-- `base64 -d` passes over what is between the digits. -/
def Guest.base64d (g : Guest) (s : Text) : Text :=
  let digits := s.filter fun c => !isIfs c
  (Base64.decode digits).getD (g.garbled digits)

/-- The body of the loop over the words. -/
def Guest.readArg (g : Guest) (testcmd arg : Text) : Text :=
  if (text "lkmpg.cmd64=").isPrefixOf arg then
    substitute (g.base64d (echo (arg.drop (text "lkmpg.cmd64=").length)))
  else testcmd

def Guest.testcmd (g : Guest) (cmdline : Text) : Text := (g.words cmdline).foldl g.readArg []

inductive Mode where
  | interactive
  /-- `/bin/sh -c "$TESTCMD"` -/
  | test (cmd : Text)
  deriving DecidableEq

def Guest.init (g : Guest) (cmdline : Text) : Mode :=
  if g.testcmd cmdline ≠ [] then .test (g.testcmd cmdline) else .interactive

/-! ## What survives -/

/-- It is nothing to the shell, and it is not the `-` of an option. -/
def Inert (c : UInt8) : Prop := isIfs c = false ∧ isGlob c = false ∧ c ≠ 0 ∧ c ≠ newline ∧ c ≠ 45

instance (c : UInt8) : Decidable (Inert c) := inferInstanceAs (Decidable (_ ∧ _))

theorem inert_of_plain {c : UInt8} (plain : Base64.Plain c) : Inert c := by
  have other (v : UInt8) (special : ¬ Base64.Plain v) : c ≠ v := fun same => special (same ▸ plain)
  refine ⟨?_, ?_, other 0 (by decide), other newline (by decide), other 45 (by decide)⟩
  · simp [isIfs, other 32 (by decide), other 9 (by decide), other newline (by decide)]
  · simp [isGlob, other 42 (by decide), other 63 (by decide), other 91 (by decide),
      other 92 (by decide)]

theorem encode_inert (bs : Text) : ∀ c ∈ Base64.encode bs, Inert c :=
  fun c member => inert_of_plain (Base64.plain_encode bs c member)

theorem substitute_line {s : Text} (noNul : ∀ c ∈ s, c ≠ 0) :
    substitute (s ++ [newline]) = s.rdropWhile (· = newline) := by
  have all : (s ++ [newline]).filter (· ≠ 0) = s ++ [newline] := by
    rw [List.filter_eq_self]
    intro c member
    rcases List.mem_append.1 member with inside | last
    · simpa using noNul c inside
    · cases List.mem_singleton.1 last
      decide
  rw [substitute, all, List.rdropWhile_concat_pos _ _ _ (by decide)]

theorem rdropWhile_inert {s t : Text} (some_ : t ≠ []) (inert : ∀ c ∈ t, Inert c) :
    (s ++ t).rdropWhile (· = newline) = s ++ t := by
  rw [List.rdropWhile_eq_self_iff]
  intro nonempty
  rw [List.getLast_append_of_ne_nil _ some_]
  simpa using (inert _ (List.getLast_mem some_)).2.2.2.1

theorem substitute_inert {s : Text} (inert : ∀ c ∈ s, Inert c) : substitute s = s := by
  have all : s.filter (· ≠ 0) = s := by
    rw [List.filter_eq_self]
    exact fun c member => by simpa using (inert c member).2.2.1
  rw [substitute, all]
  by_cases none_ : s = []
  · rw [none_]
    rfl
  · exact rdropWhile_inert (s := []) none_ inert

/-! ## The command line -/

/-- The newlines that `base64` puts in are taken out. -/
theorem filter_wrap (width : Nat) {s : Text} (noNewline : ∀ c ∈ s, c ≠ newline) (col : Nat) :
    (wrap width col s).filter (· ≠ newline) = s := by
  induction s generalizing col with
  | nil =>
      unfold wrap
      split
      · rfl
      · rfl
  | cons c s ih =>
      obtain ⟨own, rest⟩ := List.forall_mem_cons.1 noNewline
      unfold wrap
      split
      · rw [List.filter_cons_of_neg (by simp), List.filter_cons_of_pos (by simpa using own),
          ih rest]
      · rw [List.filter_cons_of_pos (by simpa using own), ih rest]

theorem base64Nowrap_eq (tool : Base64Tool) (bs : Text) :
    base64Nowrap tool bs = Base64.encode bs := by
  have noNewline : ∀ c ∈ Base64.encode bs, c ≠ newline :=
    fun c member => (encode_inert bs c member).2.2.2.1
  cases tool with
  | gnu => exact filter_wrap 76 noNewline 0
  | bsd =>
      rw [base64Nowrap, Base64Tool.encode, List.filter_append, List.filter_eq_self.2]
      · simp
      · exact fun c member => by simpa using noNewline c member

theorem kcmd_eq (tool : Base64Tool) {testCmd : Text} (some_ : testCmd ≠ []) :
    kcmd tool testCmd = text "console=ttyS0 loglevel=7 nokaslr lkmpg.cmd64=" ++
      Base64.encode testCmd := by
  rw [kcmd, if_pos some_, base64Nowrap_eq, substitute_inert (encode_inert testCmd)]
  rfl

/-- A command of 1500 bytes is the longest that the kernel leaves whole. -/
theorem length_kcmd_le (tool : Base64Tool) {testCmd : Text} (some_ : testCmd ≠ []) :
    (kcmd tool testCmd).length ≤ commandLineSize - 1 ↔ testCmd.length ≤ 1500 := by
  have front : (text "console=ttyS0 loglevel=7 nokaslr lkmpg.cmd64=").length = 45 := rfl
  rw [kcmd_eq tool some_, List.length_append, front, Base64.length_encode, commandLineSize]
  omega

/-! ## The words -/

variable (g : Guest)

/-- `lkmpg.cmd64=` and the text behind it. -/
def cmdWord (testCmd : Text) : Text := text "lkmpg.cmd64=" ++ Base64.encode testCmd

theorem cmdWord_inert (testCmd : Text) : ∀ c ∈ cmdWord testCmd, Inert c := by
  intro c member
  rcases List.mem_append.1 member with front | rest
  · have all : (text "lkmpg.cmd64=").all fun c => decide (Inert c) := by decide
    exact List.all_iff_forall_prop.1 all c front
  · exact encode_inert testCmd c rest

theorem procCmdline_kcmd (tool : Base64Tool) {testCmd : Text} (some_ : testCmd ≠ [])
    (short : testCmd.length ≤ 1500) :
    procCmdline (kcmd tool testCmd) =
      (text "console=ttyS0 loglevel=7 nokaslr " ++ cmdWord testCmd) ++ [newline] := by
  rw [procCmdline, List.take_of_length_le ((length_kcmd_le tool some_).2 short),
    kcmd_eq tool some_, cmdWord, ← List.append_assoc]
  rfl

theorem substitute_kcmd (testCmd : Text) :
    substitute ((text "console=ttyS0 loglevel=7 nokaslr " ++ cmdWord testCmd) ++ [newline]) =
      text "console=ttyS0 loglevel=7 nokaslr " ++ cmdWord testCmd := by
  have some_ : cmdWord testCmd ≠ [] := List.cons_ne_nil _ _
  rw [substitute_line, rdropWhile_inert some_ (cmdWord_inert testCmd)]
  intro c member
  rcases List.mem_append.1 member with front | rest
  · have all : (text "console=ttyS0 loglevel=7 nokaslr ").all fun c => decide (c ≠ 0) := by decide
    exact List.all_iff_forall_prop.1 all c front
  · exact (cmdWord_inert testCmd c rest).2.2.1

theorem plain_parameters : (text "console=ttyS0").any isGlob = false ∧
    (text "loglevel=7").any isGlob = false ∧ (text "nokaslr").any isGlob = false := by
  decide

/-- No word is cut, put together with another or expanded. -/
theorem words_kcmd (tool : Base64Tool) {testCmd : Text} (some_ : testCmd ≠ [])
    (short : testCmd.length ≤ 1500) :
    g.words (procCmdline (kcmd tool testCmd)) =
      [text "console=ttyS0", text "loglevel=7", text "nokaslr", cmdWord testCmd] := by
  have cut : fields isIfs (text "console=ttyS0 loglevel=7 nokaslr " ++ cmdWord testCmd) =
      [text "console=ttyS0", text "loglevel=7", text "nokaslr", cmdWord testCmd] := by
    have front : text "console=ttyS0 loglevel=7 nokaslr " ++ cmdWord testCmd =
        text "console=ttyS0" ++ 32 :: (text "loglevel=7" ++ 32 ::
          (text "nokaslr" ++ 32 :: cmdWord testCmd)) := rfl
    have word : ∀ {w : Text}, (w.all fun c => isIfs c = false) → ∀ c ∈ w, isIfs c = false :=
      List.all_iff_forall_prop.1
    rw [front, fields_cons (word (by decide)) (by decide) (by decide),
      fields_cons (word (by decide)) (by decide) (by decide),
      fields_cons (word (by decide)) (by decide) (by decide),
      fields_last (fun c member => (cmdWord_inert testCmd c member).1) (List.cons_ne_nil _ _)]
  have plain : (cmdWord testCmd).any isGlob = false := by
    rw [List.any_eq_false]
    exact fun c member => by simp [(cmdWord_inert testCmd c member).2.1]
  rw [procCmdline_kcmd tool some_ short, Guest.words, substitute_kcmd, cut]
  simp only [List.flatMap_cons, plain_parameters.1, plain_parameters.2.1, plain_parameters.2.2,
    plain, Bool.false_eq_true, if_false, List.flatMap_nil, List.cons_append, List.nil_append]

/-- `echo` and `base64 -d` give the command back. -/
theorem base64d_echo (testCmd : Text) :
    g.base64d (echo (Base64.encode testCmd)) = testCmd := by
  have inert := encode_inert testCmd
  have noOption : isOption (Base64.encode testCmd) = false := by
    unfold isOption
    split
    · rename_i c s same
      rw [same] at inert
      exact absurd rfl (inert 45 List.mem_cons_self).2.2.2.2
    · rfl
  have digits : (Base64.encode testCmd ++ [newline]).filter (fun c => !isIfs c) =
      Base64.encode testCmd := by
    rw [List.filter_append, List.filter_eq_self.2]
    · simp [isIfs]
    · exact fun c member => by simp [(inert c member).1]
  simp only [echo, noOption, Bool.false_eq_true, if_false, Guest.base64d, digits,
    Base64.decode_encode, Option.getD_some]

theorem readArg_cmdWord (testCmd before : Text) :
    g.readArg before (cmdWord testCmd) = substitute testCmd := by
  have own : (text "lkmpg.cmd64=").isPrefixOf (cmdWord testCmd) = true := by
    rw [List.isPrefixOf_iff_prefix]
    exact List.prefix_append _ _
  rw [Guest.readArg, if_pos own, cmdWord, List.drop_left, base64d_echo g testCmd]

theorem substitute_command {testCmd : Text} (noNul : 0 ∉ testCmd) :
    substitute testCmd = testCmd.rdropWhile (· = newline) := by
  have all : testCmd.filter (· ≠ 0) = testCmd := by
    rw [List.filter_eq_self]
    intro c member
    have nonzero : c ≠ 0 := fun zero => noNul (zero ▸ member)
    simpa using nonzero
  rw [substitute, all]

/-- The parameters without a command. -/
theorem words_kcmd_nil (tool : Base64Tool) :
    g.words (procCmdline (kcmd tool [])) =
      [text "console=ttyS0", text "loglevel=7", text "nokaslr"] := by
  have cut : fields isIfs (substitute (procCmdline (kcmd tool []))) =
      [text "console=ttyS0", text "loglevel=7", text "nokaslr"] := by
    show fields isIfs (substitute (procCmdline (text "console=ttyS0 loglevel=7 nokaslr"))) = _
    decide
  rw [Guest.words, cut]
  simp only [List.flatMap_cons, plain_parameters.1, plain_parameters.2.1, plain_parameters.2.2,
    Bool.false_eq_true, if_false, List.flatMap_nil, List.cons_append, List.nil_append]

theorem readArg_parameters (before : Text) :
    g.readArg before (text "console=ttyS0") = before ∧
      g.readArg before (text "loglevel=7") = before ∧
      g.readArg before (text "nokaslr") = before :=
  ⟨rfl, rfl, rfl⟩

/-- Without `--test` the guest is interactive. -/
theorem boot_interactive (tool : Base64Tool) :
    g.init (procCmdline (kcmd tool [])) = .interactive := by
  obtain ⟨console, loglevel, nokaslr⟩ := readArg_parameters g []
  have none_ : g.testcmd (procCmdline (kcmd tool [])) = [] := by
    rw [Guest.testcmd, words_kcmd_nil]
    simp only [List.foldl_cons, List.foldl_nil, console, loglevel, nokaslr]
  rw [Guest.init, none_]
  rfl

theorem testcmd_kcmd (tool : Base64Tool) {testCmd : Text} (some_ : testCmd ≠ [])
    (noNul : 0 ∉ testCmd) (short : testCmd.length ≤ 1500) :
    g.testcmd (procCmdline (kcmd tool testCmd)) = testCmd.rdropWhile (· = newline) := by
  rw [Guest.testcmd, words_kcmd g tool some_ short]
  simp only [List.foldl_cons, List.foldl_nil, readArg_cmdWord]
  exact substitute_command noNul

/-- **The command arrives.**  The shell of the guest makes four words of the command line,
and none of them is cut, put together with another or expanded; and the guest runs the
command without the newlines at its end, or is interactive when that is nothing. -/
theorem boot_runs_command (tool : Base64Tool) (testCmd : Text) (some_ : testCmd ≠ [])
    (noNul : 0 ∉ testCmd) (short : testCmd.length ≤ 1500) :
    g.words (procCmdline (kcmd tool testCmd)) =
      [text "console=ttyS0", text "loglevel=7", text "nokaslr",
        text "lkmpg.cmd64=" ++ Base64.encode testCmd] ∧
    g.init (procCmdline (kcmd tool testCmd)) =
      if testCmd.rdropWhile (· = newline) ≠ [] then .test (testCmd.rdropWhile (· = newline))
      else .interactive :=
  ⟨words_kcmd g tool some_ short, by rw [Guest.init, testcmd_kcmd g tool some_ noNul short]⟩

/-- A command with spaces, a quote and a newline. -/
theorem boot_runs_command_insmod :
    (Guest.mk (fun w => [w]) id).init
        (procCmdline (kcmd .gnu (text "insmod 'a b.ko' *; dmesg | tail\n"))) =
      .test (text "insmod 'a b.ko' *; dmesg | tail") :=
  (boot_runs_command _ .gnu _ (by decide) (by decide) (by decide)).2.trans (by decide)

end Lkmpg.Devtools
