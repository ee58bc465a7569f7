/-
# Lkmpg.Ci.BuildNRun -- .ci/build-n-run.sh, beside devtools/guest-test.sh

The script runs under `set -euo pipefail`: a command that fails ends it with that exit
status, and so does a pipeline of which one part fails.  guest-test.sh counts the modules
that fail and goes on, with "same logic" for the two passes over a module.

Here both run on one kernel, which answers each `insmod` and `rmmod` by its state.

* `green_buildNRun`: when the script exits 0;
* `testAll_passes`: when guest-test.sh counts no failure;
* `build_n_run_agrees`: they find the same.
-/
import Lkmpg.GuestTest.Script

namespace Lkmpg.Ci

open Lkmpg.Kernel Lkmpg.Theory
open Lkmpg.GuestTest (Guest Ko Tally listed newline testKo testAll loadTwice guestTest)

set_option autoImplicit false

/-! ## .ci/build-n-run.sh -/

inductive Command where
  /-- `mkdir -p "${LOG_DIR}"`. -/
  | mkdir
  /-- `make -C examples`, and `tee` of its log. -/
  | make
  | teeBuild
  /-- `find examples -maxdepth 1 -name '*.ko' -print | sort`. -/
  | find
  | echo (line : List UInt8)
  | insmod (module : List UInt8)
  | rmmod (module : List UInt8)
  /-- `tee "${module_log}"`. -/
  | tee (module : List UInt8)

structure Answer where
  status : Nat
  lines : List (List UInt8)

abbrev Script := Calls Command Answer

def status (c : Command) : Script Nat := .ask c Answer.status

/-- One command after another under `set -e`. -/
def errexit (p rest : Script Nat) : Script Nat := do
  let failed ← p
  if failed = 0 then rest else return failed

/-- The exit status of a pipeline of two under `pipefail`. -/
def pipefail (p tee : Script Nat) : Script Nat := do
  let first ← p
  let last ← tee
  return if last = 0 then first else last

def buildExample : Script Nat := pipefail (status .make) (status .teeBuild)

/-- `s#^examples/##; s#\.ko$##`. -/
def sed (line : List UInt8) : List UInt8 :=
  let name := if (text "examples/").isPrefixOf line then line.drop 9 else line
  if (text ".ko").isSuffixOf name then name.take (name.length - 3) else name

/-- `grep -vFxf "${exclude_file}"`, where `/dev/null` stands for a file that is not there.
It fails when it selects no line, which the `test` after it lets pass. -/
def grepExclude (excludeFile : Option (List UInt8)) (names : List (List UInt8)) :
    List (List UInt8) :=
  names.filter fun name => !(lines newline (excludeFile.getD [])).contains name

/-- Its exit status is lost in `mapfile < <(list_mod)`. -/
def listMod (excludeFile : Option (List UInt8)) : Script (List (List UInt8)) :=
  .ask .find fun found => grepExclude excludeFile (found.lines.map sed)

def runMod (module : List UInt8) : Script Nat :=
  pipefail
    (errexit (status (.echo (text "=== insmod/rmmod pass 1: " ++ module ++ text " ===")))
      (errexit (status (.insmod module)) (errexit (status (.rmmod module))
        (errexit (status (.echo (text "=== insmod/rmmod pass 2: " ++ module ++ text " ===")))
          (errexit (status (.insmod module)) (status (.rmmod module)))))))
    (status (.tee module))

/-- `for module in "${modules[@]}"`. -/
def runAll : List (List UInt8) → Script Nat
  | [] => return 0
  | module :: modules =>
      errexit (status (.echo (text "Running " ++ module)))
        (errexit (runMod module) (runAll modules))

def runExamples (excludeFile : Option (List UInt8)) : Script Nat := do
  let modules ← listMod excludeFile
  if modules.length = 0 then status (.echo (text "No runnable modules found."))
  else runAll modules

/-- The script, up to its exit status. -/
def buildNRun (excludeFile : Option (List UInt8)) : Script Nat :=
  errexit (status .mkdir) (errexit buildExample (runExamples excludeFile))

/-! ## A kernel, and a host -/

variable {σ : Type}

/-- The exit status of the two commands on a module, and what they leave. -/
structure Kernel (σ : Type) where
  insmod : List UInt8 → σ → Nat × σ
  rmmod : List UInt8 → σ → Nat × σ

/-- What the other commands answer.  None of them touches the kernel, and `echo` does not
fail. -/
structure Host (σ : Type) where
  kernel : Kernel σ
  mkdir : Nat
  make : Nat
  teeBuild : Nat
  found : List (List UInt8)
  tee : List UInt8 → Nat

def Host.answer (h : Host σ) (s : σ) : Command → Answer × σ
  | .mkdir => (⟨h.mkdir, []⟩, s)
  | .make => (⟨h.make, []⟩, s)
  | .teeBuild => (⟨h.teeBuild, []⟩, s)
  | .find => (⟨0, h.found⟩, s)
  | .echo _ => (⟨0, []⟩, s)
  | .insmod module => (⟨(h.kernel.insmod module s).1, []⟩, (h.kernel.insmod module s).2)
  | .rmmod module => (⟨(h.kernel.rmmod module s).1, []⟩, (h.kernel.rmmod module s).2)
  | .tee module => (⟨h.tee module, []⟩, s)

/-- The same kernel, as guest-test.sh sees it. -/
def Kernel.answer (k : Kernel σ) (s : σ) : GuestTest.Command → GuestTest.Answer × σ
  | .insmod ko => (⟨(k.insmod ko.mod.chars s).1 = 0, []⟩, (k.insmod ko.mod.chars s).2)
  | .rmmod mod => (⟨(k.rmmod mod.chars s).1 = 0, []⟩, (k.rmmod mod.chars s).2)
  | .echo _ => (⟨true, []⟩, s)

/-! ## Runs that succeed -/

/-- What a run that exits 0 leaves. -/
def green (run : Nat × σ) : Option σ := if run.1 = 0 then some run.2 else none

/-- Both passes over a module, without a failure. -/
def Kernel.twice (k : Kernel σ) (module : List UInt8) (s : σ) : Option σ := do
  let s ← green (k.insmod module s)
  let s ← green (k.rmmod module s)
  let s ← green (k.insmod module s)
  green (k.rmmod module s)

theorem green_eq_some {run : Nat × σ} {t : σ} : green run = some t ↔ run.1 = 0 ∧ run.2 = t := by
  by_cases zero : run.1 = 0 <;> simp [green, zero]

def Kernel.passAll (k : Kernel σ) : List (List UInt8) → σ → Option σ
  | [], s => some s
  | module :: modules, s => (k.twice module s).bind (k.passAll modules)

section Script

variable {h : Host σ}

theorem green_errexit (p rest : Script Nat) (s : σ) :
    green ((errexit p rest).eval h.answer s) =
      (green (p.eval h.answer s)).bind fun t => green (rest.eval h.answer t) := by
  rw [errexit, Calls.eval_bind]
  by_cases zero : (p.eval h.answer s).1 = 0
  · simp [green, zero]
  · simp [green, zero]

theorem green_echo (line : List UInt8) (s : σ) :
    green ((status (.echo line)).eval h.answer s) = some s := rfl

theorem green_runMod (module : List UInt8) (s : σ) :
    green ((runMod module).eval h.answer s) =
      if h.tee module = 0 then h.kernel.twice module s else none := by
  have group : ∀ p : Script Nat, green ((pipefail p (status (.tee module))).eval h.answer s) =
      if h.tee module = 0 then green (p.eval h.answer s) else none := by
    intro p
    rw [pipefail, Calls.eval_bind, Calls.eval_bind]
    by_cases zero : h.tee module = 0
    · simp [green, status, Host.answer, zero]
    · simp [green, status, Host.answer, zero]
  rw [runMod, group]
  congr 1
  simp only [green_errexit, green_echo, Option.bind_some]
  rfl

/-- **The loop**, up to the first module that fails. -/
theorem green_runAll (modules : List (List UInt8)) (s : σ) :
    green ((runAll modules).eval h.answer s) =
      if ∀ module ∈ modules, h.tee module = 0 then h.kernel.passAll modules s else none := by
  induction modules generalizing s with
  | nil => rfl
  | cons module modules ih =>
      simp only [runAll, green_errexit, green_echo, Option.bind_some, green_runMod, ih,
        Kernel.passAll, List.forall_mem_cons]
      by_cases first : h.tee module = 0
      · by_cases rest : ∀ module ∈ modules, h.tee module = 0
        · simp only [if_pos first, if_pos rest, if_pos (And.intro first rest)]
        · have not_all : ¬ (h.tee module = 0 ∧ ∀ module ∈ modules, h.tee module = 0) :=
            fun all => rest all.2
          simp only [if_pos first, if_neg rest, if_neg not_all, Option.bind_fun_none]
      · have not_all : ¬ (h.tee module = 0 ∧ ∀ module ∈ modules, h.tee module = 0) :=
          fun all => first all.1
        simp only [if_neg first, if_neg not_all, Option.bind_none]

theorem green_runExamples (excludeFile : Option (List UInt8)) (s : σ) :
    green ((runExamples excludeFile).eval h.answer s) =
      if ∀ module ∈ grepExclude excludeFile (h.found.map sed), h.tee module = 0 then
        h.kernel.passAll (grepExclude excludeFile (h.found.map sed)) s
      else none := by
  rw [runExamples, Calls.eval_bind, listMod, Calls.eval_ask]
  show green (Calls.eval h.answer (if (grepExclude excludeFile (h.found.map sed)).length = 0
    then _ else runAll (grepExclude excludeFile (h.found.map sed))) s) = _
  by_cases empty : (grepExclude excludeFile (h.found.map sed)).length = 0
  · rw [if_pos empty, green_echo, List.length_eq_zero_iff.1 empty]
    rfl
  · rw [if_neg empty, green_runAll]

theorem green_buildExample (s : σ) :
    green (buildExample.eval h.answer s) =
      if h.make = 0 ∧ h.teeBuild = 0 then some s else none := by
  rw [buildExample, pipefail, Calls.eval_bind, Calls.eval_bind]
  by_cases built : h.make = 0 <;> by_cases logged : h.teeBuild = 0 <;>
    simp [green, status, Host.answer, built, logged]

/-- What the script needs besides the modules. -/
def Host.Fine (h : Host σ) (modules : List (List UInt8)) : Prop :=
  h.mkdir = 0 ∧ h.make = 0 ∧ h.teeBuild = 0 ∧ ∀ module ∈ modules, h.tee module = 0

instance (h : Host σ) (modules : List (List UInt8)) : Decidable (h.Fine modules) :=
  inferInstanceAs (Decidable (_ ∧ _))

theorem green_buildNRun (excludeFile : Option (List UInt8)) (s : σ) :
    green ((buildNRun excludeFile).eval h.answer s) =
      if h.Fine (grepExclude excludeFile (h.found.map sed)) then
        h.kernel.passAll (grepExclude excludeFile (h.found.map sed)) s
      else none := by
  have mkdir : green ((status .mkdir).eval h.answer s) = if h.mkdir = 0 then some s else none := rfl
  rw [buildNRun, green_errexit, mkdir]
  simp only [green_errexit, green_buildExample, green_runExamples]
  by_cases fine : h.Fine (grepExclude excludeFile (h.found.map sed))
  · obtain ⟨made, built, logged, kept⟩ := id fine
    rw [if_pos fine, if_pos made, Option.bind_some, if_pos ⟨built, logged⟩, Option.bind_some,
      if_pos kept]
  · rw [if_neg fine]
    by_cases made : h.mkdir = 0
    · rw [if_pos made, Option.bind_some]
      by_cases built : h.make = 0 ∧ h.teeBuild = 0
      · rw [if_pos built, Option.bind_some, if_neg]
        exact fun kept => fine ⟨made, built.1, built.2, kept⟩
      · rw [if_neg built, Option.bind_none]
    · rw [if_neg made, Option.bind_none]

end Script

/-! ## guest-test.sh -/

section Guest

variable {k : Kernel σ} {g : Guest}

/-- What a condition leaves that holds. -/
def holding (run : Bool × σ) : Option σ := if run.1 then some run.2 else none

theorem holding_both (p q : GuestTest.Script Bool) (s : σ) :
    holding ((Calls.both p q).eval k.answer s) =
      (holding (p.eval k.answer s)).bind fun t => holding (q.eval k.answer t) := by
  rw [Calls.eval_both]
  cases zero : (p.eval k.answer s).1 <;> simp [holding, zero]

theorem holding_insmod (ko : Ko) (s : σ) :
    holding ((GuestTest.status (.insmod ko)).eval k.answer s) =
      green (k.insmod ko.mod.chars s) := by
  simp [holding, green, GuestTest.status, Kernel.answer]

theorem holding_rmmod (mod : GuestTest.LogLine) (s : σ) :
    holding ((GuestTest.status (.rmmod mod)).eval k.answer s) = green (k.rmmod mod.chars s) := by
  simp [holding, green, GuestTest.status, Kernel.answer]

/-- The same logic. -/
theorem holding_loadTwice (ko : Ko) (s : σ) :
    holding ((loadTwice ko).eval k.answer s) = k.twice ko.mod.chars s := by
  simp only [loadTwice, holding_both, holding_insmod, holding_rmmod]
  rfl

/-- A file that is not excluded. -/
def tests (g : Guest) (ko : Ko) : Bool := ko.isFile && !g.skips ko.mod

/-- What the loop leaves when it counts no failure more. -/
def noneMore (t : Tally) (run : Tally × σ) : Option σ :=
  if run.1.fail = t.fail then some run.2 else none

/-- **One module.** -/
theorem testKo_passes (ko : Ko) (t : Tally) (s : σ) :
    noneMore t ((testKo g ko t).eval k.answer s) =
        (if tests g ko then k.twice ko.mod.chars s else some s) ∧
      t.fail ≤ ((testKo g ko t).eval k.answer s).1.fail := by
  unfold testKo tests
  cases file : ko.isFile with
  | false => simp [noneMore]
  | true =>
      cases skips : g.skips ko.mod with
      | true => simp [noneMore, Calls.eval_bind, GuestTest.run, Kernel.answer]
      | false =>
          have same := holding_loadTwice (k := k) ko s
          simp only [Bool.not_true, Bool.false_eq_true, if_false, Bool.not_false, Bool.and_self,
            if_true, Calls.eval_bind]
          rw [← same, holding]
          cases loaded : ((loadTwice ko).eval k.answer s).1 with
          | true => simp [noneMore, Calls.eval_bind, GuestTest.run, Kernel.answer]
          | false => simp [noneMore, Calls.eval_bind, GuestTest.run, Kernel.answer]

/-- **The loop**, which goes on after a failure. -/
theorem testAll_passes (kos : List Ko) (t : Tally) (s : σ) :
    noneMore t ((testAll g kos t).eval k.answer s) =
        k.passAll ((kos.filter (tests g)).map fun ko => ko.mod.chars) s ∧
      t.fail ≤ ((testAll g kos t).eval k.answer s).1.fail := by
  induction kos generalizing t s with
  | nil => simp [testAll, noneMore, Kernel.passAll]
  | cons ko kos ih =>
      obtain ⟨one, up⟩ := testKo_passes (k := k) (g := g) ko t s
      rw [testAll, Calls.eval_bind]
      generalize (testKo g ko t).eval k.answer s = first at one up
      obtain ⟨t', s'⟩ := first
      obtain ⟨rest, up'⟩ := ih t' s'
      refine ⟨?_, le_trans up up'⟩
      have cons : k.passAll (((ko :: kos).filter (tests g)).map fun ko => ko.mod.chars) s =
          (noneMore t (t', s')).bind
            (k.passAll ((kos.filter (tests g)).map fun ko => ko.mod.chars)) := by
        rw [one]
        cases tested : tests g ko <;> simp [tested, Kernel.passAll]
      rw [cons]
      by_cases same : t'.fail = t.fail
      · have first : noneMore t (t', s') = some s' := if_pos same
        rw [first, Option.bind_some, ← rest]
        simp only [noneMore, same]
      · have more : ¬ ((testAll g kos t').eval k.answer s').1.fail = t.fail := by
          have lower : t.fail ≤ t'.fail := up
          omega
        have first : noneMore t (t', s') = none := if_neg same
        rw [first, Option.bind_none]
        exact if_neg more

theorem green_guestTest (g : Guest) (s : σ) :
    green ((guestTest g).eval k.answer s) =
      k.passAll ((g.examples.filter (tests g)).map fun ko => ko.mod.chars) s := by
  obtain ⟨pass, -⟩ := testAll_passes (k := k) (g := g) g.examples ⟨0, 0, 0⟩ s
  rw [← pass, guestTest, Calls.eval_bind]
  generalize (testAll g g.examples ⟨0, 0, 0⟩).eval k.answer s = run
  obtain ⟨t, s'⟩ := run
  by_cases none : t.fail = 0 <;>
    simp [green, noneMore, none, Calls.eval_bind, GuestTest.run, Kernel.answer]

end Guest

/-! ## The two scripts -/

/-- What `find` prints for a module. -/
def path (ko : Ko) : List UInt8 := text "examples/" ++ ko.mod.chars ++ text ".ko"

theorem sed_path (ko : Ko) : sed (path ko) = ko.mod.chars := by
  have front : (text "examples/").isPrefixOf (path ko) = true :=
    List.isPrefixOf_iff_prefix.2 ⟨ko.mod.chars ++ text ".ko", (List.append_assoc _ _ _).symm⟩
  have name : (path ko).drop 9 = ko.mod.chars ++ text ".ko" := by
    rw [path, List.append_assoc]
    rfl
  have back : (text ".ko").isSuffixOf (ko.mod.chars ++ text ".ko") = true :=
    List.isSuffixOf_iff_suffix.2 (List.suffix_append _ _)
  have three : (text ".ko").length = 3 := rfl
  simp only [sed, front, if_true, name, back]
  rw [List.length_append, three, Nat.add_sub_cancel, List.take_left]

/-- The modules that the two scripts take. -/
theorem modules_same {g : Guest} (same : ∀ ko ∈ g.examples, ko.isFile = true →
      listed ko.mod g.nonWorkingQemu = true → listed ko.mod g.nonWorking = true) :
    grepExclude g.nonWorking (((g.examples.filter Ko.isFile).map path).map sed) =
      (g.examples.filter (tests g)).map fun ko => ko.mod.chars := by
  have names : ((g.examples.filter Ko.isFile).map path).map sed =
      (g.examples.filter Ko.isFile).map fun ko => ko.mod.chars := by
    rw [List.map_map]
    exact List.map_congr_left fun ko _ => sed_path ko
  rw [grepExclude, names, List.filter_map, List.filter_filter]
  congr 1
  refine List.filter_congr fun ko member => ?_
  have excluded : listed ko.mod g.nonWorking =
      (lines newline (g.nonWorking.getD [])).contains ko.mod.chars := by
    rw [List.contains_eq_mem]
    cases g.nonWorking <;> rfl
  cases file : ko.isFile with
  | false => simp [tests, file]
  | true =>
      have skips : g.skips ko.mod = listed ko.mod g.nonWorking := by
        cases both : listed ko.mod g.nonWorkingQemu with
        | false => simp [Guest.skips, both]
        | true => simp [Guest.skips, same ko member file both]
      simp [tests, file, skips, excluded]

/-- **The same verdict.**  On the same modules, when devtools/non-working takes out none
that .ci/non-working leaves in: build-n-run.sh exits 0 if and only if guest-test.sh does
and all is well but for the modules; both do so exactly when each module in turn passes
twice; and then they leave the kernel the same. -/
theorem build_n_run_agrees (h : Host σ) (g : Guest)
    (found : h.found = (g.examples.filter Ko.isFile).map path)
    (same : ∀ ko ∈ g.examples, ko.isFile = true →
      listed ko.mod g.nonWorkingQemu = true → listed ko.mod g.nonWorking = true) (s : σ) :
    let modules := (g.examples.filter (tests g)).map fun ko => ko.mod.chars
    let ci := (buildNRun g.nonWorking).eval h.answer s
    let guest := (guestTest g).eval h.kernel.answer s
    (ci.1 = 0 ↔ h.Fine modules ∧ guest.1 = 0) ∧ (ci.1 = 0 → ci.2 = guest.2) ∧
      ∀ t, guest.1 = 0 ∧ guest.2 = t ↔ h.kernel.passAll modules s = some t := by
  intro modules ci guest
  have onGuest : green guest = h.kernel.passAll modules s := green_guestTest g s
  have onCi : green ci = if h.Fine modules then green guest else none := by
    rw [onGuest, green_buildNRun, found, modules_same same]
  have fromCi : ci.1 = 0 → h.Fine modules ∧ guest.1 = 0 ∧ guest.2 = ci.2 := by
    intro ciZero
    have left : green ci = some ci.2 := green_eq_some.2 ⟨ciZero, rfl⟩
    rw [onCi] at left
    split at left
    · rename_i fine
      exact ⟨fine, green_eq_some.1 left⟩
    · cases left
  have toCi : h.Fine modules → guest.1 = 0 → ci.1 = 0 := by
    intro fine guestZero
    rw [if_pos fine, green_eq_some.2 ⟨guestZero, rfl⟩] at onCi
    exact (green_eq_some.1 onCi).1
  refine ⟨⟨fun ciZero => ?_, fun fine => toCi fine.1 fine.2⟩, fun ciZero => ?_, fun t => ?_⟩
  · obtain ⟨fine, guestZero, -⟩ := fromCi ciZero
    exact ⟨fine, guestZero⟩
  · exact (fromCi ciZero).2.2.symm
  · rw [← onGuest, green_eq_some]

/-! ### A kernel that has the modules that are loaded -/

def listKernel : Kernel (List (List UInt8)) where
  insmod module loaded := if loaded.contains module then (1, loaded) else (0, module :: loaded)
  rmmod module loaded := if loaded.contains module then (0, loaded.erase module) else (1, loaded)

/-- `start`, and `led` that .ci/non-working has. -/
def twoFiles : Guest :=
  ⟨[⟨⟨text "led", by decide⟩, true⟩, ⟨⟨text "start", by decide⟩, true⟩],
    some (text "vkbd\nled\n"), none⟩

def fineHost : Host (List (List UInt8)) :=
  ⟨listKernel, 0, 0, 0, [text "examples/led.ko", text "examples/start.ko"], fun _ => 0⟩

theorem build_n_run_agrees_start :
    ((buildNRun twoFiles.nonWorking).eval fineHost.answer []).1 = 0 := by
  have tested : (twoFiles.examples.filter (tests twoFiles)).map (fun ko => ko.mod.chars) =
      [text "start"] := by decide
  have agrees := build_n_run_agrees fineHost twoFiles (by decide) (by decide) []
  have guest : ((guestTest twoFiles).eval fineHost.kernel.answer []).1 = 0 := by decide
  refine agrees.1.2 ⟨?_, guest⟩
  rw [tested]
  exact ⟨rfl, rfl, rfl, fun _ _ => rfl⟩

end Lkmpg.Ci
