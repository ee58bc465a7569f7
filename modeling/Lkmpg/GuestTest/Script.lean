/-
# Lkmpg.GuestTest.Script -- guest-test.sh, and the console it reports on

The script is a program of commands (`Theory.Calls`) that the guest carries out.
`insmod` and `rmmod` answer as they like.  The kernel and the commands print lines of
their own, none of which starts with `LKMPG:`, and a line on the console stays whole.
The script may stop at any of its commands; init goes on and powers the guest off.
-/
import Lkmpg.Kernel.Library
import Lkmpg.Theory.Calls
import Lkmpg.Theory.Lines
import Lkmpg.Theory.System

namespace Lkmpg.GuestTest

open Lkmpg.Kernel Lkmpg.Theory

set_option autoImplicit false

/-! ## Lines -/

def newline : UInt8 := 10

abbrev LogLine := Line newline

def number (n : Nat) : LogLine where
  chars := decimal n
  oneLine member := by
    have digit := decimal_digit member
    exact absurd digit.1 (by decide)

def skipped (mod : LogLine) : LogLine := ⟨text "LKMPG:SKIP ", by decide⟩ ++ mod

def passed (mod : LogLine) : LogLine := ⟨text "LKMPG:PASS ", by decide⟩ ++ mod

def failed (mod : LogLine) : LogLine := ⟨text "LKMPG:FAIL ", by decide⟩ ++ mod

/-- A line of the kernel, or of a command of the guest. -/
structure Noise where
  line : LogLine
  other : (text "LKMPG:").isPrefixOf line.chars = false

/-! ## The files of the guest -/

/-- A name that `"$MODULE_DIR"/*.ko` expands to. -/
structure Ko where
  /-- `basename "$ko" .ko`; kbuild makes no name with a newline in it. -/
  mod : LogLine
  /-- `[ -f "$ko" ]`. -/
  isFile : Bool

structure Guest where
  examples : List Ko
  /-- `.ci/non-working`, if it is there. -/
  nonWorking : Option (List UInt8)
  /-- `devtools/non-working`, if it is there. -/
  nonWorkingQemu : Option (List UInt8)

/-- `[ -f "$nw" ] && grep -qFx "$mod" "$nw"`. -/
def listed (mod : LogLine) : Option (List UInt8) → Bool
  | none => false
  | some nw => mod.chars ∈ lines newline nw

def Guest.skips (g : Guest) (mod : LogLine) : Bool :=
  listed mod g.nonWorking || listed mod g.nonWorkingQemu

/-! ## guest-test.sh -/

inductive Command where
  | insmod (ko : Ko)
  | rmmod (mod : LogLine)
  | echo (line : LogLine)

structure Answer where
  /-- The exit status is 0. -/
  zero : Bool
  /-- What is printed meanwhile, before the line of an `echo`. -/
  noise : List Noise

abbrev Script := Calls Command Answer

/-- A command in a condition. -/
def status (c : Command) : Script Bool := .ask c Answer.zero

def run (c : Command) : Script Unit := .ask c fun _ => ()

/-- The counters of the script. -/
structure Tally where
  fail : Nat
  pass : Nat
  skip : Nat

/-- `insmod` and `rmmod`, twice. -/
def loadTwice (ko : Ko) : Script Bool :=
  .both (status (.insmod ko)) (.both (status (.rmmod ko.mod))
    (.both (status (.insmod ko)) (status (.rmmod ko.mod))))

variable (g : Guest)

/-- The body of the loop. -/
def testKo (ko : Ko) (t : Tally) : Script Tally := do
  if !ko.isFile then return t
  if g.skips ko.mod then
    run (.echo (skipped ko.mod))
    return { t with skip := t.skip + 1 }
  if ← loadTwice ko then
    run (.echo (passed ko.mod))
    return { t with pass := t.pass + 1 }
  else
    run (.echo (failed ko.mod))
    run (.rmmod ko.mod)
    return { t with fail := t.fail + 1 }

def testAll : List Ko → Tally → Script Tally
  | [], t => return t
  | ko :: kos, t => do testAll kos (← testKo g ko t)

def results (t : Tally) : LogLine :=
  ⟨text "LKMPG:RESULTS ", by decide⟩ ++ (number t.pass ++ ⟨text " passed, ", by decide⟩ ++
    number t.fail ++ ⟨text " failed, ", by decide⟩ ++
    number t.skip ++ ⟨text " skipped", by decide⟩)

/-- It returns its exit status. -/
def guestTest : Script Nat := do
  let t ← testAll g g.examples ⟨0, 0, 0⟩
  run (.echo ⟨[], by decide⟩)
  run (.echo (results t))
  if t.fail = 0 then
    run (.echo ⟨text "LKMPG:EXIT 0", by decide⟩)
    return 0
  else
    run (.echo ⟨text "LKMPG:EXIT 1", by decide⟩)
    return 1

/-! ## Runs of the guest -/

def Command.prints : Command → List LogLine
  | .echo line => [line]
  | .insmod _ | .rmmod _ => []

def perform (console : List LogLine) (c : Command) (a : Answer) : Option (List LogLine) :=
  some (console ++ (a.noise.map Noise.line ++ c.prints))

structure State where
  console : List LogLine
  /-- What is left of guest-test.sh. -/
  script : Script Nat
  /-- After `poweroff -f`. -/
  off : Bool

inductive Action where
  | command (a : Answer)
  /-- guest-test.sh has ended, or is stopped here with the exit status `killed`. -/
  | stop (killed : Nat) (noise : List Noise)

def testMode : LogLine := ⟨text "=== lkmpg test mode ===", by decide⟩

def testExited (result : Nat) : LogLine :=
  ⟨text "=== test exited with code ", by decide⟩ ++ (number result ++ ⟨text " ===", by decide⟩)

/-- The exit status that init finds. -/
def exitStatus (killed : Nat) : Script Nat → Nat
  | .ret r => r
  | .call _ _ => killed

/-- init runs guest-test.sh after the kernel has booted. -/
def start (boot : List Noise) : State where
  console := boot.map Noise.line ++ [testMode]
  script := guestTest g
  off := false

def step (s : State) : Action → Option State
  | .command a =>
      match s.off, s.script with
      | false, .call c next =>
          (perform s.console c a).map fun console => { s with console, script := next a }
      | _, _ => none
  | .stop killed noise =>
      if s.off then none
      else some { s with
        console := s.console ++
          (noise.map Noise.line ++ [testExited (exitStatus killed s.script)])
        off := true }

def system : System State Action where
  Start s := ∃ boot, s = start g boot
  step := step

end Lkmpg.GuestTest
