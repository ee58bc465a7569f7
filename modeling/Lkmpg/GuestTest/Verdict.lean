/-
# Lkmpg.GuestTest.Verdict -- test-modules.sh, and what its exit status says of the guest

The host has the log of the console and QEMU's exit status, and nothing of guest-test.sh
but the lines it has printed.  It counts the `LKMPG:` lines; it does not look for
`LKMPG:EXIT`.

* `testModules_exit`: when the script exits 0;
* `guestTest_right`: what the log says when guest-test.sh comes to its end;
* `test_modules_green_iff`: when an exit status of 0 means that it did.
-/
import Lkmpg.GuestTest.Script

namespace Lkmpg.GuestTest

open Lkmpg.Kernel Lkmpg.Theory

set_option autoImplicit false

/-! ## test-modules.sh -/

/-- `grep -c "^start"`. -/
def grepCount (start log : List UInt8) : Nat := (lines newline log).countP start.isPrefixOf

structure Verdict where
  printed : List (List UInt8)
  exit : Nat

/-- What is printed when QEMU has failed. -/
def qemuReport (timeout : List UInt8) (qemuExit : Nat) : List (List UInt8) :=
  if qemuExit = 0 then []
  else if qemuExit = 137 then
    [[], text "=== QEMU TIMED OUT after " ++ timeout ++ text "s (guest may have hung) ==="]
  else [[], text "=== QEMU exited with code " ++ decimal qemuExit ++ text " ==="]

/-- test-modules.sh, from where QEMU has ended. -/
def testModules (timeout log : List UInt8) (qemuExit : Nat) : Verdict :=
  let pass := grepCount (text "LKMPG:PASS ") log
  let fail := grepCount (text "LKMPG:FAIL ") log
  let skip := grepCount (text "LKMPG:SKIP ") log
  let printed := qemuReport timeout qemuExit ++
    [[], text "=== Results: " ++ decimal pass ++ text " passed, " ++ decimal fail ++
      text " failed, " ++ decimal skip ++ text " skipped ==="]
  if 0 < fail then
    ⟨printed ++ [[], text "Failed modules:"] ++
      ((lines newline log).filter (text "LKMPG:FAIL ").isPrefixOf).map fun l =>
        text "  " ++ l.drop (text "LKMPG:FAIL ").length, 1⟩
  else if pass = 0 then
    ⟨printed ++ [[], text "No test output detected. Guest may have failed to boot.",
      text "Last 20 lines of output:"] ++
      (lines newline log).drop ((lines newline log).length - 20), 1⟩
  else if qemuExit ≠ 0 then
    ⟨printed ++ [[], text "QEMU exited abnormally; results above may be incomplete."], 1⟩
  else ⟨printed, 0⟩

theorem testModules_exit {timeout log : List UInt8} {qemuExit : Nat} :
    (testModules timeout log qemuExit).exit = 0 ↔
      grepCount (text "LKMPG:FAIL ") log = 0 ∧ grepCount (text "LKMPG:PASS ") log ≠ 0 ∧
        qemuExit = 0 := by
  by_cases fail : 0 < grepCount (text "LKMPG:FAIL ") log
  · simp only [testModules, if_pos fail]
    exact ⟨fun no => absurd no Nat.one_ne_zero, fun green => absurd green.1 (by omega)⟩
  by_cases pass : grepCount (text "LKMPG:PASS ") log = 0
  · simp only [testModules, if_neg fail, if_pos pass]
    exact ⟨fun no => absurd no Nat.one_ne_zero, fun green => absurd pass green.2.1⟩
  by_cases qemu : qemuExit ≠ 0
  · simp only [testModules, if_neg fail, if_neg pass, if_pos qemu]
    exact ⟨fun no => absurd no Nat.one_ne_zero, fun green => absurd green.2.2 qemu⟩
  · simp only [testModules, if_neg fail, if_neg pass, if_neg qemu]
    exact ⟨fun _ => ⟨by omega, pass, not_not.1 qemu⟩, fun _ => trivial⟩

/-! ## The lines of the log -/

def isPass (line : LogLine) : Bool := (text "LKMPG:PASS ").isPrefixOf line.chars

def isFail (line : LogLine) : Bool := (text "LKMPG:FAIL ").isPrefixOf line.chars

theorem grepCount_pass (console : List LogLine) :
    grepCount (text "LKMPG:PASS ") (unlines newline console) = console.countP isPass := by
  rw [grepCount, lines_unlines, List.countP_map]
  rfl

theorem grepCount_fail (console : List LogLine) :
    grepCount (text "LKMPG:FAIL ") (unlines newline console) = console.countP isFail := by
  rw [grepCount, lines_unlines, List.countP_map]
  rfl

/-- A beginning is looked for in the first part of a line that is long enough. -/
theorem isPrefixOf_append {p a : List UInt8} (fits : p.length ≤ a.length) (b : List UInt8) :
    p.isPrefixOf (a ++ b) = p.isPrefixOf a := by
  rw [Bool.eq_iff_iff, List.isPrefixOf_iff_prefix, List.isPrefixOf_iff_prefix]
  constructor
  · intro found
    exact List.prefix_of_prefix_length_le found (List.prefix_append a b) fits
  · intro found
    exact found.trans (List.prefix_append a b)

/-- A line that does not start with `LKMPG:PASS ` or `LKMPG:FAIL `. -/
def Plain (line : LogLine) : Prop := isPass line = false ∧ isFail line = false

instance (line : LogLine) : Decidable (Plain line) := inferInstanceAs (Decidable (_ ∧ _))

theorem plain_append {a : LogLine} (long : 11 ≤ a.chars.length) (plain : Plain a) (b : LogLine) :
    Plain (a ++ b) := by
  have pass : (text "LKMPG:PASS ").length ≤ a.chars.length := le_trans (by decide) long
  have fail : (text "LKMPG:FAIL ").length ≤ a.chars.length := le_trans (by decide) long
  unfold Plain isPass isFail
  rw [Line.chars_append, isPrefixOf_append pass, isPrefixOf_append fail]
  exact plain

theorem noise_other (n : Noise) {p : List UInt8} (tag : text "LKMPG:" <+: p) :
    p.isPrefixOf n.line.chars = false := by
  rw [Bool.eq_false_iff]
  intro found
  have start := List.isPrefixOf_iff_prefix.2 (tag.trans (List.isPrefixOf_iff_prefix.1 found))
  rw [n.other] at start
  cases start

theorem noise_plain (n : Noise) : Plain n.line :=
  ⟨noise_other n (by decide), noise_other n (by decide)⟩

theorem skipped_plain (mod : LogLine) : Plain (skipped mod) :=
  plain_append (by decide) (by decide) mod

theorem isPass_passed (mod : LogLine) : isPass (passed mod) = true := by
  rw [isPass, passed, Line.chars_append, isPrefixOf_append (by decide)]
  decide

theorem isFail_passed (mod : LogLine) : isFail (passed mod) = false := by
  rw [isFail, passed, Line.chars_append, isPrefixOf_append (by decide)]
  decide

theorem isPass_failed (mod : LogLine) : isPass (failed mod) = false := by
  rw [isPass, failed, Line.chars_append, isPrefixOf_append (by decide)]
  decide

theorem isFail_failed (mod : LogLine) : isFail (failed mod) = true := by
  rw [isFail, failed, Line.chars_append, isPrefixOf_append (by decide)]
  decide

/-! ## What guest-test.sh prints -/

/-- What the commands of the script say is plain, or the report of a module. -/
def Known (g : Guest) (line : LogLine) : Prop :=
  Plain line ∨ ∃ ko ∈ g.examples, line = passed ko.mod ∨ line = failed ko.mod

def Speaks (g : Guest) (c : Command) : Prop := ∀ line ∈ c.prints, Known g line

def Silent (c : Command) : Prop := c.prints = []

variable {g : Guest}

theorem Silent.speaks {c : Command} (silent : Silent c) : Speaks g c := by
  intro line member
  rw [silent] at member
  cases member

theorem echo_speaks {line : LogLine} (known : Known g line) : Speaks g (.echo line) := by
  intro said member
  rw [List.mem_singleton.1 member]
  exact known

theorem loadTwice_only {few : Command → Prop} {ko : Ko} (load : few (.insmod ko))
    (unload : few (.rmmod ko.mod)) : (loadTwice ko).Only few :=
  Calls.only_both (Calls.only_ask load) (Calls.only_both (Calls.only_ask unload)
    (Calls.only_both (Calls.only_ask load) (Calls.only_ask unload)))

theorem loadTwice_silent (ko : Ko) : (loadTwice ko).Only Silent := loadTwice_only rfl rfl

theorem testKo_only {ko : Ko} (member : ko ∈ g.examples) (t : Tally) :
    (testKo g ko t).Only (Speaks g) := by
  unfold testKo
  split
  · trivial
  split
  · refine Calls.only_bind (Calls.only_ask (echo_speaks ?_)) fun _ => trivial
    exact .inl (skipped_plain ko.mod)
  refine Calls.only_bind ?_ fun loaded => ?_
  · exact loadTwice_only (Silent.speaks rfl) (Silent.speaks rfl)
  split
  · refine Calls.only_bind (Calls.only_ask (echo_speaks ?_)) fun _ => trivial
    exact .inr ⟨ko, member, .inl rfl⟩
  · refine Calls.only_bind (Calls.only_ask (echo_speaks ?_)) fun _ => ?_
    · exact .inr ⟨ko, member, .inr rfl⟩
    · exact Calls.only_bind (Calls.only_ask (Silent.speaks rfl)) fun _ => trivial

theorem testAll_only {kos : List Ko} (members : kos ⊆ g.examples) (t : Tally) :
    (testAll g kos t).Only (Speaks g) := by
  induction kos generalizing t with
  | nil => trivial
  | cons ko kos ih =>
      obtain ⟨member, rest⟩ := List.cons_subset.1 members
      exact Calls.only_bind (testKo_only member t) fun t' => ih rest t'

theorem results_plain (t : Tally) : Plain (results t) :=
  plain_append (by decide) (by decide) _

theorem guestTest_only (g : Guest) : (guestTest g).Only (Speaks g) := by
  refine Calls.only_bind (testAll_only (List.Subset.refl _) _) fun t => ?_
  refine Calls.only_bind (Calls.only_ask (echo_speaks (.inl (by decide)))) fun _ => ?_
  refine Calls.only_bind (Calls.only_ask (echo_speaks (.inl (results_plain t)))) fun _ => ?_
  split
  · exact Calls.only_bind (Calls.only_ask (echo_speaks (.inl (by decide)))) fun _ => trivial
  · exact Calls.only_bind (Calls.only_ask (echo_speaks (.inl (by decide)))) fun _ => trivial

/-! ## What the log says at the end of guest-test.sh -/

/-- Every file among `kos` has its line, and the failures are counted. -/
structure Told (kos : List Ko) (fail : Nat) (console : List LogLine) : Prop where
  fail : fail = console.countP isFail
  lines : ∀ ko ∈ kos, ko.isFile = true →
    skipped ko.mod ∈ console ∨ passed ko.mod ∈ console ∨ failed ko.mod ∈ console

theorem countP_noise (noise : List Noise) : (noise.map Noise.line).countP isFail = 0 := by
  rw [List.countP_eq_zero]
  intro line member
  obtain ⟨n, _, rfl⟩ := List.mem_map.1 member
  rw [(noise_plain n).2]
  decide

/-- What is printed besides leaves the count, and the lines that are there. -/
theorem Told.more {kos : List Ko} {fail : Nat} {console : List LogLine}
    (told : Told kos fail console) (noise : List Noise) (more : List LogLine) :
    Told kos (fail + more.countP isFail) (console ++ (noise.map Noise.line ++ more)) where
  fail := by
    rw [List.countP_append, List.countP_append, countP_noise, told.fail]
    omega
  lines := by
    intro ko member isFile
    have stays : ∀ line ∈ console, line ∈ console ++ (noise.map Noise.line ++ more) :=
      fun line there => List.mem_append_left _ there
    exact (told.lines ko member isFile).imp (stays _) (Or.imp (stays _) (stays _))

/-- A module is reported with the next line. -/
theorem Told.report {kos : List Ko} {fail n : Nat} {console : List LogLine}
    (told : Told kos fail console) (noise : List Noise) {ko : Ko} {line : LogLine}
    (own : line = skipped ko.mod ∨ line = passed ko.mod ∨ line = failed ko.mod)
    (counted : [line].countP isFail = n) :
    Told (kos ++ [ko]) (fail + n) (console ++ (noise.map Noise.line ++ [line])) where
  fail := by
    rw [← counted]
    exact (told.more noise [line]).fail
  lines := by
    intro other member isFile
    rcases List.mem_append.1 member with old | new
    · exact (told.more noise [line]).lines other old isFile
    · rw [List.mem_singleton.1 new]
      have last : line ∈ console ++ (noise.map Noise.line ++ [line]) := by simp
      rcases own with rfl | rfl | rfl
      · exact .inl last
      · exact .inr (.inl last)
      · exact .inr (.inr last)

abbrev Returns {ρ : Type} (Q : ρ → List LogLine → Prop) (p : Script ρ) (console : List LogLine) :
    Prop :=
  p.Ends perform (fun _ _ => True) Q console

theorem returns_run {ρ : Type} {Q : ρ → List LogLine → Prop} {c : Command} {p : Script ρ}
    {console : List LogLine}
    (rest : ∀ noise : List Noise, Returns Q p (console ++ (noise.map Noise.line ++ c.prints))) :
    Returns Q (do run c; p) console := by
  intro a after done _
  cases done
  exact rest a.noise

theorem silent_keeps {kos : List Ko} {fail : Nat} {console after : List LogLine} {c : Command}
    {a : Answer} (silent : Silent c) (told : Told kos fail console)
    (done : perform console c a = some after) : Told kos fail after := by
  cases done
  rw [silent]
  exact told.more a.noise []

/-- **One module.** -/
theorem testKo_told {kos : List Ko} {t : Tally} {console : List LogLine} (ko : Ko)
    (told : Told kos t.fail console) :
    Returns (fun t' after => Told (kos ++ [ko]) t'.fail after) (testKo g ko t) console := by
  unfold testKo
  split
  · rename_i missing
    refine ⟨told.fail, ?_⟩
    intro other member isFile
    rcases List.mem_append.1 member with old | new
    · exact told.lines other old isFile
    · rw [List.mem_singleton.1 new] at isFile
      simp [isFile] at missing
  split
  · refine returns_run fun noise => ?_
    have counted : [skipped ko.mod].countP isFail = 0 := by
      simp [(skipped_plain ko.mod).2]
    exact told.report noise (.inl rfl) counted
  refine Calls.ends_bind.2 (Calls.Ends.mono ?_ (Calls.Only.ends (fun _ _ _ _ => silent_keeps)
    (loadTwice_silent ko) told))
  intro loaded console told
  split
  · refine returns_run fun noise => ?_
    have counted : [passed ko.mod].countP isFail = 0 := by
      simp [isFail_passed]
    exact told.report noise (.inr (.inl rfl)) counted
  · refine returns_run fun noise => returns_run fun noise' => ?_
    have counted : [failed ko.mod].countP isFail = 1 := by
      simp [isFail_failed]
    exact (told.report noise (.inr (.inr rfl)) counted).more noise' []

/-- **The loop.** -/
theorem testAll_told {kos done : List Ko} {t : Tally} {console : List LogLine}
    (told : Told done t.fail console) :
    Returns (fun t' after => Told (done ++ kos) t'.fail after) (testAll g kos t) console := by
  induction kos generalizing done t console with
  | nil =>
      rw [List.append_nil]
      exact told
  | cons ko kos ih =>
      refine Calls.ends_bind.2 (Calls.Ends.mono ?_ (testKo_told ko told))
      intro t' after told
      rw [List.append_cons]
      exact ih told

/-- The exit status is 0 if and only if the log has no failure. -/
def Right (g : Guest) (result : Nat) (console : List LogLine) : Prop :=
  ∃ fail, Told g.examples fail console ∧ (result = 0 ↔ fail = 0)

theorem Right.more {result : Nat} {console : List LogLine} (right : Right g result console)
    (noise : List Noise) {line : LogLine} (plain : Plain line) :
    Right g result (console ++ (noise.map Noise.line ++ [line])) := by
  obtain ⟨fail, told, same⟩ := right
  have counted : [line].countP isFail = 0 := by
    simp [plain.2]
  have after := told.more noise [line]
  rw [counted] at after
  exact ⟨fail, after, same⟩

/-- **guest-test.sh**, when it comes to its end. -/
theorem guestTest_right {console : List LogLine} (clean : console.countP isFail = 0) :
    Returns (Right g) (guestTest g) console := by
  have told : Told [] 0 console := by
    refine ⟨clean.symm, ?_⟩
    intro ko member
    cases member
  refine Calls.ends_bind.2 (Calls.Ends.mono ?_ (testAll_told told))
  intro t console told
  refine returns_run fun noise => returns_run fun noise' => ?_
  have blank := told.more noise [⟨[], by decide⟩]
  have counted : [results t].countP isFail = 0 := by
    simp [(results_plain t).2]
  have after := blank.more noise' [results t]
  rw [counted] at after
  split
  · rename_i none
    refine returns_run fun noise => ?_
    exact ⟨t.fail, after.more noise [⟨text "LKMPG:EXIT 0", by decide⟩], fun _ => none, fun _ => rfl⟩
  · rename_i some
    refine returns_run fun noise => ?_
    refine ⟨t.fail, after.more noise [⟨text "LKMPG:EXIT 1", by decide⟩], ?_⟩
    exact ⟨fun no => absurd no Nat.one_ne_zero, fun no => absurd no some⟩

/-! ## Runs -/

structure State.Sound (g : Guest) (s : State) : Prop where
  known : ∀ line ∈ s.console, Known g line
  only : s.script.Only (Speaks g)
  returns : s.off = false → Returns (Right g) s.script s.console
  ended : s.off = true → ∀ result, s.script = .ret result → Right g result s.console

theorem State.Sound.right {s : State} (sound : s.Sound g) {result : Nat}
    (ended : s.script = .ret result) : Right g result s.console := by
  cases off : s.off with
  | true => exact sound.ended off result ended
  | false =>
      have returns := sound.returns off
      rw [ended] at returns
      exact returns

theorem known_append {console more : List LogLine} (known : ∀ line ∈ console, Known g line)
    (noise : List Noise) (said : ∀ line ∈ more, Known g line) :
    ∀ line ∈ console ++ (noise.map Noise.line ++ more), Known g line := by
  intro line member
  rcases List.mem_append.1 member with old | new
  · exact known line old
  rcases List.mem_append.1 new with other | own
  · obtain ⟨n, _, rfl⟩ := List.mem_map.1 other
    exact .inl (noise_plain n)
  · exact said line own

theorem testMode_plain : Plain testMode := by decide

theorem testExited_plain (result : Nat) : Plain (testExited result) :=
  plain_append (by decide) (by decide) _

theorem start_sound (g : Guest) (boot : List Noise) : (start g boot).Sound g := by
  refine ⟨?_, guestTest_only g, fun _ => guestTest_right ?_, fun on => by cases on⟩
  · have none : ∀ line ∈ ([] : List LogLine), Known g line := nofun
    apply known_append none boot
    intro line member
    rw [List.mem_singleton.1 member]
    exact .inl testMode_plain
  · show (boot.map Noise.line ++ [testMode]).countP isFail = 0
    rw [List.countP_append, countP_noise]
    decide

theorem step_sound {s s' : State} {a : Action} (sound : s.Sound g) (next : step s a = some s') :
    s'.Sound g := by
  cases a with
  | command a =>
      simp only [step] at next
      split at next
      · rename_i c rest off at_
        obtain ⟨console, done, rfl⟩ := Option.map_eq_some_iff.1 next
        have only := sound.only
        have returns := sound.returns off
        rw [at_] at only returns
        have after := returns.step done trivial
        cases done
        refine ⟨known_append sound.known a.noise only.1, only.2 a, fun _ => after, ?_⟩
        intro on
        cases off.symm.trans on
      · cases next
  | stop killed noise =>
      simp only [step] at next
      split at next <;> cases next
      refine ⟨?_, sound.only, nofun, ?_⟩
      · apply known_append sound.known noise
        intro line member
        rw [List.mem_singleton.1 member]
        exact .inl (testExited_plain _)
      · intro _ result ended
        exact (sound.right ended).more noise (testExited_plain _)

theorem reachable_sound {s : State} (reached : (system g).Reachable s) : s.Sound g := by
  refine reached.induct ?_ fun s a s' sound next => step_sound (s := s) sound next
  rintro s ⟨boot, rfl⟩
  exact start_sound g boot

/-! ## The verdict -/

/-- The exit status of guest-test.sh, when it has come to its end. -/
def State.ended (s : State) : Option Nat :=
  match s.script with
  | .ret result => some result
  | .call _ _ => none

theorem ended_eq_some {s : State} {result : Nat} (ended : s.ended = some result) :
    s.script = .ret result := by
  unfold State.ended at ended
  split at ended <;> cases ended
  assumption

/-- A module has been reported as PASS. -/
def Guest.Passed (g : Guest) (console : List LogLine) : Prop :=
  ∃ ko ∈ g.examples, passed ko.mod ∈ console

/-- A module has been reported as FAIL. -/
def Guest.Failed (g : Guest) (console : List LogLine) : Prop :=
  ∃ ko ∈ g.examples, failed ko.mod ∈ console

/-- guest-test.sh has reached its end with `FAIL` = 0. -/
structure State.Complete (g : Guest) (s : State) : Prop where
  ended : s.ended = some 0
  reported : ∀ ko ∈ g.examples, ko.isFile = true →
    passed ko.mod ∈ s.console ∨ skipped ko.mod ∈ s.console
  noFail : ¬ g.Failed s.console

theorem countP_isPass {console : List LogLine} (known : ∀ line ∈ console, Known g line) :
    console.countP isPass ≠ 0 ↔ g.Passed console := by
  rw [Nat.ne_zero_iff_zero_lt, List.countP_pos_iff]
  constructor
  · rintro ⟨line, there, pass⟩
    rcases known line there with plain | ⟨ko, member, rfl | rfl⟩
    · rw [plain.1] at pass
      cases pass
    · exact ⟨ko, member, there⟩
    · rw [isPass_failed] at pass
      cases pass
  · rintro ⟨ko, _, there⟩
    exact ⟨passed ko.mod, there, isPass_passed ko.mod⟩

theorem countP_isFail {console : List LogLine} (known : ∀ line ∈ console, Known g line) :
    console.countP isFail ≠ 0 ↔ g.Failed console := by
  rw [Nat.ne_zero_iff_zero_lt, List.countP_pos_iff]
  constructor
  · rintro ⟨line, there, fail⟩
    rcases known line there with plain | ⟨ko, member, rfl | rfl⟩
    · rw [plain.2] at fail
      cases fail
    · rw [isFail_passed] at fail
      cases fail
    · exact ⟨ko, member, there⟩
  · rintro ⟨ko, _, there⟩
    exact ⟨failed ko.mod, there, isFail_failed ko.mod⟩

/-- The exit status of test-modules.sh, in terms of the reports. -/
theorem green_iff {s : State} (sound : s.Sound g) (timeout : List UInt8) (qemuExit : Nat) :
    (testModules timeout (unlines newline s.console) qemuExit).exit = 0 ↔
      ¬ g.Failed s.console ∧ g.Passed s.console ∧ qemuExit = 0 := by
  rw [testModules_exit, grepCount_fail, grepCount_pass, countP_isPass sound.known,
    ← countP_isFail sound.known, not_not]

/-- At the end of guest-test.sh, a log without a failure is one of a complete run. -/
theorem complete_of_ended {s : State} (sound : s.Sound g) {result : Nat}
    (ended : s.ended = some result) (noFail : ¬ g.Failed s.console) : s.Complete g := by
  obtain ⟨fail, told, same⟩ := sound.right (ended_eq_some ended)
  have none : fail = 0 := by
    rw [told.fail]
    exact not_not.1 fun some => noFail ((countP_isFail sound.known).1 some)
  refine ⟨?_, ?_, noFail⟩
  · rw [ended, same.2 none]
  · intro ko member isFile
    rcases told.lines ko member isFile with skip | pass | fail
    · exact .inr skip
    · exact .inl pass
    · exact absurd ⟨ko, member, fail⟩ noFail

/-- **Green means complete** unless guest-test.sh stops before its end, with a PASS
reported and no FAIL, and QEMU exits with 0; and only then. -/
theorem test_modules_green_iff (g : Guest) (s : State) (reached : (system g).Reachable s)
    (timeout : List UInt8) (qemuExit : Nat) :
    ((testModules timeout (unlines newline s.console) qemuExit).exit = 0 → s.Complete g) ↔
      (s.ended = none → qemuExit = 0 → g.Passed s.console → g.Failed s.console) := by
  have sound := reachable_sound reached
  rw [green_iff sound]
  constructor
  · intro complete stopped qemu pass
    by_contra noFail
    have ended := (complete ⟨noFail, pass, qemu⟩).ended
    cases stopped.symm.trans ended
  · rintro cut ⟨noFail, pass, qemu⟩
    cases ended : s.ended with
    | none => exact absurd (cut ended qemu pass) noFail
    | some result => exact complete_of_ended sound ended noFail

/-! ### Two modules -/

def hello1 : Ko := ⟨⟨text "hello-1", by decide⟩, true⟩

def hello2 : Ko := ⟨⟨text "hello-2", by decide⟩, true⟩

def twoModules : Guest := ⟨[hello1, hello2], none, none⟩

def zero : Action := .command ⟨true, []⟩

/-- Both modules pass, and the guest powers off. -/
def bothPass : List Action :=
  [zero, zero, zero, zero, zero, zero, zero, zero, zero, zero, zero, zero, zero, .stop 0 []]

/-- The guest stops when it has reported the first. -/
def onePasses : List Action := [zero, zero, zero, zero, zero, .stop 137 []]

def seen (s : State) : Bool × Option Nat × Nat :=
  (s.off, s.ended, (testModules (text "300") (unlines newline s.console) 0).exit)

theorem test_modules_green_both :
    ∃ s, (system twoModules).Reachable s ∧
      (testModules (text "300") (unlines newline s.console) 0).exit = 0 ∧
      s.Complete twoModules := by
  have ends : ((system twoModules).run (start twoModules []) bothPass).map seen =
      some (true, some 0, 0) := by decide
  obtain ⟨s, ran, same⟩ := Option.map_eq_some_iff.1 ends
  simp only [seen, Prod.mk.injEq] at same
  obtain ⟨_, ended, green⟩ := same
  have reached : (system twoModules).Reachable s := ⟨_, bothPass, ⟨[], rfl⟩, ran⟩
  refine ⟨s, reached, green, ?_⟩
  refine (test_modules_green_iff twoModules s reached (text "300") 0).2 ?_ green
  intro stopped
  cases ended.symm.trans stopped

theorem test_modules_green_early :
    ∃ s, (system twoModules).Reachable s ∧ s.off = true ∧
      (testModules (text "300") (unlines newline s.console) 0).exit = 0 ∧
      ¬ s.Complete twoModules := by
  have ends : ((system twoModules).run (start twoModules []) onePasses).map seen =
      some (true, none, 0) := by decide
  obtain ⟨s, ran, same⟩ := Option.map_eq_some_iff.1 ends
  simp only [seen, Prod.mk.injEq] at same
  obtain ⟨off, stopped, green⟩ := same
  refine ⟨s, ⟨_, onePasses, ⟨[], rfl⟩, ran⟩, off, green, ?_⟩
  intro complete
  cases stopped.symm.trans complete.ended

end Lkmpg.GuestTest
