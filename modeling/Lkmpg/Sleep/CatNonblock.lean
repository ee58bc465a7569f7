/-
# Lkmpg.Sleep.CatNonblock -- cat_nonblock.c on /proc/sleep

One process runs `main` of cat_nonblock.c on `/proc/sleep`, while any number of others use
the file.  A step of it is a step of the driver, or what `main` does with the answer of a
system call.

* `Reads`: where the process and the driver can be at the same time;
* `cat_nonblock_sleep`: it never waits, comes to its end, and what it has printed then.
-/
import Lkmpg.Sleep.Sessions
import Lkmpg.Sleep.Wakeup

namespace Lkmpg.Sleep.CatNonblock

open Lkmpg.Kernel Lkmpg.Theory

set_option autoImplicit false

def MAX_BYTES : Nat := 1024 * 4

/-- The system call `main` is in, or its exit status. -/
inductive MainPc where
  | open
  | read
  | close
  | exited (status : Nat)
  deriving DecidableEq

/-- What `main` does when the system call has returned, and what it prints.  The bytes are
those that were read. -/
def main (ret : Int) (bytes : List UInt8) : MainPc → MainPc × List UInt8
  | .open =>
      if ret < 0 then
        (.exited 1, if ret = -EAGAIN then text "Open would block\n" else text "Open failed\n")
      else (.read, [])
  | .read =>
      if ret < 0 then
        (.exited 1, if ret = -EAGAIN then text "Normally I'd block, but you told me not to\n"
          else text "Another read error\n")
      else if ret = 0 then (.close, [])
      else (.read, bytes)
  | .close => (.exited 0, [])
  | .exited status => (.exited status, [])

variable (P : Type)

structure State where
  driver : Sleep.State P
  main : MainPc
  stdout : List UInt8
  /-- The driver's data when `open` returned. -/
  found : Option Data

inductive Action where
  /-- The next step of cat_nonblock. -/
  | cat
  | other (a : Sleep.Action P)

variable {P}

def State.answer (s : State P) (ret : Int) (bytes : List UInt8) : State P :=
  let (next, printed) := CatNonblock.main ret bytes s.main
  { s with main := next, stdout := s.stdout ++ printed }

variable [DecidableEq P] (c : P)

def catStep (s : State P) : Option (State P) :=
  match s.main, s.driver.pc c with
  | .open, .outside =>
      (Sleep.step s.driver (.moduleOpen c true)).map fun t => { s with driver := t }
  | .open, .opened => some ({ s with found := some s.driver.data }.answer 0 [])
  | .open, .failed ret => some (s.answer ret [])
  | .open, _ => (Sleep.runStep s.driver c).map fun t => { s with driver := t }
  | .read, _ =>
      (Sleep.step s.driver (.moduleOutput c MAX_BYTES)).map fun t =>
        let bytes := (moduleOutput s.driver.data MAX_BYTES).2
        { s with driver := t }.answer bytes.length bytes
  | .close, .opened =>
      (Sleep.step s.driver (.moduleClose c)).map fun t => { s with driver := t }
  | .close, .outside => some (s.answer 0 [])
  | .close, _ => (Sleep.runStep s.driver c).map fun t => { s with driver := t }
  | .exited _, _ => none

def step (s : State P) : Action P → Option (State P)
  | .cat => catStep c s
  | .other a =>
      if a.who = c then none
      else (Sleep.step s.driver a).map fun t => { s with driver := t }

def start : State P := ⟨Sleep.start, .open, [], none⟩

def system : System (State P) (Action P) where
  Start s := s = start
  step := step c

/-! ## Where it can be -/

/-- What there is to read for one that finds the data so. -/
def told (d : Data) : List UInt8 := if d.finished then [] else lastInput (cstr d.message)

/-- Between `open` and the last `read`. -/
inductive Reading (now : Data) (stdout : List UInt8) (d : Data) : Prop where
  | first (same : now = d) (nothing : stdout = [])
  | last (fresh : d.finished = false) (finished : now = { d with finished := true })
      (printed : stdout = lastInput (cstr d.message))

/-- `main` and the driver.  The arguments are those of a state. -/
inductive Reads (now : Data) : MainPc → Pc → List UInt8 → Option Data → Prop where
  | opening {pc : Pc} (at_ : pc = .outside ∨ pc = .tryOpen true ∨ pc = .flags true ∨
      pc = .failed (-EAGAIN) ∨ pc = .opened) : Reads now .open pc [] none
  | reading {stdout : List UInt8} {d : Data} (reading : Reading now stdout d) :
      Reads now .read .opened stdout (some d)
  | closing {pc : Pc} {d : Data} (at_ : pc = .opened ∨ pc = .closing ∨ pc = .waking ∨
      pc = .outside) : Reads now .close pc (told d) (some d)
  | done {d : Data} : Reads now (.exited 0) .outside (told d) (some d)
  | blocked : Reads now (.exited 1) (.failed (-EAGAIN)) (text "Open would block\n") none

/-- The steps it has left. -/
def left (now : Data) : MainPc → Pc → Nat
  | .open, .outside => 9
  | .open, .tryOpen _ => 8
  | .open, .opened => 7
  | .open, .flags _ => 2
  | .open, _ => 1
  | .read, _ => if now.finished then 5 else 6
  | .close, .opened => 4
  | .close, .closing => 3
  | .close, .waking => 2
  | .close, _ => 1
  | .exited _, _ => 0

variable {c} {s t : State P}

def State.left (c : P) (s : State P) : Nat :=
  CatNonblock.left s.driver.data s.main (s.driver.pc c)

structure Good (c : P) (s : State P) : Prop where
  driver : (Sleep.system P).Reachable s.driver
  reads : Reads s.driver.data s.main (s.driver.pc c) s.stdout s.found
  queue : s.driver.waitq c = false

/-- It does not come to where it would join the queue, or sleep on it. -/
theorem Reads.awake {now : Data} {main : MainPc} {pc : Pc} {stdout : List UInt8}
    {found : Option Data} (reads : Reads now main pc stdout found) :
    pc ≠ .join ∧ pc.dozing = false := by
  cases reads with
  | opening at_ => rcases at_ with rfl | rfl | rfl | rfl | rfl <;> exact ⟨by decide, rfl⟩
  | closing at_ => rcases at_ with rfl | rfl | rfl | rfl <;> exact ⟨by decide, rfl⟩
  | reading | done | blocked => exact ⟨by decide, rfl⟩

/-- Whoever takes a step of the driver, the process stays off the queue. -/
theorem Good.queue_step {a : Sleep.Action P} {d : Sleep.State P} (good : Good c s)
    (moved : Sleep.step s.driver a = some d) : d.waitq c = false := by
  by_contra queued
  rw [Bool.not_eq_false] at queued
  rcases step_queued moved queued with before | ⟨-, join⟩
  · rw [good.queue] at before
    cases before
  · exact good.reads.awake.1 join

theorem Good.driver_step {a : Sleep.Action P} {d : Sleep.State P} {main : MainPc}
    {stdout : List UInt8} (good : Good c s) (moved : Sleep.step s.driver a = some d)
    (reads : Reads d.data main (d.pc c) stdout s.found) :
    Good c { s with driver := d, main := main, stdout := stdout } :=
  ⟨good.driver.step moved, reads, good.queue_step moved⟩

theorem start_good : Good c (start : State P) :=
  ⟨System.Reachable.start rfl, .opening (.inl rfl), rfl⟩

/-! ## The steps of the others -/

/-- What the others do with the data matters only while the process reads. -/
theorem Reads.congr {now now' : Data} {main : MainPc} {pc : Pc} {stdout : List UInt8}
    {found : Option Data} (reads : Reads now main pc stdout found)
    (same : main = .read → now' = now) : Reads now' main pc stdout found := by
  cases reads with
  | opening at_ => exact .opening at_
  | reading reading =>
      rw [same rfl]
      exact .reading reading
  | closing at_ => exact .closing at_
  | done => exact .done
  | blocked => exact .blocked

theorem left_congr {now now' : Data} {main : MainPc} (pc : Pc)
    (same : main = .read → now' = now) :
    CatNonblock.left now' main pc = CatNonblock.left now main pc := by
  cases main with
  | read => rw [same rfl]
  | _ => cases pc <;> rfl

/-- Nobody else has the file. -/
theorem other_data {d d' : Sleep.State P} {a : Sleep.Action P}
    (reached : (Sleep.system P).Reachable d) (other : a.who ≠ c) (opened : d.pc c = .opened)
    (next : Sleep.step d a = some d') : d'.data = d.data := by
  cases step_kind next with
  | enter _ _ next =>
      rw [next]
      rfl
  | leave _ next =>
      rw [next]
      rfl
  | work m at_ _ =>
      have mine : (d.pc c).holds = true := by rw [opened]; rfl
      have its : (d.pc a.who).holds = true := by rw [at_]; rfl
      exact absurd (reachable_exclusive reached its mine) other
  | quiet _ data _ => exact data

theorem Reads.opened {now : Data} {pc : Pc} {stdout : List UInt8} {found : Option Data}
    (reads : Reads now .read pc stdout found) : pc = .opened := by
  cases reads
  rfl

/-- **A step of another process.** -/
theorem other_good {a : Sleep.Action P} (good : Good c s)
    (next : step c s (.other a) = some t) : Good c t ∧ t.left c = s.left c := by
  simp only [step] at next
  split at next
  · cases next
  rename_i other
  obtain ⟨d, moved, rfl⟩ := Option.map_eq_some_iff.1 next
  have stays : d.pc c = s.driver.pc c := step_pc_of_ne moved (Ne.symm other)
  have same : s.main = .read → d.data = s.driver.data := by
    intro reading
    have reads := good.reads
    rw [reading] at reads
    exact other_data good.driver other reads.opened moved
  refine ⟨good.driver_step moved ?_, ?_⟩
  · rw [stays]
    exact good.reads.congr same
  · show CatNonblock.left d.data s.main (d.pc c) = _
    rw [stays]
    exact left_congr _ same

/-! ## The steps of cat_nonblock -/

/-- All of it goes into the buffer. -/
theorem lastInput_take (d : Data) :
    (lastInput (cstr d.message)).take MAX_BYTES = lastInput (cstr d.message) := by
  have front : (text "Last input:").length = 11 := by decide
  have back : (text "\n").length = 1 := by decide
  have message : (cstr d.message).length ≤ MESSAGE_LENGTH := by
    rw [← d.message_len]
    exact (List.takeWhile_prefix _).length_le
  refine List.take_of_length_le ?_
  simp only [lastInput, List.length_append, front, back, MAX_BYTES]
  simp only [MESSAGE_LENGTH] at message
  omega

/-- The end of the file. -/
theorem read_end (main : s.main = .read) (opened : s.driver.pc c = .opened)
    (finished : s.driver.data.finished = true) :
    ∃ d, Sleep.step s.driver (.moduleOutput c MAX_BYTES) = some d ∧ d.pc = s.driver.pc ∧
      catStep c s = some { s with driver := d, main := .close } := by
  have output := moduleOutput_finished finished MAX_BYTES
  refine ⟨{ s.driver with data := (moduleOutput s.driver.data MAX_BYTES).1 },
    by simp only [Sleep.step, opened], rfl, ?_⟩
  simp [catStep, Sleep.step, main, opened, output, State.answer, CatNonblock.main]

/-- The first of the reads. -/
theorem read_first (main : s.main = .read) (opened : s.driver.pc c = .opened)
    (fresh : s.driver.data.finished = false) :
    ∃ d, Sleep.step s.driver (.moduleOutput c MAX_BYTES) = some d ∧ d.pc = s.driver.pc ∧
      d.data = { s.driver.data with finished := true } ∧
      catStep c s = some { s with
        driver := d
        stdout := s.stdout ++ lastInput (cstr s.driver.data.message) } := by
  have output := moduleOutput_first fresh MAX_BYTES
  rw [lastInput_take] at output
  have pos : 0 < (lastInput (cstr s.driver.data.message)).length :=
    List.length_pos_iff.2 (lastInput_ne_nil _)
  have notNeg : ¬ ((lastInput (cstr s.driver.data.message)).length : Int) < 0 := by omega
  refine ⟨{ s.driver with data := (moduleOutput s.driver.data MAX_BYTES).1 },
    by simp only [Sleep.step, opened], rfl, by rw [output], ?_⟩
  simp [catStep, Sleep.step, main, opened, output, State.answer, CatNonblock.main, notNeg,
    lastInput_ne_nil]

/-- A step that keeps the invariant and comes nearer to the end. -/
def Nearer (c : P) (s t : State P) : Prop := Good c t ∧ t.left c < s.left c

/-- **The reads.** -/
theorem read_good {d : Data} (good : Good c s) (main : s.main = .read)
    (opened : s.driver.pc c = .opened) (found : s.found = some d)
    (reading : Reading s.driver.data s.stdout d) : ∃ t, catStep c s = some t ∧ Nearer c s t := by
  have eof : s.driver.data.finished = true → s.stdout = told d →
      ∃ t, catStep c s = some t ∧ Nearer c s t := by
    intro finished printed
    obtain ⟨driver, moved, same, stepped⟩ := read_end main opened finished
    have still : driver.pc c = .opened := by rw [same, opened]
    refine ⟨_, stepped, good.driver_step moved ?_, ?_⟩
    · rw [printed, found]
      exact .closing (.inl still)
    · simp [State.left, CatNonblock.left, main, still, finished]
  cases reading with
  | first same nothing =>
      cases finished : d.finished with
      | true =>
          refine eof (by rw [same, finished]) ?_
          rw [nothing, told, if_pos finished]
      | false =>
          have fresh : s.driver.data.finished = false := by rw [same, finished]
          obtain ⟨driver, moved, samePc, data, stepped⟩ := read_first main opened fresh
          have still : driver.pc c = .opened := by rw [samePc, opened]
          refine ⟨_, stepped, good.driver_step moved ?_, ?_⟩
          · rw [main, still, found, nothing, data, same]
            exact .reading (.last finished rfl rfl)
          · simp [State.left, CatNonblock.left, main, fresh, data]
  | last fresh finished printed =>
      refine eof (by rw [finished]) ?_
      rw [printed, told, fresh, if_neg Bool.false_ne_true]

/-- A step of the driver. -/
theorem moves_nearer {a : Sleep.Action P} {d : Sleep.State P} (good : Good c s)
    (moved : Sleep.step s.driver a = some d)
    (reads : Reads d.data s.main (d.pc c) s.stdout s.found)
    (lower : CatNonblock.left d.data s.main (d.pc c) < s.left c) :
    Nearer c s { s with driver := d } :=
  ⟨good.driver_step moved reads, lower⟩

theorem opening_good (good : Good c s) (main : s.main = .open) (out : s.stdout = [])
    (found : s.found = none) (at_ : s.driver.pc c = .outside ∨ s.driver.pc c = .tryOpen true ∨
      s.driver.pc c = .flags true ∨ s.driver.pc c = .failed (-EAGAIN) ∨
      s.driver.pc c = .opened) : ∃ t, catStep c s = some t ∧ Nearer c s t := by
  have opening : ∀ {now : Data} {pc : Pc}, (pc = .outside ∨ pc = .tryOpen true ∨
      pc = .flags true ∨ pc = .failed (-EAGAIN) ∨ pc = .opened) →
      Reads now s.main pc s.stdout s.found := by
    intro now pc at_
    rw [main, out, found]
    exact .opening at_
  rcases at_ with pc | pc | pc | pc | pc
  · refine ⟨{ s with driver := s.driver.goto c (.tryOpen true) }, ?_, ?_⟩
    · simp [catStep, main, pc, Sleep.step]
    refine moves_nearer (a := .moduleOpen c true) good (by simp [Sleep.step, pc]) ?_ ?_
    · exact opening (by simp)
    · simp [State.left, CatNonblock.left, main, pc]
  · refine ⟨{ s with driver := s.driver.take c (.flags true) }, ?_, ?_⟩
    · simp [catStep, main, pc, Sleep.runStep]
    refine moves_nearer (a := .run c) good (by simp [Sleep.step, Sleep.runStep, pc]) ?_ ?_
    · by_cases free : s.driver.alreadyOpen = 0
      · rw [take_free free]
        exact opening (by simp)
      · rw [take_busy free]
        exact opening (by simp)
    · by_cases free : s.driver.alreadyOpen = 0
      · simp [take_free free, State.left, CatNonblock.left, main, pc]
      · simp [take_busy free, State.left, CatNonblock.left, main, pc]
  · refine ⟨{ s with driver := s.driver.goto c (.failed (-EAGAIN)) }, ?_, ?_⟩
    · simp [catStep, main, pc, Sleep.runStep]
    refine moves_nearer (a := .run c) good (by simp [Sleep.step, Sleep.runStep, pc]) ?_ ?_
    · exact opening (by simp)
    · simp [State.left, CatNonblock.left, main, pc]
  · refine ⟨{ s with main := .exited 1, stdout := text "Open would block\n" }, ?_,
      ⟨good.driver, ?_, good.queue⟩, ?_⟩
    · simp [catStep, main, pc, State.answer, CatNonblock.main, EAGAIN, out]
    · show Reads s.driver.data (.exited 1) (s.driver.pc c) _ s.found
      rw [pc, found]
      exact .blocked
    · simp [State.left, CatNonblock.left, main, pc]
  · refine ⟨{ s with main := .read, found := some s.driver.data }, ?_,
      ⟨good.driver, ?_, good.queue⟩, ?_⟩
    · simp [catStep, main, pc, State.answer, CatNonblock.main]
    · show Reads s.driver.data .read (s.driver.pc c) s.stdout _
      rw [pc]
      exact .reading (.first rfl out)
    · simp only [State.left, CatNonblock.left, main, pc]
      split <;> decide

theorem closing_good {d : Data} (good : Good c s) (main : s.main = .close)
    (out : s.stdout = told d) (found : s.found = some d)
    (at_ : s.driver.pc c = .opened ∨ s.driver.pc c = .closing ∨ s.driver.pc c = .waking ∨
      s.driver.pc c = .outside) : ∃ t, catStep c s = some t ∧ Nearer c s t := by
  have closing : ∀ {now : Data} {pc : Pc}, (pc = .opened ∨ pc = .closing ∨ pc = .waking ∨
      pc = .outside) → Reads now s.main pc s.stdout s.found := by
    intro now pc at_
    rw [main, out, found]
    exact .closing at_
  rcases at_ with pc | pc | pc | pc
  · refine ⟨{ s with driver := s.driver.goto c .closing }, ?_, ?_⟩
    · simp [catStep, main, pc, Sleep.step]
    refine moves_nearer (a := .moduleClose c) good (by simp [Sleep.step, pc]) ?_ ?_
    · exact closing (by simp)
    · simp [State.left, CatNonblock.left, main, pc]
  · refine ⟨{ s with driver := { s.driver with alreadyOpen := 0 }.goto c .waking }, ?_, ?_⟩
    · simp [catStep, main, pc, Sleep.runStep]
    refine moves_nearer (a := .run c) good (by simp [Sleep.step, Sleep.runStep, pc]) ?_ ?_
    · exact closing (by simp)
    · simp [State.left, CatNonblock.left, main, pc]
  · refine ⟨{ s with driver := { s.driver with waitq := fun _ => false }.goto c .outside }, ?_, ?_⟩
    · simp [catStep, main, pc, Sleep.runStep]
    refine moves_nearer (a := .run c) good (by simp [Sleep.step, Sleep.runStep, pc]) ?_ ?_
    · exact closing (by simp)
    · simp [State.left, CatNonblock.left, main, pc]
  · refine ⟨{ s with main := .exited 0 }, ?_, ⟨good.driver, ?_, good.queue⟩, ?_⟩
    · simp [catStep, main, pc, State.answer, CatNonblock.main]
    · show Reads s.driver.data (.exited 0) (s.driver.pc c) s.stdout s.found
      rw [pc, out, found]
      exact .done
    · simp [State.left, CatNonblock.left, main, pc]

/-- **One step** of cat_nonblock, which there always is. -/
theorem cat_good (good : Good c s) (running : ∀ status, s.main ≠ .exited status) :
    ∃ t, catStep c s = some t ∧ Nearer c s t := by
  have reads := good.reads
  generalize main : s.main = m at reads
  generalize pcEq : s.driver.pc c = pc at reads
  generalize out : s.stdout = stdout at reads
  generalize found : s.found = f at reads
  cases reads with
  | opening at_ => exact opening_good good main out found (by rwa [pcEq])
  | reading reading =>
      rw [← out] at reading
      exact read_good good main pcEq found reading
  | closing at_ => exact closing_good good main out found (by rwa [pcEq])
  | done => exact absurd main (running 0)
  | blocked => exact absurd main (running 1)

/-! ## The end -/

section

variable {now : Data} {pc : Pc} {stdout : List UInt8} {found : Option Data}

theorem Reads.status {status : Nat} (reads : Reads now (.exited status) pc stdout found) :
    status = 0 ∨ status = 1 := by
  cases reads with
  | done => exact .inl rfl
  | blocked => exact .inr rfl

theorem Reads.blocked_told (reads : Reads now (.exited 1) pc stdout found) :
    stdout = text "Open would block\n" ∧ found = none := by
  cases reads
  exact ⟨rfl, rfl⟩

theorem Reads.done_told (reads : Reads now (.exited 0) pc stdout found) :
    pc = .outside ∧ ∃ d, found = some d ∧ stdout = told d := by
  cases reads with
  | done => exact ⟨rfl, _, rfl, rfl⟩

end

/-! ## Runs -/

def Action.isCat : Action P → Bool
  | .cat => true
  | .other _ => false

theorem step_good {a : Action P} (good : Good c s) (next : step c s a = some t) :
    Good c t ∧ t.left c + [a].countP Action.isCat ≤ s.left c := by
  cases a with
  | cat =>
      have running : ∀ status, s.main ≠ .exited status := by
        intro status ended
        simp [step, catStep, ended] at next
      obtain ⟨t', stepped, good', lower⟩ := cat_good good running
      cases stepped.symm.trans next
      exact ⟨good', lower⟩
  | other a =>
      obtain ⟨good', same⟩ := other_good good next
      exact ⟨good', Nat.le_of_eq same⟩

theorem run_good {as : List (Action P)} (good : Good c s) (ran : (system c).run s as = some t) :
    Good c t ∧ t.left c + as.countP Action.isCat ≤ s.left c := by
  induction as generalizing s with
  | nil =>
      cases ran
      exact ⟨good, Nat.le_refl _⟩
  | cons a as ih =>
      obtain ⟨m, next, rest⟩ := System.run_cons.1 ran
      obtain ⟨good, lower⟩ := step_good good next
      obtain ⟨good', lower'⟩ := ih good rest
      refine ⟨good', ?_⟩
      have count : (a :: as).countP Action.isCat =
          [a].countP Action.isCat + as.countP Action.isCat := by
        rw [← List.countP_append]
        rfl
      omega

/-- **cat_nonblock never waits.**  Whatever the others do, it can take its next step until
it exits, and it takes at most nine; it is never on the wait queue, nor asleep.  It exits
with 1 when it is told that the open would block, and otherwise with 0: then it has printed
the message as it was when `open` returned, or nothing when the last reader left before the
end of the file; and it has closed the file. -/
theorem cat_nonblock_sleep {as : List (Action P)} (ran : (system c).run start as = some s) :
    as.countP Action.isCat ≤ 9 ∧
    ((step c s .cat).isSome ∨ s.main = .exited 0 ∨ s.main = .exited 1) ∧
    (s.driver.waitq c = false ∧ (s.driver.pc c).dozing = false) ∧
    (s.main = .exited 1 → s.stdout = text "Open would block\n" ∧ s.found = none) ∧
    (s.main = .exited 0 → s.driver.pc c = .outside ∧ ∃ d, s.found = some d ∧
      s.stdout = if d.finished then [] else lastInput (cstr d.message)) := by
  obtain ⟨good, bound⟩ := run_good start_good ran
  have reads := good.reads
  refine ⟨?_, ?_, ?_, ?_, ?_⟩
  · exact Nat.le_trans (Nat.le_add_left _ _) bound
  · by_cases running : ∀ status, s.main ≠ .exited status
    · obtain ⟨t, stepped, -⟩ := cat_good good running
      exact .inl (by simp [step, stepped])
    · obtain ⟨status, ended⟩ := not_forall_not.1 running
      rw [ended] at reads
      rw [ended]
      exact .inr (reads.status.imp (congrArg _) (congrArg _))
  · exact ⟨good.queue, reads.awake.2⟩
  · intro ended
    rw [ended] at reads
    exact reads.blocked_told
  · intro ended
    rw [ended] at reads
    exact reads.done_told

/-- Another process has written `hi` and closes the file when cat_nonblock comes. -/
def afterWrite : List (Action Bool) :=
  [.other (.moduleOpen true false), .other (.run true), .other (.moduleInput true (text "hi")),
    .other (.moduleClose true), .other (.run true), .cat, .other (.run true), .cat, .cat, .cat,
    .cat, .cat, .cat, .cat, .cat]

theorem cat_nonblock_sleep_hi : ∃ s : State Bool,
    (system false).run start afterWrite = some s ∧ s.main = .exited 0 ∧
      s.stdout = text "Last input:hi\n" ∧ s.driver.waitq false = false := by
  have ends : ((system false).run start afterWrite).map (fun s => (s.main, s.stdout)) =
      some (.exited 0, text "Last input:hi\n") := by decide
  obtain ⟨s, ran, same⟩ := Option.map_eq_some_iff.1 ends
  obtain ⟨main, stdout⟩ := Prod.mk.inj same
  exact ⟨s, ran, main, stdout, (cat_nonblock_sleep ran).2.2.1.1⟩

end Lkmpg.Sleep.CatNonblock
