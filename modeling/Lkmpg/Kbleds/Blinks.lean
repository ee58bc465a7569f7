/-
# Lkmpg.Kbleds.Blinks -- what kbleds.c tells the keyboard

`Good` says where the module and the function of its timer can be at the same time, and
from when on the next `ioctl` of the function may come (`State.next`).

* `step_good`: every step keeps it;
* `cleanup_ends`: what rmmod waits for is at most five steps of the function;
* `run_history`: which consoles are told, and which one by rmmod;
* `kbleds_blinks`: the calls of `ioctl` from insmod to the end of rmmod.
-/
import Lkmpg.Kbleds.Driver
import Mathlib.Data.List.Basic

namespace Lkmpg.Kbleds

open Lkmpg.Theory

set_option autoImplicit false

/-- What call number `i` of the timer's function sets. -/
def blinkStatus (i : Nat) : Nat := if i % 2 = 0 then ALL_LEDS_ON else RESTORE_LEDS

/-- What the first `n` calls set. -/
def blinks (n : Nat) : List Nat := (List.range n).map blinkStatus

/-- `kbledstatus` before call number `n`. -/
def statusBefore : Nat → Nat
  | 0 => 0
  | n + 1 => blinkStatus n

theorem next_status (n : Nat) :
    (if statusBefore n = ALL_LEDS_ON then RESTORE_LEDS else ALL_LEDS_ON) = blinkStatus n := by
  cases n with
  | zero => rfl
  | succ n =>
      rcases Nat.mod_two_eq_zero_or_one n with even | odd
      · have odd : (n + 1) % 2 = 1 := by omega
        simp [statusBefore, blinkStatus, even, odd]
      · have even : (n + 1) % 2 = 0 := by omega
        simp [statusBefore, blinkStatus, even, odd, ALL_LEDS_ON, RESTORE_LEDS]

variable {Tty : Type} {hz : Nat} {s t : State Tty} {l : List (Kdsetled Tty)}

/-- The time before which the function of the timer does not call `ioctl`. -/
def State.next (hz : Nat) (s : State Tty) : Nat :=
  match s.func with
  | none | some .addTimer => s.expires
  | some .expires => s.jiffies + blinkDelay hz
  | some .tty | some (.status _) | some (.ioctl _) => s.jiffies

def State.statusNow (s : State Tty) (n : Nat) : Nat :=
  match s.func with
  | some (.ioctl _) => blinkStatus n
  | _ => statusBefore n

/-- Where the timer can be. -/
def State.Placed (s : State Tty) : Prop :=
  match s.phase with
  | .initExpires | .initAddTimer | .restore | .removed => s.pending = false ∧ s.func = none
  | .loaded | .deleteSync => s.pending = !s.func.isSome

/-- `l` are the calls by the function of the timer. -/
structure Good (hz : Nat) (s : State Tty) (l : List (Kdsetled Tty)) : Prop where
  placed : s.Placed
  fine : s.misused = false
  log : if s.phase = .removed then ∃ time tty, s.log = l ++ [⟨time, tty, RESTORE_LEDS⟩]
    else s.log = l
  statuses : l.map Kdsetled.status = blinks l.length
  status : s.kbledstatus = s.statusNow l.length
  apart : l.Pairwise fun a b => a.time + blinkDelay hz ≤ b.time
  past : ∀ c ∈ l, c.time ≤ s.jiffies
  due : ∀ c ∈ l, c.time + blinkDelay hz ≤ s.next hz

theorem start_good (jiffies : Nat) (foreground : Tty) : Good hz (start jiffies foreground) [] where
  placed := ⟨rfl, rfl⟩
  fine := rfl
  log := rfl
  statuses := rfl
  status := rfl
  apart := List.Pairwise.nil
  past := nofun
  due := nofun

/-- The timer is on a list or its function runs while the module is there, and not both. -/
theorem State.Placed.active (placed : s.Placed) (busy : s.pending = true ∨ s.func.isSome) :
    (s.phase = .loaded ∨ s.phase = .deleteSync) ∧ s.pending = !s.func.isSome := by
  unfold State.Placed at placed
  cases phase : s.phase with
  | loaded => exact ⟨.inl rfl, by simpa only [phase] using placed⟩
  | deleteSync => exact ⟨.inr rfl, by simpa only [phase] using placed⟩
  | _ => simp [phase] at placed; simp [placed] at busy

/-- While the function runs. -/
theorem State.Placed.running (placed : s.Placed) {pc : FuncPc Tty} (at_ : s.func = some pc) :
    s.pending = false ∧ (s.phase = .loaded ∨ s.phase = .deleteSync) := by
  obtain ⟨active, alone⟩ := placed.active (.inr (by rw [at_]; rfl))
  exact ⟨by rw [alone, at_]; rfl, active⟩

/-- While the module is there, there is a timer or its function runs. -/
theorem placed_of_active (active : s.phase = .loaded ∨ s.phase = .deleteSync)
    (alone : s.pending = !s.func.isSome) : s.Placed := by
  rcases active with phase | phase <;> simpa [State.Placed, phase] using alone

theorem Good.log_eq (good : Good hz s l) (there : s.phase ≠ .removed) : s.log = l := by
  have log := good.log
  rwa [if_neg there] at log

theorem blinks_succ (n : Nat) : blinks (n + 1) = blinks n ++ [blinkStatus n] := by
  simp [blinks, List.range_succ]

/-- **One step** of `my_timer_func`. -/
theorem funcStep_good (good : Good hz s l) {pc : FuncPc Tty} (at_ : s.func = some pc) :
    ∃ l', Good hz (funcStep hz s pc) l' := by
  obtain ⟨unlisted, active⟩ := good.placed.running at_
  have there : s.phase ≠ .removed := by
    rcases active with phase | phase <;> rw [phase] <;> decide
  have log := good.log_eq there
  have status := good.status
  have due := good.due
  simp only [State.statusNow, State.next, at_] at status due
  cases pc with
  | tty =>
      exact ⟨l, placed_of_active (s := funcStep hz s .tty) active unlisted, good.fine,
        (if_neg there).mpr log, good.statuses, status, good.apart, good.past, due⟩
  | status t =>
      refine ⟨l, placed_of_active (s := funcStep hz s (.status t)) active unlisted, good.fine,
        (if_neg there).mpr log, good.statuses, ?_, good.apart, good.past, due⟩
      show (if s.kbledstatus = ALL_LEDS_ON then RESTORE_LEDS else ALL_LEDS_ON) = blinkStatus _
      rw [status, next_status]
  | ioctl t =>
      have status : s.kbledstatus = blinkStatus l.length := status
      refine ⟨l ++ [⟨s.jiffies, t, s.kbledstatus⟩],
        placed_of_active (s := funcStep hz s (.ioctl t)) active unlisted, good.fine,
        (if_neg there).mpr (congrArg (· ++ _) log), ?_, ?_, ?_, ?_, ?_⟩
      · rw [List.map_append, good.statuses, List.length_append, List.length_singleton, blinks_succ,
          ← status]
        rfl
      · show s.kbledstatus = statusBefore _
        rw [status, List.length_append]
        rfl
      · refine List.pairwise_append.2 ⟨good.apart, List.pairwise_singleton _ _, ?_⟩
        intro a member b last
        rw [List.mem_singleton.1 last]
        exact due a member
      · intro c member
        rcases List.mem_append.1 member with old | new
        · exact good.past c old
        · exact Nat.le_of_eq (congrArg Kdsetled.time (List.mem_singleton.1 new))
      · intro c member
        show c.time + blinkDelay hz ≤ s.jiffies + blinkDelay hz
        rcases List.mem_append.1 member with old | new
        · exact Nat.add_le_add_right (good.past c old) _
        · exact Nat.le_of_eq (congrArg (·.time + blinkDelay hz) (List.mem_singleton.1 new))
  | expires =>
      exact ⟨l, placed_of_active (s := funcStep hz s .expires) active unlisted, good.fine,
        (if_neg there).mpr log, good.statuses, status, good.apart, good.past, due⟩
  | addTimer =>
      have added : s.addTimer = { s with pending := true } := by
        simp [State.addTimer, unlisted]
      rw [funcStep, added]
      exact ⟨l, placed_of_active active rfl, good.fine, (if_neg there).mpr log, good.statuses,
        status, good.apart, good.past, due⟩

/-- **One step** of the module. -/
theorem moduleStep_good (good : Good hz s l) (next : moduleStep hz s = some t) : Good hz t l := by
  have placed := good.placed
  have status := good.status
  have due := good.due
  unfold State.Placed at placed
  unfold moduleStep at next
  cases phase : s.phase with
  | initExpires =>
      simp only [phase] at next placed
      cases next
      simp only [State.statusNow, State.next, placed.2] at status due
      have log := good.log_eq (by rw [phase]; decide)
      refine ⟨placed, good.fine, log, good.statuses, ?_, good.apart, good.past, ?_⟩
      · simpa only [State.statusNow, placed.2] using status
      · intro c member
        simpa only [State.next, placed.2] using Nat.add_le_add_right (good.past c member) _
  | initAddTimer =>
      simp only [phase] at next placed
      cases next
      have added : s.addTimer = { s with pending := true } := by
        simp [State.addTimer, placed.1]
      have log := good.log_eq (by rw [phase]; decide)
      rw [added]
      refine ⟨?_, good.fine, log, good.statuses, status, good.apart, good.past, due⟩
      simp [State.Placed, placed.2]
  | deleteSync =>
      simp only [phase] at next placed
      split at next <;> cases next
      rename_i ended
      have log := good.log_eq (by rw [phase]; decide)
      have none : s.func = none := Option.not_isSome_iff_eq_none.1 ended
      exact ⟨⟨rfl, none⟩, good.fine, log, good.statuses, status, good.apart, good.past, due⟩
  | restore =>
      simp only [phase] at next placed
      cases next
      have log := good.log_eq (by rw [phase]; decide)
      exact ⟨placed, good.fine, ⟨s.jiffies, s.foreground, congrArg (· ++ _) log⟩, good.statuses,
        status, good.apart, good.past, due⟩
  | loaded =>
      simp only [phase] at next
      cases next
  | removed =>
      simp only [phase] at next
      cases next

/-- **One step.** -/
theorem step_good {a : Action Tty} (good : Good hz s l) (next : step hz s a = some t) :
    ∃ l', Good hz t l' := by
  cases a with
  | tick =>
      cases next
      refine ⟨l, good.placed, good.fine, good.log, good.statuses, good.status, good.apart, ?_, ?_⟩
      · exact fun c member => Nat.le_succ_of_le (good.past c member)
      · intro c member
        have later : s.next hz ≤ State.next hz { s with jiffies := s.jiffies + 1 } := by
          unfold State.next
          split <;> simp_all
        exact Nat.le_trans (good.due c member) later
  | switch t =>
      cases next
      exact ⟨l, good.placed, good.fine, good.log, good.statuses, good.status, good.apart, good.past,
        good.due⟩
  | softirq =>
      simp only [step] at next
      split at next <;> cases next
      rename_i expired
      obtain ⟨pending, early, none⟩ := expired
      obtain ⟨active, -⟩ := good.placed.active (.inl pending)
      have status := good.status
      have due := good.due
      simp only [State.statusNow, State.next, none] at status due
      refine ⟨l, placed_of_active active rfl, good.fine, good.log, good.statuses, status,
        good.apart, good.past, ?_⟩
      exact fun c member => Nat.le_trans (due c member) early
  | func =>
      obtain ⟨pc, at_, rfl⟩ := Option.map_eq_some_iff.1 next
      exact funcStep_good good at_
  | rmmod =>
      simp only [step] at next
      split at next <;> cases next
      rename_i phase
      have placed := good.placed
      have log := good.log_eq (by rw [phase]; decide)
      simp only [State.Placed, phase] at placed
      exact ⟨l, placed, good.fine, log, good.statuses, good.status, good.apart, good.past, good.due⟩
  | module => exact ⟨l, moduleStep_good good next⟩

theorem reachable_good (reached : (system hz Tty).Reachable s) : ∃ l, Good hz s l := by
  refine System.Reachable.induct (I := fun s => ∃ l, Good hz s l) ?_ ?_ reached
  · rintro s ⟨jiffies, foreground, rfl⟩
    exact ⟨[], start_good jiffies foreground⟩
  · rintro s a t ⟨l, good⟩ next
    exact step_good good next

/-! ## The end of rmmod -/

/-- The steps that `my_timer_func` has left. -/
def FuncPc.left : FuncPc Tty → Nat
  | .tty => 5
  | .status _ => 4
  | .ioctl _ => 3
  | .expires => 2
  | .addTimer => 1

def State.funcLeft (s : State Tty) : Nat := s.func.elim 0 FuncPc.left

theorem funcLeft_le (s : State Tty) : s.funcLeft ≤ 5 := by
  unfold State.funcLeft
  rcases s.func with _ | _ | _ | _ | _ | _ <;> simp [FuncPc.left]

theorem funcStep_left (s : State Tty) (pc : FuncPc Tty) :
    (funcStep hz s pc).funcLeft + 1 = pc.left ∧ (funcStep hz s pc).phase = s.phase := by
  cases pc with
  | addTimer =>
      refine ⟨rfl, ?_⟩
      simp only [funcStep, State.addTimer]
      split <;> rfl
  | _ => exact ⟨rfl, rfl⟩

/-- The function ends when it is let. -/
theorem func_ends {n : Nat} (left : s.funcLeft = n) :
    ∃ t, (system hz Tty).run s (List.replicate n .func) = some t ∧ t.func = none ∧
      t.phase = s.phase := by
  induction n generalizing s with
  | zero =>
      refine ⟨s, rfl, ?_, rfl⟩
      cases at_ : s.func with
      | none => rfl
      | some pc =>
          simp only [State.funcLeft, at_, Option.elim_some] at left
          cases pc <;> cases left
  | succ n ih =>
      cases at_ : s.func with
      | none =>
          simp only [State.funcLeft, at_, Option.elim_none] at left
          cases left
      | some pc =>
          simp only [State.funcLeft, at_, Option.elim_some] at left
          obtain ⟨lower, phase⟩ := @funcStep_left Tty hz s pc
          obtain ⟨t, ran, none, same⟩ := ih (s := funcStep hz s pc) (by omega)
          refine ⟨t, System.run_cons.2 ⟨funcStep hz s pc, ?_, ran⟩, none, same.trans phase⟩
          simp [system, step, at_]

/-- **rmmod ends.**  It waits for at most five steps of the function. -/
theorem cleanup_ends (waits : s.phase = .deleteSync) :
    ∃ k ≤ 5, ∃ t, (system hz Tty).run s (List.replicate k .func ++ [.module, .module]) = some t ∧
      t.phase = .removed := by
  obtain ⟨t, ran, none, phase⟩ := @func_ends Tty hz s _ rfl
  refine ⟨s.funcLeft, funcLeft_le s, ?_⟩
  rw [System.run_append, ran, Option.bind_some]
  simp [System.run, system, step, moduleStep, phase, waits, none, State.ioctl]

/-! ## The consoles -/

/-- The console that the function has looked up. -/
def FuncPc.console : FuncPc Tty → Option Tty
  | .status t | .ioctl t => some t
  | .tty | .expires | .addTimer => none

/-- A console is told by the function that has looked it up, or by rmmod in the
foreground. -/
theorem step_log {a : Action Tty} (next : step hz s a = some t) :
    t.log = s.log ∨
    (∃ tty status, s.func = some (.ioctl tty) ∧ t.log = s.log ++ [⟨s.jiffies, tty, status⟩]) ∨
    (s.phase = .restore ∧ t.log = s.log ++ [⟨s.jiffies, s.foreground, RESTORE_LEDS⟩]) := by
  cases a with
  | tick | switch tty =>
      cases next
      exact .inl rfl
  | softirq | rmmod =>
      simp only [step] at next
      split at next <;> cases next
      exact .inl rfl
  | func =>
      obtain ⟨pc, at_, rfl⟩ := Option.map_eq_some_iff.1 next
      cases pc with
      | ioctl tty => exact .inr (.inl ⟨tty, s.kbledstatus, at_, rfl⟩)
      | addTimer => exact .inl s.addTimer_log
      | tty | status _ | expires => exact .inl rfl
  | module =>
      simp only [step, moduleStep] at next
      split at next
      · cases next
        exact .inl rfl
      · cases next
        exact .inl s.addTimer_log
      · split at next <;> cases next
        exact .inl rfl
      · cases next
        exact .inr (.inr ⟨‹_›, rfl⟩)
      · cases next
      · cases next

/-- The function looks up the console in the foreground. -/
theorem step_console {a : Action Tty} (next : step hz s a = some t) {pc : FuncPc Tty} {tty : Tty}
    (at_ : t.func = some pc) (looked : pc.console = some tty) :
    s.foreground = tty ∨ ∃ pc', s.func = some pc' ∧ pc'.console = some tty := by
  cases a with
  | tick | switch _ =>
      cases next
      exact .inr ⟨pc, at_, looked⟩
  | softirq =>
      simp only [step] at next
      split at next <;> cases next
      cases at_
      cases looked
  | rmmod =>
      simp only [step] at next
      split at next <;> cases next
      exact .inr ⟨pc, at_, looked⟩
  | func =>
      obtain ⟨before, was, rfl⟩ := Option.map_eq_some_iff.1 next
      cases before with
      | tty =>
          cases at_
          exact .inl (Option.some.inj looked)
      | status c =>
          cases at_
          exact .inr ⟨.status c, was, looked⟩
      | ioctl _ | expires | addTimer =>
          cases at_
          all_goals cases looked
  | module =>
      simp only [step, moduleStep] at next
      split at next
      · cases next
        exact .inr ⟨pc, at_, looked⟩
      · cases next
        exact .inr ⟨pc, s.addTimer_func.symm.trans at_, looked⟩
      · split at next <;> cases next
        exact .inr ⟨pc, at_, looked⟩
      · cases next
        exact .inr ⟨pc, at_, looked⟩
      · cases next
      · cases next

/-- The module is removed when rmmod has restored the LEDs, and nothing is told after it. -/
theorem step_removed (placed : s.Placed) {a : Action Tty} (next : step hz s a = some t)
    (removed : t.phase = .removed) :
    (s.phase = .removed ∧ t.log = s.log) ∨
    (a = .module ∧ s.phase = .restore ∧
      t.log = s.log ++ [⟨s.jiffies, s.foreground, RESTORE_LEDS⟩]) := by
  have idle : s.phase = .removed → s.func = none := by
    intro phase
    simp only [State.Placed, phase] at placed
    exact placed.2
  cases a with
  | tick | switch tty =>
      cases next
      exact .inl ⟨removed, rfl⟩
  | softirq =>
      simp only [step] at next
      split at next <;> cases next
      exact .inl ⟨removed, rfl⟩
  | rmmod =>
      simp only [step] at next
      split at next <;> cases next
      cases removed
  | func =>
      obtain ⟨pc, at_, rfl⟩ := Option.map_eq_some_iff.1 next
      have phase := (@funcStep_left Tty hz s pc).2.symm.trans removed
      rw [idle phase] at at_
      cases at_
  | module =>
      simp only [step, moduleStep] at next
      split at next
      · cases next
        cases removed
      · cases next
        cases removed
      · split at next <;> cases next
        cases removed
      · cases next
        exact .inr ⟨rfl, ‹_›, rfl⟩
      · cases next
      · cases next

/-- rmmod has restored the LEDs of the console that was in the foreground then, and no call
came after that one. -/
def Restored (hz : Nat) (x : State Tty) (as : List (Action Tty)) (s u : State Tty) : Prop :=
  ∃ bs cs, as = bs ++ .module :: cs ∧ (system hz Tty).run x bs = some u ∧ u.phase = .restore ∧
    s.log = u.log ++ [⟨u.jiffies, u.foreground, RESTORE_LEDS⟩]

/-- What a run has been through: `tty` was in the foreground. -/
abbrev Fronted (hz : Nat) (x : State Tty) (as : List (Action Tty)) (tty : Tty) : Prop :=
  (system hz Tty).Passes (fun u => u.foreground = tty) x as

structure History (hz : Nat) (x : State Tty) (as : List (Action Tty)) (s : State Tty) : Prop where
  func : ∀ pc tty, s.func = some pc → pc.console = some tty → Fronted hz x as tty
  log : ∀ c ∈ s.log, Fronted hz x as c.tty
  restored : s.phase = .removed → ∃ u, Restored hz x as s u

theorem run_history {x : State Tty} {as : List (Action Tty)} (started : (system hz Tty).Start x)
    (ran : (system hz Tty).run x as = some s) : History hz x as s := by
  refine System.run_history (I := History hz x) ?_ ?_ ran
  · obtain ⟨jiffies, foreground, rfl⟩ := started
    exact ⟨nofun, nofun, nofun⟩
  intro as s a t ran history next
  have now : Fronted hz x as s.foreground := System.Passes.last ran rfl
  have here := now.append [a]
  refine ⟨?_, ?_, ?_⟩
  · intro pc tty at_ looked
    rcases step_console next at_ looked with rfl | ⟨pc', was, before⟩
    · exact here
    · exact (history.func pc' tty was before).append [a]
  · intro c member
    rcases step_log next with same | ⟨tty, status, at_, log⟩ | ⟨-, log⟩
    · exact (history.log c (same ▸ member)).append [a]
    · rw [log, List.mem_append, List.mem_singleton] at member
      rcases member with old | rfl
      · exact (history.log c old).append [a]
      · exact (history.func _ tty at_ rfl).append [a]
    · rw [log, List.mem_append, List.mem_singleton] at member
      rcases member with old | rfl
      · exact (history.log c old).append [a]
      · exact here
  · intro removed
    obtain ⟨l, good⟩ := reachable_good (s := s) ⟨x, as, started, ran⟩
    rcases step_removed good.placed next removed with ⟨before, same⟩ | ⟨rfl, restore, log⟩
    · obtain ⟨u, bs, cs, rfl, ranU, phase, told⟩ := history.restored before
      exact ⟨u, bs, cs ++ [a], by simp, ranU, phase, same.trans told⟩
    · exact ⟨s, as, [], rfl, ran, restore, log⟩

/-! ## The LEDs -/

section

variable [DecidableEq Tty]

/-- The LEDs of the console have been switched on last. -/
def lit (log : List (Kdsetled Tty)) (tty : Tty) : Bool :=
  ((log.filter (·.tty = tty)).getLast?.map Kdsetled.status) = some ALL_LEDS_ON

/-- A console whose LEDs are on after the last call is not the one of that call, and was
told before. -/
theorem lit_restored {time : Nat} {last tty : Tty}
    (on : lit (l ++ [⟨time, last, RESTORE_LEDS⟩]) tty = true) :
    tty ≠ last ∧ ∃ c ∈ l, c.tty = tty := by
  have other : tty ≠ last := by
    rintro rfl
    simp [lit, List.filter_append, ALL_LEDS_ON, RESTORE_LEDS] at on
  refine ⟨other, ?_⟩
  by_contra untold
  push Not at untold
  have none_ : l.filter (·.tty = tty) = [] :=
    List.filter_eq_nil_iff.2 fun c member => by simpa using untold c member
  simp [lit, List.filter_append, none_, Ne.symm other] at on

/-- **The LEDs blink.**  From insmod on, the calls of `ioctl` set them on and off in turn,
`BLINK_DELAY` apart; the timer is never added twice, and while the module is loaded there is
a timer or its function runs.  When rmmod returns, the last call has restored the LEDs of
the console in the foreground at that time (`u` is the state before it), and a console on
which they are left on is another one, which has been in the foreground before; the
function will not run again.  And rmmod returns, when the function is let end. -/
theorem kbleds_blinks {x : State Tty} {as : List (Action Tty)}
    (started : (system hz Tty).Start x) (ran : (system hz Tty).run x as = some s) :
    (∃ l : List (Kdsetled Tty),
      (if s.phase = .removed then ∃ time tty, s.log = l ++ [⟨time, tty, RESTORE_LEDS⟩]
        else s.log = l) ∧
      l.map Kdsetled.status = blinks l.length ∧
      l.Pairwise fun a b => a.time + blinkDelay hz ≤ b.time) ∧
    s.misused = false ∧
    (s.phase = .loaded → s.pending = !s.func.isSome) ∧
    (s.phase = .removed → (step hz s .softirq = none ∧ step hz s .func = none) ∧
      ∃ bs cs u, as = bs ++ .module :: cs ∧ (system hz Tty).run x bs = some u ∧
        u.phase = .restore ∧ s.log = u.log ++ [⟨u.jiffies, u.foreground, RESTORE_LEDS⟩] ∧
        ∀ tty, lit s.log tty = true → tty ≠ u.foreground ∧
          (system hz Tty).Passes (fun v => v.foreground = tty) x bs) ∧
    (s.phase = .deleteSync → ∃ k ≤ 5, ∃ t,
      (system hz Tty).run s (List.replicate k .func ++ [.module, .module]) = some t ∧
        t.phase = .removed) := by
  obtain ⟨l, good⟩ := reachable_good (s := s) ⟨x, as, started, ran⟩
  have placed := good.placed
  refine ⟨⟨l, good.log, good.statuses, good.apart⟩, good.fine, ?_, ?_, cleanup_ends⟩
  · intro phase
    simpa only [State.Placed, phase] using placed
  · intro phase
    simp only [State.Placed, phase] at placed
    obtain ⟨u, bs, cs, split, ranU, restore, log⟩ := (run_history started ran).restored phase
    refine ⟨⟨by simp [step, placed.1], by simp [step, placed.2]⟩, bs, cs, u, split, ranU, restore,
      log, ?_⟩
    intro tty on
    rw [log] at on
    obtain ⟨other, c, member, rfl⟩ := lit_restored on
    exact ⟨other, (run_history started ranU).log c member⟩

end

/-- The LEDs are switched on, the user goes to another console, and the module is removed. -/
def switched : List (Action Bool) :=
  [.module, .module, .tick, .softirq, .func, .func, .func, .switch true, .func, .func, .rmmod,
    .module, .module]

theorem kbleds_blinks_switched : ∃ s : State Bool,
    (system 5 Bool).run (start 0 false) switched = some s ∧ s.phase = .removed ∧
      lit s.log false = true ∧ ∃ bs cs u, switched = bs ++ .module :: cs ∧
        (system 5 Bool).run (start 0 false) bs = some u ∧ false ≠ u.foreground := by
  have ends : ((system 5 Bool).run (start 0 false) switched).map
      (fun s => (s.phase, lit s.log false)) = some (.removed, true) := by decide
  obtain ⟨s, ran, same⟩ := Option.map_eq_some_iff.1 ends
  obtain ⟨phase, on⟩ := Prod.mk.inj same
  obtain ⟨-, bs, cs, u, split, ranU, -, -, left⟩ :=
    (kbleds_blinks ⟨0, false, rfl⟩ ran).2.2.2.1 phase
  exact ⟨s, ran, phase, on, bs, cs, u, split, ranU, (left false on).1⟩

end Lkmpg.Kbleds
