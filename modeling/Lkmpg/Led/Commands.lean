/-
# Lkmpg.Led.Commands -- which calls of device_write set the LED

A call of length 0 copies nothing and looks at the first byte of `control_signal` all the
same.  That byte may be one that a call which failed has copied, so such a call obeys a
command that was refused (`last_command_iff`).
-/
import Lkmpg.Led.Driver

namespace Lkmpg.Led

open Lkmpg.Kernel Lkmpg.Theory

set_option autoImplicit false

/-- The bytes `copy_from_user` does not copy. -/
def Call.missed (c : Call) : Nat := (c.buffer.take BUF_LEN).length - c.reach

/-! ## One call -/

section Write

variable {led : Device} {c : Call}

theorem deviceWrite_failed (failed : c.missed ≠ 0) :
    (deviceWrite led c.buffer c.offset c.reach).ret = -EFAULT ∧
      (deviceWrite led c.buffer c.offset c.reach).led.level = led.level := by
  have missed : (copyFromUser led.controlSignal 0 (c.buffer.take BUF_LEN) c.reach).2 ≠ 0 := failed
  rw [deviceWrite, if_pos missed]
  exact ⟨rfl, rfl⟩

theorem deviceWrite_done (done : c.missed = 0) :
    (deviceWrite led c.buffer c.offset c.reach).ret = (c.buffer.take BUF_LEN).length ∧
      (deviceWrite led c.buffer c.offset c.reach).led.level =
        (command ((splice led.controlSignal 0 (c.buffer.take BUF_LEN)).getD 0 0)).getD
          led.level := by
  have missed : ¬ (copyFromUser led.controlSignal 0 (c.buffer.take BUF_LEN) c.reach).2 ≠ 0 :=
    not_not_intro done
  have all : copied (c.buffer.take BUF_LEN) c.reach = c.buffer.take BUF_LEN :=
    copied_all (Nat.le_of_sub_eq_zero done)
  rw [deviceWrite, if_neg missed]
  refine ⟨rfl, ?_⟩
  show (command ((splice led.controlSignal 0 (copied _ c.reach)).getD 0 0)).getD led.level = _
  rw [all]

theorem deviceWrite_ret_iff :
    (deviceWrite led c.buffer c.offset c.reach).ret = -EFAULT ↔ c.missed ≠ 0 := by
  constructor
  · intro failed done
    rw [(deviceWrite_done done).1, EFAULT] at failed
    omega
  · exact fun failed => (deviceWrite_failed failed).1

end Write

/-! ## Calls that count -/

/-- The call does not fail, and has a byte. -/
def Call.counts (c : Call) : Bool := decide (c.missed = 0 ∧ c.buffer ≠ [])

theorem step_asked {s t : State} {c : Call} (next : step s c = some t) :
    t.asked = if c.counts then (c.buffer.head?.bind command).getD s.asked else s.asked := by
  cases next
  simp only [deviceWrite_ret_iff, Call.counts, decide_eq_true_eq]
  by_cases done : c.missed = 0
  · cases empty : c.buffer with
    | nil => simp
    | cons b rest => simp [done]
  · simp [done]

/-- At a call of length 0 the first byte of `control_signal` asks for nothing new. -/
def Harmless (s : State) (c : Call) : Prop :=
  c.buffer = [] → ∀ v, command (s.led.controlSignal.getD 0 0) = some v → v = s.led.level

theorem harmless_of_byte {s : State} {c : Call} (byte : c.buffer ≠ []) : Harmless s c :=
  fun empty => absurd empty byte

/-- **One call.** -/
theorem step_level {s t : State} {c : Call} (same : s.led.level = s.asked)
    (next : step s c = some t) : t.led.level = t.asked ↔ Harmless s c := by
  rw [step_asked next]
  cases next
  by_cases done : c.missed = 0
  · rw [(deviceWrite_done done).2]
    cases buffer : c.buffer with
    | nil =>
        -- The first byte is the one that was there.
        rw [List.take_nil, splice_nil]
        simp only [Call.counts, Harmless, buffer, ne_eq, not_true_eq_false, and_false,
          decide_false, Bool.false_eq_true, if_false, ← same, forall_const]
        cases command (s.led.controlSignal.getD 0 0) with
        | none => simp
        | some v => simp
    | cons b rest =>
        have counts : c.counts = true := by simp [Call.counts, done, buffer]
        have first : (splice s.led.controlSignal 0 ((b :: rest).take BUF_LEN)).getD 0 0 = b := rfl
        rw [counts, if_pos rfl, first, same]
        exact iff_of_true rfl (harmless_of_byte (by simp [buffer]))
  · have byte : c.buffer ≠ [] := by
      intro empty
      rw [Call.missed, empty, List.take_nil, List.length_nil, Nat.zero_sub] at done
      exact done rfl
    have counts : c.counts = false := by simp [Call.counts, done]
    rw [(deviceWrite_failed done).2, counts]
    exact iff_of_true same (harmless_of_byte byte)

/-! ## Runs -/

/-- Without the calls that fail or have no byte, the LED would have the same level. -/
def Unaffected (calls : List Call) : Prop :=
  ∀ s, system.run .init calls = some s →
    ∃ t, system.run .init (calls.filter Call.counts) = some t ∧ t.led.level = s.led.level

theorem always_level_iff {s : State} (same : s.led.level = s.asked) {calls : List Call} :
    system.Always (fun s => s.led.level = s.asked) s calls ↔ system.Meets Harmless s calls :=
  System.always_iff_meets (I := fun _ => True) (fun _ _ _ _ _ => trivial)
    (fun _ _ _ _ => step_level) trivial same

/-- The calls that do not count ask for nothing. -/
theorem run_filter_counts {calls : List Call} : ∀ {s s' : State}, s.asked = s'.asked →
    ∃ t t', system.run s calls = some t ∧ system.run s' (calls.filter Call.counts) = some t' ∧
      t.asked = t'.asked := by
  induction calls with
  | nil => exact fun {s s'} same => ⟨s, s', rfl, rfl, same⟩
  | cons c calls ih =>
      intro s s' same
      obtain ⟨m, next⟩ : ∃ m, step s c = some m := ⟨_, rfl⟩
      have asked := step_asked next
      by_cases counts : c.counts
      · obtain ⟨m', next'⟩ : ∃ m', step s' c = some m' := ⟨_, rfl⟩
        have asked' := step_asked next'
        rw [if_pos counts] at asked asked'
        obtain ⟨t, t', ran, ran', eq⟩ := ih (asked.trans ((congrArg _ same).trans asked'.symm))
        rw [List.filter_cons_of_pos counts]
        exact ⟨t, t', System.run_cons.2 ⟨m, next, ran⟩, System.run_cons.2 ⟨m', next', ran'⟩, eq⟩
      · rw [if_neg counts] at asked
        obtain ⟨t, t', ran, ran', eq⟩ := ih (asked.trans same)
        rw [List.filter_cons_of_neg counts]
        exact ⟨t, t', System.run_cons.2 ⟨m, next, ran⟩, ran', eq⟩

theorem unaffected_of_meets {calls : List Call} (meets : system.Meets Harmless .init calls) :
    Unaffected calls := by
  intro s ran
  have bytes : ∀ c ∈ calls.filter Call.counts, c.buffer ≠ [] := by
    intro c member
    have counts := (List.mem_filter.1 member).2
    rw [Call.counts, decide_eq_true_eq] at counts
    exact counts.2
  have harmless : system.Meets Harmless .init (calls.filter Call.counts) :=
    ((System.meets_iff_forall fun _ _ => rfl).2 bytes).mono fun _ _ => harmless_of_byte
  obtain ⟨t, t', ranAll, ranCounts, asked⟩ :=
    @run_filter_counts calls .init .init rfl
  cases ran.symm.trans ranAll
  have level : s.led.level = s.asked := ((always_level_iff rfl).2 meets).last ran
  have level' : t'.led.level = t'.asked := ((always_level_iff rfl).2 harmless).last ranCounts
  exact ⟨t', ranCounts, level'.trans (asked.symm.trans level.symm)⟩

/-- **The last command.**  The LED shows the last one that was not refused, and the other
calls have no effect, in the runs where no call of length 0 finds another one in
`control_signal`. -/
theorem last_command_iff (calls : List Call) :
    (system.Always (fun s => s.led.level = s.asked) .init calls ∧ Unaffected calls) ↔
      system.Meets Harmless .init calls := by
  rw [always_level_iff rfl]
  exact ⟨And.left, fun meets => ⟨meets, unaffected_of_meets meets⟩⟩

/-- A write of `1` and a byte that is not accessible, and one of length 0. -/
def refusedThenEmpty : List Call := [⟨[49, 10], 0, 1⟩, ⟨[], 0, 0⟩]

/-- The first one fails and the second one turns the LED on. -/
theorem refused_command_obeyed :
    (deviceWrite Device.init [49, 10] 0 1).ret = -EFAULT ∧
      (system.run .init refusedThenEmpty).map (fun s => (s.led.level, s.asked)) =
        some (true, false) ∧
      ¬ system.Always (fun s => s.led.level = s.asked) .init refusedThenEmpty := by
  refine ⟨by decide, by decide, ?_⟩
  intro always
  have level := always.last (t := ⟨⟨[49, 0], 0, true, rfl⟩, false⟩) rfl
  exact absurd level (by decide)

end Lkmpg.Led
