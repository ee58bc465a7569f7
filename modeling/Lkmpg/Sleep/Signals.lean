/-
# Lkmpg.Sleep.Signals -- which signals end the wait of module_open

The loop over the signal words keeps its result in an `int`, which has the low half of
a word.  So a signal from 33 on ends `wait_event_interruptible` but not the wait of
`module_open` (`ends_wait_iff`).
-/
import Lkmpg.Sleep.Driver

namespace Lkmpg.Sleep

open Lkmpg.Kernel Lkmpg.Theory

set_option autoImplicit false

/-- The signal `i + 1` is pending and not blocked. -/
def Unblocked (pending blocked : BitVec 64) (i : Nat) : Prop :=
  pending.getLsbD i = true ∧ blocked.getLsbD i = false

theorem getLsbD_word {pending blocked : BitVec 64} {i : Nat} :
    ((pending &&& ~~~blocked).setWidth 32).getLsbD i = true ↔
      i < 32 ∧ Unblocked pending blocked i := by
  rw [BitVec.getLsbD_setWidth, BitVec.getLsbD_and, BitVec.getLsbD_not, Unblocked]
  simp only [Bool.and_eq_true, decide_eq_true_eq, Bool.not_eq_true']
  constructor
  · rintro ⟨low, isPending, -, unblocked⟩
    exact ⟨low, isPending, unblocked⟩
  · rintro ⟨low, isPending, unblocked⟩
    exact ⟨low, isPending, by omega, unblocked⟩

/-- The loop sees the signals of the low half. -/
theorem isSig_ne_zero_iff {pending blocked : BitVec 64} :
    isSig [(pending, blocked)] ≠ 0 ↔ ∃ i, i < 32 ∧ Unblocked pending blocked i := by
  have word : isSig [(pending, blocked)] = (pending &&& ~~~blocked).setWidth 32 := by
    simp only [isSig]
    split
    · rename_i zero
      exact zero.symm
    · rfl
  rw [word]
  constructor
  · intro nonzero
    by_contra none
    refine nonzero (BitVec.eq_of_getLsbD_eq fun i _ => ?_)
    show _ = (0#32).getLsbD i
    rw [BitVec.getLsbD_zero, ← Bool.not_eq_true, getLsbD_word]
    exact fun seen => none ⟨i, seen⟩
  · rintro ⟨i, low, unblocked⟩ zero
    have set := getLsbD_word.2 ⟨low, unblocked⟩
    rw [zero] at set
    cases BitVec.getLsbD_zero.symm.trans set

/-- After the wait `is_sig` is set, and `module_open` fails with `-EINTR`, when a pending
signal is not blocked; and not otherwise. -/
def EndsWait (pending blocked : BitVec 64) : Prop :=
  (isSig [(pending, blocked)] ≠ 0 ↔ ∃ i, Unblocked pending blocked i) ∧
    ∀ (P : Type) [DecidableEq P] (s : State P) (p : P), s.pc p = .signals →
      ∃ t, step s (.checkSignals p pending blocked) = some t ∧
        (t.pc p = .failed (-EINTR) ↔ ∃ i, Unblocked pending blocked i)

/-- **Signals end the wait** exactly when none is pending and unblocked or one of the
first 32 is. -/
theorem ends_wait_iff (pending blocked : BitVec 64) :
    EndsWait pending blocked ↔
      ((∃ i, Unblocked pending blocked i) → ∃ i, i < 32 ∧ Unblocked pending blocked i) := by
  have weaker : (∃ i, i < 32 ∧ Unblocked pending blocked i) → ∃ i, Unblocked pending blocked i :=
    fun ⟨i, _, unblocked⟩ => ⟨i, unblocked⟩
  constructor
  · intro ends some
    exact isSig_ne_zero_iff.1 (ends.1.2 some)
  · intro low
    have seen : isSig [(pending, blocked)] ≠ 0 ↔ ∃ i, Unblocked pending blocked i :=
      isSig_ne_zero_iff.trans ⟨weaker, low⟩
    refine ⟨seen, ?_⟩
    intro P _ s p waited
    refine ⟨s.goto p (if isSig [(pending, blocked)] ≠ 0 then .failed (-EINTR) else .retry),
      by simp only [step, waited], ?_⟩
    rw [goto_pc_self, ← seen]
    split
    · rename_i set
      exact iff_of_true rfl set
    · rename_i clear
      exact iff_of_false (by simp) clear

/-- With only signal 33 pending, and none blocked, `module_open` goes round its loop. -/
theorem not_ends_wait_33 :
    Unblocked (BitVec.twoPow 64 32) 0 32 ∧ isSig [(BitVec.twoPow 64 32, 0)] = 0 ∧
      (∀ (s : State Unit), s.pc () = .signals →
        step s (.checkSignals () (BitVec.twoPow 64 32) 0) = some (s.goto () .retry)) ∧
      ¬ EndsWait (BitVec.twoPow 64 32) 0 := by
  have pending : Unblocked (BitVec.twoPow 64 32) 0 32 := ⟨by decide, by decide⟩
  have clear : isSig [(BitVec.twoPow 64 32, 0)] = 0 := by decide
  refine ⟨pending, clear, ?_, ?_⟩
  · intro s waited
    simp only [step, waited, clear]
    rfl
  · intro ends
    exact ends.1.2 ⟨32, pending⟩ clear

end Lkmpg.Sleep
