/-
# Lkmpg.Ioctl.Register -- what a file was set to is what it gets, in one byte

The objects of the open files are private cells (`registers_step`): a call through
one file never touches the value of another, and never an object that is not in use
(`step_open_isSome`).  What a cell keeps of a word is its low byte, so an
`IOCTL_VALGET` gives the word last set modulo 256 (`valget_low_byte`) and a read
delivers that byte.  It gives the word itself if and only if the word fits in a byte.
-/
import Lkmpg.Ioctl.Driver
import Lkmpg.Theory.Cells

namespace Lkmpg.Ioctl

open Lkmpg.Kernel Lkmpg.Theory

set_option autoImplicit false

/-! ## One call -/

/-- What `ioctl_data->val = data.val` keeps. -/
def TestIoctlData.ofWord (word : UInt32) : TestIoctlData := ⟨word.toUInt8⟩

theorem toUInt32_toUInt8_eq_iff (word : UInt32) : word.toUInt8.toUInt32 = word ↔ word < 256 := by
  rw [← UInt32.toNat_inj, UInt8.toNat_toUInt32, UInt32.toNat_toUInt8, UInt32.lt_iff_toNat_lt]
  have bound : (256 : UInt32).toNat = 256 := rfl
  rw [bound]
  omega

theorem readLoop_eq (val : UInt8) (reach left i : Nat) :
    readLoop val reach left i =
      (List.replicate (min left (reach - i)) val, decide (left ≤ reach - i)) := by
  induction left generalizing i with
  | zero => simp [readLoop]
  | succ left ih =>
      rw [readLoop]
      split
      · rename_i reached
        have room : reach - i = reach - (i + 1) + 1 := by omega
        rw [ih, room, Nat.add_min_add_right, List.replicate_succ]
        simp
      · rename_i unreached
        have none_left : reach - i = 0 := by omega
        simp [none_left]

/-- A read delivers its value over and over, as far as the buffer can be reached. -/
theorem testIoctlRead_eq (d : TestIoctlData) (count reach : Nat) :
    testIoctlRead d count reach =
      (List.replicate (min count reach) d.val, if count ≤ reach then (count : Int) else -EFAULT) := by
  simp [testIoctlRead, readLoop_eq]

theorem putWord_writable {r : Request} {word : UInt32} :
    (putWord r word).ret = 0 ↔ r.writable = true := by
  have fault : -EFAULT ≠ 0 := by decide
  cases writable : r.writable <;> simp [putWord, writable, fault]

section Cells

variable {F : Type} [DecidableEq F] {cell : F → Option Nat} {lastSet : F → UInt32} {m : Memory}
variable {f : F} {p : Nat} (cells : Cells cell m.heap (TestIoctlData.ofWord ∘ lastSet))
  (own : cell f = some p)
include cells own

omit [DecidableEq F] in
theorem ioctl_isSome (r : Request) : (testIoctlIoctl m p r).isSome := by
  have found := cells.holds f p own
  rw [testIoctlIoctl]
  split
  · split <;> simp [found]
  · simp only [found]
    split <;> try split <;> try split
    all_goals simp

theorem ioctl_cells {r : Request} {done : Memory × Outcome}
    (returned : testIoctlIoctl m p r = some done) :
    Cells cell done.1.heap (TestIoctlData.ofWord ∘ r.record lastSet f) := by
  have found := cells.holds f p own
  rw [testIoctlIoctl] at returned
  rw [Request.record]
  split at returned
  · rename_i valset
    rw [if_pos valset]
    split at returned
    · cases returned
      exact cells
    · rename_i data _
      rw [found] at returned
      cases returned
      rw [Function.comp_update]
      exact cells.store own (.ofWord data)
  · rename_i valset
    rw [if_neg valset]
    split at returned
    · rw [found] at returned
      cases returned
      exact cells
    · split at returned
      · cases returned
        exact cells
      · split at returned
        · cases returned
          exact cells
        · cases returned
          exact cells

omit [DecidableEq F] in
theorem ioctl_valget {r : Request} {done : Memory × Outcome} (get : r.cmd = IOCTL_VALGET)
    (returned : testIoctlIoctl m p r = some done) :
    done = (m, putWord r (lastSet f).toUInt8.toUInt32) := by
  have found := cells.holds f p own
  have other : IOCTL_VALGET ≠ IOCTL_VALSET := by decide
  rw [testIoctlIoctl, get, if_neg other, if_pos rfl, found] at returned
  cases returned
  rfl

end Cells

/-! ## Runs -/

variable {F : Type} [DecidableEq F]

/-- The objects of the open files stand for what was set last through each of them. -/
def Registers (s : State F) : Prop :=
  Cells s.privateData s.memory.heap (TestIoctlData.ofWord ∘ s.lastSet)

omit [DecidableEq F] in
theorem registers_init : Registers (.init : State F) := Cells.empty

theorem registers_open {s t : State F} {f : F} {got : Option Nat} (registers : Registers s)
    (next : testIoctlOpen s f got = some t) : Registers t := by
  cases got with
  | none =>
      cases next
      exact registers
  | some p =>
      simp only [testIoctlOpen] at next
      split at next
      · cases next
      · rename_i free
        cases next
        rw [Option.not_isSome_iff_eq_none] at free
        have acquired := Cells.acquire registers (x := f) free (.ofWord 0xFF)
        rw [← Function.comp_update] at acquired
        exact acquired

theorem registers_step (s : State F) (a : Action F) (t : State F) (registers : Registers s)
    (next : step s a = some t) : Registers t := by
  cases a with
  | testIoctlOpen f got =>
      simp only [step] at next
      split at next
      · exact registers_open registers next
      · cases next
  | testIoctlIoctl f r =>
      simp only [step] at next
      split at next
      · cases next
      · rename_i p own
        simp only [Option.map_eq_some_iff] at next
        obtain ⟨done, returned, rfl⟩ := next
        exact ioctl_cells registers own returned
  | testIoctlRead f count reach =>
      simp only [step] at next
      split at next
      · cases next
      · simp only [Option.map_eq_some_iff] at next
        obtain ⟨d, -, rfl⟩ := next
        exact registers
  | testIoctlClose f =>
      simp only [step, Option.map_eq_some_iff] at next
      obtain ⟨p, own, rfl⟩ := next
      exact Cells.release registers own

theorem reachable_registers {s : State F} (reached : (system F).Reachable s) : Registers s :=
  reached.induct (fun _ start => start ▸ registers_init) registers_step

/-- A call on an open file finds its object in use. -/
theorem step_open_isSome {s : State F} (reached : (system F).Reachable s) {f : F}
    (opened : (s.privateData f).isSome) :
    (∀ r, (step s (.testIoctlIoctl f r)).isSome) ∧
      (∀ count reach, (step s (.testIoctlRead f count reach)).isSome) ∧
      (step s (.testIoctlClose f)).isSome := by
  obtain ⟨p, own⟩ := Option.isSome_iff_exists.1 opened
  have registers := reachable_registers reached
  refine ⟨?_, ?_, ?_⟩
  · intro r
    simp only [step, own, Option.isSome_map]
    exact ioctl_isSome registers own r
  · intro count reach
    simp only [step, own, registers.holds f p own]
    rfl
  · simp only [step, own]
    rfl

/-- The part of the law that always holds: the low byte of what was last set. -/
theorem valget_low_byte {s t : State F} (registers : Registers s) {f : F} {r : Request}
    (get : r.cmd = IOCTL_VALGET) (next : step s (.testIoctlIoctl f r) = some t) :
    t.outcome = putWord r (s.lastSet f).toUInt8.toUInt32 := by
  simp only [step] at next
  split at next
  · cases next
  · rename_i p own
    simp only [Option.map_eq_some_iff] at next
    obtain ⟨done, returned, rfl⟩ := next
    rw [ioctl_valget registers own get returned]

/-- The action opens `f`, or is an `IOCTL_VALSET` through it. -/
def Action.Sets (f : F) : Action F → Prop
  | .testIoctlOpen g _ => g = f
  | .testIoctlIoctl g r => g = f ∧ r.cmd = IOCTL_VALSET
  | _ => False

theorem step_lastSet {s t : State F} {a : Action F} {f : F} (other : ¬ a.Sets f)
    (next : step s a = some t) : t.lastSet f = s.lastSet f := by
  cases a with
  | testIoctlOpen g got =>
      simp only [step] at next
      split at next
      · cases got with
        | none =>
            cases next
            rfl
        | some p =>
            simp only [testIoctlOpen] at next
            split at next
            · cases next
            · cases next
              exact Function.update_of_ne (fun same => other same.symm) _ _
      · cases next
  | testIoctlIoctl g r =>
      simp only [step] at next
      split at next
      · cases next
      · simp only [Option.map_eq_some_iff] at next
        obtain ⟨done, -, rfl⟩ := next
        by_cases valset : r.cmd = IOCTL_VALSET
        · have ne : f ≠ g := fun same => other ⟨same.symm, valset⟩
          simp only [Request.record, if_pos valset]
          cases r.word with
          | none => rfl
          | some data => exact Function.update_of_ne ne _ _
        · simp only [Request.record, if_neg valset]
  | testIoctlRead g count reach =>
      simp only [step] at next
      split at next
      · cases next
      · simp only [Option.map_eq_some_iff] at next
        obtain ⟨d, -, rfl⟩ := next
        rfl
  | testIoctlClose g =>
      simp only [step, Option.map_eq_some_iff] at next
      obtain ⟨p, -, rfl⟩ := next
      rfl

theorem run_lastSet {f : F} {as : List (Action F)} (others : ∀ a ∈ as, ¬ a.Sets f)
    {s t : State F} (ran : (system F).run s as = some t) : t.lastSet f = s.lastSet f := by
  induction as generalizing s with
  | nil =>
      cases ran
      rfl
  | cons a as ih =>
      obtain ⟨m, first, rest⟩ := System.run_cons.1 ran
      have later : t.lastSet f = m.lastSet f :=
        ih (fun b member => others b (List.mem_cons_of_mem a member)) rest
      exact later.trans (step_lastSet (others a List.mem_cons_self) first)

/-- **Isolation.**  Whatever else is done between, a file gets the low byte of what was
set through it. -/
theorem isolated {s t u : State F} (reached : (system F).Reachable s) {f : F} {r : Request}
    {as : List (Action F)} (others : ∀ a ∈ as, ¬ a.Sets f) (ran : (system F).run s as = some t)
    (get : r.cmd = IOCTL_VALGET) (next : step t (.testIoctlIoctl f r) = some u) :
    u.outcome = putWord r (s.lastSet f).toUInt8.toUInt32 := by
  have registers : Registers t := System.run_induct registers_step (reachable_registers reached) ran
  rw [valget_low_byte registers get next, run_lastSet others ran]

/-- An `IOCTL_VALGET` that returns 0 gives the word last set. -/
def Exact (s : State F) : Action F → State F → Prop
  | .testIoctlIoctl f r, t =>
      r.cmd = IOCTL_VALGET → t.outcome.ret = 0 → t.outcome.written = some (s.lastSet f)
  | _, _ => True

/-- An `IOCTL_VALGET` that can write its answer is made when the word last set fits in a
byte. -/
def FitsByte (s : State F) : Action F → Prop
  | .testIoctlIoctl f r => r.cmd = IOCTL_VALGET → r.writable = true → s.lastSet f < 256
  | _ => True

theorem exact_iff_fitsByte (s : State F) (a : Action F) (t : State F) (registers : Registers s)
    (next : step s a = some t) : Exact s a t ↔ FitsByte s a := by
  cases a with
  | testIoctlIoctl f r =>
      simp only [Exact, FitsByte]
      refine forall_congr' fun get => ?_
      rw [valget_low_byte registers get next, putWord_writable]
      refine forall_congr' fun writable => ?_
      rw [putWord, if_pos writable, Option.some_inj]
      exact toUInt32_toUInt8_eq_iff (s.lastSet f)
  | testIoctlOpen _ _ => exact Iff.rfl
  | testIoctlRead _ _ _ => exact Iff.rfl
  | testIoctlClose _ => exact Iff.rfl

/-- **What is set is what is got**, on every file and in every order of calls, if and only
if each word that is got fits in a byte. -/
theorem valget_exact_iff (as : List (Action F)) :
    (system F).Steps Exact .init as ↔ (system F).Meets FitsByte .init as :=
  System.steps_iff_meets_on registers_step exact_iff_fitsByte registers_init

/-- A word that does not fit is got without its upper bytes. -/
theorem valget_not_exact :
    ¬ (system Unit).Steps Exact .init
      [.testIoctlOpen () (some 4096),
        .testIoctlIoctl () ⟨IOCTL_VALSET, 0x1000, some 256, true⟩,
        .testIoctlIoctl () ⟨IOCTL_VALGET, 0x1000, some 256, true⟩] := by
  intro steps
  have got := ((steps _ rfl).2 _ rfl).2 _ rfl
  exact absurd (got.1 rfl rfl) (by decide)

end Lkmpg.Ioctl
