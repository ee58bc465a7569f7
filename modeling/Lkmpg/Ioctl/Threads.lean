/-
# Lkmpg.Ioctl.Threads -- the threads that share an open file of ioctl.c

Any number of threads make `ioctl` and `read` calls on one open file, which is not closed
while a call is in progress.  The steps are the operations on `ioctl_data->lock`, the
accesses to `ioctl_data->val`, and what is done with the caller's memory.

* `step_locked`: who is in a critical section has the lock, and never waits inside;
* `ioctl_linearizable`: the calls are those of a register of one byte, and each
  `IOCTL_VALGET` and each byte of a `read` is the value at one moment of the call.
-/
import Lkmpg.Ioctl.Register
import Lkmpg.Theory.Register
import Lkmpg.Theory.Rwlock

namespace Lkmpg.Ioctl.Threads

open Lkmpg.Kernel Lkmpg.Theory

set_option autoImplicit false

deriving instance DecidableEq for Request

/-- What a call does with the value it has loaded. -/
inductive Reply where
  | valget (r : Request)
  | read (count reach : Nat)
  deriving DecidableEq

inductive Answer where
  | ioctl (o : Outcome)
  | read (bytes : List UInt8) (ret : Int)
  deriving DecidableEq

def Reply.answer (val : UInt8) : Reply → Answer
  | .valget r => .ioctl (putWord r val.toUInt32)
  | .read count reach =>
      let (bytes, ret) := testIoctlRead ⟨val⟩ count reach
      .read bytes ret

/-- Where a call is. -/
inductive Pc where
  /-- `IOCTL_VALSET`, before its `copy_from_user`. -/
  | fetch (r : Request)
  | writeLock (val : UInt8)
  | assign (val : UInt8)
  | writeUnlock
  | readLock (k : Reply)
  | load (k : Reply)
  | readUnlock (k : Reply) (val : UInt8)
  /-- Before its `copy_to_user`. -/
  | reply (k : Reply) (val : UInt8)

variable (P : Type)

structure State where
  data : TestIoctlData
  lock : Rwlock P
  ioctlNum : Int32
  call : P → Option Pc
  /-- What the last call of each thread that loads the value has put in its memory and
  returned. -/
  answered : P → Option (Reply × Answer)

inductive Action where
  | testIoctlIoctl (p : P) (r : Request)
  | testIoctlRead (p : P) (count reach : Nat)
  | run (p : P)

variable {P} [DecidableEq P]

namespace State

def goto (s : State P) (p : P) (pc : Pc) : State P :=
  { s with call := Function.update s.call p (some pc) }

def done (s : State P) (p : P) : State P := { s with call := Function.update s.call p none }

end State

def runStep (s : State P) (p : P) : Pc → Option (State P)
  | .fetch r =>
      match r.word with
      | none => some (s.done p)
      | some data => some (s.goto p (.writeLock data.toUInt8))
  | .writeLock val => (s.lock.writeLock p).map fun l => { s with lock := l }.goto p (.assign val)
  | .assign val => some ({ s with data := ⟨val⟩ }.goto p .writeUnlock)
  | .writeUnlock => some ({ s with lock := s.lock.writeUnlock }.done p)
  | .readLock k => (s.lock.readLock p).map fun l => { s with lock := l }.goto p (.load k)
  | .load k => some (s.goto p (.readUnlock k s.data.val))
  | .readUnlock k val => some ({ s with lock := s.lock.readUnlock p }.goto p (.reply k val))
  | .reply k val =>
      some ({ s with answered := Function.update s.answered p (some (k, k.answer val)) }.done p)

/-- A thread is in one call at a time.  The commands that do not concern the value have
no object to look at. -/
def step (s : State P) : Action P → Option (State P)
  | .testIoctlIoctl p r =>
      if (s.call p).isSome then none
      else if r.cmd = IOCTL_VALSET then some (s.goto p (.fetch r))
      else if r.cmd = IOCTL_VALGET then some (s.goto p (.readLock (.valget r)))
      else
        (testIoctlIoctl ⟨fun _ => none, s.ioctlNum⟩ 0 r).map fun done =>
          { s with ioctlNum := done.1.ioctlNum }
  | .testIoctlRead p count reach =>
      if (s.call p).isSome then none else some (s.goto p (.readLock (.read count reach)))
  | .run p => (s.call p).bind (runStep s p)

/-- After `test_ioctl_open`. -/
def start : State P := ⟨⟨0xFF⟩, .free, 0, fun _ => none, fun _ => none⟩

def system (P : Type) [DecidableEq P] : System (State P) (Action P) where
  Start s := s = start
  step := step

/-! ## The lock -/

def Pc.mode : Pc → Rwlock.Mode
  | .assign _ | .writeUnlock => .writing
  | .load _ | .readUnlock _ _ => .reading
  | _ => .out

omit [DecidableEq P] in
def State.mode (s : State P) (p : P) : Rwlock.Mode := (s.call p).elim .out Pc.mode

theorem mode_goto (s : State P) (p : P) (pc : Pc) :
    (s.goto p pc).mode = Function.update s.mode p pc.mode := by
  funext q
  by_cases same : q = p
  · subst same
    simp [State.mode, State.goto]
  · simp [State.mode, State.goto, same]

theorem mode_done (s : State P) (p : P) :
    (s.done p).mode = Function.update s.mode p .out := by
  funext q
  by_cases same : q = p
  · subst same
    simp [State.mode, State.done]
  · simp [State.mode, State.done, same]

/-- The lock is held by those who are in a critical section. -/
def Locked (s : State P) : Prop := s.lock.Agrees s.mode

theorem runStep_locked {s t : State P} {p : P} {pc : Pc} (locked : Locked s)
    (at_ : s.call p = some pc) (next : runStep s p pc = some t) : Locked t := by
  have mode : s.mode p = pc.mode := by simp [State.mode, at_]
  cases pc with
  | fetch r =>
      simp only [runStep] at next
      split at next <;> cases next
      · rw [Locked, mode_done]
        exact locked.stay mode.symm
      · rw [Locked, mode_goto]
        exact locked.stay mode.symm
  | writeLock val =>
      obtain ⟨l, taken, rfl⟩ := Option.map_eq_some_iff.1 next
      rw [Locked, mode_goto]
      exact locked.writeLock mode taken
  | assign val =>
      cases next
      rw [Locked, mode_goto]
      exact locked.stay mode.symm
  | writeUnlock =>
      cases next
      rw [Locked, mode_done]
      exact locked.writeUnlock mode
  | readLock k =>
      obtain ⟨l, taken, rfl⟩ := Option.map_eq_some_iff.1 next
      rw [Locked, mode_goto]
      exact locked.readLock mode taken
  | load k =>
      cases next
      rw [Locked, mode_goto]
      exact locked.stay mode.symm
  | readUnlock k val =>
      cases next
      rw [Locked, mode_goto]
      exact locked.readUnlock mode
  | reply k val =>
      cases next
      rw [Locked, mode_done]
      exact locked.stay mode.symm

/-- **One step.** -/
theorem step_locked {s t : State P} {a : Action P} (locked : Locked s)
    (next : step s a = some t) : Locked t := by
  have idle : ∀ {p}, ¬ (s.call p).isSome → s.mode p = .out := by
    intro p none
    rw [Option.not_isSome_iff_eq_none] at none
    simp [State.mode, none]
  cases a with
  | testIoctlIoctl p r =>
      simp only [step] at next
      split at next
      · cases next
      rename_i none
      split at next
      · cases next
        rw [Locked, mode_goto]
        exact locked.stay (idle none).symm
      · split at next
        · cases next
          rw [Locked, mode_goto]
          exact locked.stay (idle none).symm
        · obtain ⟨done, -, rfl⟩ := Option.map_eq_some_iff.1 next
          exact locked
  | testIoctlRead p count reach =>
      simp only [step] at next
      split at next <;> cases next
      rename_i none
      rw [Locked, mode_goto]
      exact locked.stay (idle none).symm
  | run p =>
      obtain ⟨pc, at_, next⟩ := Option.bind_eq_some_iff.1 next
      exact runStep_locked locked at_ next

/-- Inside a critical section a call can go on. -/
theorem runStep_inside (s : State P) (p : P) {pc : Pc} (inside : pc.mode ≠ .out) :
    (runStep s p pc).isSome := by
  cases pc with
  | assign _ | writeUnlock | load _ | readUnlock _ _ => rfl
  | _ => exact absurd rfl inside

/-- While a call is in progress some call can take a step. -/
theorem exists_step {s : State P} (locked : Locked s) {p : P} (busy : (s.call p).isSome) :
    ∃ q, (step s (.run q)).isSome := by
  have inside : ∀ q, s.mode q ≠ .out → (step s (.run q)).isSome := by
    intro q holds
    cases at_ : s.call q with
    | none => exact absurd (by simp [State.mode, at_]) holds
    | some pc =>
        have mode : pc.mode ≠ .out := by simpa [State.mode, at_] using holds
        simpa [step, at_] using runStep_inside s q mode
  obtain ⟨pc, at_⟩ := Option.isSome_iff_exists.1 busy
  have go : (runStep s p pc).isSome → ∃ q, (step s (.run q)).isSome :=
    fun able => ⟨p, by simpa [step, at_] using able⟩
  cases pc with
  | fetch r =>
      refine go ?_
      simp only [runStep]
      split <;> rfl
  | writeLock val =>
      rcases locked.write_or_held p with able | ⟨q, holds⟩
      · exact go (by simpa [runStep] using able)
      · exact ⟨q, inside q holds⟩
  | readLock k =>
      rcases locked.read_or_held p with able | ⟨q, writes⟩
      · exact go (by simpa [runStep] using able)
      · exact ⟨q, inside q (by rw [writes]; exact Rwlock.Mode.noConfusion)⟩
  | assign _ | writeUnlock | load _ | readUnlock _ _ | reply _ _ => exact go rfl

/-! ## The register -/

def Pc.writing : Pc → Register.Writing UInt8
  | .fetch r => r.word.elim .idle fun data => .pending data.toUInt8
  | .writeLock val | .assign val => .pending val
  | .writeUnlock => .done
  | _ => .idle

def Pc.reading : Pc → Register.Reading UInt8
  | .readLock _ | .load _ => .pending
  | .readUnlock _ val | .reply _ val => .got val
  | _ => .idle

omit [DecidableEq P] in
/-- What the threads can know of the value. -/
def State.register (s : State P) : Register.State P P UInt8 where
  value := s.data.val
  writing p := (s.call p).elim .idle Pc.writing
  reading p := (s.call p).elim .idle Pc.reading

omit [DecidableEq P] in
/-- The calls that set the value, with their returns, and the values that the others
return. -/
def shown (s : State P) (a : Action P) (_ : State P) : List (Register.Event P P UInt8) :=
  match a with
  | .testIoctlIoctl p r =>
      if r.cmd = IOCTL_VALSET then r.word.elim [] fun data => [.called p data.toUInt8]
      else if r.cmd = IOCTL_VALGET then [.began p]
      else []
  | .testIoctlRead p _ _ => [.began p]
  | .run p =>
      match s.call p with
      | some .writeUnlock => [.returned p]
      | some (.reply _ val) => [.reported p val]
      | _ => []

theorem register_goto (s : State P) (p : P) (pc : Pc) :
    (s.goto p pc).register = (s.register.setWriting p pc.writing).setReading p pc.reading := by
  simp only [State.register, State.goto, Register.State.setWriting, Register.State.setReading,
    Register.State.mk.injEq, true_and]
  constructor <;> funext q <;> by_cases same : q = p
  · subst same
    simp
  · simp [same]
  · subst same
    simp
  · simp [same]

theorem register_done (s : State P) (p : P) :
    (s.done p).register = (s.register.setWriting p .idle).setReading p .idle := by
  simp only [State.register, State.done, Register.State.setWriting, Register.State.setReading,
    Register.State.mk.injEq, true_and]
  constructor <;> funext q <;> by_cases same : q = p
  · subst same
    simp
  · simp [same]
  · subst same
    simp
  · simp [same]

/-- A step that is none of the register, or one that shows the same. -/
def Matched (s t : State P) (events : List (Register.Event P P UInt8)) : Prop :=
  (t.register = s.register ∧ events = []) ∨
    ∃ b, Register.step s.register b = some t.register ∧
      Register.shown s.register b t.register = events

/-- The call of `p` moves, and that is nothing to the register. -/
theorem matched_goto {s : State P} {p : P} {pc pc' : Pc} {l : Rwlock P}
    (at_ : s.call p = some pc) (writing : pc'.writing = pc.writing)
    (reading : pc'.reading = pc.reading) : Matched s ({ s with lock := l }.goto p pc') [] := by
  refine .inl ⟨?_, rfl⟩
  rw [register_goto, writing, reading]
  have writes : s.register.writing p = pc.writing := by simp [State.register, at_]
  have reads : s.register.reading p = pc.reading := by simp [State.register, at_]
  exact (congrArg (fun x => Register.State.setReading x p pc.reading)
    (Register.setWriting_stay writes)).trans (Register.setReading_stay reads)

theorem runStep_matched {s t : State P} {p : P} {pc : Pc} (at_ : s.call p = some pc)
    (next : runStep s p pc = some t) : Matched s t (shown s (.run p) t) := by
  have writes : s.register.writing p = pc.writing := by simp [State.register, at_]
  have reads : s.register.reading p = pc.reading := by simp [State.register, at_]
  cases pc with
  | fetch r =>
      simp only [shown, at_]
      simp only [runStep] at next
      cases word : r.word with
      | none =>
          simp only [word] at next
          cases next
          refine .inl ⟨?_, rfl⟩
          simp only [Pc.writing, word, Option.elim_none] at writes
          rw [register_done, Register.setWriting_stay writes]
          exact Register.setReading_stay reads
      | some data =>
          simp only [word] at next
          cases next
          exact matched_goto at_ (by simp [Pc.writing, word]) rfl
  | writeLock val =>
      simp only [shown, at_]
      obtain ⟨l, -, rfl⟩ := Option.map_eq_some_iff.1 next
      exact matched_goto at_ rfl rfl
  | assign val =>
      simp only [shown, at_]
      cases next
      refine .inr ⟨.write p, ?_, rfl⟩
      have pending : s.register.writing p = .pending val := writes
      have idle : (({ s.register with value := val } : Register.State P P UInt8).setWriting p
          .done).reading p = .idle := reads
      rw [register_goto]
      simp only [Register.step, pending, Option.some.injEq]
      exact (Register.setReading_stay idle).symm
  | writeUnlock =>
      simp only [shown, at_]
      cases next
      refine .inr ⟨.ret p, ?_, rfl⟩
      have done : s.register.writing p = .done := writes
      have idle : (s.register.setWriting p .idle).reading p = .idle := reads
      rw [register_done]
      simp only [Register.step, done, Option.some.injEq]
      exact (Register.setReading_stay idle).symm
  | readLock k =>
      simp only [shown, at_]
      obtain ⟨l, -, rfl⟩ := Option.map_eq_some_iff.1 next
      exact matched_goto at_ rfl rfl
  | load k =>
      simp only [shown, at_]
      cases next
      refine .inr ⟨.read p, ?_, rfl⟩
      have pending : s.register.reading p = .pending := reads
      rw [register_goto]
      simp only [Register.step, pending, Option.some.injEq]
      exact congrArg (fun x => Register.State.setReading x p (.got s.data.val))
        (Register.setWriting_stay writes).symm
  | readUnlock k val =>
      simp only [shown, at_]
      cases next
      exact matched_goto at_ rfl rfl
  | reply k val =>
      simp only [shown, at_]
      cases next
      have got : s.register.reading p = .got val := reads
      refine .inr ⟨.report p, ?_, by simp [Register.shown, got]⟩
      rw [register_done]
      simp only [Register.step, got, Option.some.injEq]
      exact congrArg (fun x => Register.State.setReading x p .idle)
        (Register.setWriting_stay writes).symm

theorem step_matched {s t : State P} {a : Action P} (next : step s a = some t) :
    Matched s t (shown s a t) := by
  have idle : ∀ {p}, ¬ (s.call p).isSome →
      s.register.writing p = .idle ∧ s.register.reading p = .idle := by
    intro p none
    rw [Option.not_isSome_iff_eq_none] at none
    simp [State.register, none]
  have begins : ∀ {p k}, ¬ (s.call p).isSome →
      Matched s (s.goto p (.readLock k)) [.began p] := by
    intro p k none
    obtain ⟨writes, reads⟩ := idle none
    refine .inr ⟨.begin p, ?_, rfl⟩
    rw [register_goto]
    simp only [Register.step, reads, Option.some.injEq]
    exact congrArg (fun x => Register.State.setReading x p .pending)
      (Register.setWriting_stay writes).symm
  cases a with
  | testIoctlIoctl p r =>
      simp only [step] at next
      split at next
      · cases next
      rename_i none
      obtain ⟨writes, reads⟩ := idle none
      split at next
      · rename_i set
        cases next
        simp only [shown, if_pos set]
        cases word : r.word with
        | none =>
            refine .inl ⟨?_, rfl⟩
            have stays : (Pc.fetch r).writing = .idle := by simp [Pc.writing, word]
            rw [register_goto, stays, Register.setWriting_stay writes]
            exact Register.setReading_stay reads
        | some data =>
            refine .inr ⟨.call p data.toUInt8, ?_, rfl⟩
            have pending : (Pc.fetch r).writing = .pending data.toUInt8 := by
              simp [Pc.writing, word]
            rw [register_goto, pending]
            simp only [Register.step, writes, Option.some.injEq]
            exact (Register.setReading_stay (s := s.register.setWriting p (.pending data.toUInt8))
              reads).symm
      · rename_i set
        split at next
        · rename_i get
          cases next
          simp only [shown, if_neg set, if_pos get]
          exact begins none
        · rename_i get
          obtain ⟨done, -, rfl⟩ := Option.map_eq_some_iff.1 next
          simp only [shown, if_neg set, if_neg get]
          exact .inl ⟨rfl, rfl⟩
  | testIoctlRead p count reach =>
      simp only [step] at next
      split at next <;> cases next
      exact begins ‹_›
  | run p =>
      obtain ⟨pc, at_, next⟩ := Option.bind_eq_some_iff.1 next
      exact runStep_matched at_ next

def refinement : Refinement (system P) shown (Register.system 0xFF) Register.shown :=
  Refinement.ofMap State.register (fun _ => True)
    (fun s started => by cases started; exact ⟨rfl, trivial⟩) (fun _ _ _ _ _ => trivial)
    fun s a t _ next => step_matched next

/-! ## Runs -/

/-- What a thread was given last is from the value that was reported to it last. -/
def Told (x : State P × List (Register.Event P P UInt8)) : Prop :=
  ∀ p k answer, x.1.answered p = some (k, answer) →
    ∃ val, Register.lastReport p x.2 = some val ∧ answer = k.answer val

/-- A step that gives no answer and reports nothing. -/
theorem Told.quiet {x : State P × List (Register.Event P P UInt8)} (told : Told x) {t : State P}
    {es : List (Register.Event P P UInt8)} (same : t.answered = x.1.answered)
    (silent : ∀ p, ∀ e ∈ es, e.report p = none) : Told (t, x.2 ++ es) := by
  intro p k answer found
  obtain ⟨val, last, is⟩ := told p k answer (by rw [← same]; exact found)
  exact ⟨val, (Register.lastReport_silent (silent p) x.2).trans last, is⟩

/-- A call reports when it returns, and not before. -/
theorem shown_ioctl_silent {s t : State P} {p : P} {r : Request} (q : P) :
    ∀ e ∈ shown s (.testIoctlIoctl p r) t, e.report q = none := by
  intro e member
  simp only [shown] at member
  split at member
  · cases word : r.word with
    | none =>
        rw [word] at member
        cases member
    | some data =>
        rw [word, Option.elim_some, List.mem_singleton] at member
        rw [member]
        rfl
  · split at member
    · rw [List.mem_singleton.1 member]
      rfl
    · cases member

/-- The value is reported with the answer. -/
theorem Told.reply {x : State P × List (Register.Event P P UInt8)} (told : Told x) (p : P)
    (k : Reply) (val : UInt8) {t : State P}
    (answered : t.answered = Function.update x.1.answered p (some (k, k.answer val))) :
    Told (t, x.2 ++ [.reported p val]) := by
  intro q k' answer found
  have found : t.answered q = some (k', answer) := found
  rw [answered] at found
  by_cases same : q = p
  · subst same
    rw [Function.update_self] at found
    cases found
    refine ⟨val, ?_, rfl⟩
    simp [Register.lastReport, Register.Event.report]
  · rw [Function.update_of_ne same] at found
    obtain ⟨val', last, is⟩ := told q k' answer found
    have other : ∀ e ∈ [.reported p val], Register.Event.report (W := P) q e = none := by
      simp [Register.Event.report, Ne.symm same]
    exact ⟨val', (Register.lastReport_silent other x.2).trans last, is⟩

theorem step_told {x y : State P × List (Register.Event P P UInt8)} {a : Action P}
    (told : Told x) (next : ((system P).traced shown).step x a = some y) : Told y := by
  obtain ⟨t, moved, rfl⟩ := Option.map_eq_some_iff.1 next
  cases a with
  | testIoctlIoctl p r =>
      have moved : step x.1 (.testIoctlIoctl p r) = some t := moved
      simp only [step] at moved
      split at moved
      · cases moved
      split at moved
      · cases moved
        exact told.quiet rfl shown_ioctl_silent
      · split at moved
        · cases moved
          exact told.quiet rfl shown_ioctl_silent
        · obtain ⟨done, -, rfl⟩ := Option.map_eq_some_iff.1 moved
          exact told.quiet rfl shown_ioctl_silent
  | testIoctlRead p count reach =>
      have moved : step x.1 (.testIoctlRead p count reach) = some t := moved
      simp only [step] at moved
      split at moved <;> cases moved
      refine told.quiet rfl fun q e member => ?_
      rw [List.mem_singleton.1 member]
      rfl
  | run p =>
      obtain ⟨pc, at_, moved⟩ := Option.bind_eq_some_iff.1 moved
      cases pc with
      | fetch r =>
          have silent : shown x.1 (.run p) t = [] := by simp [shown, at_]
          simp only [runStep] at moved
          split at moved <;> cases moved <;> exact told.quiet rfl (by simp [silent])
      | writeLock val | readLock k =>
          have silent : shown x.1 (.run p) t = [] := by simp [shown, at_]
          obtain ⟨l, -, rfl⟩ := Option.map_eq_some_iff.1 moved
          exact told.quiet rfl (by simp [silent])
      | assign val | load k | readUnlock k val =>
          have silent : shown x.1 (.run p) t = [] := by simp [shown, at_]
          cases moved
          exact told.quiet rfl (by simp [silent])
      | writeUnlock =>
          have returned : shown x.1 (.run p) t = [.returned p] := by simp [shown, at_]
          cases moved
          exact told.quiet rfl (by simp [returned, Register.Event.report])
      | reply k val =>
          have reported : shown x.1 (.run p) t = [.reported p val] := by simp [shown, at_]
          cases moved
          rw [reported]
          exact told.reply p k val rfl

/-- **Linearizable.**  What the threads see is what they see of one byte that is set and
read at single moments; a call gets the byte of its own report, a read gets it over and
over; who writes is alone in its critical section; and as long as a call is in progress,
some call can go on. -/
theorem ioctl_linearizable {s : State P} {es : List (Register.Event P P UInt8)}
    (reached : ((system P).traced shown).Reachable (s, es)) :
    (∃ u : Register.State P P UInt8,
      ((Register.system 0xFF).traced Register.shown).Reachable (u, es) ∧
        u.value = s.data.val) ∧
    (∀ p r answer, s.answered p = some (.valget r, answer) →
      ∃ val, Register.lastReport p es = some val ∧
        answer = .ioctl (putWord r val.toUInt32)) ∧
    (∀ p count reach answer, s.answered p = some (.read count reach, answer) →
      ∃ val, Register.lastReport p es = some val ∧
        answer = .read (List.replicate (min count reach) val)
          (if count ≤ reach then (count : Int) else -EFAULT)) ∧
    (∀ p q, s.mode p = .writing → s.mode q ≠ .out → p = q) ∧
    ∀ p, (s.call p).isSome → ∃ q, (step s (.run q)).isSome := by
  have locked : Locked s := by
    refine System.Reachable.induct (I := fun x => Locked x.1) ?_ ?_ reached
    · rintro ⟨x, _⟩ ⟨rfl, -⟩
      exact Rwlock.agrees_free
    · intro x a y holds next
      obtain ⟨t, moved, rfl⟩ := Option.map_eq_some_iff.1 next
      exact step_locked holds moved
  have told : Told (s, es) := by
    refine System.Reachable.induct (I := Told) ?_ (fun x a y => step_told) reached
    rintro ⟨x, _⟩ ⟨rfl, rfl⟩ p k answer found
    cases found
  refine ⟨?_, fun p r answer => told p (.valget r) answer, ?_, fun p q => locked.exclusive,
    fun p => exists_step locked⟩
  · obtain ⟨u, reachedU, -, rfl⟩ := refinement.reachable reached
    exact ⟨s.register, reachedU, rfl⟩
  · intro p count reach answer found
    obtain ⟨val, last, rfl⟩ := told p (.read count reach) answer found
    refine ⟨val, last, ?_⟩
    simp only [Reply.answer, testIoctlRead_eq]

/-- While one thread is about to set the value to 7, another one reads three bytes. -/
def overtaken : List (Action Bool) :=
  [.testIoctlIoctl true ⟨IOCTL_VALSET, 0, some 0x107, true⟩, .run true,
    .testIoctlRead false 3 3, .run true, .run true, .run true, .run false, .run false, .run false,
    .run false]

theorem ioctl_linearizable_overtaken :
    ∃ s : State Bool, ((system Bool).traced shown).Reachable (s,
        [.called true 7, .began false, .returned true, .reported false 7]) ∧
      s.answered false = some (.read 3 3, .read [7, 7, 7] 3) ∧
      ∃ val, Register.lastReport false [Register.Event.called true (7 : UInt8),
          .began false, .returned true, .reported false 7] = some val ∧
        Answer.read [7, 7, 7] 3 = .read (List.replicate (min 3 3) val)
          (if 3 ≤ 3 then ((3 : Nat) : Int) else -EFAULT) := by
  have ends : (((system Bool).traced shown).run (start, []) overtaken).map
      (fun x => (x.2, x.1.answered false)) =
        some ([.called true 7, .began false, .returned true, .reported false 7],
          some (.read 3 3, .read [7, 7, 7] 3)) := by decide
  obtain ⟨⟨s, es⟩, ran, same⟩ := Option.map_eq_some_iff.1 ends
  obtain ⟨rfl, answered⟩ := Prod.mk.inj same
  have reached : ((system Bool).traced shown).Reachable (s, _) :=
    ⟨(start, []), overtaken, ⟨rfl, rfl⟩, ran⟩
  exact ⟨s, reached, answered, (ioctl_linearizable reached).2.2.1 false 3 3 _ answered⟩

end Lkmpg.Ioctl.Threads
