/-
# Lkmpg.Chardev2.Serial -- concurrent ioctls of chardev2.c run one at a time

Any number of processes are in `device_ioctl`.  `already_open` guards the message
and the user memory as the flag of an exclusive section (`simulation`), so a call
that has won the compare-and-swap is alone until its `atomic_set`, and what it
leaves is the outcome of `ioctlBody` on what it found (`alone_rest`).
-/
import Lkmpg.Chardev2.Ioctl
import Lkmpg.Theory.Exclusive

namespace Lkmpg.Chardev2

open Lkmpg.Kernel Lkmpg.Theory

set_option autoImplicit false

/-! ## The interleaving -/

variable (P : Type)

/-- A call that has returned: with `-EBUSY`, or after its `atomic_set`. -/
inductive Event where
  | busy (p : P) (c : Call)
  | returned (p : P) (c : Call) (ret : Int)

structure State where
  alreadyOpen : Int
  shared : Shared
  /-- The calls that have won the compare-and-swap. -/
  call : P → Option (Call × Pc)
  /-- The calls that have returned, oldest first. -/
  history : List (Event P)

inductive Action where
  /-- `device_ioctl` is called, and does its compare-and-swap. -/
  | ioctl (p : P) (c : Call)
  | run (p : P)

variable {P}

/-- **The serial run.**  The calls that have returned, each run alone from the state
the one before it left: what they leave, when they return what the history says. -/
def replay (signed : Bool) : Shared → List (Event P) → Option Shared
  | m, [] => some m
  | m, .busy _ _ :: events => replay signed m events
  | m, .returned _ c ret :: events =>
      (ioctlBody signed c m).bind fun done =>
        if done.2 = ret then replay signed done.1 events else none

theorem replay_append (signed : Bool) (m : Shared) (before after : List (Event P)) :
    replay signed m (before ++ after) =
      (replay signed m before).bind fun m' => replay signed m' after := by
  induction before generalizing m with
  | nil => rfl
  | cons event before ih =>
      cases event with
      | busy p c => exact ih m
      | returned p c ret =>
          simp only [List.cons_append, replay]
          cases ioctlBody signed c m with
          | none => rfl
          | some done =>
              simp only [Option.bind_some]
              split
              · exact ih done.1
              · rfl

variable [DecidableEq P]

/-- `device_ioctl` up to its compare-and-swap, and what it returns if it returns
there. -/
def deviceIoctl (s : State P) (p : P) (c : Call) : State P × Option Int :=
  let (found, left) := atomicCmpxchg s.alreadyOpen CDEV_NOT_USED CDEV_EXCLUSIVE_OPEN
  if found ≠ 0 then
    ({ s with alreadyOpen := left, history := s.history ++ [.busy p c] }, some (-EBUSY))
  else
    ({ s with
      alreadyOpen := left
      call := Function.update s.call p (some (c, .switch)) }, none)

theorem deviceIoctl_busy {s : State P} (busy : s.alreadyOpen ≠ CDEV_NOT_USED) (p : P)
    (c : Call) : deviceIoctl s p c =
      ({ s with history := s.history ++ [.busy p c] }, some (-EBUSY)) := by
  have found : s.alreadyOpen ≠ 0 := busy
  simp [deviceIoctl, atomicCmpxchg, CDEV_NOT_USED, found]

theorem deviceIoctl_free {s : State P} (free : s.alreadyOpen = CDEV_NOT_USED) (p : P)
    (c : Call) : deviceIoctl s p c = ({ s with
      alreadyOpen := CDEV_EXCLUSIVE_OPEN
      call := Function.update s.call p (some (c, .switch)) }, none) := by
  simp [deviceIoctl, atomicCmpxchg, free, CDEV_NOT_USED]

/-- An index given to `IOCTL_GET_NTH_BYTE` is in the buffer. -/
def Call.InBuffer (c : Call) : Prop :=
  c.ioctlNum = IOCTL_GET_NTH_BYTE → c.ioctlParam ≤ BUF_LEN

instance (c : Call) : Decidable c.InBuffer :=
  inferInstanceAs (Decidable (_ → _))

def step (signed : Bool) (s : State P) : Action P → Option (State P)
  | .ioctl p c =>
      if (s.call p).isSome ∨ ¬ c.InBuffer then none else some (deviceIoctl s p c).1
  | .run p =>
      match s.call p with
      | none => none
      | some (c, .done ret) =>
          some { s with
            alreadyOpen := CDEV_NOT_USED
            call := Function.update s.call p none
            history := s.history ++ [.returned p c ret] }
      | some (c, pc) =>
          (ioctlStep signed c pc s.shared).map fun next =>
            { s with
              shared := next.2
              call := Function.update s.call p (some (c, next.1)) }

/-- No call has been made yet, on a message of zeros and any user memory. -/
def system (P : Type) [DecidableEq P] (signed : Bool) (u : User) :
    System (State P) (Action P) where
  Start s := s = ⟨CDEV_NOT_USED, (Message.zero, u), fun _ => none, []⟩
  step := step signed

/-! ## The exclusive section -/

/-- A call between its compare-and-swap and its `atomic_set`. -/
def body (signed : Bool) : Exclusive.Body Shared Call (Call × Pc) Unit where
  enter c := (c, .switch)
  move here s _ := (ioctlStep signed here.1 here.2 s).map fun next => ((here.1, next.1), next.2)
  mayLeave here := match here.2 with
    | .done _ => true
    | _ => false

/-- **A call alone does what `ioctlBody` does.** -/
theorem alone_rest {signed : Bool} {e : Call} {m s : Shared} {here : Call × Pc}
    (alone : Exclusive.Alone (body signed) e m here s) :
    here.1 = e ∧ rest signed e here.2 s = ioctlBody signed e m := by
  refine alone.induct (I := fun here s => here.1 = e ∧ rest signed e here.2 s =
    ioctlBody signed e m) ⟨rfl, rfl⟩ ?_
  rintro ⟨c, pc⟩ s _ next s' ⟨rfl, same⟩ moved
  simp only [body, Option.map_eq_some_iff] at moved
  obtain ⟨⟨pc', t⟩, stepped, made⟩ := moved
  cases made
  exact ⟨rfl, by rw [ioctlStep_rest stepped, same]⟩

/-- The driver and the section: `already_open` is the flag, and the finished
sessions replay as the calls that have returned. -/
structure Rel (signed : Bool) (u : User) (s : State P)
    (x : Exclusive.State P Shared Call (Call × Pc)) : Prop where
  ordered : Exclusive.Ordered (body signed) (Message.zero, u) x
  flag : s.alreadyOpen = if x.flag then CDEV_EXCLUSIVE_OPEN else CDEV_NOT_USED
  shared : s.shared = x.shared
  call : ∀ p, s.call p = (x.inside p).map Prod.snd
  inBuffer : ∀ p c pc, s.call p = some (c, pc) → c.InBuffer
  past : ∀ m, Exclusive.Serial (body signed) (Message.zero, u) x.past m →
    replay signed (Message.zero, u) s.history = some m

theorem rel_ioctl {signed : Bool} {u : User} {s t : State P}
    {x : Exclusive.State P Shared Call (Call × Pc)} {p : P} {c : Call} (rel : Rel signed u s x)
    (next : step signed s (.ioctl p c) = some t) :
    ∃ x', Exclusive.step (body signed) x (.attempt p c) = some x' ∧ Rel signed u t x' := by
  simp only [step] at next
  split at next
  · cases next
  · rename_i may
    rw [not_or, not_not] at may
    obtain ⟨idle, index⟩ := may
    have out : x.inside p = none := by simpa [rel.call] using idle
    cases flag : x.flag with
    | true =>
        have busy : s.alreadyOpen ≠ CDEV_NOT_USED := by
          rw [rel.flag, flag]
          decide
        rw [deviceIoctl_busy busy] at next
        cases next
        refine ⟨x, Exclusive.step_refuse out flag, rel.ordered, rel.flag, rel.shared,
          rel.call, rel.inBuffer, ?_⟩
        intro m serial
        rw [replay_append, rel.past m serial]
        rfl
    | false =>
        have free : s.alreadyOpen = CDEV_NOT_USED := by
          rw [rel.flag, flag]
          rfl
        rw [deviceIoctl_free free] at next
        cases next
        have taken := Exclusive.step_enter (B := body signed) (e := c) out flag
        refine ⟨_, taken, Exclusive.ordered_step rel.ordered taken, rfl, rel.shared,
          ?_, ?_, rel.past⟩
        · intro q
          by_cases same : q = p
          · simp [same, body]
          · simp [Function.update_of_ne same, rel.call]
        · intro q c' pc found
          by_cases same : q = p
          · subst same
            simp only [Function.update_self, Option.some.injEq, Prod.mk.injEq] at found
            rw [← found.1]
            exact index
          · simp only [Function.update_of_ne same] at found
            exact rel.inBuffer q c' pc found

theorem rel_run {signed : Bool} {u : User} {s t : State P}
    {x : Exclusive.State P Shared Call (Call × Pc)} {p : P} (rel : Rel signed u s x)
    (next : step signed s (.run p) = some t) :
    ∃ a x', Exclusive.step (body signed) x a = some x' ∧ Rel signed u t x' := by
  simp only [step] at next
  split at next
  · cases next
  · rename_i c ret found
    cases next
    obtain ⟨⟨e, here⟩, inside, same⟩ := Option.map_eq_some_iff.1 ((rel.call p).symm.trans found)
    dsimp only at same
    subst same
    have flag := rel.ordered.flag_of_inside (p := p) (by simp [inside])
    have taken := Exclusive.step_leave (B := body signed) inside rfl
    refine ⟨_, _, taken, Exclusive.ordered_step rel.ordered taken, rfl, rel.shared,
      ?_, ?_, ?_⟩
    · intro q
      by_cases same : q = p
      · simp [same]
      · simp [Function.update_of_ne same, rel.call]
    · intro q c' pc found'
      by_cases same : q = p
      · simp [same] at found'
      · simp only [Function.update_of_ne same] at found'
        exact rel.inBuffer q c' pc found'
    · intro m' serial
      obtain ⟨m, before, alone, -⟩ := serial.last
      obtain ⟨same, outcome⟩ := alone_rest alone
      dsimp only at same outcome
      subst same
      rw [replay_append, rel.past m before]
      simp [replay, ← outcome, rest]
  · rename_i c pc busy found
    simp only [Option.map_eq_some_iff] at next
    obtain ⟨⟨pc', m'⟩, stepped, rfl⟩ := next
    obtain ⟨⟨e, here⟩, inside, same⟩ := Option.map_eq_some_iff.1 ((rel.call p).symm.trans found)
    dsimp only at same
    subst same
    have moved : (body signed).move (c, pc) x.shared () = some ((c, pc'), m') := by
      simp [body, ← rel.shared, stepped]
    have taken := Exclusive.step_move inside moved
    refine ⟨_, _, taken, Exclusive.ordered_step rel.ordered taken, rel.flag, rfl,
      ?_, ?_, rel.past⟩
    · intro q
      by_cases same : q = p
      · simp [same]
      · simp [Function.update_of_ne same, rel.call]
    · intro q c' pc'' found'
      by_cases same : q = p
      · subst same
        simp only [Function.update_self, Option.some.injEq, Prod.mk.injEq] at found'
        rw [← found'.1]
        exact rel.inBuffer q c pc found
      · simp only [Function.update_of_ne same] at found'
        exact rel.inBuffer q c' pc'' found'

/-- `chardev2.c` refines the exclusive section. -/
def simulation (signed : Bool) (u : User) : Simulation (system P signed u)
    (Exclusive.system (P := P) (body signed) (Message.zero, u)) where
  Rel := Rel signed u
  start := by
    rintro s rfl
    refine ⟨_, rfl, Exclusive.ordered_start _, rfl, rfl, fun _ => rfl, by simp, ?_⟩
    intro m serial
    generalize blank : ([] : List (Exclusive.Session P Call (Call × Pc))) = past at serial
    cases serial with
    | nil => rfl
    | snoc => simp at blank
  step s x a t rel next := by
    cases a with
    | ioctl p c =>
        obtain ⟨x', taken, rel'⟩ := rel_ioctl rel next
        exact ⟨[.attempt p c], x', by simp [System.run, Exclusive.system, taken], rel'⟩
    | run p =>
        obtain ⟨b, x', taken, rel'⟩ := rel_run rel next
        exact ⟨[b], x', by simp [System.run, Exclusive.system, taken], rel'⟩

theorem reachable_rel {signed : Bool} {u : User} {s : State P}
    (reached : (system P signed u).Reachable s) : ∃ x, Rel signed u s x := by
  obtain ⟨x, -, rel⟩ := (simulation signed u).reachable reached
  exact ⟨x, rel⟩

/-! ## What the calls leave -/

/-- The calls that have returned replay alone; with nobody inside that is the
shared state, and a call inside still has to do what is missing. -/
theorem reachable_replay {signed : Bool} {u : User} {s : State P}
    (reached : (system P signed u).Reachable s) :
    ∃ m, replay signed (Message.zero, u) s.history = some m ∧
      (s.alreadyOpen = CDEV_NOT_USED → s.shared = m) ∧
      ∀ p c pc, s.call p = some (c, pc) → rest signed c pc s.shared = ioctlBody signed c m := by
  obtain ⟨x, rel⟩ := reachable_rel reached
  cases flag : x.flag with
  | false =>
      obtain ⟨out, serial⟩ := rel.ordered.free flag
      refine ⟨x.shared, rel.past _ serial, fun _ => rel.shared, ?_⟩
      intro p c pc found
      simp [rel.call, out p] at found
  | true =>
      obtain ⟨p, e, here, m, inside, others, serial, alone⟩ := rel.ordered.held flag
      obtain ⟨rfl, outcome⟩ := alone_rest alone
      refine ⟨m, rel.past m serial, ?_, ?_⟩
      · intro free
        rw [rel.flag, flag] at free
        exact absurd free (by decide)
      · intro q c pc found
        by_cases same : q = p
        · subst same
          simp only [rel.call, inside, Option.map_some, Option.some.injEq] at found
          subst found
          rw [rel.shared]
          exact outcome
        · simp [rel.call, others q same] at found

/-- `already_open` is back exactly when no call is in progress. -/
theorem reachable_idle {signed : Bool} {u : User} {s : State P}
    (reached : (system P signed u).Reachable s) :
    s.alreadyOpen = CDEV_NOT_USED ↔ ∀ p, s.call p = none := by
  obtain ⟨x, rel⟩ := reachable_rel reached
  have inside : x.flag = true ↔ ∃ p, (s.call p).isSome := by
    rw [rel.ordered.flag_iff]
    simp [rel.call]
  rw [rel.flag]
  cases flag : x.flag with
  | false =>
      rw [flag] at inside
      simpa [CDEV_NOT_USED] using inside
  | true =>
      obtain ⟨p, busy⟩ := inside.1 flag
      apply iff_of_false (by decide)
      intro idle
      simp [idle p] at busy

/-- **Every call returns.**  Whatever the others have done, a call in progress ends
by its own steps alone, and returns what `rest` says. -/
theorem reachable_returns {signed : Bool} {u : User} {s : State P}
    (reached : (system P signed u).Reachable s) {p : P} {c : Call} {pc : Pc}
    (found : s.call p = some (c, pc)) : ∃ n t ret,
      (system P signed u).run s (List.replicate n (.run p)) = some t ∧
      rest signed c pc s.shared = some (t.shared, ret) ∧
      t.alreadyOpen = CDEV_NOT_USED ∧ t.history = s.history ++ [.returned p c ret] := by
  induction left : pc.left using Nat.strongRecOn generalizing s pc with
  | ind bound ih =>
      by_cases ends : ∃ ret, pc = .done ret
      · obtain ⟨ret, rfl⟩ := ends
        refine ⟨1, { s with
          alreadyOpen := CDEV_NOT_USED
          call := Function.update s.call p none
          history := s.history ++ [.returned p c ret] }, ret, ?_, rfl, rfl, rfl⟩
        simp [System.run, system, step, found]
      · have busy : ∀ ret, pc ≠ .done ret := fun ret same => ends ⟨ret, same⟩
        obtain ⟨x, rel⟩ := reachable_rel reached
        obtain ⟨m, -, -, outcome⟩ := reachable_replay reached
        have going : (rest signed c pc s.shared).isSome := by
          rw [outcome p c pc found]
          exact ioctlBody_isSome signed (rel.inBuffer p c pc found) m
        obtain ⟨⟨pc', m'⟩, moved⟩ := Option.isSome_iff_exists.1 (ioctlStep_isSome going busy)
        have next : (system P signed u).step s (.run p) = some { s with
            shared := m'
            call := Function.update s.call p (some (c, pc')) } := by
          simp only [system, step, found, moved, Option.map_some]
        have smaller := ioctlStep_left moved
        obtain ⟨n, t, ret, ran, done, free, events⟩ :=
          ih pc'.left (left ▸ smaller) (reached.step next) (by simp) rfl
        refine ⟨n + 1, t, ret, ?_, ?_, free, events⟩
        · rw [List.replicate_succ]
          exact System.run_cons.2 ⟨_, next, ran⟩
        · rw [← ioctlStep_rest moved]
          exact done

/-- **The ioctls are serialisable.**  In every reachable state the calls that have
returned are a serial run with the same results, which leaves what a call now inside
found; that call still has to do just what it would have done alone, and can.  The
others return `-EBUSY` and touch nothing. -/
theorem ioctl_serialisable {signed : Bool} {u : User} {s : State P}
    (reached : (system P signed u).Reachable s) :
    (∃ m, replay signed (Message.zero, u) s.history = some m ∧
      (s.alreadyOpen = CDEV_NOT_USED → s.shared = m) ∧
      ∀ p c pc, s.call p = some (c, pc) →
        rest signed c pc s.shared = ioctlBody signed c m ∧
        ∃ n t ret, (system P signed u).run s (List.replicate n (.run p)) = some t ∧
          ioctlBody signed c m = some (t.shared, ret) ∧
          t.history = s.history ++ [.returned p c ret]) ∧
      (s.alreadyOpen = CDEV_NOT_USED ↔ ∀ p, s.call p = none) ∧
      ∀ p c ret, (deviceIoctl s p c).2 = some ret → ret = -EBUSY ∧
        (deviceIoctl s p c).1 = { s with history := s.history ++ [.busy p c] } := by
  refine ⟨?_, reachable_idle reached, ?_⟩
  · obtain ⟨m, replayed, idle, outcome⟩ := reachable_replay reached
    refine ⟨m, replayed, idle, fun p c pc found => ⟨outcome p c pc found, ?_⟩⟩
    obtain ⟨n, t, ret, ran, done, -, events⟩ := reachable_returns reached found
    exact ⟨n, t, ret, ran, by rw [← outcome p c pc found, done], events⟩
  · intro p c ret refused
    by_cases free : s.alreadyOpen = CDEV_NOT_USED
    · rw [deviceIoctl_free free] at refused
      cases refused
    · rw [deviceIoctl_busy free] at refused ⊢
      cases refused
      exact ⟨rfl, rfl⟩

/-- One process sets the message to "ab", a second one is refused on the way. -/
def contended : List (Action Bool) :=
  [.ioctl true ⟨0, IOCTL_SET_MSG, 4096⟩, .run true, .ioctl false ⟨1, IOCTL_GET_MSG, 4096⟩] ++
    List.replicate 9 (.run true)

def contendedUser : User := fun mm addr =>
  if mm = 0 ∧ 4096 ≤ addr then (text "ab" ++ [0])[addr - 4096]? else none

theorem ioctl_serialisable_contended :
    ∃ s, (system Bool true contendedUser).Reachable s ∧ s.history.length = 2 ∧
      s.shared.1.bytes.take 3 = text "ab" ++ [0] ∧
      replay true (Message.zero, contendedUser) s.history = some s.shared := by
  have ends : ((system Bool true contendedUser).run
      ⟨CDEV_NOT_USED, (Message.zero, contendedUser), fun _ => none, []⟩ contended).map
      (fun s => (s.alreadyOpen, s.history.length, s.shared.1.bytes.take 3)) =
        some (CDEV_NOT_USED, 2, text "ab" ++ [0]) := by decide
  obtain ⟨s, ran, same⟩ := Option.map_eq_some_iff.1 ends
  simp only [Prod.mk.injEq] at same
  obtain ⟨free, events, bytes⟩ := same
  have reached : (system Bool true contendedUser).Reachable s := ⟨_, contended, rfl, ran⟩
  obtain ⟨⟨m, replayed, idle, -⟩, -⟩ := ioctl_serialisable reached
  exact ⟨s, reached, events, bytes, by rw [replayed, idle free]⟩

end Lkmpg.Chardev2
