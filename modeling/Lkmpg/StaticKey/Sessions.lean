/-
# Lkmpg.StaticKey.Sessions -- a session shows the key as it found it

Any number of processes open, read, write and release the file.  The steps are the
atomic operations on `already_open`, the `sprintf` of `device_open`, and the calls of the
one process inside.  `already_open` is the flag of an exclusive section (`simulation`), so
a session works alone on `msg` and on the key.

The log has what each command that was taken asks for, and a file carries its length when
it was opened.
`session_keep`: a session adds to the log, and `msg` stays as its `sprintf` left it.
-/
import Lkmpg.StaticKey.Commands
import Lkmpg.Theory.Exclusive

namespace Lkmpg.StaticKey.Sessions

open Lkmpg.Kernel Lkmpg.Theory

set_option autoImplicit false

/-! ## The driver -/

/-- What a command asks for, whether it is taken or not. -/
def asks (command : List UInt8) : Option Bool :=
  if text "enable" <+: command then some true
  else if text "disable" <+: command then some false
  else none

/-- The data with what the commands that were taken ask for, oldest first. -/
structure Shared where
  data : Data
  log : List Bool

def Shared.init : Shared := ⟨Data.init, []⟩

/-- The last one asked for, or that the key is defined false. -/
def keyAfter (log : List Bool) : Bool := log.getLast?.getD false

structure File where
  /-- `device_open` has returned. -/
  opened : Bool
  offset : Nat
  /-- What each `device_read` delivered, oldest first. -/
  reads : List (List UInt8)

def File.new : File := ⟨false, 0, []⟩

inductive Move where
  | sprintf
  | deviceRead (length : Nat)
  | deviceWrite (command buffer : List UInt8) (copied : Bool)

/-- A write that is taken returns no error.  The command is the buffer, and what the array
has after it. -/
def Shared.deviceWrite (s : Shared) (command buffer : List UInt8) (copied : Bool) : Shared :=
  let (key, ret) := StaticKey.deviceWrite command s.data.fkey buffer copied
  ⟨{ s.data with fkey := key },
    if ret < 0 then s.log else s.log ++ (asks (buffer ++ command.drop buffer.length)).toList⟩

/-- The steps of a process with the file open.  A `device_read` has a positive
length. -/
def move (f : File) (s : Shared) : Move → Option (File × Shared)
  | .sprintf =>
      if f.opened then none else some ({ f with opened := true }, { s with data := s.data.sprintf })
  | .deviceRead length =>
      if f.opened = false ∨ length = 0 then none
      else
        (deviceRead s.data length f.offset).map fun got =>
          ({ f with offset := got.2, reads := f.reads ++ [got.1] }, s)
  | .deviceWrite command buffer copied =>
      if f.opened then some (f, s.deviceWrite command buffer copied) else none

variable (P : Type)

structure State where
  alreadyOpen : Int
  shared : Shared
  /-- The open files, each with the length of the log when it was opened. -/
  file : P → Option (Nat × File)

inductive Action where
  | deviceOpen (p : P)
  | move (p : P) (m : Move)
  | deviceRelease (p : P)

variable {P} [DecidableEq P]

/-- `device_open` up to its `sprintf`, and what it returns if it returns there. -/
def deviceOpen (s : State P) (p : P) : State P × Option Int :=
  let (found, left) := atomicCmpxchg s.alreadyOpen CDEV_NOT_USED CDEV_EXCLUSIVE_OPEN
  if found ≠ 0 then ({ s with alreadyOpen := left }, some (-EBUSY))
  else
    ({ s with
      alreadyOpen := left
      file := Function.update s.file p (some (s.shared.log.length, File.new)) }, none)

theorem deviceOpen_busy {s : State P} (busy : s.alreadyOpen ≠ CDEV_NOT_USED) (p : P) :
    deviceOpen s p = (s, some (-EBUSY)) := by
  have found : s.alreadyOpen ≠ 0 := busy
  simp [deviceOpen, atomicCmpxchg, CDEV_NOT_USED, found]

theorem deviceOpen_free {s : State P} (free : s.alreadyOpen = CDEV_NOT_USED) (p : P) :
    deviceOpen s p = ({ s with
      alreadyOpen := CDEV_EXCLUSIVE_OPEN
      file := Function.update s.file p (some (s.shared.log.length, File.new)) }, none) := by
  simp [deviceOpen, atomicCmpxchg, free, CDEV_NOT_USED]

def step (s : State P) : Action P → Option (State P)
  | .deviceOpen p => if (s.file p).isSome then none else some (deviceOpen s p).1
  | .move p m =>
      match s.file p with
      | none => none
      | some (n, f) =>
          (move f s.shared m).map fun next =>
            { s with shared := next.2, file := Function.update s.file p (some (n, next.1)) }
  | .deviceRelease p =>
      match s.file p with
      | none => none
      | some (_, f) =>
          if f.opened then
            some { s with alreadyOpen := CDEV_NOT_USED, file := Function.update s.file p none }
          else none

def system (P : Type) [DecidableEq P] : System (State P) (Action P) where
  Start s := s = ⟨CDEV_NOT_USED, Shared.init, fun _ => none⟩
  step := step

/-! ## One session -/

theorem keyText_ne_zero (fkey : Bool) : ∀ b ∈ keyText fkey, b ≠ 0 := by
  cases fkey <;> exact ne_zero_of_all (by decide)

/-- `msg` has the text of the key, and ends with a NUL. -/
theorem sprintf_text (d : Data) :
    cstr d.sprintf.msg = keyText d.fkey ∧ (0 : UInt8) ∈ d.sprintf.msg := by
  have msg : d.sprintf.msg =
      keyText d.fkey ++ 0 :: d.msg.drop (keyText d.fkey ++ [0]).length := by
    show splice d.msg 0 (keyText d.fkey ++ [0]) = _
    rw [splice, List.take_zero, List.nil_append, List.append_assoc, Nat.zero_add]
    rfl
  rw [msg]
  exact ⟨cstr_append (keyText_ne_zero _), by simp⟩

/-- A write is refused and leaves the key, or it does what the command asks for. -/
theorem deviceWrite_asks (command : List UInt8) (fkey : Bool) (buffer : List UInt8)
    (copied : Bool) :
    ((StaticKey.deviceWrite command fkey buffer copied).1 = fkey ∧
      (StaticKey.deviceWrite command fkey buffer copied).2 < 0) ∨
    (¬ (StaticKey.deviceWrite command fkey buffer copied).2 < 0 ∧
      asks (buffer ++ command.drop buffer.length) =
        some (StaticKey.deviceWrite command fkey buffer copied).1) := by
  have invalid : -EINVAL < 0 := by decide
  have fault : -EFAULT < 0 := by decide
  by_cases long : 10 < buffer.length
  · rw [StaticKey.deviceWrite, if_pos long]
    exact .inl ⟨rfl, invalid⟩
  cases copied with
  | false =>
      rw [StaticKey.deviceWrite, if_neg long]
      exact .inl ⟨rfl, fault⟩
  | true =>
      have taken : ¬ (buffer.length : Int) < 0 := by omega
      rw [deviceWrite_eq fkey (by omega), asks]
      split
      · exact .inr ⟨taken, rfl⟩
      · split
        · exact .inr ⟨taken, rfl⟩
        · exact .inl ⟨rfl, invalid⟩

/-- The key is what was asked for last, and a write keeps that. -/
theorem write_logged {s : Shared} {command buffer : List UInt8} {copied : Bool}
    (logged : s.data.fkey = keyAfter s.log) :
    (s.deviceWrite command buffer copied).data.fkey =
      keyAfter (s.deviceWrite command buffer copied).log ∧
    s.log <+: (s.deviceWrite command buffer copied).log := by
  simp only [Shared.deviceWrite]
  rcases deviceWrite_asks command s.data.fkey buffer copied with ⟨same, negative⟩ | ⟨taken, asked⟩
  · rw [if_pos negative, same]
    exact ⟨logged, List.prefix_rfl⟩
  · rw [if_neg taken, asked]
    exact ⟨by simp [keyAfter], List.prefix_append _ _⟩

/-- A session that started from `m`: it is before its `sprintf`, or `msg` has the text of
the key it found, and the log has grown. -/
structure SessionInv (m : Shared) (f : File) (s : Shared) : Prop where
  logged : s.data.fkey = keyAfter s.log
  grown : m.log <+: s.log
  fresh : f.opened = false → f = File.new ∧ s = m
  shown : f.opened = true → cstr s.data.msg = keyText (keyAfter m.log) ∧
    (0 : UInt8) ∈ s.data.msg ∧ Transcript (keyText (keyAfter m.log)) f.offset f.reads

theorem session_keep {m s s' : Shared} {f f' : File} {a : Move} (inv : SessionInv m f s)
    (moved : move f s a = some (f', s')) : SessionInv m f' s' := by
  cases a with
  | sprintf =>
      simp only [move] at moved
      split at moved <;> cases moved
      rename_i before
      obtain ⟨rfl, rfl⟩ := inv.fresh (Bool.eq_false_iff.2 before)
      obtain ⟨text, terminated⟩ := sprintf_text s.data
      refine ⟨inv.logged, inv.grown, fun impossible => (by cases impossible), fun _ => ?_⟩
      rw [inv.logged] at text
      exact ⟨text, terminated, .start _⟩
  | deviceRead length =>
      simp only [move] at moved
      split at moved
      · cases moved
      rename_i may
      rw [not_or, Bool.not_eq_false] at may
      obtain ⟨got, read, next⟩ := Option.map_eq_some_iff.1 moved
      cases next
      obtain ⟨text, terminated, transcript⟩ := inv.shown may.1
      rw [← text] at transcript
      obtain ⟨got', read', transcript'⟩ :=
        readMsg_transcript terminated (Nat.pos_of_ne_zero may.2) transcript
      obtain rfl : got' = got := Option.some.inj (read'.symm.trans read)
      rw [text] at transcript'
      refine ⟨inv.logged, inv.grown, fun closed => ?_, fun _ => ⟨text, terminated, transcript'⟩⟩
      have opened : f.opened = false := closed
      rw [may.1] at opened
      cases opened
  | deviceWrite command buffer copied =>
      simp only [move] at moved
      split at moved <;> cases moved
      rename_i opened
      obtain ⟨logged, longer⟩ := @write_logged s command buffer copied inv.logged
      refine ⟨logged, inv.grown.trans longer, fun closed => ?_, fun _ => inv.shown opened⟩
      rw [opened] at closed
      cases closed

/-! ## The exclusive section -/

/-- A file between the compare-and-swap of its open and its release. -/
def body : Exclusive.Body Shared Nat File Move where
  enter _ := File.new
  move := move
  mayLeave f := f.opened

theorem alone_session {n : Nat} {m s : Shared} {f : File} (logged : m.data.fkey = keyAfter m.log)
    (alone : Exclusive.Alone body n m f s) : SessionInv m f s := by
  refine alone.induct ?_ fun _ _ _ _ _ inv moved => session_keep inv moved
  refine ⟨logged, List.prefix_rfl, fun _ => ⟨rfl, rfl⟩, ?_⟩
  exact fun opened => by cases opened

theorem serial_logged {P : Type} {s : Shared} {past : List (Exclusive.Session P Nat File)}
    (serial : Exclusive.Serial body Shared.init past s) : s.data.fkey = keyAfter s.log := by
  refine serial.induct (I := fun _ s => s.data.fkey = keyAfter s.log) rfl ?_
  intro past m x t logged alone left
  exact (alone_session logged alone).logged

section Simulation

variable {P : Type} [DecidableEq P]

/-- The driver and the section: `already_open` is the flag, and the number a file carries
is how long the log was when the session began. -/
structure Rel (s : State P) (u : Exclusive.State P Shared Nat File) : Prop where
  ordered : Exclusive.Ordered body Shared.init u
  flag : s.alreadyOpen = if u.flag then CDEV_EXCLUSIVE_OPEN else CDEV_NOT_USED
  shared : s.shared = u.shared
  file : s.file = u.inside
  number : ∀ p n f, s.file p = some (n, f) →
    ∃ m, Exclusive.Serial body Shared.init u.past m ∧ Exclusive.Alone body n m f u.shared ∧
      m.log.length = n

/-- An action of the driver is an action of the section. -/
def act (s : State P) : Action P → Exclusive.Action P Nat Move
  | .deviceOpen p => .attempt p s.shared.log.length
  | .move p m => .move p m
  | .deviceRelease p => .leave p

variable {s t : State P} {u : Exclusive.State P Shared Nat File} {p : P}

theorem rel_deviceOpen (rel : Rel s u) (next : step s (.deviceOpen p) = some t) :
    ∃ u', Exclusive.step body u (.attempt p s.shared.log.length) = some u' ∧ Rel t u' := by
  simp only [step] at next
  split at next
  · cases next
  rename_i closed
  rw [rel.file, Option.not_isSome_iff_eq_none] at closed
  cases flag : u.flag with
  | true =>
      refine ⟨u, Exclusive.step_refuse closed flag, ?_⟩
      have busy : s.alreadyOpen ≠ CDEV_NOT_USED := by
        rw [rel.flag, flag]
        decide
      rw [deviceOpen_busy busy] at next
      cases next
      exact rel
  | false =>
      have free : s.alreadyOpen = CDEV_NOT_USED := by
        rw [rel.flag, flag]
        rfl
      rw [deviceOpen_free free] at next
      cases next
      have taken := Exclusive.step_enter (B := body) (e := s.shared.log.length) closed flag
      obtain ⟨out, serial⟩ := rel.ordered.free flag
      refine ⟨_, taken, Exclusive.ordered_step rel.ordered taken, by simp, rel.shared,
        by simp [rel.file, body], ?_⟩
      intro q n f found
      by_cases same : q = p
      · subst same
        simp only [Function.update_self, Option.some.injEq, Prod.mk.injEq] at found
        obtain ⟨rfl, rfl⟩ := found
        exact ⟨u.shared, serial, .enter _ _, by rw [rel.shared]⟩
      · dsimp only at found
        rw [Function.update_of_ne same, rel.file, out q] at found
        cases found

theorem rel_move {m : Move} (rel : Rel s u) (next : step s (.move p m) = some t) :
    ∃ u', Exclusive.step body u (.move p m) = some u' ∧ Rel t u' := by
  simp only [step] at next
  split at next
  · cases next
  rename_i n f found
  obtain ⟨⟨f', s'⟩, moved, rfl⟩ := Option.map_eq_some_iff.1 next
  have inside : u.inside p = some (n, f) := by rw [← rel.file, found]
  rw [rel.shared] at moved
  have taken := Exclusive.step_move (B := body) inside moved
  refine ⟨_, taken, Exclusive.ordered_step rel.ordered taken, rel.flag, rfl,
    by simp [rel.file], ?_⟩
  intro q n' f'' found'
  by_cases same : q = p
  · subst same
    simp only [Function.update_self, Option.some.injEq, Prod.mk.injEq] at found'
    obtain ⟨rfl, rfl⟩ := found'
    obtain ⟨start, serial, alone, length⟩ := rel.number q n f found
    exact ⟨start, serial, alone.move moved, length⟩
  · dsimp only at found'
    rw [Function.update_of_ne same, rel.file] at found'
    exact absurd (rel.ordered.exclusive (by simp [found']) (by simp [inside])) same

theorem rel_deviceRelease (rel : Rel s u) (next : step s (.deviceRelease p) = some t) :
    ∃ u', Exclusive.step body u (.leave p) = some u' ∧ Rel t u' := by
  simp only [step] at next
  split at next
  · cases next
  rename_i n f found
  split at next <;> cases next
  rename_i ready
  have inside : u.inside p = some (n, f) := by rw [← rel.file, found]
  have isInside : (u.inside p).isSome := by simp [inside]
  have taken := Exclusive.step_leave (B := body) inside ready
  refine ⟨_, taken, Exclusive.ordered_step rel.ordered taken, by simp, rel.shared,
    by simp [rel.file], ?_⟩
  intro q n' f' found'
  by_cases same : q = p
  · simp [same] at found'
  · simp only [Function.update_of_ne same, rel.file] at found'
    exact absurd (rel.ordered.exclusive (by simp [found']) isInside) same

theorem rel_step {a : Action P} (rel : Rel s u) (next : step s a = some t) :
    ∃ u', Exclusive.step body u (act s a) = some u' ∧ Rel t u' := by
  cases a with
  | deviceOpen p => exact rel_deviceOpen rel next
  | move p m => exact rel_move rel next
  | deviceRelease p => exact rel_deviceRelease rel next

/-- `static_key.c` refines the exclusive section. -/
def simulation : Simulation (system P) (Exclusive.system (P := P) body Shared.init) where
  Rel := Rel
  start := by
    rintro s rfl
    refine ⟨_, rfl, Exclusive.ordered_start Shared.init, rfl, rfl, rfl, ?_⟩
    simp
  step s u a t rel next := by
    obtain ⟨u', taken, rel'⟩ := rel_step rel next
    exact ⟨[act s a], u', by simp [System.run, Exclusive.system, taken], rel'⟩

/-- **A session shows the key as it found it.**  At most one file is open; an open that
returns `-EBUSY` changes nothing; the key is what the last command taken asked for; and
what a session reads up to its first empty read is the text of the key at its open,
whatever it has written since. -/
theorem static_key_sessions {s : State P} (reached : (system P).Reachable s) :
    (∀ p q, (s.file p).isSome → (s.file q).isSome → p = q) ∧
      (∀ p, (deviceOpen s p).2 = some (-EBUSY) → (deviceOpen s p).1 = s) ∧
      s.shared.data.fkey = keyAfter s.shared.log ∧
      ∀ p n f, s.file p = some (n, f) → n ≤ s.shared.log.length ∧ ∀ pre post,
        f.reads = pre ++ [] :: post → [] ∉ pre →
          pre.flatten = keyText (keyAfter (s.shared.log.take n)) := by
  obtain ⟨u, -, rel⟩ := simulation.reachable reached
  refine ⟨?_, ?_, ?_, ?_⟩
  · intro p q openP openQ
    rw [rel.file] at openP openQ
    exact rel.ordered.exclusive openP openQ
  · intro p refused
    by_cases free : s.alreadyOpen = CDEV_NOT_USED
    · rw [deviceOpen_free free] at refused
      cases refused
    · rw [deviceOpen_busy free]
  · cases flag : u.flag with
    | false =>
        rw [rel.shared]
        exact serial_logged (rel.ordered.free flag).2
    | true =>
        obtain ⟨p, isInside⟩ := rel.ordered.flag_iff.1 flag
        obtain ⟨⟨n, f⟩, inside⟩ := Option.isSome_iff_exists.1 isInside
        obtain ⟨m, serial, alone⟩ := rel.ordered.alone inside
        rw [rel.shared]
        exact (alone_session (serial_logged serial) alone).logged
  · intro p n f found
    obtain ⟨m, serial, alone, rfl⟩ := rel.number p n f found
    have inv := alone_session (serial_logged serial) alone
    rw [rel.shared]
    refine ⟨inv.grown.length_le, ?_⟩
    intro pre post split first
    cases opened : f.opened with
    | false =>
        obtain ⟨rfl, -⟩ := inv.fresh opened
        simp [File.new] at split
    | true =>
        obtain ⟨-, -, transcript⟩ := inv.shown opened
        rw [List.prefix_iff_eq_take.1 inv.grown] at transcript
        exact transcript.whole split first

/-- One process enables the key, and reads that it is disabled; the next one reads that it
is enabled. -/
def enabledThenRead : List (Action Bool) :=
  [.deviceOpen true, .move true .sprintf,
    .move true (.deviceWrite (List.replicate 10 0) (text "enable\n") true),
    .move true (.deviceRead 99), .move true (.deviceRead 99), .deviceRelease true,
    .deviceOpen false, .move false .sprintf, .move false (.deviceRead 99),
    .move false (.deviceRead 99)]

theorem static_key_sessions_two : ∃ s, (system Bool).Reachable s ∧ s.shared.log = [true] ∧
    (∃ f, s.file false = some (1, f) ∧ f.reads = [text "enabled\n", []]) ∧
    [text "enabled\n"].flatten = keyText (keyAfter (s.shared.log.take 1)) := by
  have ends : ((system Bool).run ⟨CDEV_NOT_USED, Shared.init, fun _ => none⟩ enabledThenRead).map
      (fun s => (s.shared.log, (s.file false).map fun x => (x.1, x.2.reads))) =
        some ([true], some (1, [text "enabled\n", []])) := by decide
  obtain ⟨s, ran, same⟩ := Option.map_eq_some_iff.1 ends
  simp only [Prod.mk.injEq] at same
  obtain ⟨log, opened⟩ := same
  obtain ⟨⟨n, f⟩, file, is⟩ := Option.map_eq_some_iff.1 opened
  simp only [Prod.mk.injEq] at is
  obtain ⟨rfl, reads⟩ := is
  have reached : (system Bool).Reachable s := ⟨_, enabledThenRead, rfl, ran⟩
  have shows := (static_key_sessions reached).2.2.2 false 1 f file
  exact ⟨s, reached, log, ⟨f, file, reads⟩, shows.2 _ [] reads (by decide)⟩

end Simulation

end Lkmpg.StaticKey.Sessions
