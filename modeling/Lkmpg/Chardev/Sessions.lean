/-
# Lkmpg.Chardev.Sessions -- one open at a time, each told its own number

`already_open` guards the driver's data as the flag of an exclusive section
(`simulation`), so a session of a file works on `msg` alone, from the data the
session before it left.  `SessionInv` is what a session keeps by itself; the
counter it starts from is the number of sessions before it (`serial_counter`).
-/
import Lkmpg.Chardev.Driver
import Lkmpg.Theory.Chunks
import Lkmpg.Theory.Exclusive

namespace Lkmpg.Chardev

open Lkmpg.Kernel Lkmpg.Theory

set_option autoImplicit false

/-! ## One session -/

/-- `msg` holds the C string `str`. -/
def Holds (msg str : List UInt8) : Prop :=
  (∀ i, i < str.length → msg[i]? = str[i]?) ∧ msg[str.length]? = some 0 ∧ ∀ b ∈ str, b ≠ 0

theorem Holds.at_lt {msg str : List UInt8} {i : Nat} {b : UInt8} (holds : Holds msg str)
    (found : msg[i]? = some b) (within : i ≤ str.length) (nonzero : b ≠ 0) :
    i < str.length ∧ str[i]? = some b := by
  obtain ⟨same, stop, -⟩ := holds
  rcases Nat.lt_or_eq_of_le within with less | rfl
  · exact ⟨less, by rw [← same i less, found]⟩
  · rw [stop] at found
    cases found
    exact absurd rfl nonzero

theorem Holds.at_end {msg str : List UInt8} {i : Nat} (holds : Holds msg str)
    (found : msg[i]? = some 0) (within : i ≤ str.length) : i = str.length := by
  obtain ⟨same, -, bytes⟩ := holds
  rcases Nat.lt_or_eq_of_le within with less | rfl
  · rw [same i less] at found
    exact absurd rfl (bytes 0 (List.mem_of_getElem? found))
  · rfl

theorem sprintf_holds (d : Data) : Holds d.sprintf.msg (told d.counter.toInt) := by
  have length := length_told_lt d.counter
  have fits : 0 + (told d.counter.toInt ++ [0]).length ≤ d.msg.length := by
    rw [d.msg_len, List.length_append, List.length_singleton]
    omega
  refine ⟨?_, ?_, fun b => told_ne_zero⟩
  · intro i less
    have inside := splice_inside (i := i) fits (by simp; omega)
    rw [Nat.zero_add] at inside
    rw [Data.sprintf, inside, List.getElem?_append_left less]
  · have inside := splice_inside (i := (told d.counter.toInt).length) fits (by simp)
    rw [Nat.zero_add] at inside
    rw [Data.sprintf, inside]
    simp

/-- What the phase of a file says about its place in the message `c`. -/
def PhaseInv (c : List UInt8) (f : File) : Prop :=
  match f.phase with
  | .opening => False
  | .ready => True
  | .reading length msgPtr bytesRead buffer =>
      msgPtr = f.offset + bytesRead ∧ msgPtr ≤ c.length ∧ buffer = slice c f.offset bytesRead ∧
        (bytesRead = 0 → length ≠ 0 ∧ f.offset < c.length)

/-- A session that started from the data `m`: it is still before its `sprintf`, or
`msg` has its text and the reads are a transcript of it. -/
inductive SessionInv (m : Data) (f : File) (d : Data) : Prop where
  | opening (new : f = File.new) (same : d = m)
  | told (counter : d.counter = m.counter + 1) (holds : Holds d.msg (told m.counter.toInt))
      (phase : PhaseInv (told m.counter.toInt) f)
      (transcript : Transcript (told m.counter.toInt) f.offset f.reads)

theorem sprintf_keeps {m d d' : Data} {f f' : File} (inv : SessionInv m f d)
    (moved : move f d .sprintf = some (f', d')) : SessionInv m f' d' := by
  cases inv with
  | opening new same =>
      subst new same
      cases moved
      exact .told rfl (sprintf_holds d) trivial (.start _)
  | told counter holds phase transcript =>
      simp only [move] at moved
      split at moved
      · rename_i opening
        simp [PhaseInv, opening] at phase
      · cases moved

/-- A `device_read` begins, or is at the end of the text. -/
theorem deviceRead_keeps {m d d' : Data} {f f' : File} {length : Nat} (inv : SessionInv m f d)
    (moved : move f d (.deviceRead length) = some (f', d')) : SessionInv m f' d' := by
  cases inv with
  | opening new same =>
      subst new
      cases moved
  | told counter holds phase transcript =>
      simp only [move] at moved
      split at moved
      · split at moved
        · cases moved
        · rename_i positive
          simp only [Option.map_eq_some_iff] at moved
          obtain ⟨c, found, next⟩ := moved
          split at next
          · rename_i zero
            subst zero
            cases next
            have end_ := holds.at_end found transcript.within
            rw [end_] at transcript
            exact .told counter holds (by simp_all [PhaseInv])
              (transcript.eof (Nat.zero_le _))
          · rename_i nonzero
            cases next
            have less := (holds.at_lt found transcript.within nonzero).1
            refine .told counter holds ?_ transcript
            exact ⟨rfl, transcript.within, by simp, fun _ => ⟨positive, less⟩⟩
      · cases moved

/-- The loop of `device_read` copies one more byte, or the call returns. -/
theorem byte_keeps {m d d' : Data} {f f' : File} (inv : SessionInv m f d)
    (moved : move f d .byte = some (f', d')) : SessionInv m f' d' := by
  cases inv with
  | opening new same =>
      subst new
      cases moved
  | told counter holds phase transcript =>
      simp only [move] at moved
      split at moved
      · rename_i length msgPtr bytesRead buffer reading
        simp only [PhaseInv, reading] at phase
        obtain ⟨rfl, within, rfl, begun⟩ := phase
        simp only [Option.map_eq_some_iff] at moved
        obtain ⟨c, found, next⟩ := moved
        split at next
        · rename_i more
          cases next
          obtain ⟨less, cell⟩ := holds.at_lt found within more.2
          refine .told counter holds ?_ transcript
          exact ⟨Nat.add_assoc _ _ _, less, (slice_succ cell).symm, fun zero => by omega⟩
        · rename_i stop
          cases next
          -- the loop has copied something: it was entered with room and a byte to copy
          have copied : 0 < bytesRead := by
            by_contra nothing
            have zero : bytesRead = 0 := by omega
            subst zero
            obtain ⟨room, less⟩ := begun rfl
            have ends : c = 0 := by
              by_contra nonzero
              exact stop ⟨room, nonzero⟩
            subst ends
            have := holds.at_end found within
            omega
          exact .told counter holds trivial (transcript.chunk copied within)
      · cases moved

theorem move_keeps {m d d' : Data} {f f' : File} {a : Move} (inv : SessionInv m f d)
    (moved : move f d a = some (f', d')) : SessionInv m f' d' := by
  cases a with
  | sprintf => exact sprintf_keeps inv moved
  | deviceRead length => exact deviceRead_keeps inv moved
  | byte => exact byte_keeps inv moved

/-! ## The exclusive section -/

/-- A file between the compare-and-swap of its open and its release. -/
def body : Exclusive.Body Data Nat File Move where
  enter _ := File.new
  move := move
  mayLeave f := f.phase = .ready

/-- A session that ended took the counter one further. -/
theorem alone_counter {n : Nat} {m d : Data} {f : File} (alone : Exclusive.Alone body n m f d)
    (left : body.mayLeave f) : d.counter = m.counter + 1 := by
  have inv : SessionInv m f d :=
    alone.induct (.opening rfl rfl) fun _ _ _ _ _ inv moved => move_keeps inv moved
  cases inv with
  | opening new same =>
      subst new
      simp [body, File.new] at left
  | told counter holds phase transcript => exact counter

theorem serial_counter {P : Type} {d : Data} {past : List (Exclusive.Session P Nat File)}
    (serial : Exclusive.Serial body Data.init past d) :
    d.counter = Int32.ofNat past.length := by
  apply serial.induct (I := fun past d => d.counter = Int32.ofNat past.length) rfl
  intro past m x t counter alone left
  rw [alone_counter alone left, counter]
  simp [Int32.ofNat_add]

section Simulation

variable {P : Type} [DecidableEq P]

/-- The driver and the section: `already_open` is the flag, and the number a file
carries is the number of sessions before it. -/
structure Rel (s : State P) (u : Exclusive.State P Data Nat File) : Prop where
  ordered : Exclusive.Ordered body Data.init u
  flag : s.alreadyOpen = if u.flag then CDEV_EXCLUSIVE_OPEN else CDEV_NOT_USED
  data : s.data = u.shared
  file : s.file = u.inside
  opens : s.opens = u.past.length + if u.flag then 1 else 0
  number : ∀ p n f, s.file p = some (n, f) → n = u.past.length

/-- An action of the driver is an action of the section. -/
def act (s : State P) : Action P → Exclusive.Action P Nat Move
  | .deviceOpen p => .attempt p s.opens
  | .move p m => .move p m
  | .deviceRelease p => .leave p

variable {s t : State P} {u : Exclusive.State P Data Nat File} {p : P}

theorem rel_deviceOpen (rel : Rel s u) (next : step s (.deviceOpen p) = some t) :
    ∃ u', Exclusive.step body u (.attempt p s.opens) = some u' ∧ Rel t u' := by
  simp only [step] at next
  split at next
  · cases next
  rename_i closed
  rw [rel.file, Option.not_isSome_iff_eq_none] at closed
  cases flag : u.flag with
  | true =>
      refine ⟨u, Exclusive.step_refuse closed flag, ?_⟩
      have busy : s.alreadyOpen ≠ CDEV_NOT_USED := by
        rw [rel.flag, flag]
        decide
      rw [deviceOpen_busy busy] at next
      cases next
      exact rel
  | false =>
      have free : s.alreadyOpen = CDEV_NOT_USED := by
        rw [rel.flag, flag]
        rfl
      rw [deviceOpen_free free] at next
      cases next
      have taken := Exclusive.step_enter (B := body) (e := s.opens) closed flag
      refine ⟨_, taken, Exclusive.ordered_step rel.ordered taken, by simp, rel.data,
        by simp [rel.file, body], by simp [rel.opens, flag], ?_⟩
      intro q n f found
      have out := (rel.ordered.free flag).1
      by_cases same : q = p
      · subst same
        simp only [Function.update_self, Option.some.injEq, Prod.mk.injEq] at found
        have number := rel.opens
        simp only [flag, Bool.false_eq_true, if_false] at number
        rw [← found.1, number]
        rfl
      · dsimp only at found
        rw [Function.update_of_ne same, rel.file, out q] at found
        cases found

theorem rel_move {m : Move} (rel : Rel s u) (next : step s (.move p m) = some t) :
    ∃ u', Exclusive.step body u (.move p m) = some u' ∧ Rel t u' := by
  simp only [step] at next
  split at next
  · cases next
  rename_i n f found
  simp only [Option.map_eq_some_iff] at next
  obtain ⟨⟨f', d'⟩, moved, rfl⟩ := next
  have inside : u.inside p = some (n, f) := by rw [← rel.file, found]
  rw [rel.data] at moved
  have taken := Exclusive.step_move (B := body) inside moved
  refine ⟨_, taken, Exclusive.ordered_step rel.ordered taken, rel.flag, rfl,
    by simp [rel.file], rel.opens, ?_⟩
  intro q n' f'' found'
  by_cases same : q = p
  · subst same
    simp only [Function.update_self, Option.some.injEq, Prod.mk.injEq] at found'
    rw [← found'.1]
    exact rel.number q n f found
  · dsimp only at found'
    rw [Function.update_of_ne same] at found'
    exact rel.number q n' f'' found'

theorem rel_deviceRelease (rel : Rel s u) (next : step s (.deviceRelease p) = some t) :
    ∃ u', Exclusive.step body u (.leave p) = some u' ∧ Rel t u' := by
  simp only [step] at next
  split at next
  · cases next
  rename_i n f found
  split at next
  · rename_i ready
    cases next
    have inside : u.inside p = some (n, f) := by rw [← rel.file, found]
    have isInside : (u.inside p).isSome := by simp [inside]
    have flag := rel.ordered.flag_of_inside isInside
    have taken := Exclusive.step_leave (B := body) inside (decide_eq_true ready)
    refine ⟨_, taken, Exclusive.ordered_step rel.ordered taken, by simp, rel.data,
      by simp [rel.file], by simp [rel.opens, flag], ?_⟩
    intro q n' f' found'
    by_cases same : q = p
    · simp [same] at found'
    · dsimp only at found'
      rw [Function.update_of_ne same, rel.file] at found'
      exact absurd (rel.ordered.exclusive (by simp [found']) isInside) same
  · cases next

theorem rel_step {a : Action P} (rel : Rel s u) (next : step s a = some t) :
    ∃ u', Exclusive.step body u (act s a) = some u' ∧ Rel t u' := by
  cases a with
  | deviceOpen p => exact rel_deviceOpen rel next
  | move p m => exact rel_move rel next
  | deviceRelease p => exact rel_deviceRelease rel next

/-- `chardev.c` refines the exclusive section. -/
def simulation : Simulation (system P) (Exclusive.system (P := P) body Data.init) where
  Rel := Rel
  start := by
    rintro s rfl
    refine ⟨_, rfl, Exclusive.ordered_start Data.init, rfl, rfl, rfl, rfl, ?_⟩
    simp
  step s u a t rel next := by
    obtain ⟨u', taken, rel'⟩ := rel_step rel next
    exact ⟨[act s a], u', by simp [System.run, Exclusive.system, taken], rel'⟩

theorem reachable_rel {s : State P} (reached : (system P).Reachable s) : ∃ u, Rel s u := by
  obtain ⟨u, -, rel⟩ := simulation.reachable reached
  exact ⟨u, rel⟩

/-- An open file is in the session its number names. -/
theorem reachable_session {s : State P} (reached : (system P).Reachable s) {p : P} {n : Nat}
    {f : File} (found : s.file p = some (n, f)) :
    ∃ m : Data, m.counter = Int32.ofNat n ∧ SessionInv m f s.data := by
  obtain ⟨u, rel⟩ := reachable_rel reached
  have inside : u.inside p = some (n, f) := by rw [← rel.file, found]
  obtain ⟨m, serial, alone⟩ := rel.ordered.alone inside
  refine ⟨m, ?_, ?_⟩
  · rw [serial_counter serial, rel.number p n f found]
  · rw [rel.data]
    exact alone.induct (.opening rfl rfl) fun _ _ _ _ _ inv moved => move_keeps inv moved

/-- **Exclusive, consistent sessions.**  At most one file is open; an open that
returns `-EBUSY` changes nothing; and what a session reads up to its first empty
read is the text for the number of successful opens before it. -/
theorem chardev_sessions {s : State P} (reached : (system P).Reachable s) :
    (∀ p q, (s.file p).isSome → (s.file q).isSome → p = q) ∧
      (∀ p, (deviceOpen s p).2 = some (-EBUSY) → (deviceOpen s p).1.data = s.data ∧
        (deviceOpen s p).1.alreadyOpen = s.alreadyOpen ∧ (deviceOpen s p).1.file = s.file) ∧
      ∀ p n f, s.file p = some (n, f) → n < 2 ^ 31 → ∀ pre post,
        f.reads = pre ++ [] :: post → [] ∉ pre → pre.flatten = told n := by
  obtain ⟨u, rel⟩ := reachable_rel reached
  refine ⟨?_, ?_, ?_⟩
  · intro p q openP openQ
    rw [rel.file] at openP openQ
    exact rel.ordered.exclusive openP openQ
  · intro p refused
    by_cases free : s.alreadyOpen = CDEV_NOT_USED
    · rw [deviceOpen_free free] at refused
      cases refused
    · rw [deviceOpen_busy free]
      exact ⟨rfl, rfl, rfl⟩
  · intro p n f found small pre post split first
    obtain ⟨m, counter, inv⟩ := reachable_session reached found
    cases inv with
    | opening new same =>
        subst new
        simp [File.new] at split
    | told _ _ _ transcript =>
        have value : m.counter.toInt = n := by
          rw [counter, Int32.toInt_ofNat_of_lt small]
        rw [value] at transcript
        exact transcript.whole split first

end Simulation

/-- One process opens the file, reads it in one call, and reads its end. -/
def firstSession : List (Action Bool) :=
  [.deviceOpen true, .move true .sprintf, .move true (.deviceRead 99)] ++
    List.replicate 41 (.move true .byte) ++ [.move true (.deviceRead 1)]

theorem chardev_sessions_first :
    ∃ s, (system Bool).Reachable s ∧ s.file true = some (0, ⟨.ready, 0, [told 0, []]⟩) ∧
      [told 0].flatten = told (0 : Nat) := by
  have ends : ((system Bool).run ⟨CDEV_NOT_USED, Data.init, fun _ => none, 0⟩ firstSession).map
      (fun s => s.file true) = some (some (0, ⟨.ready, 0, [told 0, []]⟩)) := by decide
  obtain ⟨s, ran, file⟩ := Option.map_eq_some_iff.1 ends
  have reached : (system Bool).Reachable s := ⟨_, firstSession, rfl, ran⟩
  exact ⟨s, reached, file,
    (chardev_sessions reached).2.2 true 0 _ file (by decide) [told 0] [] rfl (by decide)⟩

end Lkmpg.Chardev
