/-
# Lkmpg.Vnetloop.Versions -- the counters go from version to version

Each packet takes the counters to a new version, one addition after the other
(`Written`).  To a reader it is a record that is written while it is read
(`step_view`), and the sequence counter is the number of versions begun and completed.
-/
import Lkmpg.Vnetloop.Driver
import Lkmpg.Theory.SeqCount

namespace Lkmpg.Vnetloop

open Lkmpg.Theory

set_option autoImplicit false

/-! ## The writer -/

theorem updates_distinct (p : Packet) : (p.updates.map Prod.fst).Nodup := by
  cases copied : p.copied <;> simp [Packet.updates, copied]

theorem after_snoc (packets : List Packet) (p : Packet) :
    after (packets ++ [p]) = p.count (after packets) := by
  rw [after, List.foldl_append]
  rfl

theorem foldl_add_other {updates : List (Field × UInt64)} {f : Field}
    (other : f ∉ updates.map Prod.fst) (c : Counters) :
    updates.foldl Counters.add c f = c f := by
  induction updates generalizing c with
  | nil => rfl
  | cons update updates ih =>
      rw [List.map_cons, List.mem_cons, not_or] at other
      rw [List.foldl_cons, ih other.2, Counters.add, Function.update_of_ne other.1]

variable {R : Type}

/-- Where the writer is, and the sequence numbers that go with it. -/
structure Written (sync : Sync) (s : State R) : Prop where
  idle : s.xmit = none → s.priv = after s.packets
  /-- The additions that are left complete the last packet. -/
  left : ∀ updates, s.xmit = some updates → updates.foldl Counters.add s.priv = after s.packets
  distinct : ∀ updates, s.xmit = some updates → (updates.map Prod.fst).Nodup
  begun : s.xmit.isSome → s.packets ≠ []
  seq : sync = .seqcount → s.seq = UInt32.ofNat (s.completed + s.packets.length)
  start : sync = .seqcount → ∀ r start left, s.reader r = .read start left →
    start = UInt32.ofNat (2 * s.since r)
  /-- A reader reads each counter once. -/
  once : ∀ r start left, s.reader r = .read start left → left.Nodup

theorem completed_idle {s : State R} (idle : s.xmit = none) : s.completed = s.packets.length := by
  rw [State.completed, idle]
  rfl

theorem completed_busy {s : State R} {updates : List (Field × UInt64)}
    (busy : s.xmit = some updates) : s.completed = s.packets.length - 1 := by
  rw [State.completed, busy]
  rfl

theorem written_start (sync : Sync) : Written sync (start : State R) where
  idle _ := rfl
  left updates busy := by cases busy
  distinct updates busy := by cases busy
  begun busy := by cases busy
  seq _ := rfl
  start _ r start left at_ := by cases at_
  once r start left at_ := by cases at_

variable [DecidableEq R]

/-- A reader goes on; the writer and the other readers stay where they are. -/
theorem Written.goto {sync : Sync} {s t : State R} (written : Written sync s) {r : R}
    {pc : ReaderPc} (reader : t.reader = Function.update s.reader r pc) (priv : t.priv = s.priv)
    (xmit : t.xmit = s.xmit) (packets : t.packets = s.packets) (seq : t.seq = s.seq)
    (since : ∀ q, q ≠ r → t.since q = s.since q)
    (mine : ∀ start left, pc = .read start left → left.Nodup ∧
      (sync = .seqcount → start = UInt32.ofNat (2 * t.since r))) : Written sync t where
  idle idle := by
    rw [xmit] at idle
    rw [priv, packets]
    exact written.idle idle
  left updates busy := by
    rw [xmit] at busy
    rw [priv, packets]
    exact written.left updates busy
  distinct updates busy := by
    rw [xmit] at busy
    exact written.distinct updates busy
  begun busy := by
    rw [xmit] at busy
    rw [packets]
    exact written.begun busy
  seq counted := by
    rw [seq, State.completed, xmit, packets]
    exact written.seq counted
  start counted q start left at_ := by
    rw [reader] at at_
    by_cases same : q = r
    · subst same
      rw [Function.update_self] at at_
      exact (mine start left at_).2 counted
    · rw [Function.update_of_ne same] at at_
      rw [since q same]
      exact written.start counted q start left at_
  once q start left at_ := by
    rw [reader] at at_
    by_cases same : q = r
    · subst same
      rw [Function.update_self] at at_
      exact (mine start left at_).1
    · rw [Function.update_of_ne same] at at_
      exact written.once q start left at_

theorem advance_ofNat (n : Nat) :
    Sync.seqcount.advance (UInt32.ofNat n) = UInt32.ofNat (n + 1) := by
  rw [UInt32.ofNat_add]
  rfl

omit [DecidableEq R] in
/-- No update is in progress when the sequence number is even. -/
theorem Written.even {s : State R} (written : Written .seqcount s) (even : s.seq % 2 = 0) :
    s.xmit = none := by
  cases at_ : s.xmit with
  | none => rfl
  | some updates =>
      have number : s.seq.toNat = (s.completed + s.packets.length) % 2 ^ 32 := by
        rw [written.seq rfl, UInt32.toNat_ofNat']
      have parity : s.seq.toNat % 2 = 0 := congrArg UInt32.toNat even
      have positive := List.length_pos_iff.2 (written.begun (by rw [at_]; rfl))
      rw [completed_busy at_] at number
      omega

/-- `vnetloop_xmit` begins the next version. -/
theorem xmit_written {sync : Sync} {s t : State R} {p : Packet} (written : Written sync s)
    (next : step sync s (.vnetloopXmit p) = some t) : Written sync t := by
  simp only [step] at next
  split at next <;> cases next
  rename_i idle
  have number := completed_idle idle
  exact
    { idle := fun none => by cases none
      left := fun updates busy => by
        cases busy
        rw [written.idle idle, after_snoc]
        rfl
      distinct := fun updates busy => by
        cases busy
        exact updates_distinct p
      begun := fun _ => by simp
      seq := fun counted => by
        rw [written.seq counted, counted, advance_ofNat, number]
        simp [State.completed, Nat.add_assoc]
      start := written.start
      once := written.once }

/-- The next counter. -/
theorem add_written {sync : Sync} {s t : State R} (written : Written sync s)
    (next : step sync s .add = some t) : Written sync t := by
  simp only [step] at next
  split at next <;> cases next
  rename_i update left busy
  have number := completed_busy busy
  have begun := written.begun (by rw [busy]; rfl)
  exact
    { idle := fun none => by cases none
      left := fun updates same => by
        cases same
        exact written.left _ busy
      distinct := fun updates same => by
        cases same
        exact (List.nodup_cons.1 (written.distinct _ busy)).2
      begun := fun _ => begun
      seq := fun counted => by
        rw [written.seq counted, number]
        rfl
      start := written.start
      once := written.once }

/-- `u64_stats_update_end` completes the version. -/
theorem updateEnd_written {sync : Sync} {s t : State R} (written : Written sync s)
    (next : step sync s .updateEnd = some t) : Written sync t := by
  simp only [step] at next
  split at next <;> cases next
  rename_i busy
  have number := completed_busy busy
  have positive := List.length_pos_iff.2 (written.begun (by rw [busy]; rfl))
  exact
    { idle := fun _ => written.left _ busy
      left := fun updates same => by cases same
      distinct := fun updates same => by cases same
      begun := fun same => by cases same
      seq := fun counted => by
        rw [written.seq counted, counted, advance_ofNat, number]
        have together : s.packets.length - 1 + s.packets.length + 1 =
            s.packets.length + s.packets.length := by omega
        rw [together]
        rfl
      start := written.start
      once := written.once }

/-- A pass of a reader begins at an even number, with no version in progress. -/
theorem fetchBegin_written {sync : Sync} {s t : State R} {r : R} (written : Written sync s)
    (next : step sync s (.fetchBegin r) = some t) : Written sync t := by
  simp only [step] at next
  split at next
  · simp only [Option.map_eq_some_iff] at next
    obtain ⟨fetched, began, rfl⟩ := next
    refine written.goto rfl rfl rfl rfl rfl ?_ ?_
    · intro q other
      exact Function.update_of_ne other _ _
    · rintro start left same
      cases same
      refine ⟨by decide, ?_⟩
      rintro rfl
      have even : s.seq % 2 = 0 ∧ s.seq = fetched := by
        simpa [Sync.fetchBegin] using began
      have number := completed_idle (written.even even.1)
      have double : 2 * s.packets.length = s.completed + s.packets.length := by omega
      rw [← even.2, written.seq rfl, State.goto]
      simp only [Function.update_self, number, double]
  · cases next

theorem step_written {sync : Sync} {s t : State R} {a : Action R} (written : Written sync s)
    (next : step sync s a = some t) : Written sync t := by
  cases a with
  | vnetloopXmit p => exact xmit_written written next
  | add => exact add_written written next
  | updateEnd => exact updateEnd_written written next
  | vnetloopGetStats64 r =>
      simp only [step] at next
      split at next <;> cases next
      exact written.goto rfl rfl rfl rfl rfl (fun _ _ => rfl) nofun
  | fetchBegin r => exact fetchBegin_written written next
  | read r =>
      simp only [step] at next
      split at next <;> cases next
      rename_i start f left at_
      refine written.goto rfl rfl rfl rfl rfl (fun _ _ => rfl) ?_
      rintro start' left' same
      cases same
      exact ⟨(List.nodup_cons.1 (written.once r start _ at_)).2,
        fun counted => written.start counted r start _ at_⟩
  | fetchRetry r =>
      simp only [step] at next
      split at next
      · split at next <;> cases next
        · exact written.goto rfl rfl rfl rfl rfl (fun _ _ => rfl) nofun
        · exact written.goto rfl rfl rfl rfl rfl (fun _ _ => rfl) nofun
      · cases next

/-! ## The versions of the counters -/

/-- What a reader has read in its pass. -/
def ReaderPc.seen (since : Nat) (stats : Counters) :
    ReaderPc → Option (Nat × (Field → Option UInt64))
  | .read _ left => some (since, fun f => if f ∈ left then none else some (stats f))
  | .outside | .fetch => none

omit [DecidableEq R] in
/-- One version for each packet. -/
def State.view (s : State R) : SeqCount.State Field UInt64 R where
  version k := after (s.packets.take k)
  begun := s.packets.length
  completed := s.completed
  current := s.priv
  reader r := (s.reader r).seen (s.since r) (s.stats r)

omit [DecidableEq R] in
theorem view_version (s : State R) : s.view.version s.view.begun = after s.packets :=
  congrArg after List.take_length

omit [DecidableEq R] in
theorem view_start : (start : State R).view =
    ⟨fun _ => Counters.zero, 0, 0, Counters.zero, fun _ => none⟩ := by
  simp only [State.view, start, List.take_nil]
  rfl

/-- Nothing happens to the record, or one step. -/
def Moves (s t : State R) : Prop := t.view = s.view ∨ SeqCount.Step s.view t.view

theorem version_snoc (packets : List Packet) (p : Packet) (k : Nat) :
    after ((packets ++ [p]).take k) =
      if k ≤ packets.length then after (packets.take k) else after (packets ++ [p]) := by
  split
  · rename_i old
    rw [List.take_append_of_le_length old]
  · rename_i new
    rw [List.take_of_length_le]
    rw [List.length_append, List.length_singleton]
    omega

theorem mem_readOrder (f : Field) : f ∈ readOrder := by
  cases f <;> decide

/-- A reader goes on, and the counters stay as they are. -/
theorem moves_goto {s t : State R} {r : R} {pc : ReaderPc}
    {seen : Option (Nat × (Field → Option UInt64))}
    (reader : t.reader = Function.update s.reader r pc) (priv : t.priv = s.priv)
    (xmit : t.xmit = s.xmit) (packets : t.packets = s.packets)
    (since : ∀ q, q ≠ r → t.since q = s.since q) (stats : ∀ q, q ≠ r → t.stats q = s.stats q)
    (mine : pc.seen (t.since r) (t.stats r) = seen)
    (moved : SeqCount.Step s.view { s.view with
      reader := Function.update s.view.reader r seen }) : Moves s t := by
  have readers : t.view.reader = Function.update s.view.reader r seen := by
    funext q
    by_cases same : q = r
    · subst same
      simp only [State.view, reader, Function.update_self, mine]
    · simp only [State.view, reader, Function.update_of_ne same, since q same, stats q same]
  have view : t.view = { s.view with reader := Function.update s.view.reader r seen } := by
    rw [← readers]
    simp only [State.view, State.completed, priv, xmit, packets]
  refine .inr ?_
  rw [view]
  exact moved

theorem step_view {sync : Sync} {s t : State R} {a : Action R} (written : Written sync s)
    (next : step sync s a = some t) : Moves s t := by
  cases a with
  | vnetloopXmit p =>
      simp only [step] at next
      split at next <;> cases next
      rename_i idle
      have began := SeqCount.Step.begin (s := s.view) (after (s.packets ++ [p]))
        (completed_idle idle)
      refine .inr ?_
      simpa [State.view, version_snoc, State.completed, idle] using began
  | add =>
      simp only [step] at next
      split at next <;> cases next
      rename_i update left busy
      have others : update.1 ∉ left.map Prod.fst :=
        (List.nodup_cons.1 (written.distinct _ busy)).1
      have final : (s.priv.add update) update.1 = after s.packets update.1 := by
        rw [← written.left _ busy, List.foldl_cons, foldl_add_other others]
      have wrote := SeqCount.Step.write (s := s.view) update.1
      rw [view_version, ← final] at wrote
      refine .inr ?_
      simpa [State.view, State.completed, busy, Counters.add] using wrote
  | updateEnd =>
      simp only [step] at next
      split at next <;> cases next
      rename_i busy
      have done := SeqCount.Step.complete (s := s.view)
        ((written.left _ busy).trans (view_version s).symm)
      refine .inr ?_
      simpa [State.view, State.completed, busy] using done
  | vnetloopGetStats64 r =>
      simp only [step] at next
      split at next <;> cases next
      exact moves_goto rfl rfl rfl rfl (fun _ _ => rfl) (fun _ _ => rfl) rfl (.leave r)
  | fetchBegin r =>
      simp only [step] at next
      split at next
      · simp only [Option.map_eq_some_iff] at next
        obtain ⟨fetched, began, rfl⟩ := next
        refine moves_goto rfl rfl rfl rfl ?_ (fun _ _ => rfl) ?_ (.enter r)
        · intro q other
          exact Function.update_of_ne other _ _
        · simp [ReaderPc.seen, State.goto, State.view, mem_readOrder]
      · cases next
  | read r =>
      simp only [step] at next
      split at next <;> cases next
      rename_i start f left at_
      have inside : s.view.reader r = some (s.since r,
          fun g => if g ∈ f :: left then none else some (s.stats r g)) := by
        simp only [State.view, at_, ReaderPc.seen]
      refine moves_goto rfl rfl rfl rfl (fun _ _ => rfl) ?_ ?_ (.read r f _ _ inside)
      · intro q other
        exact Function.update_of_ne other _ _
      · have fresh : f ∉ left := (List.nodup_cons.1 (written.once r start _ at_)).1
        simp only [ReaderPc.seen, State.goto, Function.update_self]
        refine congrArg (fun seen => some (s.since r, seen)) (funext fun g => ?_)
        by_cases same : g = f
        · subst same
          simp [fresh, State.view]
        · simp [same]
  | fetchRetry r =>
      simp only [step] at next
      split at next
      · split at next <;> cases next
        · exact moves_goto rfl rfl rfl rfl (fun _ _ => rfl) (fun _ _ => rfl) rfl (.leave r)
        · exact moves_goto rfl rfl rfl rfl (fun _ _ => rfl) (fun _ _ => rfl) rfl (.leave r)
      · cases next

end Lkmpg.Vnetloop
