/-
# Lkmpg.Vnetloop.Snapshots -- what vnetloop_get_stats64 returns

Each value of a snapshot is that of its counter after a whole number of packets,
whatever `u64_stats_sync` is.  Where it is a sequence counter the four are after the
same number, unless 2^31 packets go by in one pass; where it is nothing they need not
be (`snapshot_torn`).
-/
import Lkmpg.Vnetloop.Versions
import Mathlib.Algebra.Order.BigOperators.Group.List
import Mathlib.Algebra.Order.Ring.Nat
import Mathlib.Data.List.Induction

namespace Lkmpg.Vnetloop

open Lkmpg.Theory

set_option autoImplicit false

/-! ## What a packet adds -/

/-- What a packet adds to a counter. -/
def Packet.amount (p : Packet) : Field → Nat
  | .txPackets => 1
  | .txBytes => p.len.toNat
  | .rxPackets => if p.copied then 1 else 0
  | .rxBytes => if p.copied then (ethTypeTrans p.len).toNat else 0

theorem ethTypeTrans_le (len : UInt32) : (ethTypeTrans len).toNat ≤ len.toNat := by
  rw [ethTypeTrans]
  split
  · rename_i header
    rw [UInt32.toNat_sub_of_le len ETH_HLEN header]
    exact Nat.sub_le _ _
  · exact Nat.le_refl _

theorem count_eq (c : Counters) (p : Packet) (f : Field) :
    p.count c f = c f + UInt64.ofNat (p.amount f) := by
  cases copied : p.copied <;> cases f <;>
    simp [Packet.count, Packet.updates, Packet.amount, Counters.add, copied]

theorem after_eq (packets : List Packet) (f : Field) :
    after packets f = UInt64.ofNat (packets.map fun p => p.amount f).sum := by
  induction packets using List.reverseRecOn with
  | nil => rfl
  | append_singleton packets p ih =>
      rw [after_snoc, count_eq, ih, List.map_append, List.sum_append, UInt64.ofNat_add]
      simp

/-- Where the larger of two counters has not wrapped, what is added less often or in
smaller amounts is below it. -/
theorem after_le {packets : List Packet} {f g : Field} (le : ∀ p : Packet, p.amount f ≤ p.amount g)
    (small : (packets.map fun p => p.amount g).sum < 2 ^ 64) :
    after packets f ≤ after packets g := by
  have sums : (packets.map fun p => p.amount f).sum ≤ (packets.map fun p => p.amount g).sum :=
    List.sum_le_sum fun p _ => le p
  rw [after_eq, after_eq, UInt64.le_iff_toNat_le, UInt64.toNat_ofNat', UInt64.toNat_ofNat',
    Nat.mod_eq_of_lt small, Nat.mod_eq_of_lt (Nat.lt_of_le_of_lt sums small)]
  exact sums

theorem rxPackets_le (p : Packet) : p.amount .rxPackets ≤ p.amount .txPackets := by
  rw [Packet.amount, Packet.amount]
  split <;> omega

theorem rxBytes_le (p : Packet) : p.amount .rxBytes ≤ p.amount .txBytes := by
  rw [Packet.amount, Packet.amount]
  split
  · exact ethTypeTrans_le p.len
  · exact Nat.zero_le _

variable {R : Type} [DecidableEq R]

/-! ## Snapshots -/

/-- Each value is that of its counter after some of the packets, and all are after the
same ones where none has gone by. -/
structure Snapshot.Good (sync : Sync) (x : Snapshot) : Prop where
  values : ∀ f, ∃ k, x.since ≤ k ∧ k ≤ x.packets.length ∧ x.stats f = after (x.packets.take k) f
  whole : sync = .seqcount → x.packets.length < x.since + 2 ^ 31 → x.stats = after x.packets

omit [DecidableEq R] in
/-- What a reader has when it returns. -/
theorem good_of_read {sync : Sync} {s : State R} (written : Written sync s)
    (sound : SeqCount.Sound s.view) {r : R} {start : UInt32} (at_ : s.reader r = .read start [])
    (returns : sync.fetchRetry s.seq start = false) :
    Snapshot.Good sync ⟨s.stats r, s.since r, s.packets⟩ := by
  have inside : s.view.reader r = some (s.since r, fun f => some (s.stats r f)) := by
    simp [State.view, at_, ReaderPc.seen]
  refine ⟨fun f => sound.seen r _ _ inside f _ rfl, ?_⟩
  rintro rfl few
  have same : s.seq = start := by simpa [Sync.fetchRetry] using returns
  have numbers : (s.completed + s.packets.length) % (2 * 2 ^ 31) =
      2 * s.since r % (2 * 2 ^ 31) := by
    have values := congrArg UInt32.toNat same
    rw [written.seq rfl, written.start rfl r start [] at_, UInt32.toNat_ofNat',
      UInt32.toNat_ofNat'] at values
    exact values
  have none_begun : s.packets.length = s.since r :=
    SeqCount.begun_eq (sound.since r _ _ inside) sound.order numbers few
  funext f
  have version := sound.whole inside none_begun (f := f) rfl
  rw [← none_begun] at version
  exact version.trans (congrFun (view_version s) f)

theorem step_returned {sync : Sync} {s t : State R} {a : Action R}
    (next : step sync s a = some t) : t.returned = s.returned ∨
      ∃ r start, s.reader r = .read start [] ∧ sync.fetchRetry s.seq start = false ∧
        t.returned = ⟨s.stats r, s.since r, s.packets⟩ :: s.returned := by
  cases a with
  | fetchRetry r =>
      simp only [step] at next
      split at next
      · rename_i start at_
        split at next <;> cases next
        · exact .inl rfl
        · rename_i returns
          exact .inr ⟨r, start, at_, by simpa using returns, rfl⟩
      · cases next
  | fetchBegin r =>
      simp only [step] at next
      split at next
      · simp only [Option.map_eq_some_iff] at next
        obtain ⟨fetched, -, rfl⟩ := next
        exact .inl rfl
      · cases next
  | _ =>
      simp only [step] at next
      split at next <;> cases next
      exact .inl rfl

theorem reachable_good {sync : Sync} {s : State R} (reached : (system sync R).Reachable s) :
    ∀ x ∈ s.returned, x.Good sync := by
  refine (reached.induct (I := fun s => Written sync s ∧ SeqCount.Sound s.view ∧
    ∀ x ∈ s.returned, x.Good sync) ?_ ?_).2.2
  · rintro s rfl
    refine ⟨written_start sync, ?_, by simp [start]⟩
    rw [view_start]
    exact .start Counters.zero
  · rintro s a t ⟨written, sound, good⟩ next
    refine ⟨step_written written next, ?_, ?_⟩
    · rcases step_view written next with same | moved
      · rw [same]
        exact sound
      · exact sound.step moved
    · rcases step_returned next with same | ⟨r, start, at_, returns, more⟩
      · rw [same]
        exact good
      · rw [more, List.forall_mem_cons]
        exact ⟨good_of_read written sound at_ returns, good⟩

/-- **Snapshots.**  Each value of a snapshot is that of its counter after a whole number of
packets, between those counted when the pass began and those begun when it returned.
With a sequence counter, and fewer than 2^31 packets in the pass, the whole snapshot is. -/
theorem snapshot_consistent {sync : Sync} {s : State R} (reached : (system sync R).Reachable s)
    {x : Snapshot} (returned : x ∈ s.returned) :
    (∀ f, ∃ k, x.since ≤ k ∧ k ≤ x.packets.length ∧ x.stats f = after (x.packets.take k) f) ∧
    (sync = .seqcount → x.packets.length < x.since + 2 ^ 31 →
      x.stats = after x.packets ∧
      (x.packets.length < 2 ^ 64 → x.stats .rxPackets ≤ x.stats .txPackets) ∧
      ((x.packets.map fun p => p.len.toNat).sum < 2 ^ 64 →
        x.stats .rxBytes ≤ x.stats .txBytes)) := by
  have good := reachable_good reached x returned
  refine ⟨good.values, ?_⟩
  intro counter few
  have whole := good.whole counter few
  refine ⟨whole, ?_, ?_⟩
  · intro small
    rw [whole]
    refine after_le rxPackets_le ?_
    simpa [Packet.amount] using small
  · intro small
    rw [whole]
    exact after_le rxBytes_le small

/-- A pass with a packet after its first value. -/
def interrupted : List (Action Unit) :=
  [.vnetloopGetStats64 (), .fetchBegin (), .read (), .vnetloopXmit ⟨100, true⟩, .add, .add, .add,
    .add, .updateEnd, .read (), .read (), .read (), .fetchRetry ()]

/-- With a sequence counter there is a second pass. -/
def retried : List (Action Unit) :=
  interrupted ++ [.fetchBegin (), .read (), .read (), .read (), .read (), .fetchRetry ()]

/-- The second pass returns the counters as the packet left them. -/
theorem snapshot_consistent_retried : ∃ s : State Unit, (system .seqcount Unit).Reachable s ∧
    ∃ x ∈ s.returned, (x.stats .txPackets = 1 ∧ x.stats .rxBytes = 86) ∧
      x.stats = after x.packets ∧ x.stats .rxPackets ≤ x.stats .txPackets := by
  have ends : ((system .seqcount Unit).run start retried).map (fun s => s.returned.map fun x =>
      ((x.stats .txPackets, x.stats .rxBytes), x.packets.length)) = some [((1, 86), 1)] := by decide
  obtain ⟨s, ran, same⟩ := Option.map_eq_some_iff.1 ends
  have reached : (system .seqcount Unit).Reachable s := ⟨_, _, rfl, ran⟩
  obtain ⟨x, only, values⟩ := List.map_eq_singleton_iff.1 same
  simp only [Prod.mk.injEq] at values
  have returned : x ∈ s.returned := by rw [only]; exact List.mem_singleton_self x
  obtain ⟨whole, packets, -⟩ := (snapshot_consistent reached returned).2 rfl (by omega)
  exact ⟨s, reached, x, returned, values.1, whole, packets (by omega)⟩

/-! ## What is not promised -/

section Sends

variable {sync : Sync}

def sends (R : Type) (p : Packet) : Nat → List (Action R)
  | 0 => []
  | n + 1 => send R p ++ sends R p n

theorem run_adds (updates : List (Field × UInt64)) {s : State R} (busy : s.xmit = some updates) :
    (system sync R).run s (List.replicate updates.length .add) =
      some { s with priv := updates.foldl Counters.add s.priv, xmit := some [] } := by
  induction updates generalizing s with
  | nil =>
      cases s
      cases busy
      rfl
  | cons update updates ih =>
      have added : (system sync R).step s .add =
          some { s with priv := s.priv.add update, xmit := some updates } := by
        simp [system, step, busy]
      rw [List.length_cons, List.replicate_succ, System.run, added, Option.bind_some, ih rfl]
      rfl

theorem run_send {s : State R} (idle : s.xmit = none) (p : Packet) :
    (system sync R).run s (send R p) = some { s with
      priv := p.count s.priv
      seq := sync.advance (sync.advance s.seq)
      packets := s.packets ++ [p] } := by
  have began : (system sync R).step s (.vnetloopXmit p) = some { s with
      seq := sync.advance s.seq
      xmit := some p.updates
      packets := s.packets ++ [p] } := by
    simp [system, step, idle]
  rw [send, System.run, began, Option.bind_some, System.run_append, run_adds p.updates rfl]
  simp [System.run, system, step, Packet.count, idle]

theorem run_sends (p : Packet) (n : Nat) {s : State R} (idle : s.xmit = none) :
    (system .seqcount R).run s (sends R p n) = some { s with
      priv := fun f => s.priv f + UInt64.ofNat (n * p.amount f)
      seq := s.seq + UInt32.ofNat (2 * n)
      packets := s.packets ++ List.replicate n p } := by
  induction n generalizing s with
  | zero =>
      cases s
      simp [sends, System.run]
  | succ n ih =>
      have counted : ∀ f, p.count s.priv f + UInt64.ofNat (n * p.amount f) =
          s.priv f + UInt64.ofNat ((n + 1) * p.amount f) := by
        intro f
        rw [count_eq, Nat.succ_mul, Nat.add_comm (n * _), UInt64.ofNat_add, UInt64.add_assoc]
      have twice : Sync.seqcount.advance (Sync.seqcount.advance s.seq) + UInt32.ofNat (2 * n) =
          s.seq + UInt32.ofNat (2 * (n + 1)) := by
        rw [Nat.mul_succ, Nat.add_comm (2 * n), UInt32.ofNat_add, ← UInt32.add_assoc]
        have two : Sync.seqcount.advance (Sync.seqcount.advance s.seq) = s.seq + UInt32.ofNat 2 :=
          UInt32.add_assoc s.seq 1 1
        rw [two]
      rw [sends, System.run_append, run_send idle, Option.bind_some, ih]
      · simp only [counted, twice, List.replicate_succ, List.append_assoc, List.singleton_append]
      · exact idle

end Sends

/-- A pass that reads two values before `n` packets and two after them. -/
def slowly (p : Packet) (n : Nat) : List (Action Unit) :=
  List.append [.vnetloopGetStats64 (), .fetchBegin (), .read (), .read ()]
    (List.append (sends Unit p n) [.read (), .read (), .fetchRetry ()])

/-- The last two values are read, and the sequence number is the one fetched. -/
theorem run_rest {s : State Unit} {start : UInt32}
    (at_ : s.reader () = .read start [.rxPackets, .rxBytes]) (same : s.seq = start) :
    ∃ t, (system .seqcount Unit).run s [.read (), .read (), .fetchRetry ()] = some t ∧
      ∃ x ∈ t.returned, x.stats .txPackets = s.stats () .txPackets ∧
        x.stats .rxPackets = s.priv .rxPackets := by
  simp [System.run, system, step, at_, State.goto, Sync.fetchRetry, same]

/-- The sequence counter is back where it was. -/
theorem wrapped {p : Packet} (copied : p.copied) {n : Nat} (wraps : UInt32.ofNat (2 * n) = 0) :
    ∃ s : State Unit, (system .seqcount Unit).Reachable s ∧
      ∃ x ∈ s.returned, x.stats .txPackets = 0 ∧ x.stats .rxPackets = UInt64.ofNat n := by
  obtain ⟨s, began, idle, seq, at_, none_yet, zero⟩ : ∃ s, (system .seqcount Unit).run start
      [.vnetloopGetStats64 (), .fetchBegin (), .read (), .read ()] = some s ∧
      s.xmit = none ∧ s.seq = 0 ∧ s.reader () = .read 0 [.rxPackets, .rxBytes] ∧
      s.stats () .txPackets = 0 ∧ s.priv .rxPackets = 0 := ⟨_, rfl, rfl, rfl, rfl, rfl, rfl⟩
  obtain ⟨t, rest, x, returned, tx, rx⟩ := run_rest (s := { s with
      priv := fun f => s.priv f + UInt64.ofNat (n * p.amount f)
      seq := s.seq + UInt32.ofNat (2 * n)
      packets := s.packets ++ List.replicate n p }) at_ (by rw [seq, wraps]; rfl)
  refine ⟨t, ⟨start, slowly p n, rfl, ?_⟩, x, returned, tx.trans none_yet, rx.trans ?_⟩
  · rw [slowly, List.append_eq, System.run_append, began, Option.bind_some, List.append_eq,
      System.run_append, run_sends p n idle, Option.bind_some, rest]
  · simp [zero, Packet.amount, copied]

/-- A pass that nothing interrupts. -/
def atOnce : List (Action Unit) :=
  [.vnetloopGetStats64 (), .fetchBegin (), .read (), .read (), .read (), .read (), .fetchRetry ()]

theorem run_atOnce {s : State Unit} (outside : s.reader () = .outside) (even : s.seq % 2 = 0) :
    ∃ t, (system .seqcount Unit).run s atOnce = some t ∧
      ∃ x ∈ t.returned, ∀ f, x.stats f = s.priv f := by
  have each : ∀ c : Counters, ∀ f, Function.update (Function.update (Function.update
      (Function.update c .txPackets (s.priv .txPackets)) .txBytes (s.priv .txBytes))
      .rxPackets (s.priv .rxPackets)) .rxBytes (s.priv .rxBytes) f = s.priv f := by
    intro c f
    cases f <;> rfl
  simp [atOnce, System.run, system, step, outside, even, State.goto, Sync.fetchBegin,
    Sync.fetchRetry, readOrder, each]

/-- The counters themselves wrap. -/
theorem counted (p : Packet) (n : Nat) : ∃ s : State Unit, (system .seqcount Unit).Reachable s ∧
    ∃ x ∈ s.returned, ∀ f, x.stats f = UInt64.ofNat (n * p.amount f) := by
  have sent := run_sends p n (s := (start : State Unit)) rfl
  have even : ((start : State Unit).seq + UInt32.ofNat (2 * n)) % 2 = 0 := by
    rw [← UInt32.toNat_inj, UInt32.toNat_mod, UInt32.toNat_add, UInt32.toNat_ofNat']
    have zero : (start : State Unit).seq.toNat = 0 := rfl
    have two : (2 : UInt32).toNat = 2 := rfl
    rw [zero, two, UInt32.toNat_zero]
    omega
  obtain ⟨t, rest, x, returned, values⟩ := run_atOnce (s := { (start : State Unit) with
      priv := fun f => start.priv f + UInt64.ofNat (n * p.amount f)
      seq := start.seq + UInt32.ofNat (2 * n)
      packets := start.packets ++ List.replicate n p }) rfl even
  refine ⟨t, ⟨start, sends Unit p n ++ atOnce, rfl, ?_⟩, x, returned, ?_⟩
  · rw [System.run_append, sent, Option.bind_some, rest]
  · intro f
    rw [values f]
    exact UInt64.zero_add _

/-- On a 64-bit machine a snapshot may mix packets; on a 32-bit one it may, too, when 2^31
packets go by in a pass; and the bytes received may seem to be more than those sent when
the latter have wrapped. -/
theorem snapshot_torn :
    (∃ s : State Unit, (system .noop Unit).Reachable s ∧ ∃ x ∈ s.returned,
      (∀ k, x.stats ≠ after (x.packets.take k)) ∧ ¬ x.stats .rxPackets ≤ x.stats .txPackets) ∧
    (∃ s : State Unit, (system .seqcount Unit).Reachable s ∧ ∃ x ∈ s.returned,
      ¬ x.stats .rxPackets ≤ x.stats .txPackets) ∧
    ∃ s : State Unit, (system .seqcount Unit).Reachable s ∧ ∃ x ∈ s.returned,
      ¬ x.stats .rxBytes ≤ x.stats .txBytes := by
  refine ⟨?_, ?_, ?_⟩
  · have ends : ((system .noop Unit).run start interrupted).map (fun s => s.returned.map fun x =>
        ((x.stats .txPackets, x.stats .txBytes, x.stats .rxPackets), x.packets)) =
        some [((0, 100, 1), [⟨100, true⟩])] := by decide
    obtain ⟨s, ran, same⟩ := Option.map_eq_some_iff.1 ends
    obtain ⟨x, only, values⟩ := List.map_eq_singleton_iff.1 same
    simp only [Prod.mk.injEq] at values
    obtain ⟨⟨txPackets, txBytes, rxPackets⟩, packets⟩ := values
    refine ⟨s, ⟨_, _, rfl, ran⟩, x, by rw [only]; exact List.mem_singleton_self x, ?_, ?_⟩
    · intro k whole
      rw [whole, packets] at txPackets txBytes
      cases k with
      | zero => exact absurd txBytes (by decide)
      | succ k => exact absurd txPackets (by rw [List.take_succ_cons, List.take_nil]; decide)
    · rw [txPackets, rxPackets]
      decide
  · obtain ⟨s, reached, x, returned, tx, rx⟩ :=
      wrapped (p := ⟨100, true⟩) rfl (n := 2 ^ 31) (by decide)
    refine ⟨s, reached, x, returned, ?_⟩
    rw [tx, rx]
    decide
  · obtain ⟨s, reached, x, returned, values⟩ := counted ⟨0xFFFFFFFF, true⟩ (2 ^ 32 + 2)
    refine ⟨s, reached, x, returned, ?_⟩
    rw [values, values]
    decide

end Lkmpg.Vnetloop
