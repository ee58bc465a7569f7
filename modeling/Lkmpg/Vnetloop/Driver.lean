/-
# Lkmpg.Vnetloop.Driver -- vnetloop.c, the counters of the device

`vnetloop_xmit` adds to the counters between `u64_stats_update_begin` and
`u64_stats_update_end`, and `vnetloop_get_stats64` reads them between
`u64_stats_fetch_begin` and `u64_stats_fetch_retry`, each counter in a step of its own.
The transmit lock lets one `vnetloop_xmit` run at a time.

`u64_stats_sync` is a sequence counter on 32-bit SMP machines, and nothing on 64-bit
ones.  The state also carries the packets of the updates so far, and what each call
returned.
-/
import Lkmpg.Theory.System
import Mathlib.Logic.Function.Basic

namespace Lkmpg.Vnetloop

open Lkmpg.Theory

set_option autoImplicit false

/-! ## Counters -/

/-- The counters of `struct vnetloop_priv`. -/
inductive Field where
  | txPackets
  | txBytes
  | rxPackets
  | rxBytes
  deriving DecidableEq

abbrev Counters := Field → UInt64

def Counters.zero : Counters := fun _ => 0

/-- `priv->f += n`. -/
def Counters.add (c : Counters) (update : Field × UInt64) : Counters :=
  Function.update c update.1 (c update.1 + update.2)

/-- A packet given to `vnetloop_xmit`. -/
structure Packet where
  /-- `skb->len`. -/
  len : UInt32
  /-- Whether `skb_copy` succeeds. -/
  copied : Bool
  deriving DecidableEq

def ETH_HLEN : UInt32 := 14

/-- The length `eth_type_trans` leaves: it pulls the Ethernet header, if there is one. -/
def ethTypeTrans (len : UInt32) : UInt32 := if ETH_HLEN ≤ len then len - ETH_HLEN else len

/-- The additions between `u64_stats_update_begin` and `u64_stats_update_end`, in their
order. -/
def Packet.updates (p : Packet) : List (Field × UInt64) :=
  if p.copied then
    [(.txPackets, 1), (.txBytes, p.len.toUInt64), (.rxPackets, 1),
      (.rxBytes, (ethTypeTrans p.len).toUInt64)]
  else [(.txPackets, 1), (.txBytes, p.len.toUInt64)]

/-- The counters once the packet is counted. -/
def Packet.count (c : Counters) (p : Packet) : Counters := p.updates.foldl Counters.add c

/-- The counters as they stand after the packets. -/
def after (packets : List Packet) : Counters := packets.foldl Packet.count .zero

/-! ## Steps -/

/-- What `struct u64_stats_sync` is. -/
inductive Sync where
  /-- A sequence counter, as on 32-bit SMP. -/
  | seqcount
  /-- Nothing, as on 64-bit. -/
  | noop
  deriving DecidableEq

/-- `u64_stats_update_begin` and `u64_stats_update_end`. -/
def Sync.advance (sync : Sync) (seq : UInt32) : UInt32 :=
  match sync with
  | .seqcount => seq + 1
  | .noop => seq

/-- What `u64_stats_fetch_begin` returns, or `none` while it waits for an update to end. -/
def Sync.fetchBegin (sync : Sync) (seq : UInt32) : Option UInt32 :=
  match sync with
  | .seqcount => if seq % 2 = 0 then some seq else none
  | .noop => some 0

def Sync.fetchRetry (sync : Sync) (seq start : UInt32) : Bool :=
  match sync with
  | .seqcount => decide (seq ≠ start)
  | .noop => false

/-- The order in which `vnetloop_get_stats64` reads the counters. -/
def readOrder : List Field := [.txPackets, .txBytes, .rxPackets, .rxBytes]

inductive ReaderPc where
  | outside
  /-- Before `u64_stats_fetch_begin`. -/
  | fetch
  /-- With the counters still to be read, and then before `u64_stats_fetch_retry`. -/
  | read (start : UInt32) (left : List Field)
  deriving DecidableEq

/-- What a call of `vnetloop_get_stats64` returned. -/
structure Snapshot where
  stats : Counters
  /-- The number of packets that were counted when the pass that returned began. -/
  since : Nat
  /-- The packets whose update had begun when it returned. -/
  packets : List Packet

variable (R : Type)

structure State where
  priv : Counters
  seq : UInt32
  /-- The additions that the `vnetloop_xmit` in its update has left. -/
  xmit : Option (List (Field × UInt64))
  /-- The packets whose update has begun, oldest first. -/
  packets : List Packet
  reader : R → ReaderPc
  /-- What the caller's `rtnl_link_stats64` holds. -/
  stats : R → Counters
  /-- The number of packets that were counted when the pass began. -/
  since : R → Nat
  returned : List Snapshot

inductive Action where
  /-- `vnetloop_xmit`, up to its `u64_stats_update_begin`. -/
  | vnetloopXmit (p : Packet)
  /-- The next addition. -/
  | add
  | updateEnd
  | vnetloopGetStats64 (r : R)
  | fetchBegin (r : R)
  /-- The next of the four assignments. -/
  | read (r : R)
  | fetchRetry (r : R)

variable {R}

/-- The number of packets whose update has ended. -/
def State.completed (s : State R) : Nat :=
  if s.xmit.isSome then s.packets.length - 1 else s.packets.length

variable [DecidableEq R]

def State.goto (s : State R) (r : R) (pc : ReaderPc) : State R :=
  { s with reader := Function.update s.reader r pc }

def step (sync : Sync) (s : State R) : Action R → Option (State R)
  | .vnetloopXmit p =>
      match s.xmit with
      | none =>
          some { s with
            seq := sync.advance s.seq
            xmit := some p.updates
            packets := s.packets ++ [p] }
      | some _ => none
  | .add =>
      match s.xmit with
      | some (update :: left) => some { s with priv := s.priv.add update, xmit := some left }
      | _ => none
  | .updateEnd =>
      match s.xmit with
      | some [] => some { s with seq := sync.advance s.seq, xmit := none }
      | _ => none
  | .vnetloopGetStats64 r =>
      match s.reader r with
      | .outside => some (s.goto r .fetch)
      | _ => none
  | .fetchBegin r =>
      match s.reader r with
      | .fetch =>
          (sync.fetchBegin s.seq).map fun start =>
            { s with since := Function.update s.since r s.completed }.goto r (.read start readOrder)
      | _ => none
  | .read r =>
      match s.reader r with
      | .read start (f :: left) =>
          some ({ s with
            stats := Function.update s.stats r
              (Function.update (s.stats r) f (s.priv f)) }.goto r (.read start left))
      | _ => none
  | .fetchRetry r =>
      match s.reader r with
      | .read start [] =>
          if sync.fetchRetry s.seq start then some (s.goto r .fetch)
          else some ({ s with
            returned := ⟨s.stats r, s.since r, s.packets⟩ :: s.returned }.goto r .outside)
      | _ => none

def start : State R where
  priv := .zero
  seq := 0
  xmit := none
  packets := []
  reader _ := .outside
  stats _ := .zero
  since _ := 0
  returned := []

def system (sync : Sync) (R : Type) [DecidableEq R] : System (State R) (Action R) where
  Start s := s = start
  step := step sync

/-- The steps of `vnetloop_xmit` for one packet. -/
def send (R : Type) (p : Packet) : List (Action R) :=
  .vnetloopXmit p :: (List.replicate p.updates.length .add ++ [.updateEnd])

end Lkmpg.Vnetloop
