/-
# Lkmpg.Blkram.Driver -- the RAM disk of blkram.c

`struct blkram_dev` keeps its bytes and their number together; what blk-mq hands
over is a request with a start sector, a direction and a list of segments, each a
mapped buffer.  Offsets are `unsigned long` and wrap (`ulong`).  An access outside
`dev->data` has no value: it is the `none` of `memcpyTo` and `memcpyFrom`.
-/
import Lkmpg.Kernel.Library
import Lkmpg.Theory.Bytes

namespace Lkmpg.Blkram

open Lkmpg.Kernel Lkmpg.Theory

set_option autoImplicit false

def BLKRAM_SECTOR_SIZE : Nat := 512

inductive BlkStatus where
  | ok
  | ioerr
  deriving DecidableEq, Repr

inductive DataDir where
  | read
  | write
  deriving DecidableEq, Repr

/-- `struct bio_vec`, its page mapped: `bv_len` is an `unsigned int`. -/
structure BioVec where
  iobuf : List UInt8
  bvLen_lt : iobuf.length < 2 ^ 32
  deriving DecidableEq

def BioVec.bvLen (bvec : BioVec) : Nat := bvec.iobuf.length

/-- `struct request`, with the statuses it was ended with, oldest first. -/
structure Request where
  blkRqPos : Nat
  rqDataDir : DataDir
  passthrough : Bool
  segments : List BioVec
  started : Bool := false
  ended : List BlkStatus := []
  deriving DecidableEq

/-- `struct blkram_dev`: `size` is a `size_t`. -/
@[ext] structure BlkramDev where
  size : Nat
  data : List UInt8
  data_len : data.length = size
  size_lt : size < 2 ^ 64
  deriving DecidableEq

namespace BlkramDev

/-- `memcpy(dev->data + offset, iobuf, len)`. -/
def memcpyTo (dev : BlkramDev) (offset : Nat) (iobuf : List UInt8) : Option BlkramDev :=
  if fits : offset + iobuf.length ≤ dev.data.length then
    some { dev with
      data := splice dev.data offset iobuf
      data_len := (length_splice fits).trans dev.data_len }
  else none

/-- `memcpy(iobuf, dev->data + offset, len)`: the segment with its new bytes. -/
def memcpyFrom (dev : BlkramDev) (offset : Nat) (bvec : BioVec) : Option BioVec :=
  if fits : offset + bvec.bvLen ≤ dev.data.length then
    some ⟨slice dev.data offset bvec.bvLen, by rw [length_slice fits]; exact bvec.bvLen_lt⟩
  else none

end BlkramDev

/-- The copy of one segment, in the request's direction. -/
def transferSegment (dir : DataDir) (dev : BlkramDev) (offset : Nat) (bvec : BioVec) :
    Option (BlkramDev × BioVec) :=
  match dir with
  | .write => (dev.memcpyTo offset bvec.iobuf).map fun dev' => (dev', bvec)
  | .read => (dev.memcpyFrom offset bvec).map fun bvec' => (dev, bvec')

/-- The loop of `rq_for_each_segment`, from `offset` on. -/
def transferSegments (dir : DataDir) :
    BlkramDev → Nat → List BioVec → Option (BlkStatus × BlkramDev × List BioVec)
  | dev, _, [] => some (.ok, dev, [])
  | dev, offset, bvec :: rest =>
      if ulong (offset + bvec.bvLen) > dev.size then some (.ioerr, dev, bvec :: rest)
      else
        (transferSegment dir dev offset bvec).bind fun here =>
          (transferSegments dir here.1 (ulong (offset + bvec.bvLen)) rest).map fun done =>
            (done.1, done.2.1, here.2 :: done.2.2)

def blkramTransfer (dev : BlkramDev) (rq : Request) :
    Option (BlkStatus × BlkramDev × List BioVec) :=
  transferSegments rq.rqDataDir dev (ulong (ulong rq.blkRqPos * BLKRAM_SECTOR_SIZE)) rq.segments

/-- The device and the request afterwards, and what blk-mq is told. -/
def blkramQueueRq (dev : BlkramDev) (rq : Request) : Option (BlkramDev × Request × BlkStatus) :=
  (if rq.passthrough then some (.ioerr, dev, rq.segments) else blkramTransfer dev rq).map
    fun done =>
      (done.2.1,
        { rq with started := true, segments := done.2.2, ended := rq.ended ++ [done.1] },
        .ok)

/-- The requests of a queue, one at a time. -/
def serve : BlkramDev → List Request → Option (BlkramDev × List Request)
  | dev, [] => some (dev, [])
  | dev, rq :: rqs =>
      (blkramQueueRq dev rq).bind fun here =>
        (serve here.1 rqs).map fun done => (done.1, here.2.1 :: done.2)

/-- `vzalloc(size)` as the bytes of a new device. -/
def vzalloc (size : Nat) (size_lt : size < 2 ^ 64) : BlkramDev :=
  ⟨size, List.replicate size 0, List.length_replicate, size_lt⟩

/-- The device `blkram_init` makes when nothing fails, and its capacity. -/
def blkramInit (blkramMb : Nat) : BlkramDev × Nat :=
  let size := ulong (blkramMb * 1024 * 1024)
  (vzalloc size (Nat.mod_lt _ (by decide)), size / BLKRAM_SECTOR_SIZE)

/-! ## One segment -/

section Segment

variable {dev : BlkramDev} {off : Nat} {bvec : BioVec}

/-- A segment in the device does not wrap, and passes the check. -/
theorem transferSegments_within (dir : DataDir) (fits : off + bvec.bvLen ≤ dev.size)
    (rest : List BioVec) :
    transferSegments dir dev off (bvec :: rest) =
      (transferSegment dir dev off bvec).bind fun here =>
        (transferSegments dir here.1 (off + bvec.bvLen) rest).map fun done =>
          (done.1, done.2.1, here.2 :: done.2.2) := by
  have small := dev.size_lt
  rw [transferSegments, ulong_of_lt (Nat.lt_of_le_of_lt fits small), if_neg (by omega)]

/-- A write stores its bytes. -/
theorem transferSegments_cons_write (fits : off + bvec.bvLen ≤ dev.size) :
    ∃ dev₁ : BlkramDev, dev₁.size = dev.size ∧ dev₁.data = splice dev.data off bvec.iobuf ∧
      ∀ rest, transferSegments .write dev off (bvec :: rest) =
        (transferSegments .write dev₁ (off + bvec.bvLen) rest).map fun done =>
          (done.1, done.2.1, bvec :: done.2.2) := by
  have room : off + bvec.iobuf.length ≤ dev.data.length := by
    rw [dev.data_len]
    exact fits
  refine ⟨{ dev with
    data := splice dev.data off bvec.iobuf
    data_len := (length_splice room).trans dev.data_len }, rfl, rfl, fun rest => ?_⟩
  rw [transferSegments_within .write fits]
  simp only [transferSegment, BlkramDev.memcpyTo, room, dite_true, Option.map_some,
    Option.bind_some]

/-- A read fills the segment. -/
theorem transferSegments_cons_read (fits : off + bvec.bvLen ≤ dev.size) :
    ∃ bvec₁ : BioVec, bvec₁.iobuf = slice dev.data off bvec.bvLen ∧
      ∀ rest, transferSegments .read dev off (bvec :: rest) =
        (transferSegments .read dev (off + bvec.bvLen) rest).map fun done =>
          (done.1, done.2.1, bvec₁ :: done.2.2) := by
  have room : off + bvec.bvLen ≤ dev.data.length := by
    rw [dev.data_len]
    exact fits
  refine ⟨⟨slice dev.data off bvec.bvLen, by rw [length_slice room]; exact bvec.bvLen_lt⟩, rfl,
    fun rest => ?_⟩
  rw [transferSegments_within .read fits]
  simp only [transferSegment, BlkramDev.memcpyFrom, room, dite_true, Option.map_some,
    Option.bind_some]

/-- In either direction the rest goes on, with a device of the same size. -/
theorem transferSegments_cons (dir : DataDir) (fits : off + bvec.bvLen ≤ dev.size) :
    ∃ (dev₁ : BlkramDev) (bvec₁ : BioVec), dev₁.size = dev.size ∧
      ∀ rest, transferSegments dir dev off (bvec :: rest) =
        (transferSegments dir dev₁ (off + bvec.bvLen) rest).map fun done =>
          (done.1, done.2.1, bvec₁ :: done.2.2) := by
  cases dir with
  | write =>
      obtain ⟨dev₁, size, -, step⟩ := transferSegments_cons_write fits
      exact ⟨dev₁, bvec, size, step⟩
  | read =>
      obtain ⟨bvec₁, -, step⟩ := transferSegments_cons_read fits
      exact ⟨dev, bvec₁, rfl, step⟩

/-- A segment past the end stops the loop, or is copied from outside the device when the
sum wraps. -/
theorem transferSegments_past (dir : DataDir) (past : dev.size < off + bvec.bvLen)
    (rest : List BioVec) :
    transferSegments dir dev off (bvec :: rest) =
      if ulong (off + bvec.bvLen) > dev.size then some (.ioerr, dev, bvec :: rest) else none := by
  have outside : transferSegment dir dev off bvec = none := by
    have noRoom : ¬ off + bvec.bvLen ≤ dev.data.length := by
      rw [dev.data_len]
      exact Nat.not_le_of_lt past
    have noRoom' : ¬ off + bvec.iobuf.length ≤ dev.data.length := noRoom
    cases dir with
    | write => simp only [transferSegment, BlkramDev.memcpyTo, noRoom', dite_false, Option.map_none]
    | read => simp only [transferSegment, BlkramDev.memcpyFrom, noRoom, dite_false, Option.map_none]
  rw [transferSegments, outside, Option.bind_none]

end Segment

/-! ## What a request carries -/

/-- The bytes of the segments, one after the other. -/
def payload (segments : List BioVec) : List UInt8 :=
  (segments.map BioVec.iobuf).flatten

/-- The sum of the segment lengths. -/
def total (segments : List BioVec) : Nat :=
  (segments.map BioVec.bvLen).sum

@[simp] theorem payload_nil : payload [] = [] := rfl

@[simp] theorem payload_cons (bvec : BioVec) (rest : List BioVec) :
    payload (bvec :: rest) = bvec.iobuf ++ payload rest := rfl

@[simp] theorem total_nil : total [] = 0 := rfl

@[simp] theorem total_cons (bvec : BioVec) (rest : List BioVec) :
    total (bvec :: rest) = bvec.bvLen + total rest := by
  simp [total]

theorem length_payload (segments : List BioVec) : (payload segments).length = total segments := by
  induction segments with
  | nil => rfl
  | cons bvec rest ih => simp [ih, BioVec.bvLen]

/-- The capacity `blkram_init` sets covers the device exactly. -/
theorem blkramInit_capacity (blkramMb : Nat) :
    (blkramInit blkramMb).2 * BLKRAM_SECTOR_SIZE = (blkramInit blkramMb).1.size := by
  have sectors : ∃ k, ulong (blkramMb * 1024 * 1024) = 512 * k := by
    refine ⟨(blkramMb * 2048) % 2 ^ 55, ?_⟩
    unfold ulong
    omega
  obtain ⟨k, size⟩ := sectors
  simp only [blkramInit, vzalloc, BLKRAM_SECTOR_SIZE, size]
  omega

end Lkmpg.Blkram
