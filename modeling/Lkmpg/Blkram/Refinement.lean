/-
# Lkmpg.Blkram.Refinement -- the RAM disk is a plain array of bytes

`Disk` is what the device is for: an array with one value for each offset, zero
until it is written.  `serve_refines` says that requests within the capacity are
all ended once and without error, that a write replaces its range and nothing
else, and that a read returns the range (`Served`).

How a request is cut into segments, and whether contiguous requests were merged,
is not part of a `Disk`, so it cannot matter: `Resplit.outcome`.
-/
import Lkmpg.Blkram.Driver

namespace Lkmpg.Blkram

open Lkmpg.Kernel Lkmpg.Theory

set_option autoImplicit false

/-! ## A plain array -/

abbrev Disk := Nat → UInt8

namespace Disk

def zero : Disk := fun _ => 0

def write (d : Disk) (off : Nat) (bs : List UInt8) : Disk := fun i =>
  if off ≤ i ∧ i < off + bs.length then bs.getD (i - off) 0 else d i

def read (d : Disk) (off n : Nat) : List UInt8 :=
  (List.range n).map fun k => d (off + k)

theorem write_append (d : Disk) (off : Nat) (as bs : List UInt8) :
    (d.write off as).write (off + as.length) bs = d.write off (as ++ bs) := by
  funext i
  simp only [write, List.length_append]
  by_cases first : off ≤ i ∧ i < off + as.length
  · have inFirst : i - off < as.length := by omega
    rw [if_neg (by omega), if_pos first, if_pos (by omega)]
    simp [List.getD_eq_getElem?_getD, List.getElem?_append_left inFirst]
  · by_cases second : off + as.length ≤ i ∧ i < off + as.length + bs.length
    · have index : i - off - as.length = i - (off + as.length) := by omega
      rw [if_pos second, if_pos (by omega)]
      simp only [List.getD_eq_getElem?_getD]
      rw [List.getElem?_append_right (by omega), index]
    · rw [if_neg second, if_neg first, if_neg (by omega)]

theorem read_append (d : Disk) (off m n : Nat) :
    d.read off m ++ d.read (off + m) n = d.read off (m + n) := by
  simp only [read, List.range_add, List.map_append, List.map_map]
  congr 1
  apply List.map_congr_left
  intro k _
  simp [Nat.add_assoc]

end Disk

/-- The array a device holds: its bytes, and nothing past its size. -/
def content (dev : BlkramDev) : Disk := fun i => dev.data.getD i 0

theorem content_vzalloc (size : Nat) (size_lt : size < 2 ^ 64) :
    content (vzalloc size size_lt) = Disk.zero := by
  funext i
  by_cases inside : i < size <;>
    simp [content, vzalloc, Disk.zero, List.getD_eq_getElem?_getD, inside]

theorem content_splice {dev dev' : BlkramDev} {off : Nat} {bs : List UInt8}
    (fits : off + bs.length ≤ dev.size) (stored : dev'.data = splice dev.data off bs) :
    content dev' = (content dev).write off bs := by
  rw [← dev.data_len] at fits
  funext i
  simp only [content, Disk.write, stored, List.getD_eq_getElem?_getD]
  by_cases inside : off ≤ i ∧ i < off + bs.length
  · obtain ⟨k, rfl⟩ := Nat.exists_eq_add_of_le inside.1
    have small : k < bs.length := by omega
    rw [if_pos inside, splice_inside fits small]
    simp
  · rw [if_neg inside, splice_frame fits (by omega)]

theorem content_slice {dev : BlkramDev} {off n : Nat} (fits : off + n ≤ dev.size) :
    slice dev.data off n = (content dev).read off n := by
  rw [← dev.data_len] at fits
  apply List.ext_getElem?
  intro k
  by_cases inside : k < n
  · have bound : off + k < dev.data.length := by omega
    rw [getElem?_slice inside]
    simp [Disk.read, content, inside, List.getD_eq_getElem?_getD, bound]
  · rw [List.getElem?_eq_none (by rw [length_slice fits]; omega)]
    simp [Disk.read, inside]

/-! ## One transfer -/

/-- A write within the device stores the payload at the offset.  The running
offset never wraps, since it never passes the size. -/
theorem transferSegments_write (segments : List BioVec) :
    ∀ (dev : BlkramDev) (off : Nat), off + total segments ≤ dev.size →
      ∃ dev', transferSegments .write dev off segments = some (.ok, dev', segments) ∧
        dev'.size = dev.size ∧ dev'.data = splice dev.data off (payload segments) := by
  induction segments with
  | nil => exact fun dev off _ => ⟨dev, rfl, rfl, by simp⟩
  | cons bvec rest ih =>
      intro dev off fits
      rw [total_cons] at fits
      obtain ⟨dev₁, size₁, data₁, step⟩ :=
        @transferSegments_cons_write dev off bvec (by omega)
      obtain ⟨dev', ran, size, data⟩ := ih dev₁ (off + bvec.bvLen) (by omega)
      refine ⟨dev', ?_, size.trans size₁, ?_⟩
      · rw [step, ran]
        rfl
      · have bound : off + bvec.iobuf.length + (payload rest).length ≤ dev.data.length := by
          rw [length_payload, dev.data_len]
          simpa [BioVec.bvLen, Nat.add_assoc] using fits
        rw [data, data₁, payload_cons, ← splice_append bound]
        rfl

/-- A read within the device returns the bytes at the offset, in segments of the
lengths asked for. -/
theorem transferSegments_read (segments : List BioVec) :
    ∀ (dev : BlkramDev) (off : Nat), off + total segments ≤ dev.size →
      ∃ segments', transferSegments .read dev off segments = some (.ok, dev, segments') ∧
        segments'.map BioVec.bvLen = segments.map BioVec.bvLen ∧
        payload segments' = slice dev.data off (total segments) := by
  induction segments with
  | nil => exact fun dev off _ => ⟨[], rfl, rfl, by simp⟩
  | cons bvec rest ih =>
      intro dev off fits
      rw [total_cons] at fits
      have room : off + bvec.bvLen ≤ dev.data.length := by
        rw [dev.data_len]
        omega
      obtain ⟨bvec₁, iobuf, step⟩ := @transferSegments_cons_read dev off bvec (by omega)
      obtain ⟨rest', ran, lengths, bytes⟩ := ih dev (off + bvec.bvLen) (by omega)
      refine ⟨bvec₁ :: rest', ?_, ?_, ?_⟩
      · rw [step, ran]
        rfl
      · simp only [List.map_cons, lengths, List.cons.injEq, and_true]
        rw [BioVec.bvLen, iobuf, length_slice room]
      · rw [payload_cons, total_cons, iobuf, bytes, slice_append]

/-! ## One request -/

/-- What serving `rq` at the array `d` is: one end, without error; a write
replaces its range, a read returns its range. -/
structure Served (d : Disk) (rq rq' : Request) (d' : Disk) : Prop where
  started : rq'.started = true
  ended : rq'.ended = rq.ended ++ [.ok]
  lengths : rq'.segments.map BioVec.bvLen = rq.segments.map BioVec.bvLen
  write : rq.rqDataDir = .write →
    d' = d.write (512 * rq.blkRqPos) (payload rq.segments) ∧ rq'.segments = rq.segments
  read : rq.rqDataDir = .read →
    d' = d ∧ payload rq'.segments = d.read (512 * rq.blkRqPos) (total rq.segments)

/-- An ordinary request that lies within a disk of `size` bytes. -/
def Fits (size : Nat) (rq : Request) : Prop :=
  rq.passthrough = false ∧ 512 * rq.blkRqPos + total rq.segments ≤ size

theorem blkramQueueRq_served {dev : BlkramDev} {rq : Request} (fits : Fits dev.size rq) :
    ∃ dev' rq', blkramQueueRq dev rq = some (dev', rq', .ok) ∧ dev'.size = dev.size ∧
      Served (content dev) rq rq' (content dev') := by
  obtain ⟨ordinary, within⟩ := fits
  have small := dev.size_lt
  have pos : ulong rq.blkRqPos = rq.blkRqPos := ulong_of_lt (by omega)
  have start : ulong (ulong rq.blkRqPos * BLKRAM_SECTOR_SIZE) = 512 * rq.blkRqPos := by
    rw [pos, BLKRAM_SECTOR_SIZE, Nat.mul_comm]
    exact ulong_of_lt (by omega)
  cases dir : rq.rqDataDir with
  | write =>
      obtain ⟨dev', ran, size, data⟩ := transferSegments_write rq.segments dev _ within
      refine ⟨dev', { rq with started := true, ended := rq.ended ++ [.ok] }, ?_, size, ?_⟩
      · simp [blkramQueueRq, ordinary, blkramTransfer, start, dir, ran]
      · refine ⟨rfl, rfl, rfl, fun _ => ⟨?_, rfl⟩, ?_⟩
        · exact content_splice (by rw [length_payload]; exact within) data
        · intro read
          simp [dir] at read
  | read =>
      obtain ⟨segments', ran, lengths, bytes⟩ := transferSegments_read rq.segments dev _ within
      refine ⟨dev, { rq with started := true, segments := segments', ended := rq.ended ++ [.ok] },
        ?_, rfl, ?_⟩
      · simp [blkramQueueRq, ordinary, blkramTransfer, start, dir, ran]
      · refine ⟨rfl, rfl, lengths, ?_, fun _ => ⟨rfl, ?_⟩⟩
        · intro write
          simp [dir] at write
        · rw [bytes, content_slice within]

/-! ## Histories of requests -/

/-- The requests served one after the other, from the array `d`. -/
inductive ServedAll : Disk → List Request → List Request → Disk → Prop where
  | nil (d : Disk) : ServedAll d [] [] d
  | cons {d m d' : Disk} {rq rq' : Request} {rqs rqs' : List Request}
      (here : Served d rq rq' m) (rest : ServedAll m rqs rqs' d') :
      ServedAll d (rq :: rqs) (rq' :: rqs') d'

theorem serve_refines (rqs : List Request) :
    ∀ (dev : BlkramDev), (∀ rq ∈ rqs, Fits dev.size rq) →
      ∃ dev' rqs', serve dev rqs = some (dev', rqs') ∧ dev'.size = dev.size ∧
        ServedAll (content dev) rqs rqs' (content dev') := by
  induction rqs with
  | nil => exact fun dev _ => ⟨dev, [], rfl, rfl, .nil _⟩
  | cons rq rqs ih =>
      intro dev fits
      obtain ⟨mid, rq', ran, size, here⟩ := blkramQueueRq_served (fits rq List.mem_cons_self)
      obtain ⟨dev', rqs', rest, size', after⟩ := ih mid fun r member => by
        rw [size]
        exact fits r (List.mem_cons_of_mem _ member)
      refine ⟨dev', rq' :: rqs', ?_, size'.trans size, .cons here after⟩
      simp [serve, ran, rest]

/-! ## Segments and merging -/

/-- `b` asks for what `a` asks for, perhaps in other segments. -/
structure SameTransfer (a b : Request) : Prop where
  pos : b.blkRqPos = a.blkRqPos
  dir : b.rqDataDir = a.rqDataDir
  total : total b.segments = total a.segments
  payload : a.rqDataDir = .write → payload b.segments = payload a.segments

/-- `a` is the merge of `b` and `c`: `c` starts in the sector where `b` ends. -/
structure Merged (a b c : Request) : Prop where
  pos : b.blkRqPos = a.blkRqPos
  adjacent : 512 * c.blkRqPos = 512 * b.blkRqPos + total b.segments
  dir : b.rqDataDir = a.rqDataDir ∧ c.rqDataDir = a.rqDataDir
  total : total a.segments = total b.segments + total c.segments
  payload : a.rqDataDir = .write →
    payload a.segments = payload b.segments ++ payload c.segments

/-- The second history is the first, cut into segments and requests differently. -/
inductive Resplit : List Request → List Request → Prop where
  | nil : Resplit [] []
  | same {a b : Request} {as bs : List Request} (transfer : SameTransfer a b)
      (rest : Resplit as bs) : Resplit (a :: as) (b :: bs)
  | split {a b c : Request} {as bs : List Request} (merged : Merged a b c)
      (rest : Resplit as bs) : Resplit (a :: as) (b :: c :: bs)

/-- The bytes in the segments of a history, in order. -/
def bytesOf (rqs : List Request) : List UInt8 :=
  (rqs.map fun rq => payload rq.segments).flatten

theorem Served.same {d m n : Disk} {a a' b b' : Request} (first : Served d a a' m)
    (second : Served d b b' n) (transfer : SameTransfer a b) :
    m = n ∧ payload a'.segments = payload b'.segments := by
  cases dir : a.rqDataDir with
  | write =>
      obtain ⟨rfl, segmentsA⟩ := first.write dir
      obtain ⟨rfl, segmentsB⟩ := second.write (transfer.dir.trans dir)
      rw [segmentsA, segmentsB, transfer.pos, transfer.payload dir]
      exact ⟨rfl, rfl⟩
  | read =>
      obtain ⟨rfl, bytesA⟩ := first.read dir
      obtain ⟨rfl, bytesB⟩ := second.read (transfer.dir.trans dir)
      rw [bytesA, bytesB, transfer.pos, transfer.total]
      exact ⟨rfl, rfl⟩

theorem Served.split {d m n o : Disk} {a a' b b' c c' : Request} (whole : Served d a a' m)
    (first : Served d b b' n) (second : Served n c c' o) (merged : Merged a b c) :
    m = o ∧ payload a'.segments = payload b'.segments ++ payload c'.segments := by
  have next : 512 * c.blkRqPos = 512 * a.blkRqPos + total b.segments := by
    rw [merged.adjacent, merged.pos]
  cases dir : a.rqDataDir with
  | write =>
      obtain ⟨rfl, segmentsA⟩ := whole.write dir
      obtain ⟨rfl, segmentsB⟩ := first.write (merged.dir.1.trans dir)
      obtain ⟨rfl, segmentsC⟩ := second.write (merged.dir.2.trans dir)
      rw [segmentsA, segmentsB, segmentsC, merged.payload dir, merged.pos, next,
        ← length_payload, Disk.write_append]
      exact ⟨rfl, rfl⟩
  | read =>
      obtain ⟨rfl, bytesA⟩ := whole.read dir
      obtain ⟨rfl, bytesB⟩ := first.read (merged.dir.1.trans dir)
      obtain ⟨rfl, bytesC⟩ := second.read (merged.dir.2.trans dir)
      rw [bytesA, bytesB, bytesC, merged.pos, next, Disk.read_append, merged.total]
      exact ⟨rfl, rfl⟩

/-- The array left and the bytes returned are the same for every way of cutting. -/
theorem Resplit.outcome {as bs : List Request} (resplit : Resplit as bs) :
    ∀ {d m n : Disk} {as' bs' : List Request}, ServedAll d as as' m → ServedAll d bs bs' n →
      m = n ∧ bytesOf as' = bytesOf bs' := by
  induction resplit with
  | nil =>
      intro d m n as' bs' first second
      cases first
      cases second
      exact ⟨rfl, rfl⟩
  | same transfer rest ih =>
      intro d m n as' bs' first second
      cases first with
      | cons hereA restA =>
          cases second with
          | cons hereB restB =>
              obtain ⟨rfl, bytes⟩ := hereA.same hereB transfer
              obtain ⟨rfl, tail⟩ := ih restA restB
              refine ⟨rfl, ?_⟩
              simp only [bytesOf, List.map_cons, List.flatten_cons, bytes] at tail ⊢
              rw [tail]
  | split merged rest ih =>
      intro d m n as' bs' first second
      cases first with
      | cons hereA restA =>
          cases second with
          | cons hereB restB =>
              cases restB with
              | cons hereC restC =>
                  obtain ⟨rfl, bytes⟩ := hereA.split hereB hereC merged
                  obtain ⟨rfl, tail⟩ := ih restA restC
                  refine ⟨rfl, ?_⟩
                  simp only [bytesOf, List.map_cons, List.flatten_cons, bytes] at tail ⊢
                  rw [tail, List.append_assoc]

/-! ## The disk -/

/-- **blkram is a plain zero-initialised array of bytes.**  On a new disk of any
size, any history of ordinary requests within the disk is served to its end, each
request ended once and without error, each write replacing exactly its range and
each read returning exactly its range; and a history cut differently into
segments and contiguous requests has the same outcome. -/
theorem blkram_plain_array (size : Nat) (size_lt : size < 2 ^ 64)
    (rqs : List Request) (fits : ∀ rq ∈ rqs, Fits size rq) :
    ∃ dev' rqs', serve (vzalloc size size_lt) rqs = some (dev', rqs') ∧
      ServedAll Disk.zero rqs rqs' (content dev') ∧
      ∀ others, Resplit rqs others → (∀ rq ∈ others, Fits size rq) →
        ∃ dev'' others', serve (vzalloc size size_lt) others = some (dev'', others') ∧
          content dev'' = content dev' ∧ bytesOf others' = bytesOf rqs' := by
  obtain ⟨dev', rqs', ran, -, served⟩ := serve_refines rqs (vzalloc size size_lt) fits
  rw [content_vzalloc] at served
  refine ⟨dev', rqs', ran, served, ?_⟩
  intro others resplit fitsOthers
  obtain ⟨dev'', others', ranOthers, -, servedOthers⟩ :=
    serve_refines others (vzalloc size size_lt) fitsOthers
  rw [content_vzalloc] at servedOthers
  obtain ⟨same, bytes⟩ := resplit.outcome served servedOthers
  exact ⟨dev'', others', ranOthers, same.symm, bytes.symm⟩

/-- A write of two segments at sector 1 and a read across its first byte. -/
theorem blkram_plain_array_two :
    ∃ dev' rqs', serve (vzalloc 1024 (by decide))
        [⟨1, .write, false, [⟨[7], by decide⟩, ⟨[8, 9], by decide⟩], false, []⟩,
          ⟨1, .read, false, [⟨[0, 0], by decide⟩], false, []⟩] = some (dev', rqs') ∧
      ServedAll Disk.zero
        [⟨1, .write, false, [⟨[7], by decide⟩, ⟨[8, 9], by decide⟩], false, []⟩,
          ⟨1, .read, false, [⟨[0, 0], by decide⟩], false, []⟩] rqs' (content dev') := by
  have fits : ∀ rq ∈ ([⟨1, .write, false, [⟨[7], by decide⟩, ⟨[8, 9], by decide⟩], false, []⟩,
      ⟨1, .read, false, [⟨[0, 0], by decide⟩], false, []⟩] : List Request), Fits 1024 rq := by
    simp [Fits, BioVec.bvLen]
  obtain ⟨dev', rqs', ran, served, -⟩ :=
    blkram_plain_array 1024 (by decide) _ fits
  exact ⟨dev', rqs', ran, served⟩

end Lkmpg.Blkram
