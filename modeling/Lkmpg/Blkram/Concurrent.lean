/-
# Lkmpg.Blkram.Concurrent -- calls of blkram_queue_rq at the same time

blk-mq may hand over a request while others are under way, and `blkram_transfer` takes
no lock.  A step is one test of the loop, one byte of a `memcpy`, which copies them in any
order, or the end of the request.

A file system does not read what it has not finished to write, nor write it twice at once:
as long as no request is handed over that conflicts with one under way, all of them
are served as if each had been copied at one moment (`blkram_linearizable`).
-/
import Lkmpg.Blkram.Refinement
import Lkmpg.Theory.Transfers
import Mathlib.Data.Fintype.Defs

namespace Lkmpg.Blkram

open Lkmpg.Kernel Lkmpg.Theory

set_option autoImplicit false

/-! ## The calls -/

/-- Where a call of `blkram_queue_rq` is. -/
inductive Pc where
  /-- At the top of the loop over the segments. -/
  | loop
  /-- In `memcpy`, which has copied the bytes with these indices. -/
  | memcpy (copied : List Nat)
  /-- Before `blk_mq_end_request(rq, status)`. -/
  | endRequest (status : BlkStatus)

structure Flight where
  rq : Request
  offset : Nat
  /-- The segments behind, and those ahead. -/
  done : List BioVec
  left : List BioVec
  pc : Pc

variable (P : Type)

structure State where
  dev : BlkramDev
  flight : P → Option Flight

inductive Action where
  /-- blk-mq calls `blkram_queue_rq`. -/
  | queueRq (p : P) (rq : Request)
  /-- The next step of a call that is not in `memcpy`. -/
  | run (p : P)
  /-- `memcpy` copies the byte with the index. -/
  | copy (p : P) (i : Nat)
  /-- `memcpy` returns. -/
  | copied (p : P)

variable {P} [DecidableEq P]

def State.set (s : State P) (p : P) (f : Option Flight) : State P :=
  { s with flight := Function.update s.flight p f }

def BioVec.set (bvec : BioVec) (i : Nat) (b : UInt8) : BioVec :=
  ⟨bvec.iobuf.set i b, by rw [List.length_set]; exact bvec.bvLen_lt⟩

/-- One byte of a `memcpy` between `dev->data + offset` and the segment. -/
def copyByte (dir : DataDir) (dev : BlkramDev) (offset : Nat) (bvec : BioVec) (i : Nat) :
    Option (BlkramDev × BioVec) :=
  if inside : i < bvec.iobuf.length then
    match dir with
    | .write => (dev.memcpyTo (offset + i) [bvec.iobuf[i]]).map fun dev' => (dev', bvec)
    | .read => dev.data[offset + i]?.map fun b => (dev, bvec.set i b)
  else none

def step (s : State P) : Action P → Option (State P)
  | .queueRq p rq =>
      match s.flight p with
      | none =>
          some (s.set p (some ⟨rq, ulong (ulong rq.blkRqPos * BLKRAM_SECTOR_SIZE), [], rq.segments,
            if rq.passthrough then .endRequest .ioerr else .loop⟩))
      | some _ => none
  | .run p =>
      match s.flight p with
      | some ⟨rq, offset, done, [], .loop⟩ =>
          some (s.set p (some ⟨rq, offset, done, [], .endRequest .ok⟩))
      | some ⟨rq, offset, done, bvec :: rest, .loop⟩ =>
          some (s.set p (some ⟨rq, offset, done, bvec :: rest,
            if ulong (offset + bvec.bvLen) > s.dev.size then .endRequest .ioerr else .memcpy []⟩))
      | some ⟨_, _, _, _, .endRequest _⟩ => some (s.set p none)
      | _ => none
  | .copy p i =>
      match s.flight p with
      | some ⟨rq, offset, done, bvec :: rest, .memcpy copied⟩ =>
          (copyByte rq.rqDataDir s.dev offset bvec i).map fun here =>
            { s with dev := here.1 }.set p
              (some ⟨rq, offset, done, here.2 :: rest, .memcpy (i :: copied)⟩)
      | _ => none
  | .copied p =>
      match s.flight p with
      | some ⟨rq, offset, done, bvec :: rest, .memcpy copied⟩ =>
          if ∀ i < bvec.bvLen, i ∈ copied then
            some (s.set p (some ⟨rq, ulong (offset + bvec.bvLen), done ++ [bvec], rest, .loop⟩))
          else none
      | _ => none

def system (P : Type) [DecidableEq P] (dev : BlkramDev) : System (State P) (Action P) where
  Start s := s = ⟨dev, fun _ => none⟩
  step := step

/-! ## What blk-mq sees -/

/-- The request as a transfer of its bytes. -/
def Request.transfer (rq : Request) : Transfers.Transfer UInt8 :=
  ⟨decide (rq.rqDataDir = .write), 512 * rq.blkRqPos, payload rq.segments⟩

omit [DecidableEq P] in
/-- A request that is handed over, and one that is ended: with its bytes, or without when
it failed. -/
def shown (s : State P) (a : Action P) (_ : State P) : List (Transfers.Event P UInt8) :=
  match a with
  | .queueRq p rq => [.began p rq.transfer]
  | .run p =>
      match s.flight p with
      | some ⟨_, _, done, left, .endRequest .ok⟩ => [.ended p (some (payload (done ++ left)))]
      | some ⟨_, _, _, _, .endRequest .ioerr⟩ => [.ended p none]
      | _ => []
  | .copy _ _ | .copied _ => []

omit [DecidableEq P] in
/-- What is handed over is an ordinary request within the disk, and does not conflict with
one under way. -/
def Calm (s : State P) : Action P → Prop
  | .queueRq _ rq => Fits s.dev.size rq ∧
      ∀ q f, s.flight q = some f → ¬ rq.transfer.Conflicts f.rq.transfer
  | .run _ | .copy _ _ | .copied _ => True

instance (size : Nat) (rq : Request) : Decidable (Fits size rq) :=
  inferInstanceAs (Decidable (_ ∧ _))

omit [DecidableEq P] in
instance [Fintype P] (s : State P) : ∀ a, Decidable (Calm s a)
  | .queueRq _ rq =>
      have (q : P) : Decidable (∀ f, s.flight q = some f → ¬ rq.transfer.Conflicts f.rq.transfer) :=
        match s.flight q with
        | none => .isTrue (fun f same => by cases same)
        | some f => decidable_of_iff (¬ rq.transfer.Conflicts f.rq.transfer)
            ⟨fun calm g same => by cases same; exact calm, fun all => all f rfl⟩
      inferInstanceAs (Decidable (Fits s.dev.size rq ∧
        ∀ q f, s.flight q = some f → ¬ rq.transfer.Conflicts f.rq.transfer))
  | .run _ | .copy _ _ | .copied _ => .isTrue trivial

/-! ## The bytes of a request -/

theorem payload_append (xs ys : List BioVec) : payload (xs ++ ys) = payload xs ++ payload ys := by
  simp [payload]

theorem total_append (xs ys : List BioVec) : total (xs ++ ys) = total xs + total ys := by
  simp [total]

/-- The byte `i` of the first segment ahead. -/
theorem payload_ahead (done rest : List BioVec) (bvec : BioVec) {i : Nat}
    (inside : i < bvec.iobuf.length) :
    (payload (done ++ bvec :: rest))[total done + i]? = some bvec.iobuf[i] := by
  rw [payload_append, payload_cons, ← length_payload, List.getElem?_append_right (by omega),
    Nat.add_sub_cancel_left, List.getElem?_append_left inside, List.getElem?_eq_getElem inside]

theorem payload_set (done rest : List BioVec) (bvec : BioVec) {i : Nat}
    (inside : i < bvec.iobuf.length) (b : UInt8) :
    payload (done ++ bvec.set i b :: rest) =
      (payload (done ++ bvec :: rest)).set (total done + i) b := by
  rw [payload_append, payload_append, payload_cons, payload_cons, ← length_payload,
    List.set_append_right _ _ (by omega), Nat.add_sub_cancel_left, List.set_append_left _ _ inside]
  rfl

theorem content_memcpyTo {dev dev' : BlkramDev} {a : Nat} {b : UInt8}
    (copied : dev.memcpyTo a [b] = some dev') :
    content dev' = Function.update (content dev) a b ∧ dev'.size = dev.size := by
  unfold BlkramDev.memcpyTo at copied
  split at copied <;> cases copied
  rename_i fits
  rw [dev.data_len] at fits
  refine ⟨?_, rfl⟩
  rw [content_splice fits rfl]
  funext i
  by_cases same : i = a
  · subst same
    simp [Disk.write]
  · have outside : ¬ (a ≤ i ∧ i < a + [b].length) := by simp; omega
    rw [Function.update_of_ne same, Disk.write, if_neg outside]

/-- An ordinary request within the disk starts at its offset. -/
theorem Fits.offset {size : Nat} {rq : Request} (fits : Fits size rq) (small : size < 2 ^ 64) :
    ulong (ulong rq.blkRqPos * BLKRAM_SECTOR_SIZE) = 512 * rq.blkRqPos := by
  have within := fits.2
  rw [ulong_of_lt (n := rq.blkRqPos) (by omega), BLKRAM_SECTOR_SIZE, Nat.mul_comm]
  exact ulong_of_lt (by omega)

/-! ## Each step -/

/-- How far the transfer is. -/
def Pc.Tracks (left : List BioVec) (behind : Nat) (moved : List Nat) : Pc → Prop
  | .loop => True
  | .memcpy copied => left ≠ [] ∧ ∀ i ∈ copied, behind + i ∈ moved
  | .endRequest status => status = .ok ∧ left = []

structure Flight.Tracks (size : Nat) (f : Flight) (g : Transfers.Flight UInt8) : Prop where
  fits : Fits size f.rq
  job : g.job = f.rq.transfer
  bytes : g.bytes = payload (f.done ++ f.left)
  offset : f.offset = 512 * f.rq.blkRqPos + total f.done
  all : total (f.done ++ f.left) = total f.rq.segments
  behind : ∀ i < total f.done, i ∈ g.moved
  pc : f.pc.Tracks f.left (total f.done) g.moved

omit [DecidableEq P] in
structure State.Tracks (s : State P) (u : Transfers.State P UInt8) : Prop where
  memory : u.memory = content s.dev
  flight : ∀ p, Option.Rel (Flight.Tracks s.dev.size) (s.flight p) (u.flight p)

namespace State.Tracks

variable {s : State P} {u : Transfers.State P UInt8}

theorem set (tracks : s.Tracks u) {p : P} {dev : BlkramDev} {memory : Nat → UInt8}
    (same : memory = content dev) (size : dev.size = s.dev.size) {x : Option Flight}
    {y : Option (Transfers.Flight UInt8)} (rel : Option.Rel (Flight.Tracks s.dev.size) x y) :
    ({ s with dev := dev }.set p x).Tracks ({ u with memory := memory }.set p y) where
  memory := same
  flight q := by
    simp only [State.set, Transfers.State.set, size]
    by_cases mine : q = p
    · subst mine
      simpa using rel
    · simpa [mine] using tracks.flight q

omit [DecidableEq P] in
theorem none_ (tracks : s.Tracks u) {p : P} (at_ : s.flight p = none) : u.flight p = none := by
  have rel := tracks.flight p
  rw [at_] at rel
  cases same : u.flight p with
  | none => rfl
  | some g =>
      rw [same] at rel
      cases rel

omit [DecidableEq P] in
/-- The transfer that a call is. -/
theorem some_ (tracks : s.Tracks u) {p : P} {f : Flight} (at_ : s.flight p = some f) :
    ∃ g, u.flight p = some g ∧ f.Tracks s.dev.size g := by
  have rel := tracks.flight p
  rw [at_] at rel
  cases same : u.flight p with
  | none =>
      rw [same] at rel
      cases rel
  | some g =>
      rw [same] at rel
      cases rel with
      | some rel => exact ⟨g, rfl, rel⟩

/-- The transfers change no more. -/
theorem stutter (tracks : s.Tracks u) {p : P} {f : Flight} {g : Transfers.Flight UInt8}
    (at_ : u.flight p = some g) (rel : f.Tracks s.dev.size g) :
    (s.set p (some f)).Tracks u := by
  have goes := tracks.set (p := p) tracks.memory rfl (.some rel)
  have same : Transfers.State.set { u with memory := u.memory } p (some g) = u := by
    simp only [Transfers.State.set, ← at_, Function.update_eq_self]
  rw [same] at goes
  exact goes

end State.Tracks

section

variable [∀ (u : Transfers.State P UInt8) (act : Transfers.Act P UInt8),
  Decidable (Transfers.Calm u act)]

/-- The transfers come to a state that tracks `t`, and show the events. -/
def Matched (initial : Nat → UInt8) (t : State P) (u : Transfers.State P UInt8)
    (shown : List (Transfers.Event P UInt8)) : Prop :=
  ∀ es, ∃ acts u', (((Transfers.system initial).only Transfers.Calm).traced Transfers.shown).run
    (u, es) acts = some (u', es ++ shown) ∧ t.Tracks u'

variable {initial : Nat → UInt8} {s t : State P} {u : Transfers.State P UInt8}

theorem matched_stutter (tracks : t.Tracks u) : Matched initial t u [] := by
  intro es
  rw [List.append_nil]
  exact ⟨[], u, rfl, tracks⟩

theorem matched_step (act : Transfers.Act P UInt8) (u' : Transfers.State P UInt8)
    (calm : Transfers.Calm u act) (next : Transfers.step u act = some u') (tracks : t.Tracks u') :
    Matched initial t u (Transfers.shown u act u') := by
  intro es
  have moved : ((Transfers.system initial).only Transfers.Calm).step u act = some u' :=
    System.only_step.2 ⟨calm, next⟩
  refine ⟨[act], u', ?_, tracks⟩
  simp only [System.run, System.traced_step moved, Option.bind_some]

/-- A request is handed over. -/
theorem queueRq_matched (tracks : s.Tracks u) {p : P} {rq : Request} (calm : Calm s (.queueRq p rq))
    (next : step s (.queueRq p rq) = some t) :
    Matched initial t u (shown s (.queueRq p rq) t) := by
  obtain ⟨fits, alone⟩ := calm
  simp only [step] at next
  split at next <;> cases next
  rename_i idle
  have none_ := tracks.none_ idle
  refine matched_step (.begin p rq.transfer)
    (u.set p (some ⟨rq.transfer, rq.transfer.bytes, []⟩)) ?_ ?_ ?_
  · intro q g at_
    have rel := tracks.flight q
    rw [at_] at rel
    cases found : s.flight q with
    | none =>
        rw [found] at rel
        cases rel
    | some f =>
        rw [found] at rel
        cases rel with
        | some rel =>
            rw [rel.job]
            exact alone q f found
  · simp only [Transfers.step, none_]
  · refine tracks.set tracks.memory rfl (.some ⟨fits, rfl, rfl, fits.offset s.dev.size_lt, rfl,
      fun i less => absurd less (Nat.not_lt_zero i), ?_⟩)
    rw [fits.1]
    trivial

/-- A test of the loop, or the end of the request. -/
theorem run_matched (tracks : s.Tracks u) {p : P} (next : step s (.run p) = some t) :
    Matched initial t u (shown s (.run p) t) := by
  simp only [step] at next
  split at next
  · rename_i rq offset done at_
    cases next
    obtain ⟨g, atU, rel⟩ := tracks.some_ at_
    simp only [shown, at_]
    exact matched_stutter (tracks.stutter atU
      ⟨rel.fits, rel.job, rel.bytes, rel.offset, rel.all, rel.behind, rfl, rfl⟩)
  · rename_i rq offset done bvec rest at_
    cases next
    obtain ⟨g, atU, rel⟩ := tracks.some_ at_
    simp only [shown, at_]
    refine matched_stutter (tracks.stutter atU
      ⟨rel.fits, rel.job, rel.bytes, rel.offset, rel.all, rel.behind, ?_⟩)
    -- a request within the disk passes the test
    have within := rel.fits.2
    have start := rel.offset
    have all := rel.all
    have small := s.dev.size_lt
    simp only [total_append, total_cons] at all within start
    rw [ulong_of_lt (by omega), if_neg (by omega)]
    exact ⟨List.cons_ne_nil _ _, fun i member => by cases member⟩
  · rename_i rq offset done left status at_
    cases next
    obtain ⟨g, atU, rel⟩ := tracks.some_ at_
    obtain ⟨rfl, nothing⟩ := rel.pc
    simp only at nothing
    subst nothing
    have ended : Transfers.shown u (.finish p) (u.set p none) =
        [.ended p (some (payload (done ++ [])))] := by
      simp only [Transfers.shown, atU, Option.map_some, rel.bytes]
    simp only [shown, at_, ← ended]
    refine matched_step (.finish p) _ trivial ?_ (tracks.set tracks.memory rfl .none)
    have all : ∀ i < g.bytes.length, i ∈ g.moved := by
      intro i inside
      rw [rel.bytes, length_payload, total_append, total_nil, Nat.add_zero] at inside
      exact rel.behind i inside
    simp only [Transfers.step, atU, if_pos all]
  · cases next

/-- A byte of a `memcpy`. -/
theorem copy_matched (tracks : s.Tracks u) {p : P} {i : Nat}
    (next : step s (.copy p i) = some t) : Matched initial t u (shown s (.copy p i) t) := by
  simp only [step] at next
  split at next
  · rename_i rq offset done bvec rest copied at_
    obtain ⟨⟨dev, bvec'⟩, here, rfl⟩ := Option.map_eq_some_iff.1 next
    obtain ⟨g, atU, rel⟩ := tracks.some_ at_
    unfold copyByte at here
    split at here
    · rename_i inside
      have bytes : g.bytes = payload (done ++ bvec :: rest) := rel.bytes
      have found := payload_ahead done rest bvec inside
      rw [← bytes] at found
      obtain ⟨room, byte⟩ := List.getElem?_eq_some_iff.1 found
      have address : g.job.start + (total done + i) = offset + i := by
        have start : offset = 512 * rq.blkRqPos + total done := rel.offset
        rw [rel.job, start, ← Nat.add_assoc]
        rfl
      have behind : ∀ k < total done, k ∈ (total done + i) :: g.moved :=
        fun k less => List.mem_cons_of_mem _ (rel.behind k less)
      have pc : ∀ k ∈ i :: copied, total done + k ∈ (total done + i) :: g.moved := by
        intro k member
        rcases List.mem_cons.1 member with rfl | member
        · exact List.mem_cons_self
        · exact List.mem_cons_of_mem _ (rel.pc.2 k member)
      split at here
      · -- to the disk
        rename_i dir
        obtain ⟨dev', stored, same⟩ := Option.map_eq_some_iff.1 here
        cases same
        obtain ⟨content_eq, size⟩ := content_memcpyTo stored
        have writes : g.job.writes = true := by
          rw [rel.job]
          exact decide_eq_true dir
        have goes : Flight.Tracks s.dev.size ⟨rq, offset, done, bvec :: rest, .memcpy (i :: copied)⟩
            ⟨g.job, g.bytes, (total done + i) :: g.moved⟩ :=
          ⟨rel.fits, rel.job, rel.bytes, rel.offset, rel.all, behind, List.cons_ne_nil _ _, pc⟩
        refine matched_step (.move p (total done + i)) _ trivial ?_
          (tracks.set content_eq.symm size (.some goes))
        simp only [Transfers.step, atU, dif_pos room, writes, if_true, byte, address,
          tracks.memory]
      · -- from the disk
        rename_i dir
        obtain ⟨b, loaded, same⟩ := Option.map_eq_some_iff.1 here
        cases same
        have value : u.memory (offset + i) = b := by
          rw [tracks.memory, content, List.getD_eq_getElem?_getD, loaded, Option.getD_some]
        have writes : g.job.writes = false := by
          rw [rel.job]
          exact decide_eq_false (by rw [dir]; decide)
        have all : total (done ++ bvec.set i b :: rest) = total rq.segments := by
          have before := rel.all
          have len : (bvec.set i b).bvLen = bvec.bvLen := List.length_set
          simp only [total_append, total_cons, len] at before ⊢
          exact before
        have goes : Flight.Tracks s.dev.size
            ⟨rq, offset, done, bvec.set i b :: rest, .memcpy (i :: copied)⟩
            ⟨g.job, g.bytes.set (total done + i) b, (total done + i) :: g.moved⟩ := by
          refine ⟨rel.fits, rel.job, ?_, rel.offset, all, behind, List.cons_ne_nil _ _, pc⟩
          rw [bytes]
          exact (payload_set done rest bvec inside b).symm
        refine matched_step (.move p (total done + i)) _ trivial ?_
          (tracks.set tracks.memory rfl (.some goes))
        simp only [Transfers.step, atU, dif_pos room, writes, Bool.false_eq_true, if_false, address,
          value]
    · cases here
  · cases next

/-- `memcpy` returns. -/
theorem copied_matched (tracks : s.Tracks u) {p : P} (next : step s (.copied p) = some t) :
    Matched initial t u (shown s (.copied p) t) := by
  simp only [step] at next
  split at next
  · rename_i rq offset done bvec rest copied at_
    split at next <;> cases next
    rename_i whole
    obtain ⟨g, atU, rel⟩ := tracks.some_ at_
    have within := rel.fits.2
    have start := rel.offset
    have all := rel.all
    have small := s.dev.size_lt
    simp only [total_append, total_cons] at all within start
    simp only [shown]
    refine matched_stutter (tracks.stutter atU ⟨rel.fits, rel.job, ?_, ?_, ?_, ?_, trivial⟩)
    · rw [rel.bytes, List.append_assoc, List.singleton_append]
    · simp only [total_append, total_cons, total_nil]
      rw [ulong_of_lt (by omega)]
      omega
    · rw [List.append_assoc, List.singleton_append]
      exact rel.all
    · intro i inside
      simp only [total_append, total_cons, total_nil, Nat.add_zero] at inside
      by_cases before : i < total done
      · exact rel.behind i before
      · have moved := rel.pc.2 (i - total done) (whole (i - total done) (by omega))
        rwa [Nat.add_sub_cancel' (Nat.not_lt.1 before)] at moved
  · cases next

/-- **One step.** -/
theorem step_matched {a : Action P} (tracks : s.Tracks u) (calm : Calm s a)
    (next : step s a = some t) : Matched initial t u (shown s a t) := by
  cases a with
  | queueRq p rq => exact queueRq_matched tracks calm next
  | run p => exact run_matched tracks next
  | copy p i => exact copy_matched tracks next
  | copied p => exact copied_matched tracks next

/-- The calls are transfers, byte by byte. -/
def transfers [Fintype P] (dev : BlkramDev) :
    Refinement ((system P dev).only Calm) shown
      ((Transfers.system (content dev)).only Transfers.Calm) Transfers.shown where
  Rel s u := s.Tracks u
  start := by
    rintro s rfl
    exact ⟨⟨content dev, fun _ => none⟩, rfl, rfl, fun _ => .none⟩
  step := by
    intro s u a t es tracks next
    obtain ⟨calm, moved⟩ := System.only_step.1 next
    exact step_matched tracks calm moved es

end

/-- **Concurrent requests are served one at a time.**  As long as what is handed over lies
within the disk and does not conflict with a request under way, blk-mq sees the requests
ended as on a plain array to and from which each of them is copied at one moment between
its begin and its end; none of them fails, and with none under way the disk holds the
array. -/
theorem blkram_linearizable [Fintype P] {dev : BlkramDev} {s : State P}
    {es : List (Transfers.Event P UInt8)}
    (reached : (((system P dev).only Calm).traced shown).Reachable (s, es)) :
    ∃ u : Transfers.Atomic P UInt8,
      ((Transfers.Atomic.system (content dev)).traced Transfers.Atomic.shown).Reachable (u, es) ∧
      ((∀ p, s.flight p = none) → u.memory = content s.dev) := by
  classical
  obtain ⟨u, reachedU, m, tracks, tracksU⟩ :=
    ((transfers dev).trans (Transfers.refinement (content dev))).reachable reached
  refine ⟨u, reachedU, ?_⟩
  intro idle
  rw [← tracks.memory]
  funext a
  refine (tracksU.same a fun p f at_ => ?_).symm
  rw [tracks.none_ (idle p)] at at_
  cases at_

/-- A request for the first two bytes of the disk. -/
def twoBytes (dir : DataDir) (x y : UInt8) : Request :=
  ⟨0, dir, false, [⟨[x, y], (by decide : 2 < 2 ^ 32)⟩], false, []⟩

/-- A write, then two reads at once, which copy their bytes in different orders. -/
def twoReads : List (Action Bool) :=
  [.queueRq true (twoBytes .write 7 8), .run true, .copy true 1, .copy true 0, .copied true,
    .run true, .run true,
    .queueRq true (twoBytes .read 0 0), .queueRq false (twoBytes .read 0 0), .run true, .run false,
    .copy true 0, .copy false 1, .copy true 1, .copy false 0, .copied true, .copied false,
    .run false, .run true, .run true, .run false]

def twoReadsShown : List (Transfers.Event Bool UInt8) :=
  [.began true ⟨true, 0, [7, 8]⟩, .ended true (some [7, 8]), .began true ⟨false, 0, [0, 0]⟩,
    .began false ⟨false, 0, [0, 0]⟩, .ended true (some [7, 8]), .ended false (some [7, 8])]

/-- A disk of two bytes. -/
theorem two_lt_two_pow : 2 < 2 ^ 64 := by decide

def twoByteDisk : BlkramDev := vzalloc 2 two_lt_two_pow

theorem blkram_linearizable_reads : ∃ s : State Bool,
    (((system Bool twoByteDisk).only Calm).traced shown).Reachable (s, twoReadsShown) ∧
    ∃ u : Transfers.Atomic Bool UInt8, ((Transfers.Atomic.system (content twoByteDisk)).traced
        Transfers.Atomic.shown).Reachable (u, twoReadsShown) ∧
      ((∀ p, s.flight p = none) → u.memory = content s.dev) := by
  have ends : ((((system Bool twoByteDisk).only Calm).traced shown).run
      (⟨twoByteDisk, fun _ => none⟩, []) twoReads).map Prod.snd = some twoReadsShown := by decide
  obtain ⟨⟨s, es⟩, ran, same⟩ := Option.map_eq_some_iff.1 ends
  obtain rfl : es = twoReadsShown := same
  have reached : (((system Bool twoByteDisk).only Calm).traced shown).Reachable
      (s, twoReadsShown) := ⟨(⟨twoByteDisk, fun _ => none⟩, []), twoReads, ⟨rfl, rfl⟩, ran⟩
  exact ⟨s, reached, blkram_linearizable reached⟩

/-- Two writes of the same bytes at once. -/
def twoWrites : List (Action Bool) :=
  [.queueRq true (twoBytes .write 1 1), .queueRq false (twoBytes .write 2 2), .run true,
    .run false, .copy true 0, .copy false 0, .copy false 1, .copy true 1, .copied true,
    .copied false, .run false, .run true, .run true, .run false]

/-- Where requests conflict, the disk is left with a part of each. -/
theorem blkram_torn : ∃ s : State Bool, (system Bool twoByteDisk).Reachable s ∧
    (∀ p, s.flight p = none) ∧ s.dev.data = [2, 1] := by
  have ends : ((system Bool twoByteDisk).run ⟨twoByteDisk, fun _ => none⟩ twoWrites).map
      (fun s => (s.dev.data, (s.flight true).isNone, (s.flight false).isNone)) =
      some ([2, 1], true, true) := by decide
  obtain ⟨s, ran, same⟩ := Option.map_eq_some_iff.1 ends
  simp only [Prod.mk.injEq, Option.isNone_iff_eq_none] at same
  obtain ⟨data, first, second⟩ := same
  refine ⟨s, ⟨_, twoWrites, rfl, ran⟩, ?_, data⟩
  intro p
  cases p with
  | true => exact first
  | false => exact second

end Lkmpg.Blkram
