/-
# Lkmpg.Theory.Transfers -- transfers between a memory and private buffers

A transfer writes its buffer to a range of the memory, or fills it from there, one cell
after the other in any order.  Any number of them are under way at once.

As long as none is begun that conflicts with one under way (one of the two writes, and
their ranges meet), each of them is done at one moment: `refinement` relates the cells that
have been written to an array that does not have them yet, and gives it all of a
transfer when the last cell is done.
-/
import Lkmpg.Theory.Traced
import Mathlib.Data.Fintype.Defs
import Mathlib.Logic.Function.Basic

namespace Lkmpg.Theory.Transfers

set_option autoImplicit false

universe u v

variable {P : Type u} {β : Type v}

/-! ## Transfers -/

structure Transfer (β : Type v) where
  writes : Bool
  start : Nat
  bytes : List β
  deriving DecidableEq

namespace Transfer

/-- One of the two writes, and their ranges meet. -/
def Conflicts (t u : Transfer β) : Prop :=
  (t.writes ∨ u.writes) ∧ t.start < u.start + u.bytes.length ∧ u.start < t.start + t.bytes.length

instance (t u : Transfer β) : Decidable (t.Conflicts u) :=
  inferInstanceAs (Decidable (_ ∧ _ ∧ _))

theorem Conflicts.symm {t u : Transfer β} (conflicts : t.Conflicts u) : u.Conflicts t :=
  ⟨conflicts.1.symm, conflicts.2.2, conflicts.2.1⟩

/-- A cell of each range is another one. -/
theorem apart {t u : Transfer β} (calm : ¬ t.Conflicts u) (writes : t.writes ∨ u.writes)
    {i j : Nat} (i_lt : i < t.bytes.length) (j_lt : j < u.bytes.length) :
    t.start + i ≠ u.start + j := by
  intro same
  exact calm ⟨writes, by omega, by omega⟩

end Transfer

inductive Event (P : Type u) (β : Type v) where
  | began (p : P) (t : Transfer β)
  /-- The transfer has ended with its buffer, or it has failed. -/
  | ended (p : P) (bytes : Option (List β))
  deriving DecidableEq

/-! ## Cell by cell -/

/-- A transfer under way: its buffer, and the cells that have been copied. -/
structure Flight (β : Type v) where
  job : Transfer β
  bytes : List β
  moved : List Nat

structure State (P : Type u) (β : Type v) where
  memory : Nat → β
  flight : P → Option (Flight β)

inductive Act (P : Type u) (β : Type v) where
  | begin (p : P) (t : Transfer β)
  | move (p : P) (i : Nat)
  | finish (p : P)

variable [DecidableEq P]

def State.set (s : State P β) (p : P) (f : Option (Flight β)) : State P β :=
  { s with flight := Function.update s.flight p f }

def step (s : State P β) : Act P β → Option (State P β)
  | .begin p t =>
      match s.flight p with
      | none => some (s.set p (some ⟨t, t.bytes, []⟩))
      | some _ => none
  | .move p i =>
      match s.flight p with
      | some ⟨job, bytes, moved⟩ =>
          if inside : i < bytes.length then
            some (if job.writes then
              { s with memory := Function.update s.memory (job.start + i) bytes[i] }.set p
                (some ⟨job, bytes, i :: moved⟩)
            else s.set p (some ⟨job, bytes.set i (s.memory (job.start + i)), i :: moved⟩))
          else none
      | none => none
  | .finish p =>
      match s.flight p with
      | some f => if ∀ i < f.bytes.length, i ∈ f.moved then some (s.set p none) else none
      | none => none

def system (memory : Nat → β) : System (State P β) (Act P β) where
  Start s := s = ⟨memory, fun _ => none⟩
  step := step

omit [DecidableEq P] in
def shown (s : State P β) (act : Act P β) (_ : State P β) : List (Event P β) :=
  match act with
  | .begin p t => [.began p t]
  | .move _ _ => []
  | .finish p => [.ended p ((s.flight p).map Flight.bytes)]

omit [DecidableEq P] in
/-- No transfer is begun that conflicts with one under way. -/
def Calm (s : State P β) : Act P β → Prop
  | .begin _ t => ∀ q f, s.flight q = some f → ¬ t.Conflicts f.job
  | .move _ _ | .finish _ => True

/-! ## At one moment -/

/-- A transfer that waits for its moment, or has had it. -/
inductive Call (β : Type v) where
  | waiting (t : Transfer β)
  | served (bytes : List β)

structure Atomic (P : Type u) (β : Type v) where
  memory : Nat → β
  call : P → Option (Call β)

namespace Atomic

inductive Act (P : Type u) (β : Type v) where
  | begin (p : P) (t : Transfer β)
  | serve (p : P)
  | finish (p : P)

def set (s : Atomic P β) (p : P) (c : Option (Call β)) : Atomic P β :=
  { s with call := Function.update s.call p c }

/-- The memory with the bytes from `start` on. -/
def written (memory : Nat → β) (start : Nat) (bytes : List β) (a : Nat) : β :=
  if start ≤ a then (bytes[a - start]?).getD (memory a) else memory a

def read (memory : Nat → β) (start n : Nat) : List β :=
  (List.range n).map fun i => memory (start + i)

def step (s : Atomic P β) : Act P β → Option (Atomic P β)
  | .begin p t =>
      match s.call p with
      | none => some (s.set p (some (.waiting t)))
      | some _ => none
  | .serve p =>
      match s.call p with
      | some (.waiting t) =>
          some (if t.writes then
            { s with memory := written s.memory t.start t.bytes }.set p (some (.served t.bytes))
          else s.set p (some (.served (read s.memory t.start t.bytes.length))))
      | _ => none
  | .finish p =>
      match s.call p with
      | some (.served _) => some (s.set p none)
      | _ => none

def system (memory : Nat → β) : System (Atomic P β) (Act P β) where
  Start s := s = ⟨memory, fun _ => none⟩
  step := step

omit [DecidableEq P] in
def shown (s : Atomic P β) (act : Act P β) (_ : Atomic P β) : List (Event P β) :=
  match act with
  | .begin p t => [.began p t]
  | .serve _ => []
  | .finish p =>
      match s.call p with
      | some (.served bytes) => [.ended p (some bytes)]
      | _ => []

omit [DecidableEq P] in
theorem written_inside {memory : Nat → β} {start i : Nat} {bytes : List β}
    (inside : i < bytes.length) : written memory start bytes (start + i) = bytes[i] := by
  rw [written, if_pos (Nat.le_add_right _ _), Nat.add_sub_cancel_left,
    List.getElem?_eq_getElem inside, Option.getD_some]

omit [DecidableEq P] in
theorem written_outside {memory : Nat → β} {start a : Nat} {bytes : List β}
    (outside : ∀ i < bytes.length, a ≠ start + i) : written memory start bytes a = memory a := by
  unfold written
  split
  · rename_i above
    have past : bytes.length ≤ a - start := by
      by_contra inside
      exact outside (a - start) (by omega) (by omega)
    rw [List.getElem?_eq_none past, Option.getD_none]
  · rfl

theorem set_set (s : Atomic P β) (p : P) (c c' : Option (Call β)) :
    (s.set p c).set p c' = s.set p c' := by
  simp only [set, Function.update_idem]

/-- A transfer has its moment, and ends at once. -/
theorem serve_finish {s : Atomic P β} {p : P} {initial memory : Nat → β} {bytes : List β}
    (served : s.step (.serve p) = some ({ s with memory := memory }.set p (some (.served bytes))))
    (es : List (Event P β)) :
    ((system initial).traced shown).run (s, es) [.serve p, .finish p] =
      some ({ s with memory := memory }.set p none, es ++ [.ended p (some bytes)]) := by
  have first : (system initial).step s (.serve p) =
      some ({ s with memory := memory }.set p (some (.served bytes))) := served
  have at_ : ({ s with memory := memory }.set p (some (.served bytes))).call p =
      some (.served bytes) := Function.update_self ..
  have second : (system initial).step ({ s with memory := memory }.set p (some (.served bytes)))
      (.finish p) = some ({ s with memory := memory }.set p none) := by
    simp only [system, step, at_, set_set]
  simp only [System.run, System.traced_step first, System.traced_step second, Option.bind_some,
    shown, at_, List.append_nil]

end Atomic

/-! ## The refinement -/

theorem flight_set {s : State P β} {p q : P} {x : Option (Flight β)} {f : Flight β} :
    (s.set p x).flight q = some f ↔ (q = p ∧ x = some f) ∨ (q ≠ p ∧ s.flight q = some f) := by
  by_cases same : q = p
  · subst same
    simp [State.set]
  · simp [State.set, same]

omit [DecidableEq P] in
/-- The cells that have been written are those of the transfers under way; the others are
as the atomic memory has them, and so is what has been read. -/
structure Tracks (s : State P β) (u : Atomic P β) : Prop where
  calm : ∀ p q f g, p ≠ q → s.flight p = some f → s.flight q = some g → ¬ f.job.Conflicts g.job
  call : ∀ p, u.call p = (s.flight p).map fun f => .waiting f.job
  moved : ∀ p f, s.flight p = some f → ∀ i ∈ f.moved, i < f.job.bytes.length
  length : ∀ p f, s.flight p = some f → f.bytes.length = f.job.bytes.length
  source : ∀ p f, s.flight p = some f → f.job.writes → f.bytes = f.job.bytes
  stored : ∀ p f, s.flight p = some f → f.job.writes → ∀ i ∈ f.moved,
    f.job.bytes[i]? = some (s.memory (f.job.start + i))
  loaded : ∀ p f, s.flight p = some f → f.job.writes = false → ∀ i ∈ f.moved,
    f.bytes[i]? = some (u.memory (f.job.start + i))
  same : ∀ a, (∀ p f, s.flight p = some f → f.job.writes → ∀ i ∈ f.moved, a ≠ f.job.start + i) →
    s.memory a = u.memory a

namespace Tracks

variable {s : State P β} {u : Atomic P β} {p : P}

theorem begin (tracks : Tracks s u) {t : Transfer β} (idle : s.flight p = none)
    (calm : ∀ q f, s.flight q = some f → ¬ t.Conflicts f.job) :
    Tracks (s.set p (some ⟨t, t.bytes, []⟩)) (u.set p (some (.waiting t))) where
  calm q r f g ne atQ atR := by
    rcases flight_set.1 atQ with ⟨rfl, new⟩ | ⟨_, oldQ⟩ <;>
      rcases flight_set.1 atR with ⟨rfl, new'⟩ | ⟨_, oldR⟩
    · exact absurd rfl ne
    · cases new
      exact calm r g oldR
    · cases new'
      exact fun conflicts => calm q f oldQ conflicts.symm
    · exact tracks.calm q r f g ne oldQ oldR
  call q := by
    by_cases same : q = p
    · subst same
      simp [State.set, Atomic.set]
    · simp [State.set, Atomic.set, same, tracks.call q]
  moved q f at_ i member := by
    rcases flight_set.1 at_ with ⟨rfl, new⟩ | ⟨_, old⟩
    · cases new
      cases member
    · exact tracks.moved q f old i member
  length q f at_ := by
    rcases flight_set.1 at_ with ⟨rfl, new⟩ | ⟨_, old⟩
    · cases new
      rfl
    · exact tracks.length q f old
  source q f at_ writes := by
    rcases flight_set.1 at_ with ⟨rfl, new⟩ | ⟨_, old⟩
    · cases new
      rfl
    · exact tracks.source q f old writes
  stored q f at_ writes i member := by
    rcases flight_set.1 at_ with ⟨rfl, new⟩ | ⟨_, old⟩
    · cases new
      cases member
    · exact tracks.stored q f old writes i member
  loaded q f at_ reads i member := by
    rcases flight_set.1 at_ with ⟨rfl, new⟩ | ⟨_, old⟩
    · cases new
      cases member
    · exact tracks.loaded q f old reads i member
  same a others := by
    refine tracks.same a fun q f at_ writes i member => ?_
    by_cases same : q = p
    · subst same
      cases idle.symm.trans at_
    · exact others q f (flight_set.2 (.inr ⟨same, at_⟩)) writes i member

/-- The transfer of `p` goes on, with the same job. -/
theorem going (tracks : Tracks s u) {f : Flight β} (at_ : s.flight p = some f)
    (f' : Flight β) (job : f'.job = f.job) : (∀ q r g h, q ≠ r → (s.set p (some f')).flight q = some g →
      (s.set p (some f')).flight r = some h → ¬ g.job.Conflicts h.job) ∧
    ∀ q, u.call q = ((s.set p (some f')).flight q).map fun f => .waiting f.job := by
  refine ⟨?_, ?_⟩
  · intro q r g h ne atQ atR
    rcases flight_set.1 atQ with ⟨rfl, new⟩ | ⟨_, oldQ⟩ <;>
      rcases flight_set.1 atR with ⟨rfl, new'⟩ | ⟨_, oldR⟩
    · exact absurd rfl ne
    · cases new
      rw [job]
      exact tracks.calm q r f h ne at_ oldR
    · cases new'
      rw [job]
      exact tracks.calm q r g f ne oldQ at_
    · exact tracks.calm q r g h ne oldQ oldR
  · intro q
    rw [tracks.call q]
    by_cases same : q = p
    · subst same
      simp [State.set, at_, job]
    · simp [State.set, same]

/-- A cell is written. -/
theorem write (tracks : Tracks s u) {f : Flight β} (at_ : s.flight p = some f)
    (writes : f.job.writes) {i : Nat} (inside : i < f.bytes.length) :
    Tracks ({ s with memory := Function.update s.memory (f.job.start + i) f.bytes[i] }.set p
      (some ⟨f.job, f.bytes, i :: f.moved⟩)) u where
  calm := (tracks.going at_ ⟨f.job, f.bytes, i :: f.moved⟩ rfl).1
  call := (tracks.going at_ ⟨f.job, f.bytes, i :: f.moved⟩ rfl).2
  moved q g atQ k member := by
    rcases flight_set.1 atQ with ⟨rfl, new⟩ | ⟨_, old⟩
    · cases new
      rcases List.mem_cons.1 member with rfl | member
      · rw [← tracks.length q f at_]
        exact inside
      · exact tracks.moved q f at_ k member
    · exact tracks.moved q g old k member
  length q g atQ := by
    rcases flight_set.1 atQ with ⟨rfl, new⟩ | ⟨_, old⟩
    · cases new
      exact tracks.length q f at_
    · exact tracks.length q g old
  source q g atQ writesQ := by
    rcases flight_set.1 atQ with ⟨rfl, new⟩ | ⟨_, old⟩
    · cases new
      exact tracks.source q f at_ writes
    · exact tracks.source q g old writesQ
  stored q g atQ writesQ k member := by
    have bytes := tracks.source p f at_ writes
    have elsewhere {a : Nat} (other : a ≠ f.job.start + i) :
        Function.update s.memory (f.job.start + i) f.bytes[i] a = s.memory a :=
      Function.update_of_ne other ..
    rcases flight_set.1 atQ with ⟨rfl, new⟩ | ⟨ne, old⟩
    · cases new
      by_cases same : k = i
      · subst same
        simp only [State.set, Function.update_self]
        rw [← bytes, List.getElem?_eq_getElem inside]
      · have earlier := (List.mem_cons.1 member).resolve_left same
        simp only [State.set]
        rw [elsewhere (by omega)]
        exact tracks.stored q f at_ writes k earlier
    · have apart := Transfer.apart (tracks.calm q p g f ne old at_) (.inl writesQ)
        (tracks.moved q g old k member) (tracks.length p f at_ ▸ inside)
      simp only [State.set]
      rw [elsewhere apart]
      exact tracks.stored q g old writesQ k member
  loaded q g atQ reads k member := by
    rcases flight_set.1 atQ with ⟨rfl, new⟩ | ⟨_, old⟩
    · cases new
      rw [writes] at reads
      cases reads
    · exact tracks.loaded q g old reads k member
  same a others := by
    have here : a ≠ f.job.start + i :=
      others p _ (flight_set.2 (.inl ⟨rfl, rfl⟩)) writes i List.mem_cons_self
    simp only [State.set]
    rw [Function.update_of_ne here]
    refine tracks.same a fun q g atQ writesQ k member => ?_
    by_cases same : q = p
    · subst same
      cases at_.symm.trans atQ
      exact others q _ (flight_set.2 (.inl ⟨rfl, rfl⟩)) writes k (List.mem_cons_of_mem _ member)
    · exact others q g (flight_set.2 (.inr ⟨same, atQ⟩)) writesQ k member

/-- A cell is read: nobody has written it since the transfer began. -/
theorem read (tracks : Tracks s u) {f : Flight β} (at_ : s.flight p = some f)
    (reads : f.job.writes = false) {i : Nat} (inside : i < f.bytes.length) :
    Tracks (s.set p
      (some ⟨f.job, f.bytes.set i (s.memory (f.job.start + i)), i :: f.moved⟩)) u where
  calm := (tracks.going at_ ⟨f.job, f.bytes.set i _, i :: f.moved⟩ rfl).1
  call := (tracks.going at_ ⟨f.job, f.bytes.set i _, i :: f.moved⟩ rfl).2
  moved q g atQ k member := by
    rcases flight_set.1 atQ with ⟨rfl, new⟩ | ⟨_, old⟩
    · cases new
      rcases List.mem_cons.1 member with rfl | member
      · rw [← tracks.length q f at_]
        exact inside
      · exact tracks.moved q f at_ k member
    · exact tracks.moved q g old k member
  length q g atQ := by
    rcases flight_set.1 atQ with ⟨rfl, new⟩ | ⟨_, old⟩
    · cases new
      exact List.length_set.trans (tracks.length q f at_)
    · exact tracks.length q g old
  source q g atQ writesQ := by
    rcases flight_set.1 atQ with ⟨rfl, new⟩ | ⟨_, old⟩
    · cases new
      rw [reads] at writesQ
      cases writesQ
    · exact tracks.source q g old writesQ
  stored q g atQ writesQ k member := by
    rcases flight_set.1 atQ with ⟨rfl, new⟩ | ⟨_, old⟩
    · cases new
      rw [reads] at writesQ
      cases writesQ
    · exact tracks.stored q g old writesQ k member
  loaded q g atQ readsQ k member := by
    rcases flight_set.1 atQ with ⟨rfl, new⟩ | ⟨_, old⟩
    · cases new
      by_cases same : k = i
      · subst same
        rw [List.getElem?_set_self inside]
        refine congrArg some (tracks.same _ ?_)
        intro r h atR writesR j written
        have ne : q ≠ r := by
          rintro rfl
          cases at_.symm.trans atR
          rw [reads] at writesR
          cases writesR
        exact Transfer.apart (tracks.calm q r f h ne at_ atR) (.inr writesR)
          (tracks.length q f at_ ▸ inside) (tracks.moved r h atR j written)
      · rw [List.getElem?_set_ne (Ne.symm same)]
        exact tracks.loaded q f at_ reads k ((List.mem_cons.1 member).resolve_left same)
    · exact tracks.loaded q g old readsQ k member
  same a others := by
    refine tracks.same a fun q g atQ writesQ k member => ?_
    by_cases same : q = p
    · subst same
      cases at_.symm.trans atQ
      rw [reads] at writesQ
      cases writesQ
    · exact others q g (flight_set.2 (.inr ⟨same, atQ⟩)) writesQ k member

/-- The transfer of `p` is over, and the atomic memory is `memory` now. -/
theorem ended (tracks : Tracks s u) {f : Flight β} (at_ : s.flight p = some f)
    {memory : Nat → β}
    (apart : ∀ q g, q ≠ p → s.flight q = some g → g.job.writes = false →
      ∀ i < g.job.bytes.length, memory (g.job.start + i) = u.memory (g.job.start + i))
    (same : ∀ a, (∀ q g, q ≠ p → s.flight q = some g → g.job.writes → ∀ i ∈ g.moved,
      a ≠ g.job.start + i) → s.memory a = memory a) :
    Tracks (s.set p none) ({ u with memory := memory }.set p none) where
  calm q r g h ne atQ atR := by
    obtain ⟨_, oldQ⟩ := (flight_set.1 atQ).resolve_left (fun new => by cases new.2)
    obtain ⟨_, oldR⟩ := (flight_set.1 atR).resolve_left (fun new => by cases new.2)
    exact tracks.calm q r g h ne oldQ oldR
  call q := by
    by_cases mine : q = p
    · subst mine
      simp [State.set, Atomic.set]
    · simp [State.set, Atomic.set, mine, tracks.call q]
  moved q g atQ := by
    obtain ⟨_, old⟩ := (flight_set.1 atQ).resolve_left (fun new => by cases new.2)
    exact tracks.moved q g old
  length q g atQ := by
    obtain ⟨_, old⟩ := (flight_set.1 atQ).resolve_left (fun new => by cases new.2)
    exact tracks.length q g old
  source q g atQ := by
    obtain ⟨_, old⟩ := (flight_set.1 atQ).resolve_left (fun new => by cases new.2)
    exact tracks.source q g old
  stored q g atQ := by
    obtain ⟨_, old⟩ := (flight_set.1 atQ).resolve_left (fun new => by cases new.2)
    exact tracks.stored q g old
  loaded q g atQ reads i member := by
    obtain ⟨ne, old⟩ := (flight_set.1 atQ).resolve_left (fun new => by cases new.2)
    rw [tracks.loaded q g old reads i member]
    exact congrArg some (apart q g ne old reads i (tracks.moved q g old i member)).symm
  same a others := by
    refine same a fun q g ne atQ writes i member => ?_
    exact others q g (flight_set.2 (.inr ⟨ne, atQ⟩)) writes i member

/-- A transfer that has written all its cells. -/
theorem written (tracks : Tracks s u) {f : Flight β} (at_ : s.flight p = some f)
    (writes : f.job.writes) (all : ∀ i < f.bytes.length, i ∈ f.moved) :
    Tracks (s.set p none)
      ({ u with memory := Atomic.written u.memory f.job.start f.job.bytes }.set p none) := by
  refine tracks.ended at_ ?_ ?_
  · intro q g ne atQ reads i inside
    refine Atomic.written_outside fun j insideP => ?_
    exact Transfer.apart (tracks.calm q p g f ne atQ at_) (.inr writes) inside insideP
  · intro a others
    by_cases mine : ∃ i, i < f.job.bytes.length ∧ a = f.job.start + i
    · obtain ⟨i, inside, rfl⟩ := mine
      have stored := tracks.stored p f at_ writes i (all i (tracks.length p f at_ ▸ inside))
      rw [List.getElem?_eq_getElem inside] at stored
      rw [Atomic.written_inside inside]
      exact (Option.some.inj stored).symm
    · have outside : ∀ i < f.job.bytes.length, a ≠ f.job.start + i :=
        fun i inside same => mine ⟨i, inside, same⟩
      rw [Atomic.written_outside outside]
      refine tracks.same a fun q g atQ writesQ i member => ?_
      by_cases same : q = p
      · subst same
        cases at_.symm.trans atQ
        exact outside i (tracks.moved q f at_ i member)
      · exact others q g same atQ writesQ i member

theorem read_ended (tracks : Tracks s u) {f : Flight β} (at_ : s.flight p = some f)
    (reads : f.job.writes = false) : Tracks (s.set p none) (u.set p none) := by
  refine tracks.ended at_ (fun _ _ _ _ _ _ _ => rfl) fun a others => ?_
  refine tracks.same a fun q g atQ writes i member => ?_
  by_cases same : q = p
  · subst same
    cases at_.symm.trans atQ
    rw [reads] at writes
    cases writes
  · exact others q g same atQ writes i member

omit [DecidableEq P] in
/-- What a transfer has that has read all its cells. -/
theorem bytes (tracks : Tracks s u) {f : Flight β} (at_ : s.flight p = some f)
    (reads : f.job.writes = false) (all : ∀ i < f.bytes.length, i ∈ f.moved) :
    f.bytes = Atomic.read u.memory f.job.start f.job.bytes.length := by
  have length := tracks.length p f at_
  apply List.ext_getElem?
  intro i
  by_cases inside : i < f.bytes.length
  · rw [tracks.loaded p f at_ reads i (all i inside), Atomic.read, List.getElem?_map,
      List.getElem?_range (length ▸ inside), Option.map_some]
  · rw [List.getElem?_eq_none (Nat.not_lt.1 inside), List.getElem?_eq_none]
    rw [Atomic.read, List.length_map, List.length_range, ← length]
    exact Nat.not_lt.1 inside

end Tracks

/-- **One step.** -/
theorem step_matched {s t : State P β} {u : Atomic P β} {act : Act P β} (tracks : Tracks s u)
    (calm : Calm s act) (next : step s act = some t) {memory : Nat → β}
    (es : List (Event P β)) :
    ∃ acts u', ((Atomic.system memory).traced Atomic.shown).run (u, es) acts =
      some (u', es ++ shown s act t) ∧ Tracks t u' := by
  have call := tracks.call
  cases act with
  | begin p job =>
      simp only [step] at next
      split at next <;> cases next
      rename_i idle
      refine ⟨[.begin p job], _, ?_, tracks.begin idle calm⟩
      simp only [System.run, System.traced, Atomic.system, Atomic.step, call p, idle,
        Option.map_none, Option.map_some, Option.bind_some, Atomic.shown, shown]
  | move p i =>
      simp only [step] at next
      split at next
      · rename_i job bytes moved at_
        split at next <;> cases next
        rename_i inside
        refine ⟨[], u, ?_, ?_⟩
        · simp only [System.run, shown, List.append_nil]
        · cases writes : job.writes with
          | true =>
              simp only [if_true]
              exact tracks.write at_ writes inside
          | false =>
              simp only [Bool.false_eq_true, if_false]
              exact tracks.read at_ writes inside
      · cases next
  | finish p =>
      simp only [step] at next
      split at next
      · rename_i f at_
        split at next <;> cases next
        rename_i all
        have waits : u.call p = some (.waiting f.job) := by rw [call p, at_, Option.map_some]
        simp only [shown, at_, Option.map_some]
        cases writes : f.job.writes with
        | true =>
            have served : u.step (.serve p) = some ({ u with
                memory := Atomic.written u.memory f.job.start f.job.bytes }.set p
                (some (.served f.job.bytes))) := by
              simp only [Atomic.step, waits, writes, if_true]
            rw [tracks.source p f at_ writes]
            exact ⟨_, _, Atomic.serve_finish served es, tracks.written at_ writes all⟩
        | false =>
            have bytes := tracks.bytes at_ writes all
            have served : u.step (.serve p) =
                some ({ u with memory := u.memory }.set p (some (.served f.bytes))) := by
              simp only [Atomic.step, waits, writes, Bool.false_eq_true, if_false, bytes]
            refine ⟨_, _, Atomic.serve_finish served es, tracks.read_ended at_ writes⟩
      · cases next

/-- Transfers of which none conflicts with another are each done at one moment. -/
def refinement [∀ (s : State P β) (act : Act P β), Decidable (Calm s act)] (memory : Nat → β) :
    Refinement ((system memory).only (Calm (P := P))) shown (Atomic.system memory) Atomic.shown where
  Rel := Tracks
  start := by
    rintro s rfl
    refine ⟨⟨memory, fun _ => none⟩, rfl, ?_⟩
    exact ⟨nofun, fun _ => rfl, nofun, nofun, nofun, nofun, nofun, fun _ _ => rfl⟩
  step := by
    intro s u act t es tracks next
    obtain ⟨calm, moved⟩ := System.only_step.1 next
    exact step_matched tracks calm moved es

end Lkmpg.Theory.Transfers
