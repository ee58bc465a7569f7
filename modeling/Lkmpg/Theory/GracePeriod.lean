/-
# Lkmpg.Theory.GracePeriod -- objects that are read without a lock

One object at a time is published.  Readers enter a section, get the published
object there and leave.  A writer publishes a new object and so has the old one in
its hands: it waits until every section that had begun at the wait has ended, and
releases the object.

`Sound` ties a retired object to one writer, and to the readers that may still have
it: a reader got it before the wait began.  So the release finds no reader with it
(`Sound.step`).
-/
import Lkmpg.Theory.System
import Mathlib.Data.List.Nodup
import Mathlib.Logic.Function.Basic

namespace Lkmpg.Theory.GracePeriod

set_option autoImplicit false

universe u v

/-- How far a writer is with the object it has. -/
inductive Stage where
  /-- It has not been published. -/
  | fresh
  /-- It is not published any more. -/
  | retired
  /-- The writer waits for the sections with a number below the limit. -/
  | waiting (limit : Nat)
  /-- The wait is over. -/
  | over
  deriving DecidableEq

structure State (W : Type u) (R : Type v) where
  published : Option Nat
  /-- The next object to be created. -/
  next : Nat
  /-- The objects released, the last one first. -/
  released : List Nat
  /-- The number the next section gets. -/
  clock : Nat
  /-- The section a reader is in, and the object it got there. -/
  reader : R → Option (Nat × Option Nat)
  /-- The object a writer has. -/
  writer : W → Option (Nat × Stage)

variable {W : Type u} {R : Type v}

/-- The reader has the object `a`, in the section `n`. -/
def State.Reads (s : State W R) (r : R) (n a : Nat) : Prop := s.reader r = some (n, some a)

structure Sound (s : State W R) : Prop where
  publishedKnown : ∀ a, s.published = some a → a < s.next
  writerKnown : ∀ w a stage, s.writer w = some (a, stage) → a < s.next
  releasedKnown : ∀ a ∈ s.released, a < s.next
  once : s.released.Nodup
  publishedLive : ∀ a, s.published = some a → a ∉ s.released
  writerLive : ∀ w a stage, s.writer w = some (a, stage) → a ∉ s.released
  /-- What a writer has is not published, and no other writer has it. -/
  withdrawn : ∀ w a stage, s.writer w = some (a, stage) → s.published ≠ some a
  unique : ∀ w w' a stage stage', s.writer w = some (a, stage) →
    s.writer w' = some (a, stage') → w = w'
  numbered : ∀ r n got, s.reader r = some (n, got) → n < s.clock
  /-- What a reader has is published, or retired with no wait that began before the
  section. -/
  reads : ∀ r n a, s.Reads r n a → s.published = some a ∨
    ∃ w, s.writer w = some (a, .retired) ∨
      ∃ limit, s.writer w = some (a, .waiting limit) ∧ n < limit

variable [DecidableEq W] [DecidableEq R]

inductive Step (s : State W R) : State W R → Prop where
  | create (w : W) (idle : s.writer w = none) : Step s { s with
      next := s.next + 1
      writer := Function.update s.writer w (some (s.next, .fresh)) }
  /-- The writer publishes its new object, or none, and has the old one, if there was
  one. -/
  | swap (w : W) (new : Option Nat) (has : s.writer w = new.map fun a => (a, .fresh)) :
      Step s { s with
        published := new
        writer := Function.update s.writer w (s.published.map fun a => (a, .retired)) }
  | wait (w : W) (a : Nat) (has : s.writer w = some (a, .retired)) : Step s { s with
      writer := Function.update s.writer w (some (a, .waiting s.clock)) }
  | pass (w : W) (a limit : Nat) (has : s.writer w = some (a, .waiting limit))
      (quiet : ∀ r n got, s.reader r = some (n, got) → limit ≤ n) : Step s { s with
        writer := Function.update s.writer w (some (a, .over)) }
  | release (w : W) (a : Nat) (has : s.writer w = some (a, .over)) : Step s { s with
      released := a :: s.released
      writer := Function.update s.writer w none }
  | enter (r : R) (outside : s.reader r = none) : Step s { s with
      clock := s.clock + 1
      reader := Function.update s.reader r (some (s.clock, none)) }
  | get (r : R) (n : Nat) (inside : s.reader r = some (n, none)) : Step s { s with
      reader := Function.update s.reader r (some (n, s.published)) }
  | leave (r : R) : Step s { s with reader := Function.update s.reader r none }

namespace Sound

variable {s t : State W R}

omit [DecidableEq W] [DecidableEq R] in
theorem start : Sound (⟨none, 0, [], 0, fun _ => none, fun _ => none⟩ : State W R) where
  publishedKnown := by simp
  writerKnown := by simp
  releasedKnown := by simp
  once := List.nodup_nil
  publishedLive := by simp
  writerLive := by simp
  withdrawn := by simp
  unique := by simp
  numbered := by simp
  reads := by simp [State.Reads]

omit [DecidableEq W] [DecidableEq R] in
/-- No reader has a released object. -/
theorem readerLive (sound : Sound s) {r : R} {n a : Nat} (reads : s.Reads r n a) :
    a ∉ s.released := by
  rcases sound.reads r n a reads with published | ⟨w, retired | ⟨limit, waiting, -⟩⟩
  · exact sound.publishedLive a published
  · exact sound.writerLive w a _ retired
  · exact sound.writerLive w a _ waiting

omit [DecidableEq W] [DecidableEq R] in
theorem next_not_released (sound : Sound s) : s.next ∉ s.released :=
  fun member => Nat.lt_irrefl _ (sound.releasedKnown _ member)

/-- A writer's entry after an update: its own new one, or an old one of another. -/
theorem update_writer {h : W → Option (Nat × Stage)} {w v : W} {x : Option (Nat × Stage)}
    {a : Nat} {stage : Stage} : Function.update h w x v = some (a, stage) ↔
      (v = w ∧ x = some (a, stage)) ∨ (v ≠ w ∧ h v = some (a, stage)) := by
  by_cases same : v = w
  · subst same
    simp
  · simp [same]

theorem update_reader {h : R → Option (Nat × Option Nat)} {r q : R}
    {x : Option (Nat × Option Nat)} {n : Nat} {got : Option Nat} :
    Function.update h r x q = some (n, got) ↔
      (q = r ∧ x = some (n, got)) ∨ (q ≠ r ∧ h q = some (n, got)) := by
  by_cases same : q = r
  · subst same
    simp
  · simp [same]

omit [DecidableEq R] in
theorem create (sound : Sound s) {w : W} (idle : s.writer w = none) : Sound { s with
    next := s.next + 1
    writer := Function.update s.writer w (some (s.next, .fresh)) } where
  publishedKnown a published := Nat.lt_succ_of_lt (sound.publishedKnown a published)
  writerKnown v a stage has := by
    rcases update_writer.1 has with ⟨-, new⟩ | ⟨-, old⟩
    · cases new
      exact Nat.lt_succ_self _
    · exact Nat.lt_succ_of_lt (sound.writerKnown v a stage old)
  releasedKnown a member := Nat.lt_succ_of_lt (sound.releasedKnown a member)
  once := sound.once
  publishedLive := sound.publishedLive
  writerLive v a stage has := by
    rcases update_writer.1 has with ⟨-, new⟩ | ⟨-, old⟩
    · cases new
      exact sound.next_not_released
    · exact sound.writerLive v a stage old
  withdrawn v a stage has published := by
    rcases update_writer.1 has with ⟨-, new⟩ | ⟨-, old⟩
    · cases new
      exact Nat.lt_irrefl _ (sound.publishedKnown _ published)
    · exact sound.withdrawn v a stage old published
  unique v v' a stage stage' has has' := by
    rcases update_writer.1 has with ⟨rfl, new⟩ | ⟨-, old⟩ <;>
      rcases update_writer.1 has' with ⟨rfl, new'⟩ | ⟨-, old'⟩
    · rfl
    · cases new
      exact absurd (sound.writerKnown _ _ _ old') (Nat.lt_irrefl _)
    · cases new'
      exact absurd (sound.writerKnown _ _ _ old) (Nat.lt_irrefl _)
    · exact sound.unique v v' a stage stage' old old'
  numbered := sound.numbered
  reads r n a got := by
    have other : ∀ {v stage}, s.writer v = some (a, stage) →
        Function.update s.writer w (some (s.next, .fresh)) v = some (a, stage) := by
      intro v stage has
      refine update_writer.2 (.inr ⟨?_, has⟩)
      rintro rfl
      rw [idle] at has
      cases has
    rcases sound.reads r n a got with published | ⟨v, retired | ⟨limit, waiting, early⟩⟩
    · exact .inl published
    · exact .inr ⟨v, .inl (other retired)⟩
    · exact .inr ⟨v, .inr ⟨limit, other waiting, early⟩⟩

omit [DecidableEq R] in
theorem swap (sound : Sound s) {w : W} {new : Option Nat}
    (has : s.writer w = new.map fun a => (a, .fresh)) : Sound { s with
      published := new
      writer := Function.update s.writer w (s.published.map fun a => (a, .retired)) } where
  publishedKnown a published := by
    subst published
    exact sound.writerKnown w a .fresh has
  writerKnown v a stage hasV := by
    rcases update_writer.1 hasV with ⟨-, mine⟩ | ⟨-, old⟩
    · obtain ⟨b, published, same⟩ := Option.map_eq_some_iff.1 mine
      cases same
      exact sound.publishedKnown _ published
    · exact sound.writerKnown v a stage old
  releasedKnown := sound.releasedKnown
  once := sound.once
  publishedLive a published := by
    subst published
    exact sound.writerLive w a .fresh has
  writerLive v a stage hasV := by
    rcases update_writer.1 hasV with ⟨-, mine⟩ | ⟨-, old⟩
    · obtain ⟨b, published, same⟩ := Option.map_eq_some_iff.1 mine
      cases same
      exact sound.publishedLive _ published
    · exact sound.writerLive v a stage old
  withdrawn v a stage hasV published := by
    subst published
    rcases update_writer.1 hasV with ⟨-, mine⟩ | ⟨ne, old⟩
    · obtain ⟨b, published, same⟩ := Option.map_eq_some_iff.1 mine
      cases same
      exact sound.withdrawn w _ .fresh has published
    · exact ne (sound.unique v w a stage .fresh old has)
  unique v v' a stage stage' hasV hasV' := by
    rcases update_writer.1 hasV with ⟨rfl, mine⟩ | ⟨-, old⟩ <;>
      rcases update_writer.1 hasV' with ⟨rfl, mine'⟩ | ⟨-, old'⟩
    · rfl
    · obtain ⟨b, published, same⟩ := Option.map_eq_some_iff.1 mine
      cases same
      exact absurd published (sound.withdrawn _ _ _ old')
    · obtain ⟨b, published, same⟩ := Option.map_eq_some_iff.1 mine'
      cases same
      exact absurd published (sound.withdrawn _ _ _ old)
    · exact sound.unique v v' a stage stage' old old'
  numbered := sound.numbered
  reads r n a got := by
    rcases sound.reads r n a got with published | ⟨v, hasV⟩
    · refine .inr ⟨w, .inl (update_writer.2 (.inl ⟨rfl, ?_⟩))⟩
      rw [published, Option.map_some]
    · -- what `w` has is new, so it is not what the reader got
      have other : v ≠ w := by
        rintro rfl
        rw [has] at hasV
        rcases hasV with mine | ⟨limit, mine, -⟩ <;>
          · obtain ⟨b, -, same⟩ := Option.map_eq_some_iff.1 mine
            cases same
      rcases hasV with retired | ⟨limit, waiting, early⟩
      · exact .inr ⟨v, .inl (update_writer.2 (.inr ⟨other, retired⟩))⟩
      · exact .inr ⟨v, .inr ⟨limit, update_writer.2 (.inr ⟨other, waiting⟩), early⟩⟩

omit [DecidableEq R] in
/-- The writer goes on with the object it has, as long as that covers the readers
that may still have it. -/
theorem restage (sound : Sound s) {w : W} {a : Nat} {stage later : Stage}
    (has : s.writer w = some (a, stage))
    (covers : ∀ r n, s.Reads r n a →
      later = .retired ∨ ∃ limit, later = .waiting limit ∧ n < limit) :
    Sound { s with writer := Function.update s.writer w (some (a, later)) } where
  publishedKnown := sound.publishedKnown
  writerKnown v b stage' hasV := by
    rcases update_writer.1 hasV with ⟨-, mine⟩ | ⟨-, old⟩
    · cases mine
      exact sound.writerKnown w a _ has
    · exact sound.writerKnown v b stage' old
  releasedKnown := sound.releasedKnown
  once := sound.once
  publishedLive := sound.publishedLive
  writerLive v b stage' hasV := by
    rcases update_writer.1 hasV with ⟨-, mine⟩ | ⟨-, old⟩
    · cases mine
      exact sound.writerLive w a _ has
    · exact sound.writerLive v b stage' old
  withdrawn v b stage' hasV := by
    rcases update_writer.1 hasV with ⟨-, mine⟩ | ⟨-, old⟩
    · cases mine
      exact sound.withdrawn w a _ has
    · exact sound.withdrawn v b stage' old
  unique v v' b stage' stage'' hasV hasV' := by
    rcases update_writer.1 hasV with ⟨rfl, mine⟩ | ⟨-, old⟩ <;>
      rcases update_writer.1 hasV' with ⟨rfl, mine'⟩ | ⟨-, old'⟩
    · rfl
    · cases mine
      exact sound.unique _ _ _ _ _ has old'
    · cases mine'
      exact sound.unique _ _ _ _ _ old has
    · exact sound.unique v v' b stage' stage'' old old'
  numbered := sound.numbered
  reads r n b got := by
    rcases sound.reads r n b got with published | ⟨v, hasV⟩
    · exact .inl published
    · by_cases same : v = w
      · subst same
        have mine : b = a := by
          rw [has] at hasV
          rcases hasV with retired | ⟨limit, waiting, -⟩
          · cases retired
            rfl
          · cases waiting
            rfl
        subst mine
        refine .inr ⟨v, ?_⟩
        rcases covers r n got with rfl | ⟨limit, rfl, early⟩
        · exact .inl (update_writer.2 (.inl ⟨rfl, rfl⟩))
        · exact .inr ⟨limit, update_writer.2 (.inl ⟨rfl, rfl⟩), early⟩
      · rcases hasV with retired | ⟨limit, waiting, early⟩
        · exact .inr ⟨v, .inl (update_writer.2 (.inr ⟨same, retired⟩))⟩
        · exact .inr ⟨v, .inr ⟨limit, update_writer.2 (.inr ⟨same, waiting⟩), early⟩⟩

omit [DecidableEq W] [DecidableEq R] in
/-- The stage of an object says how old the sections are in which readers have it. -/
theorem reads_stage (sound : Sound s) {w : W} {a : Nat} {stage : Stage}
    (has : s.writer w = some (a, stage)) {r : R} {n : Nat} (reads : s.Reads r n a) :
    stage = .retired ∨ ∃ limit, stage = .waiting limit ∧ n < limit := by
  rcases sound.reads r n a reads with published | ⟨v, hasV⟩
  · exact absurd published (sound.withdrawn w a stage has)
  · rcases hasV with retired | ⟨limit, waiting, early⟩
    · obtain rfl := sound.unique v w a _ _ retired has
      rw [has] at retired
      cases retired
      exact .inl rfl
    · obtain rfl := sound.unique v w a _ _ waiting has
      rw [has] at waiting
      cases waiting
      exact .inr ⟨limit, rfl, early⟩

omit [DecidableEq R] in
/-- The object is released when no reader has it. -/
theorem release (sound : Sound s) {w : W} {a : Nat} (has : s.writer w = some (a, .over)) :
    Sound { s with
      released := a :: s.released
      writer := Function.update s.writer w none } where
  publishedKnown := sound.publishedKnown
  writerKnown v b stage hasV := by
    rcases update_writer.1 hasV with ⟨-, mine⟩ | ⟨-, old⟩
    · cases mine
    · exact sound.writerKnown v b stage old
  releasedKnown b member := by
    rcases List.mem_cons.1 member with rfl | member
    · exact sound.writerKnown w _ _ has
    · exact sound.releasedKnown b member
  once := List.nodup_cons.2 ⟨sound.writerLive w a _ has, sound.once⟩
  publishedLive b published member := by
    rcases List.mem_cons.1 member with rfl | member
    · exact sound.withdrawn w _ _ has published
    · exact sound.publishedLive b published member
  writerLive v b stage hasV member := by
    rcases update_writer.1 hasV with ⟨-, mine⟩ | ⟨ne, old⟩
    · cases mine
    · rcases List.mem_cons.1 member with rfl | member
      · exact ne (sound.unique v w _ _ _ old has)
      · exact sound.writerLive v b stage old member
  withdrawn v b stage hasV := by
    rcases update_writer.1 hasV with ⟨-, mine⟩ | ⟨-, old⟩
    · cases mine
    · exact sound.withdrawn v b stage old
  unique v v' b stage stage' hasV hasV' := by
    rcases update_writer.1 hasV with ⟨-, mine⟩ | ⟨-, old⟩
    · cases mine
    · rcases update_writer.1 hasV' with ⟨-, mine'⟩ | ⟨-, old'⟩
      · cases mine'
      · exact sound.unique v v' b stage stage' old old'
  numbered := sound.numbered
  reads r n b got := by
    rcases sound.reads r n b got with published | ⟨v, hasV⟩
    · exact .inl published
    · have other : v ≠ w := by
        rintro rfl
        rw [has] at hasV
        rcases hasV with retired | ⟨limit, waiting, -⟩
        · cases retired
        · cases waiting
      rcases hasV with retired | ⟨limit, waiting, early⟩
      · exact .inr ⟨v, .inl (update_writer.2 (.inr ⟨other, retired⟩))⟩
      · exact .inr ⟨v, .inr ⟨limit, update_writer.2 (.inr ⟨other, waiting⟩), early⟩⟩

omit [DecidableEq W] in
theorem enter (sound : Sound s) (r : R) : Sound { s with
    clock := s.clock + 1
    reader := Function.update s.reader r (some (s.clock, none)) } :=
  { sound with
    numbered := fun q n got inside => by
      rcases update_reader.1 inside with ⟨-, new⟩ | ⟨-, old⟩
      · cases new
        exact Nat.lt_succ_self _
      · exact Nat.lt_succ_of_lt (sound.numbered q n got old)
    reads := fun q n a got => by
      rcases update_reader.1 got with ⟨-, new⟩ | ⟨-, old⟩
      · cases new
      · exact sound.reads q n a old }

omit [DecidableEq W] in
theorem get (sound : Sound s) {r : R} {n : Nat} (inside : s.reader r = some (n, none)) :
    Sound { s with reader := Function.update s.reader r (some (n, s.published)) } :=
  { sound with
    numbered := fun q m got insideQ => by
      rcases update_reader.1 insideQ with ⟨-, new⟩ | ⟨-, old⟩
      · cases new
        exact sound.numbered r _ _ inside
      · exact sound.numbered q m got old
    reads := fun q m a got => by
      rcases update_reader.1 got with ⟨-, new⟩ | ⟨-, old⟩
      · obtain ⟨-, published⟩ := Prod.mk.inj (Option.some.inj new)
        exact .inl published
      · exact sound.reads q m a old }

omit [DecidableEq W] in
theorem leave (sound : Sound s) (r : R) :
    Sound { s with reader := Function.update s.reader r none } :=
  { sound with
    numbered := fun q n got insideQ => by
      rcases update_reader.1 insideQ with ⟨-, new⟩ | ⟨-, old⟩
      · cases new
      · exact sound.numbered q n got old
    reads := fun q n a got => by
      rcases update_reader.1 got with ⟨-, new⟩ | ⟨-, old⟩
      · cases new
      · exact sound.reads q n a old }

/-- **One step.** -/
theorem step (sound : Sound s) (step : Step s t) : Sound t := by
  cases step with
  | create w idle => exact sound.create idle
  | swap w new has => exact sound.swap has
  | wait w a has =>
      -- every section has a number below the clock
      apply sound.restage has
      intro r n reads
      exact .inr ⟨s.clock, rfl, sound.numbered r n _ reads⟩
  | pass w a limit has quiet =>
      apply sound.restage has
      intro r n reads
      rcases sound.reads_stage has reads with retired | ⟨limit', waiting, early⟩
      · cases retired
      · cases waiting
        exact absurd (quiet r n _ reads) (Nat.not_le_of_lt early)
  | release w a has => exact sound.release has
  | enter r outside => exact sound.enter r
  | get r n inside => exact sound.get inside
  | leave r => exact sound.leave r

end Sound

/-! ## The account -/

/-- The object is published, released or in the hands of a writer. -/
def State.Known (s : State W R) (a : Nat) : Prop :=
  s.published = some a ∨ a ∈ s.released ∨ ∃ w stage, s.writer w = some (a, stage)

def Accounted (s : State W R) : Prop := ∀ a, a < s.next → s.Known a

namespace Accounted

variable {s t : State W R}

omit [DecidableEq W] [DecidableEq R] in
theorem start : Accounted (⟨none, 0, [], 0, fun _ => none, fun _ => none⟩ : State W R) :=
  fun a less => absurd less (Nat.not_lt_zero a)

omit [DecidableEq R] in
/-- A writer puts away what it had, and may take something else. -/
theorem update (accounted : Accounted s) {w : W} {x : Option (Nat × Stage)}
    (writer : t.writer = Function.update s.writer w x)
    (fresh : ∀ a, a < t.next → a < s.next ∨ ∃ stage, x = some (a, stage))
    (had : ∀ a stage, s.writer w = some (a, stage) → t.Known a)
    (published : ∀ a, s.published = some a → t.Known a)
    (released : ∀ a ∈ s.released, a ∈ t.released) : Accounted t := by
  intro a less
  rcases fresh a less with old | ⟨stage, mine⟩
  · rcases accounted a old with isPublished | isReleased | ⟨v, stage, has⟩
    · exact published a isPublished
    · exact .inr (.inl (released a isReleased))
    · by_cases same : v = w
      · subst same
        exact had a stage has
      · refine .inr (.inr ⟨v, stage, ?_⟩)
        rw [writer, Function.update_of_ne same]
        exact has
  · refine .inr (.inr ⟨w, stage, ?_⟩)
    rw [writer, Function.update_self, mine]

omit [DecidableEq R] in
/-- The writer goes on with the object it has. -/
theorem restage (accounted : Accounted s) {w : W} {a : Nat} {stage later : Stage}
    (has : s.writer w = some (a, stage)) :
    Accounted { s with writer := Function.update s.writer w (some (a, later)) } := by
  refine accounted.update rfl (fun _ less => .inl less) ?_ (fun _ published => .inl published)
    (fun _ member => member)
  intro b stage' hasB
  rw [has] at hasB
  cases hasB
  exact .inr (.inr ⟨w, later, Function.update_self ..⟩)

/-- **One step.** -/
theorem step (accounted : Accounted s) (step : Step s t) : Accounted t := by
  cases step with
  | create w idle =>
      refine accounted.update rfl ?_ ?_ (fun _ published => .inl published) (fun _ member => member)
      · intro a less
        rcases Nat.lt_succ_iff_lt_or_eq.1 less with old | same
        · exact .inl old
        · exact .inr ⟨.fresh, by rw [same]⟩
      · intro a stage has
        rw [idle] at has
        cases has
  | swap w new has =>
      refine accounted.update rfl (fun _ less => .inl less) ?_ ?_ (fun _ member => member)
      · intro a stage hasA
        rw [has, Option.map_eq_some_iff] at hasA
        obtain ⟨b, published, same⟩ := hasA
        cases same
        exact .inl published
      · intro a published
        have mine : (s.published.map fun a => (a, Stage.retired)) = some (a, .retired) := by
          rw [published]
          rfl
        exact .inr (.inr ⟨w, .retired, (Function.update_self ..).trans mine⟩)
  | wait w a has => exact accounted.restage has
  | pass w a limit has quiet => exact accounted.restage has
  | release w a has =>
      refine accounted.update rfl (fun _ less => .inl less) ?_ (fun _ published => .inl published)
        (fun _ member => List.mem_cons_of_mem a member)
      intro b stage hasB
      rw [has] at hasB
      cases hasB
      exact .inr (.inl List.mem_cons_self)
  | enter r outside => exact accounted
  | get r n inside => exact accounted
  | leave r => exact accounted

omit [DecidableEq W] [DecidableEq R] in
/-- **The numbers agree** when no writer has an object. -/
theorem count (accounted : Accounted s) (sound : Sound s) (idle : ∀ w, s.writer w = none) :
    s.next = s.released.length + s.published.toList.length := by
  have single : s.published.toList.Nodup := by
    cases s.published <;> simp
  have nodup : (s.published.toList ++ s.released).Nodup := by
    refine List.nodup_append'.2 ⟨single, sound.once, ?_⟩
    intro a published released
    exact sound.publishedLive a (Option.mem_toList.1 published) released
  have members : ∀ a, a ∈ s.published.toList ++ s.released ↔ a ∈ List.range s.next := by
    intro a
    rw [List.mem_append, List.mem_range, Option.mem_toList]
    constructor
    · rintro (published | released)
      · exact sound.publishedKnown a published
      · exact sound.releasedKnown a released
    · intro less
      rcases accounted a less with published | released | ⟨w, stage, has⟩
      · exact .inl published
      · exact .inr released
      · rw [idle w] at has
        cases has
  have length := ((List.perm_ext_iff_of_nodup nodup List.nodup_range).2 members).length_eq
  rw [List.length_append, List.length_range] at length
  omega

end Accounted

end Lkmpg.Theory.GracePeriod
