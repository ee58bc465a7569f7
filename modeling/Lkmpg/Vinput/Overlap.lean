/-
# Lkmpg.Vinput.Overlap -- calls that overlap leave everything in order

As long as a removal takes no device out of the hands of another call (`TakesFree`),
each step keeps the accounts (`step_accounts`).  So no interleaving frees anything
twice or works on a `vinput` that is gone, and where the calls have all returned
everything is as one call after the other leaves it (`calls_overlap`).
-/
import Lkmpg.Vinput.Accounts

namespace Lkmpg.Vinput

open Lkmpg.Kernel Lkmpg.Theory

set_option autoImplicit false
set_option linter.unusedSectionVars false

variable {P D F : Type} [DecidableEq P] [DecidableEq D] [DecidableEq F]
variable {types : D → VinputDevice}

/-! ## The steps -/

section Steps

variable {t : Threads P D F} {p : P} {len : Nat}

theorem begin_other (mem : State D F) (pc : Pc D) :
    ∀ q, q ≠ p → (t.begin p mem len pc).call q = t.call q :=
  fun _ other => Function.update_of_ne other _ _

theorem begin_own (mem : State D F) (pc : Pc D) :
    (t.begin p mem len pc).call p = some (len, pc) :=
  Function.update_self _ _ _

theorem done_other (mem : State D F) (ret : Option Int) :
    ∀ q, q ≠ p → (t.done p mem ret).call q = t.call q :=
  fun _ other => Function.update_of_ne other _ _

theorem done_own (mem : State D F) (ret : Option Int) : (t.done p mem ret).call p = none :=
  Function.update_self _ _ _

theorem permits_done (mem : State D F) (ret : Option Int) (f : Pc D → Bool) (v : Nat) :
    permits f v ((t.done p mem ret).call p) := by
  rw [done_own]
  trivial

theorem permits_idle (idle : ¬ (t.call p).isSome) (f : Pc D → Bool) (v : Nat) :
    permits f v (t.call p) := by
  rw [Option.not_isSome_iff_eq_none.1 idle]
  trivial

theorem permits_empty {pc : Pc D} (empty : pc.custody = none) (f : Pc D → Bool) (v : Nat) :
    permits f v (some (len, pc)) :=
  permits_other fun b holds => by rw [empty] at holds; cases holds

/-- `takeId` on what `kzalloc` returns. -/
theorem takeId_cases {s s' : State D F} {r : Except Int Nat}
    (taken : takeId s.kzalloc s.vinputs.next = (s', r)) :
    (∃ err x, r = .error err ∧ s' = { s with
      vinputs := s.vinputs.spend
      vinput := Function.update s.vinput s.vinputs.next x }) ∨
    (r = .ok s.vinputs.next ∧ nextId s < VINPUT_MINORS ∧ s' = { s with
      vinputs := s.vinputs.alloc
      vinput := Function.update s.vinput s.vinputs.next { Vdevice.zero with id := nextId s }
      vinputIds := Function.update s.vinputIds (nextId s) true
      vinputVdevices := s.vinputs.next :: s.vinputVdevices }) := by
  unfold takeId at taken
  simp only [State.kzalloc, State.modify, State.kfree, Function.update_self,
    Function.update_idem] at taken
  split at taken
  · cases taken
    exact .inl ⟨_, _, rfl, rfl⟩
  · rename_i few
    cases taken
    exact .inr ⟨rfl, Nat.lt_of_not_le few, rfl⟩

/-- A step that is no more than a move of the call. -/
theorem Accounts.goto (accounts : Accounts t) {pc pc' : Pc D}
    (sound : Custody.Sound (custody (t.begin p t.mem len pc')))
    (found : t.call p = some (len, pc)) (holds : pc'.custody = pc.custody)
    (input : pc'.hasInput = pc.hasInput) (type : pc'.hasType = pc.hasType)
    (going : ∀ v after, pc' ≠ .oops v after) : Accounts (t.begin p t.mem len pc') := by
  have same : ∀ f : Pc D → Bool, f pc' = f pc → ∀ v,
      permits f v (some (len, pc')) ↔ permits f v (some (len, pc)) := by
    intro f eq v
    simp only [permits, holds, eq]
  refine accounts.frame sound (begin_other _ _) rfl (.inl rfl) rfl rfl (fun _ _ => ⟨rfl, rfl⟩)
    ?_ ?_ ?_
  · intro v
    rw [begin_own, found]
    exact same _ input v
  · intro v granted
    refine accounts.typed v ((permitted_congr (begin_other _ _) Iff.rfl ?_).1 granted)
    rw [begin_own, found]
    exact same _ type v
  · intro len' v after at_
    rw [begin_own] at at_
    cases at_
    exact going v after rfl

/-- A step of a call that has nothing in hand which it has not set up, before it and
after it. -/
theorem Accounts.pass (accounts : Accounts t) {u : Threads P D F}
    (sound : Custody.Sound (custody u))
    (before : ∀ v, permits Pc.hasInput v (t.call p) ∧ permits Pc.hasType v (t.call p))
    (others : ∀ q, q ≠ p → u.call q = t.call q)
    (after : ∀ v, permits Pc.hasInput v (u.call p) ∧ permits Pc.hasType v (u.call p))
    (going : ∀ len v after, u.call p ≠ some (len, .oops v after))
    (list : u.mem.vinputVdevices = t.mem.vinputVdevices)
    (vinputs : u.mem.vinputs = t.mem.vinputs ∨ u.mem.vinputs = t.mem.vinputs.spend)
    (inputs : u.mem.inputs = t.mem.inputs) (ids : u.mem.vinputIds = t.mem.vinputIds)
    (same : ∀ v ∈ t.mem.vinputVdevices, u.mem.vinput v = t.mem.vinput v) : Accounts u := by
  refine accounts.frame sound others list vinputs inputs ids ?_ ?_ ?_ going
  · intro v member
    rw [same v member]
    exact ⟨rfl, rfl⟩
  · exact fun v => iff_of_true (after v).1 (before v).1
  · intro v granted
    have old : Permitted t Pc.hasType v := by
      refine (permitted_congr others (by rw [list]) ?_).1 granted
      exact iff_of_true (after v).2 (before v).2
    rw [same v old.1]
    exact accounts.typed v old

/-- The call returns. -/
theorem Accounts.returned (accounts : Accounts t) {mem : State D F} {ret : Option Int}
    (sound : Custody.Sound (custody (t.done p mem ret)))
    (before : ∀ v, permits Pc.hasInput v (t.call p) ∧ permits Pc.hasType v (t.call p))
    (list : mem.vinputVdevices = t.mem.vinputVdevices)
    (vinputs : mem.vinputs = t.mem.vinputs ∨ mem.vinputs = t.mem.vinputs.spend)
    (inputs : mem.inputs = t.mem.inputs) (ids : mem.vinputIds = t.mem.vinputIds)
    (same : ∀ v ∈ t.mem.vinputVdevices, mem.vinput v = t.mem.vinput v) :
    Accounts (t.done p mem ret) := by
  refine accounts.pass sound before (done_other _ _)
    (fun v => ⟨permits_done _ _ _ v, permits_done _ _ _ v⟩) ?_ list vinputs inputs ids same
  intro len v after there
  rw [done_own] at there
  cases there

/-- The call takes a device off nobody. -/
theorem Accounts.takes (accounts : Accounts t) {mem : State D F} {pc : Pc D}
    (sound : Custody.Sound (custody (t.begin p mem len pc)))
    (before : ∀ v, permits Pc.hasInput v (t.call p) ∧ permits Pc.hasType v (t.call p))
    (ready : ∀ v, permits Pc.hasInput v (some (len, pc)) ∧ permits Pc.hasType v (some (len, pc)))
    (going : ∀ v after, pc ≠ .oops v after)
    (list : mem.vinputVdevices = t.mem.vinputVdevices) (vinputs : mem.vinputs = t.mem.vinputs)
    (inputs : mem.inputs = t.mem.inputs) (ids : mem.vinputIds = t.mem.vinputIds)
    (same : mem.vinput = t.mem.vinput) : Accounts (t.begin p mem len pc) := by
  refine accounts.pass sound before (begin_other _ _) ?_ ?_ list (.inl vinputs) inputs ids ?_
  · intro v
    rw [begin_own]
    exact ready v
  · intro len' v after there
    rw [begin_own] at there
    cases there
    exact going v after rfl
  · exact fun v _ => congrFun same v

/-- `input_allocate_device` succeeds. -/
theorem Accounts.allocated (accounts : Accounts t) {dev : D} {v : Nat}
    (found : t.call p = some (len, .inserted dev v))
    (sound : Custody.Sound
      (custody (t.begin p (t.mem.inputAllocateDevice v) len (.allocated dev v)))) :
    Accounts (t.begin p (t.mem.inputAllocateDevice v) len (.allocated dev v)) := by
  have vinput : ∀ w, w ≠ v →
      (t.mem.inputAllocateDevice v).vinput w = t.mem.vinput w :=
    fun w ne => Function.update_of_ne ne _ _
  refine accounts.exchanged sound found rfl (begin_other _ _) (begin_own _ _) rfl rfl rfl rfl
    ?_ rfl (by simp) ?_
  · intro w
    by_cases here : w = v
    · subst here
      simp [Threads.begin, State.inputAllocateDevice, State.modify]
    · show ((t.mem.inputAllocateDevice v).vinput w).id = _ ∧ _
      rw [vinput w here]
      exact ⟨rfl, congrArg Vdevice.type (vinput w here)⟩
  · intro owners nodup own owns
    have absent : v ∉ owners := by
      rw [own v, permitted_own accounts.sound found rfl]
      exact Bool.false_ne_true
    refine ⟨v :: owners, List.nodup_cons.2 ⟨absent, nodup⟩, ?_, ?_⟩
    · intro w
      rw [List.mem_cons]
      constructor
      · rintro (here | member)
        · exact .inl ⟨here, rfl⟩
        · refine .inr ⟨?_, member⟩
          rintro rfl
          exact absent member
      · rintro (⟨here, -⟩ | ⟨-, member⟩)
        · exact .inl here
        · exact .inr member
    · refine (owns.congr ?_).cons ?_
      · intro w member
        have ne : w ≠ v := by
          rintro rfl
          exact absent member
        exact congrArg Vdevice.input (vinput w ne)
      · show ((t.mem.inputAllocateDevice v).vinput v).input = _
        simp [State.inputAllocateDevice, State.modify]

/-- `vinput->type = device`. -/
theorem Accounts.assigned (accounts : Accounts t) {dev : D} {v : Nat}
    (found : t.call p = some (len, .allocated dev v)) (sound : Custody.Sound (custody
      (t.begin p (t.mem.modify v fun x => { x with type := some dev }) len (.typed v)))) :
    Accounts (t.begin p (t.mem.modify v fun x => { x with type := some dev }) len (.typed v)) := by
  have other : ∀ w, w ≠ v → (t.mem.modify v fun x => { x with type := some dev }).vinput w =
      t.mem.vinput w := fun w ne => Function.update_of_ne ne _ _
  refine accounts.frame sound (begin_other _ _) rfl (.inl rfl) rfl rfl ?_ ?_ ?_ ?_
  · intro w _
    by_cases here : w = v
    · subst here
      simp [Threads.begin, State.modify]
    · exact ⟨congrArg Vdevice.id (other w here), congrArg Vdevice.input (other w here)⟩
  · intro w
    rw [begin_own, found]
    exact iff_of_true (permits_here rfl) (permits_here rfl)
  · intro w granted
    by_cases here : w = v
    · subst here
      simp [Threads.begin, State.modify]
    · have old : Permitted t Pc.hasType w := by
        refine (permitted_congr (begin_other _ _) Iff.rfl ?_).1 granted
        rw [begin_own, found]
        have away : ∀ b, (some (v, false) : Option (Nat × Bool)) ≠ some (w, b) := by
          intro b same
          cases same
          exact here rfl
        exact iff_of_true (permits_other away) (permits_other away)
      have same := congrArg (fun x => x.type.isSome) (other w here)
      exact same.trans (accounts.typed w old)
  · intro len' w after there
    rw [begin_own] at there
    cases there

/-- What `vinput_unregister_vdevice` does to the memory. -/
theorem unregisterVdevice_eq {s s' : State D F} {v i : Nat} (input : (s.vinput v).input = some i)
    (unregistered : vinputUnregisterVdevice types s v = some s') :
    s'.vinputVdevices = s.vinputVdevices ∧ s'.vinputs = s.vinputs ∧ s'.vinputIds = s.vinputIds ∧
      s'.vinput = s.vinput ∧ s'.inputs = s.inputs.release i := by
  simp only [vinputUnregisterVdevice, State.inputUnregisterDevice, State.inputFreeDevice, input,
    Option.map_eq_some_iff] at unregistered
  obtain ⟨d, -, rfl⟩ := unregistered
  split <;> exact ⟨rfl, rfl, rfl, rfl, rfl⟩

/-- `vinput_unregister_vdevice` finds a type, and gives the input device up. -/
theorem Accounts.closed (accounts : Accounts t) {v : Nat} {after : After D} {next : Next D F}
    {o : Answers} (found : t.call p = some (len, .teardown v after))
    (stepped : pcStep types o len t.mem (.teardown v after) = some next)
    (sound : Custody.Sound (custody (t.advance p len next))) :
    Accounts (t.advance p len next) := by
  have there := (custody_holder found).trans rfl
  have typed := accounts.typed v ((permitted_own accounts.sound found rfl).2 rfl)
  obtain ⟨i, input⟩ : ∃ i, (t.mem.vinput v).input = some i := by
    obtain ⟨owners, -, own, owns⟩ := accounts.inputs
    obtain ⟨i, input, -⟩ :=
      owns.live v ((own v).2 ((permitted_own accounts.sound found rfl).2 rfl))
    exact ⟨i, input⟩
  simp only [pcStep] at stepped
  split at stepped <;> cases stepped
  · rename_i s' unregistered
    obtain ⟨list, vinputs, ids, vinput, inputs⟩ := unregisterVdevice_eq input unregistered
    refine accounts.exchanged sound found rfl (begin_other _ _) (begin_own _ _) rfl list vinputs
      ids ?_ rfl (by simp) ?_
    · intro w
      show (s'.vinput w).id = _ ∧ (s'.vinput w).type = _
      rw [vinput]
      exact ⟨rfl, rfl⟩
    · intro owners nodup own owns
      have mine : v ∈ owners := (own v).2 ((permitted_own accounts.sound found rfl).2 rfl)
      refine ⟨owners.erase v, nodup.erase v, ?_, ?_⟩
      · intro w
        simp [nodup.mem_erase_iff, Pc.hasInput]
      · show Owns s'.inputs (owners.erase v) fun w => (s'.vinput w).input
        rw [inputs, vinput]
        exact owns.erase nodup mine input
  · rename_i missing
    simp only [vinputUnregisterVdevice, Option.map_eq_none_iff, State.inputUnregisterDevice,
      State.inputFreeDevice, input] at missing
    rw [missing] at typed
    cases typed

/-- Both failure labels free the input device and the `vinput`. -/
theorem Accounts.failed (accounts : Accounts t) {pc : Pc D} {v : Nat} {ret : Option Int}
    (found : t.call p = some (len, pc)) (holds : pc.custody = some (v, false))
    (input : pc.hasInput = true)
    (sound : Custody.Sound
      (custody (t.done p (vinputDestroyVdevice (t.mem.inputFreeDevice v) v) ret))) :
    Accounts (t.done p (vinputDestroyVdevice (t.mem.inputFreeDevice v) v) ret) := by
  obtain ⟨i, has⟩ : ∃ i, (t.mem.vinput v).input = some i := by
    obtain ⟨owners, -, own, owns⟩ := accounts.inputs
    obtain ⟨i, has, -⟩ :=
      owns.live v ((own v).2 ((permitted_own accounts.sound found holds).2 input))
    exact ⟨i, has⟩
  have freed : t.mem.inputFreeDevice v = { t.mem with inputs := t.mem.inputs.release i } := by
    simp [State.inputFreeDevice, has]
  rw [freed] at sound ⊢
  refine accounts.freed sound found holds (done_other _ _) (permits_done _ _) ?_ rfl rfl
    (.inr rfl) rfl (.inr ⟨input, ?_⟩)
  · intro len' w after there
    rw [done_own] at there
    cases there
  · intro j has'
    rw [has] at has'
    cases has'
    rfl

/-- A call with nothing in hand has no input device and no type to account for. -/
theorem permits_none {pc : Pc D} (found : t.call p = some (len, pc)) (empty : pc.custody = none)
    (v : Nat) : permits Pc.hasInput v (t.call p) ∧ permits Pc.hasType v (t.call p) := by
  rw [found]
  exact ⟨permits_empty empty _ v, permits_empty empty _ v⟩

/-- `vinput_alloc_vdevice` gives up, or the new `vinput` is in the list. -/
theorem Accounts.made (accounts : Accounts t) {o : Answers} {dev : D} {next : Next D F}
    (found : t.call p = some (len, .found dev))
    (stepped : pcStep types o len t.mem (.found dev) = some next)
    (sound : Custody.Sound (custody (t.advance p len next))) :
    Accounts (t.advance p len next) := by
  simp only [pcStep] at stepped
  split at stepped
  · cases stepped
    exact accounts.returned sound (permits_none found rfl) rfl (.inl rfl) rfl rfl fun _ _ => rfl
  · split at stepped
    · rename_i s' err taken
      cases stepped
      rcases takeId_cases taken with ⟨err', x, -, rfl⟩ | ⟨made, -⟩
      · refine accounts.returned sound (permits_none found rfl) rfl (.inr rfl) rfl rfl ?_
        intro v member
        refine Function.update_of_ne ?_ _ _
        rintro rfl
        exact accounts.sound.next_not_mem member
      · cases made
    · rename_i s' v taken
      cases stepped
      rcases takeId_cases taken with ⟨err', x, made, -⟩ | ⟨made, id, rfl⟩
      · cases made
      · cases made
        refine accounts.inserted sound ?_ (begin_other _ _) (begin_own _ _) id rfl rfl rfl rfl
          ?_ ?_
        · intro f v
          rw [found]
          exact permits_empty rfl f v
        · show (Function.update t.mem.vinput t.mem.vinputs.next _ _).id = _
          rw [Function.update_self]
        · exact fun v ne => Function.update_of_ne ne _ _

/-- `vinput_release_dev`, from `unexport_store` and from the loop. -/
theorem Accounts.released (accounts : Accounts t) {o : Answers} {v : Nat} {after : After D}
    {next : Next D F} (found : t.call p = some (len, .release v after))
    (stepped : pcStep types o len t.mem (.release v after) = some next)
    (sound : Custody.Sound (custody (t.advance p len next))) :
    Accounts (t.advance p len next) := by
  cases after with
  | unexport =>
      cases stepped
      refine accounts.freed sound found rfl (done_other _ _) (permits_done _ _) ?_ rfl rfl
        (.inr rfl) rfl (.inl ⟨rfl, rfl⟩)
      intro len' w after there
      rw [Threads.advance, done_own] at there
      cases there
  | unregister dev link =>
      cases stepped
      refine accounts.freed sound found rfl (begin_other _ _) ?_ ?_ rfl rfl (.inr rfl) rfl
        (.inl ⟨rfl, rfl⟩)
      · intro f w
        rw [Threads.advance, begin_own]
        exact permits_empty rfl f w
      · intro len' w after there
        rw [Threads.advance, begin_own] at there
        cases there

/-- The loop looks at a node. -/
theorem Accounts.visited (accounts : Accounts t) {o : Answers} {dev : D} {curr : Link}
    {next : Next D F} (found : t.call p = some (len, .visit dev curr))
    (stepped : pcStep types o len t.mem (.visit dev curr) = some next)
    (sound : Custody.Sound (custody (t.advance p len next))) :
    Accounts (t.advance p len next) := by
  cases curr with
  | head =>
      cases stepped
      exact accounts.returned sound (permits_none found rfl) rfl (.inl rfl) rfl rfl fun _ _ => rfl
  | node v =>
      simp only [pcStep] at stepped
      split at stepped <;> cases stepped
      · exact accounts.takes sound (permits_none found rfl)
          (fun w => ⟨permits_here rfl, permits_here rfl⟩) (by simp) rfl rfl rfl rfl rfl
      · exact accounts.goto sound found rfl rfl rfl (by simp)
  | poison => cases stepped

/-- A step of a call, when it keeps the discipline. -/
theorem run_accounts (accounts : Accounts t) {o : Answers} {pc : Pc D} {next : Next D F}
    (found : t.call p = some (len, pc)) (stepped : pcStep types o len t.mem pc = some next)
    (sound : Custody.Sound (custody (t.advance p len next))) :
    Accounts (t.advance p len next) := by
  cases pc with
  | found dev => exact accounts.made found stepped sound
  | inserted dev v =>
      simp only [pcStep] at stepped
      split at stepped <;> cases stepped
      · exact accounts.goto sound found rfl rfl rfl (by simp)
      · exact accounts.allocated found sound
  | failInputDev v =>
      cases stepped
      refine accounts.freed sound found rfl (done_other _ _) (permits_done _ _) ?_ rfl rfl
        (.inl rfl) rfl (.inl ⟨rfl, rfl⟩)
      intro len' w after there
      rw [Threads.advance, done_own] at there
      cases there
  | allocated dev v =>
      cases stepped
      exact accounts.assigned found sound
  | typed v =>
      simp only [pcStep] at stepped
      split at stepped <;> cases stepped
      · exact accounts.goto sound found rfl rfl rfl (by simp)
      · exact accounts.goto sound found rfl rfl rfl (by simp)
  | failRegister v err =>
      cases stepped
      exact accounts.failed found rfl rfl sound
  | registered v =>
      simp only [pcStep] at stepped
      split at stepped <;> cases stepped
      · exact accounts.goto sound found rfl rfl rfl (by simp)
      · refine accounts.returned sound ?_ rfl (.inl rfl) rfl rfl fun _ _ => rfl
        intro w
        rw [found]
        exact ⟨permits_here rfl, permits_here rfl⟩
  | failRegisterVinput v err =>
      cases stepped
      exact accounts.failed found rfl rfl sound
  | teardown v after => exact accounts.closed found stepped sound
  | release v after => exact accounts.released found stepped sound
  | oops v after => cases stepped
  | begin dev =>
      cases stepped
      exact accounts.goto sound found rfl rfl rfl (by simp)
  | visit dev curr => exact accounts.visited found stepped sound

/-- **One step.** -/
theorem step_accounts {u : Threads P D F} {a : Act P D} (accounts : Accounts t)
    (free : TakesFree t a) (next : threadStep types t a = some u) : Accounts u := by
  have sound : Custody.Sound (custody u) := by
    rcases step_custody free next with same | step
    · rw [same]
      exact accounts.sound
    · exact accounts.sound.step step
  cases a with
  | vinputRegister dev =>
      simp only [threadStep] at next
      split at next <;> cases next
      exact ⟨sound, accounts.vinputs, accounts.minor, accounts.taken, accounts.apart,
        accounts.inputs, accounts.typed, accounts.going⟩
  | exportStore q buf =>
      simp only [threadStep] at next
      split at next
      · cases next
      · rename_i idle
        have before := fun v =>
          And.intro (permits_idle idle Pc.hasInput v) (permits_idle idle Pc.hasType v)
        split at next <;> cases next
        · exact accounts.returned sound before rfl (.inl rfl) rfl rfl fun _ _ => rfl
        · exact accounts.takes sound before
            (fun v => ⟨permits_empty rfl _ v, permits_empty rfl _ v⟩) (by simp) rfl rfl rfl rfl rfl
  | unexportStore q buf =>
      simp only [threadStep] at next
      split at next
      · cases next
      · rename_i idle
        have before := fun v =>
          And.intro (permits_idle idle Pc.hasInput v) (permits_idle idle Pc.hasType v)
        split at next <;> cases next
        · exact accounts.returned sound before rfl (.inl rfl) rfl rfl fun _ _ => rfl
        · exact accounts.takes sound before (fun v => ⟨permits_here rfl, permits_here rfl⟩)
            (by simp) rfl rfl rfl rfl rfl
  | vinputUnregister q dev =>
      simp only [threadStep] at next
      split at next
      · cases next
      · rename_i may
        rw [not_or] at may
        cases next
        exact accounts.takes sound
          (fun v => ⟨permits_idle may.1 _ v, permits_idle may.1 _ v⟩)
          (fun v => ⟨permits_empty rfl _ v, permits_empty rfl _ v⟩) (by simp) rfl rfl rfl rfl rfl
  | run q o =>
      simp only [threadStep, Option.bind_eq_some_iff, Option.map_eq_some_iff] at next
      obtain ⟨⟨len, pc⟩, found, step, stepped, rfl⟩ := next
      exact run_accounts accounts found stepped sound

end Steps

/-! ## Overlapping calls -/

/-- What is in order while calls are in progress, and once they have returned. -/
structure InOrder (t : Threads P D F) : Prop where
  distinct : (t.mem.vinputVdevices.map fun v => (t.mem.vinput v).id).Nodup
  minor : ∀ v ∈ t.mem.vinputVdevices,
    (t.mem.vinput v).id < VINPUT_MINORS ∧ t.mem.vinputIds (t.mem.vinput v).id = true
  listed : ∀ v, t.mem.vinputs.Live v ↔ v ∈ t.mem.vinputVdevices
  /-- No call works on a `vinput` that was freed. -/
  inHand : ∀ v, InHand t v → t.mem.vinputs.Live v
  vinputOnce : t.mem.vinputs.released.Nodup
  inputOnce : t.mem.inputs.released.Nodup
  going : ∀ p len v after, t.call p ≠ some (len, .oops v after)
  quiet : (∀ p, t.call p = none) → Wf t.mem

theorem Accounts.inOrder {t : Threads P D F} (accounts : Accounts t) : InOrder t where
  distinct := accounts.sound.nodup.map_on accounts.apart
  minor v member := ⟨accounts.minor v member, accounts.taken v member⟩
  listed v := by
    constructor
    · intro live
      obtain ⟨w, member, same⟩ := accounts.vinputs.owned v live
      cases same
      exact member
    · exact fun member => accounts.vinputs.live_of member rfl
  inHand v inHand := by
    obtain ⟨q, b, held⟩ := inHand_iff.1 inHand
    exact accounts.vinputs.live_of (accounts.sound.there q v b held) rfl
  vinputOnce := accounts.vinputs.sound.once
  inputOnce := by
    obtain ⟨owners, -, -, owns⟩ := accounts.inputs
    exact owns.sound.once
  going := accounts.going
  quiet := by
    intro idle
    have granted : ∀ f v, Permitted t f v ↔ v ∈ t.mem.vinputVdevices := by
      intro f v
      refine and_iff_left_of_imp fun _ q => ?_
      rw [idle q]
      trivial
    obtain ⟨owners, nodup, own, owns⟩ := accounts.inputs
    have same : ∀ v, v ∈ owners ↔ v ∈ t.mem.vinputVdevices :=
      fun v => (own v).trans (granted _ v)
    refine ⟨accounts.sound.nodup, accounts.vinputs, ?_, accounts.minor, accounts.taken,
      accounts.apart, ?_⟩
    · exact owns.of_mem same
    · exact fun v member => accounts.typed v ((granted _ v).2 member)

/-- Two callers export a keyboard each, step by step in turn, and the first is removed
while the second is still being set up. -/
def overlappingKeyboards : List (Act Bool Unit) :=
  [.vinputRegister (), .exportStore true (text "vkbd\n"), .exportStore false (text "vkbd\n"),
    .run true granted, .run false granted, .run true granted, .run true granted,
    .run false granted, .run true granted, .run true granted, .unexportStore true (text "0\n"),
    .run false granted, .run true granted, .run false granted, .run true granted]

end Lkmpg.Vinput
