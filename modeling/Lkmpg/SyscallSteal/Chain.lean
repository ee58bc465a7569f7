/-
# Lkmpg.SyscallSteal.Chain -- the modules on one entry are a stack

`Stack t code ms`: from `code`, each of the modules `ms` hands on to the next, and the
last to the original function of the entry `t`.  As long as no alert was printed, the
entry and the modules that stole it are such a stack, in the order they were loaded
(`step_stacked`): a module that finds its own function in the entry is the top one.
-/
import Lkmpg.SyscallSteal.Driver
import Mathlib.Data.List.Nodup

namespace Lkmpg.SyscallSteal

open Lkmpg.Theory

set_option autoImplicit false

section

variable {M : Type}

inductive Stack (t : Nat) : Code → List (Module M) → Prop where
  | original : Stack t (.original t) []
  | module {m : Module M} {ms : List (Module M)} (below : Stack t m.originalCall ms) :
      Stack t (.ourSysOpenat m.place) (m :: ms)

/-- The module a function belongs to is the top one. -/
theorem Stack.top {t place : Nat} {ms : List (Module M)}
    (stack : Stack t (.ourSysOpenat place) ms) :
    ∃ m below, ms = m :: below ∧ m.place = place ∧ Stack t m.originalCall below := by
  generalize code : Code.ourSysOpenat place = top at stack
  cases stack with
  | original => cases code
  | module below =>
      cases code
      exact ⟨_, _, rfl, rfl, below⟩

/-- The modules that stole the entry. -/
def State.on (s : State M) (t : Nat) : List (Module M) :=
  s.loaded.filter fun m => m.sysCallTableStolen = some t

structure Stacked (s : State M) : Prop where
  places : (s.loaded.map Module.place).Nodup
  stack : s.alert = false → ∀ t, Stack t (s.entry t) (s.on t)

theorem stacked_start : Stacked (start : State M) where
  places := List.nodup_nil
  stack _ _ := .original

/-- At one place there is one module. -/
theorem same_place {s : State M} (stacked : Stacked s) {m n : Module M} (mem : m ∈ s.loaded)
    (mem' : n ∈ s.loaded) (same : m.place = n.place) : m = n :=
  List.inj_on_of_nodup_map stacked.places mem mem' same

theorem start_stacked {s : State M} (stacked : Stacked s) {name : M} {place uid : Nat}
    (fresh : ∀ m ∈ s.loaded, m.place ≠ place) (acquired : Option Nat) :
    Stacked (s.syscallStealStart name place uid acquired) := by
  cases acquired with
  | none => exact stacked
  | some t =>
      refine ⟨?_, ?_⟩
      · refine List.nodup_cons.2 ⟨?_, stacked.places⟩
        intro member
        obtain ⟨m, mem, same⟩ := List.mem_map.1 member
        exact fresh m mem same
      · intro quiet t'
        have before := stacked.stack quiet t'
        by_cases same : t' = t
        · subst same
          have pushed := Stack.module (m := ⟨name, place, uid, some t', s.entry t'⟩) before
          simpa [State.syscallStealStart, State.on] using pushed
        · have other : ¬ t = t' := fun eq => same eq.symm
          simpa [State.syscallStealStart, State.on, same, other] using before

variable [DecidableEq M]

/-- Taking a module off the list takes it off its own stack only. -/
theorem erase_on {s : State M} (stacked : Stacked s) {m : Module M} (t : Nat) :
    ((s.loaded.erase m).filter fun n => n.sysCallTableStolen = some t) = (s.on t).erase m := by
  have nodup : s.loaded.Nodup := stacked.places.of_map
  rw [State.on, nodup.erase_eq_filter, (nodup.filter _).erase_eq_filter, List.filter_comm]

theorem end_stacked {s : State M} (stacked : Stacked s) {m : Module M} (mem : m ∈ s.loaded) :
    Stacked (s.syscallStealEnd m) := by
  have places : ((s.loaded.erase m).map Module.place).Nodup :=
    stacked.places.sublist (List.erase_sublist.map _)
  unfold State.syscallStealEnd
  split
  · rename_i null
    refine ⟨places, ?_⟩
    intro quiet t
    have absent : m ∉ s.on t := by simp [State.on, null]
    have stack := stacked.stack quiet t
    rwa [← List.erase_of_not_mem absent, ← erase_on stacked] at stack
  · rename_i t stolen
    refine ⟨places, ?_⟩
    intro quiet t'
    simp only [Bool.or_eq_false_iff, decide_eq_false_iff_not, not_not] at quiet
    obtain ⟨quiet, own⟩ := quiet
    have stack := stacked.stack quiet t'
    rw [State.on]
    simp only [erase_on stacked]
    by_cases same : t' = t
    · -- the module finds its own function: it is the top one
      subst same
      rw [own] at stack
      rw [Function.update_self]
      obtain ⟨n, below, on, place, rest⟩ := stack.top
      have inside : n ∈ s.on t' := by
        rw [on]
        exact List.mem_cons_self
      obtain rfl := same_place stacked (List.mem_of_mem_filter inside) mem place
      rw [on, List.erase_cons_head]
      exact rest
    · have absent : m ∉ s.on t' := by
        simp only [State.on, List.mem_filter, stolen, decide_eq_true_eq, Option.some.injEq]
        rintro ⟨-, eq⟩
        exact same eq.symm
      rw [Function.update_of_ne same, List.erase_of_not_mem absent]
      exact stack

/-- **One step.** -/
theorem step_stacked {s s' : State M} {a : Action M} (stacked : Stacked s)
    (next : step s a = some s') : Stacked s' := by
  cases a with
  | start name place uid acquired =>
      simp only [step] at next
      split at next <;> cases next
      rename_i free
      refine start_stacked stacked ?_ acquired
      intro m mem same
      refine free (List.any_eq_true.2 ⟨m, mem, ?_⟩)
      simp [same]
  | finish name =>
      simp only [step] at next
      obtain ⟨m, found, rfl⟩ := Option.map_eq_some_iff.1 next
      exact end_stacked stacked (List.mem_of_find?_eq_some found)

theorem reachable_stacked {s : State M} (reached : (system M).Reachable s) : Stacked s := by
  refine reached.induct (I := Stacked) ?_ (fun s a t => step_stacked)
  rintro s rfl
  exact stacked_start

/-- What the modules of a path print, one after the other. -/
def printed (path : List (Module M)) (currentUid : Nat) (filename : List UInt8) : List UInt8 :=
  path.flatMap fun m => (m.ourSysOpenat currentUid filename).1

omit [DecidableEq M] in
/-- A call goes down the stack. -/
theorem call_stack {s : State M} (stacked : Stacked s) {t : Nat} {code : Code}
    {ms : List (Module M)} (stack : Stack t code ms) (loaded : ms ⊆ s.loaded) (uid : Nat)
    (filename : List UInt8) {fuel : Nat} (enough : ms.length ≤ fuel) :
    s.call uid filename fuel code = some (ms, printed ms uid filename, t) := by
  induction stack generalizing fuel with
  | original => cases fuel <;> rfl
  | @module m ms below ih =>
      cases fuel with
      | zero => cases enough
      | succ fuel =>
          have mem : m ∈ s.loaded := loaded List.mem_cons_self
          have found : (s.loaded.find? fun n => n.place = m.place) = some m := by
            have some := List.find?_isSome (p := fun n : Module M => n.place = m.place) |>.2
              ⟨m, mem, by simp⟩
            obtain ⟨n, found⟩ := Option.isSome_iff_exists.1 some
            have place : n.place = m.place := by simpa using List.find?_some found
            rw [found, same_place stacked (List.mem_of_find?_eq_some found) mem place]
          have rest := ih (List.subset_of_cons_subset loaded) (Nat.le_of_succ_le_succ enough)
          rw [State.call, found, Option.bind_some]
          simp only [Module.ourSysOpenat, rest, Option.map_some]
          rfl

/-- **The unload check is enough.**  As long as no `syscall_steal_end` has printed its
alert, an entry of the table is its original function or that of a loaded module, and a
call through it ends in the original function, through loaded modules, through each at
most once. -/
theorem syscall_steal_chain {s : State M} (reached : (system M).Reachable s)
    (quiet : s.alert = false) (t : Nat) :
    (s.entry t = .original t ∨ ∃ m ∈ s.loaded, s.entry t = .ourSysOpenat m.place) ∧
    ∃ path, path ⊆ s.loaded ∧ path.Nodup ∧ ∀ uid filename,
      s.call uid filename s.loaded.length (s.entry t) =
        some (path, printed path uid filename, t) := by
  have stacked := reachable_stacked reached
  have stack := stacked.stack quiet t
  have loaded : s.on t ⊆ s.loaded := List.filter_subset_self _
  have nodup : s.loaded.Nodup := stacked.places.of_map
  refine ⟨?_, s.on t, loaded, nodup.filter _, fun uid filename =>
    call_stack stacked stack loaded uid filename (List.length_filter_le _ _)⟩
  generalize on : s.on t = ms at stack
  generalize s.entry t = code at stack
  cases stack with
  | original => exact .inl rfl
  | module below =>
      refine .inr ⟨_, loaded ?_, rfl⟩
      rw [on]
      exact List.mem_cons_self

end

/-- Two modules on one entry, loaded, unloaded in the reverse order, and loaded again. -/
def reverseOrder : List (Action Bool) :=
  [.start false 100 0 (some 7), .start true 200 0 (some 7), .finish true, .finish false,
    .start true 300 0 (some 7), .start false 100 0 (some 7)]

theorem syscall_steal_chain_two : ∃ s : State Bool, (system Bool).Reachable s ∧
    (s.alert = false ∧ s.loaded.map Module.place = [100, 300]) ∧
    ((s.entry 7 = .original 7 ∨ ∃ m ∈ s.loaded, s.entry 7 = .ourSysOpenat m.place) ∧
      ∃ path, path ⊆ s.loaded ∧ path.Nodup ∧ ∀ uid filename,
        s.call uid filename s.loaded.length (s.entry 7) =
          some (path, printed path uid filename, 7)) := by
  have ends : ((system Bool).run start reverseOrder).map
      (fun s => (s.alert, s.loaded.map Module.place)) = some (false, [100, 300]) := by decide
  obtain ⟨s, ran, same⟩ := Option.map_eq_some_iff.1 ends
  simp only [Prod.mk.injEq] at same
  have reached : (system Bool).Reachable s := ⟨_, _, rfl, ran⟩
  exact ⟨s, reached, same, syscall_steal_chain reached same.1 7⟩

end Lkmpg.SyscallSteal
