/-
# Lkmpg.Devtools.Cache -- when the kernel that setup.sh finds is the one it would build

`build_kernel` writes its stamp last, and never takes an old one away first.  So the
stamp speaks for the image only if the run that changed the image last went on to write
it; and it speaks for `kernel.config` and `config.defaults` run together, not for the
version of the kernel.

* `buildKernel_safe`: a run writes its stamp, and skips, only over the image and the
  symbols it would have built (`Coherent`), if the stamp it finds is right (`Fresh`);
* `step_cached`: where no change is left without its stamp, what the stamp says is so;
* `setup_cache_coherent`: the sequence of runs.
-/
import Lkmpg.Devtools.Setup

namespace Lkmpg.Devtools

open Lkmpg.Kernel Lkmpg.Theory

set_option autoImplicit false

section

variable (defaultVersion : Text → Text) (hostArch : Text)

/-- The image was produced from the `kernel.config` and the `KERNEL_VERSION` of the run,
and `Module.symvers` is there. -/
def Coherent (i : Inputs) (f : Files) : Prop :=
  f.bzImage = some (i.source defaultVersion) ∧ f.moduleSymvers = true

instance (i : Inputs) (f : Files) : Decidable (Coherent defaultVersion i f) :=
  inferInstanceAs (Decidable (_ ∧ _))

/-- If there is an image, and the stamp of the run, the stamp is right. -/
def Fresh (i : Inputs) (f : Files) : Prop :=
  f.bzImage.isSome → f.configStamp = some (i.expected hostArch) → Coherent defaultVersion i f

/-- A tarball that unpacks without an error brings the image of the run. -/
def OwnImage (i : Inputs) (c : Command) (a : Answer) : Prop :=
  match c with
  | .tar _ => a.zero → a.members.bzImage = some (i.source defaultVersion)
  | _ => True

/-- What has to be so when a run skips or writes its stamp. -/
def Due (i : Inputs) (f : Files) : Command → Prop
  | .skip => Coherent defaultVersion i f
  | .writeStamp expected => expected = i.expected hostArch ∧ Coherent defaultVersion i f
  | _ => True

/-! ## One run of build_kernel -/

variable {defaultVersion hostArch} {i : Inputs} {f : Files}

theorem test_cases {f t : Files} {holds : Bool} {a : Answer} (done : f.test holds a = some t) :
    t = f ∧ a.zero = holds := by
  unfold Files.test at done
  split at done <;> cases done
  exact ⟨rfl, ‹_›⟩

theorem succeed_cases {done t : Files} {a : Answer} (succeeds : Files.succeed done a = some t) :
    t = done := by
  unfold Files.succeed at succeeds
  split at succeeds <;> cases succeeds
  rfl

variable (defaultVersion hostArch i) in
/-- The commands that are due whatever the files are. -/
def Plain (c : Command) : Prop := ∀ f, Due defaultVersion hostArch i f c

theorem tryPrebuilt_plain (i : Inputs) :
    (tryPrebuilt defaultVersion hostArch i).Only (Plain defaultVersion hostArch i) := by
  unfold tryPrebuilt
  split
  · trivial
  refine Calls.only_bind (Calls.only_ask fun _ => trivial) fun head => ?_
  split
  · trivial
  refine Calls.only_bind (Calls.only_ask fun _ => trivial) fun got => ?_
  split
  · exact Calls.only_bind (Calls.only_ask fun _ => trivial) fun _ => trivial
  refine Calls.only_bind (Calls.only_ask fun _ => trivial) fun _ => ?_
  refine Calls.only_bind (Calls.only_ask fun _ => trivial) fun unpacked => ?_
  split
  · exact Calls.only_bind (Calls.only_ask fun _ => trivial) fun _ => trivial
  refine Calls.only_bind
    (Calls.only_both (Calls.only_ask fun _ => trivial) (Calls.only_ask fun _ => trivial))
    fun there => ?_
  split
  · trivial
  · exact Calls.only_bind (Calls.only_ask fun _ => trivial) fun _ => trivial

theorem plain_safe {ρ : Type} {p : Script ρ} (plain : p.Only (Plain defaultVersion hostArch i))
    (f : Files) :
    p.Safe Files.perform (OwnImage defaultVersion i) (Due defaultVersion hostArch i) f :=
  plain.safe (fun f _ plain => plain f) f

abbrev Returns {ρ : Type} (G : Command → Answer → Prop) (Q : ρ → Files → Prop) (p : Script ρ)
    (f : Files) : Prop :=
  p.Ends Files.perform G Q f

section Rules

variable {G : Command → Answer → Prop}

/-- A test, of which only the exit status is used. -/
theorem returns_test {ρ : Type} {Q : ρ → Files → Prop} {c : Command} {holds : Bool}
    {next : Bool → Script ρ} (test : ∀ a, f.perform c a = f.test holds a)
    (rest : Returns G Q (next holds) f) :
    Returns G Q (do let passed ← status c; next passed) f := by
  intro a t done _
  rw [test] at done
  obtain ⟨rfl, zero⟩ := test_cases done
  rw [← zero] at rest
  exact rest

/-- A command after which the files are as they were. -/
theorem returns_idle {ρ : Type} {Q : ρ → Files → Prop} {c : Command} {next : Bool → Script ρ}
    (idle : ∀ a, f.perform c a = some f) (rest : ∀ passed, Returns G Q (next passed) f) :
    Returns G Q (do let passed ← status c; next passed) f := by
  intro a t done _
  cases (idle a).symm.trans done
  exact rest a.zero

theorem returns_run {ρ : Type} {Q : ρ → Files → Prop} {c : Command} {p : Script ρ}
    (idle : ∀ a, f.perform c a = some f) (rest : Returns G Q p f) :
    Returns G Q (do run c; p) f := by
  intro a t done _
  cases (idle a).symm.trans done
  exact rest

/-- `a && b` of two tests. -/
theorem returns_both {Q : Bool → Files → Prop} {c c' : Command} {holds holds' : Bool}
    (test : ∀ a, f.perform c a = f.test holds a) (test' : ∀ a, f.perform c' a = f.test holds' a)
    (rest : Q (holds && holds') f) : Returns G Q (Calls.both (status c) (status c')) f := by
  apply returns_test test
  cases holds with
  | false => exact rest
  | true =>
      intro a t done _
      rw [test'] at done
      obtain ⟨rfl, zero⟩ := test_cases done
      rw [← zero] at rest
      exact rest

end Rules

/-- A prebuilt that is accepted is the image of the run. -/
theorem tryPrebuilt_returns (i : Inputs) (f : Files) :
    Returns (OwnImage defaultVersion i)
      (fun accepted t => accepted = true → Coherent defaultVersion i t)
      (tryPrebuilt defaultVersion hostArch i) f := by
  unfold tryPrebuilt
  split
  · rintro ⟨⟩
  refine returns_idle (fun _ => rfl) fun head => ?_
  split
  · rintro ⟨⟩
  refine returns_idle (fun _ => rfl) fun got => ?_
  split
  · apply returns_run (fun _ => rfl)
    rintro ⟨⟩
  apply returns_run (fun _ => rfl)
  intro a t unpacked image
  cases unpacked
  have image : a.zero = true → a.members.bzImage = some (i.source defaultVersion) := image
  show Returns _ _ (if (!a.zero) = true then _ else _) _
  split
  · apply returns_run (fun _ => rfl)
    rintro ⟨⟩
  rename_i zero
  refine Calls.ends_bind.2 (returns_both (fun _ => rfl) (fun _ => rfl) ?_)
  split
  · rintro ⟨⟩
  rename_i there
  apply returns_run (fun _ => rfl)
  intro _
  have brought := image (by simpa using zero)
  simp only [Bool.not_eq_true', Bool.not_eq_false, Bool.and_eq_true] at there
  refine ⟨?_, there.2⟩
  simp [Files.unpack, brought]

theorem prebuilt_returns (i : Inputs) (f : Files) :
    Returns (OwnImage defaultVersion i)
      (fun accepted t => accepted = true → Coherent defaultVersion i t)
      (Calls.both (tryPrebuilt defaultVersion hostArch i) (status .testBzImage)) f := by
  refine Calls.ends_bind.2 (Calls.Ends.mono ?_ (tryPrebuilt_returns i f))
  intro accepted t coherent
  split
  · rename_i yes
    intro a t' done _ _
    obtain ⟨rfl, -⟩ := test_cases done
    exact coherent yes
  · rintro ⟨⟩

/-- Each command of the part that is safe by itself, and what it leaves. -/
theorem safe_run {ρ : Type} {c : Command} {p : Script ρ}
    (due : Due defaultVersion hostArch i f c)
    (rest : ∀ a t, f.perform c a = some t →
      p.Safe Files.perform (OwnImage defaultVersion i) (Due defaultVersion hostArch i) t) :
    (do run c; p).Safe Files.perform (OwnImage defaultVersion i)
      (Due defaultVersion hostArch i) f :=
  ⟨due, fun a t done _ => rest a t done⟩

/-- What is built from source is built from the sources of the run, when these are those of
its `KERNEL_VERSION`. -/
theorem buildFromSource_safe (own : i.kernelVersion defaultVersion = i.srcVersion defaultVersion)
    (f : Files) : (buildFromSource defaultVersion hostArch i).Safe Files.perform
      (OwnImage defaultVersion i) (Due defaultVersion hostArch i) f := by
  refine Calls.safe_bind (plain_safe ?_ f) ?_
  · exact Calls.only_ask fun _ => trivial
  intro a f tools _
  show (if (!a.zero) = true then _ else _ : Script Outcome).Safe _ _ _ _
  split
  · trivial
  refine safe_run trivial fun a f₁ _ => ?_
  refine safe_run trivial fun a f₂ defconfig => ?_
  obtain rfl := succeed_cases defconfig
  refine safe_run trivial fun a f₃ merge => ?_
  obtain rfl := succeed_cases merge
  refine safe_run trivial fun a f₄ image => ?_
  obtain rfl := succeed_cases image
  refine safe_run trivial fun a f₅ prepare => ?_
  obtain rfl := succeed_cases prepare
  refine safe_run trivial fun a f₆ copy => ?_
  obtain rfl := succeed_cases copy
  refine safe_run ⟨rfl, ?_, rfl⟩ fun a f₇ _ => trivial
  rw [Inputs.source, own]

/-- **One run** of `build_kernel`. -/
theorem buildKernel_safe (own : i.kernelVersion defaultVersion = i.srcVersion defaultVersion)
    (fresh : Fresh defaultVersion hostArch i f) :
    (buildKernel defaultVersion hostArch i).Safe Files.perform (OwnImage defaultVersion i)
      (Due defaultVersion hostArch i) f := by
  refine Calls.safe_bind (plain_safe ?_ f) ?_
  · exact Calls.only_both (Calls.only_ask fun _ => trivial) (Calls.only_ask fun _ => trivial)
  apply returns_both (fun _ => rfl) (fun _ => rfl)
  split
  · rename_i found
    simp only [Bool.and_eq_true, decide_eq_true_eq] at found
    refine safe_run (fresh found.1 found.2) fun a t _ => ?_
    exact safe_run trivial fun _ _ _ => trivial
  refine Calls.safe_bind (plain_safe ?_ f) ?_
  · exact Calls.only_both (tryPrebuilt_plain i) (Calls.only_ask fun _ => trivial)
  refine Calls.Ends.mono ?_ (prebuilt_returns i f)
  intro accepted t coherent
  split
  · rename_i yes
    exact safe_run ⟨rfl, coherent yes⟩ fun _ _ _ => trivial
  · exact buildFromSource_safe own t

/-! ## The sequence of runs -/

variable (defaultVersion hostArch)

/-- When a run takes the branch that skips the build, the image is the one it would
build. -/
def State.SkipsCoherent (s : State) : Prop :=
  ∀ i next, s.script = some (i, .call .skip next) → Coherent defaultVersion i s.files

/-- The next command of the run in progress, with the inputs of that run. -/
def State.next (s : State) : Option (Inputs × Command) :=
  match s.script with
  | some (i, .call c _) => some (i, c)
  | _ => none

/-- A run has the sources of its own `KERNEL_VERSION`; two runs with the same files on
end have the same `kernel.config` and `KERNEL_VERSION`; a run does not find an image and
its own stamp where a run before it has changed one of them and ended without a stamp;
and a tarball that unpacks without an error brings the image of the run. -/
def State.Orderly (s : State) : Action → Prop
  | .start i =>
      i.kernelVersion defaultVersion = i.srcVersion defaultVersion ∧
      (∀ j ∈ s.seen, j.expected hostArch = i.expected hostArch →
        j.kernelConfig = i.kernelConfig ∧
        j.kernelVersion defaultVersion = i.kernelVersion defaultVersion) ∧
      (s.dirty = true →
        ¬ (s.files.bzImage.isSome ∧ s.files.configStamp = some (i.expected hostArch)))
  | .command a => ∀ due ∈ s.next, OwnImage defaultVersion due.1 due.2 a
  | .stop => True

structure Cached (s : State) : Prop where
  running : ∀ i rest, s.script = some (i, rest) → i ∈ s.seen ∧
    rest.Safe Files.perform (OwnImage defaultVersion i) (Due defaultVersion hostArch i) s.files
  /-- What the stamp there says is so. -/
  clean : s.dirty = false → ∀ stamp, s.files.configStamp = some stamp →
    ∃ j ∈ s.seen, stamp = j.expected hostArch ∧ Coherent defaultVersion j s.files

variable {defaultVersion hostArch} {s s' : State}

/-- A command that leaves the run clean leaves the image and the stamp, or makes both
those of the run. -/
theorem perform_clean {c : Command} {a : Answer} {t : Files}
    (due : Due defaultVersion hostArch i f c) (done : f.perform c a = some t)
    (clean : c.dirties defaultVersion hostArch i s.dirty a = false) :
    (t.configStamp = some (i.expected hostArch) ∧ Coherent defaultVersion i t) ∨
    (s.dirty = false ∧ t.bzImage = f.bzImage ∧ t.configStamp = f.configStamp ∧
      (f.moduleSymvers = true → t.moduleSymvers = true)) := by
  cases c with
  | writeStamp expected =>
      obtain ⟨rfl, coherent⟩ := due
      obtain rfl := succeed_cases done
      exact .inl ⟨rfl, coherent⟩
  | tar tag =>
      cases done
      simp only [Command.dirties] at clean
      split at clean
      · rename_i own
        obtain ⟨bzImage, symvers, configStamp⟩ := own
        refine .inl ⟨?_, ?_, ?_⟩
        · simp [Files.unpack, configStamp]
        · simp [Files.unpack, bzImage]
        · simp [Files.unpack, symvers]
      · simp only [Bool.or_eq_false_iff, Option.isSome_eq_false_iff, Option.isNone_iff_eq_none]
          at clean
        obtain ⟨⟨dirty, bzImage⟩, configStamp⟩ := clean
        refine .inr ⟨dirty, ?_, ?_, ?_⟩
        · simp [Files.unpack, bzImage]
        · simp [Files.unpack, configStamp]
        · intro symvers
          simp [Files.unpack, symvers]
  | makeBzImage version => cases clean
  | testBzImage | testModuleSymvers | stampFresh _ =>
      obtain ⟨rfl, -⟩ := test_cases done
      exact .inr ⟨clean, rfl, rfl, id⟩
  | makeDefconfig _ | makeModulesPrepare =>
      obtain rfl := succeed_cases done
      exact .inr ⟨clean, rfl, rfl, id⟩
  | mergeConfig fragment =>
      obtain ⟨config, -, succeeds⟩ := Option.bind_eq_some_iff.1 done
      obtain rfl := succeed_cases succeeds
      exact .inr ⟨clean, rfl, rfl, id⟩
  | copySymvers =>
      simp only [Files.perform] at done
      split at done
      · obtain rfl := succeed_cases done
        exact .inr ⟨clean, rfl, rfl, fun _ => rfl⟩
      · cases done
  | skip | linkSource | curlHead _ | curl _ | removeTarball _ | mkdir | haveTools =>
      cases done
      exact .inr ⟨clean, rfl, rfl, id⟩

/-- A run starts with a stamp that is right if it is its own. -/
theorem start_fresh (cached : Cached defaultVersion hostArch s) {i : Inputs}
    (orderly : s.Orderly defaultVersion hostArch (.start i)) :
    Fresh defaultVersion hostArch i s.files := by
  intro there own
  obtain ⟨-, same, unstamped⟩ := orderly
  cases dirty : s.dirty with
  | true => exact absurd ⟨there, own⟩ (unstamped dirty)
  | false =>
      obtain ⟨j, seen, stamp, image, symvers⟩ := cached.clean dirty _ own
      obtain ⟨config, version⟩ := same j seen stamp.symm
      rw [Inputs.source, config, version] at image
      exact ⟨image, symvers⟩

theorem command_cached {i : Inputs} {c : Command} {next : Answer → Script Outcome} {a : Answer}
    {t : Files} (cached : Cached defaultVersion hostArch s)
    (at_ : s.script = some (i, .call c next)) (image : OwnImage defaultVersion i c a)
    (done : s.files.perform c a = some t) : Cached defaultVersion hostArch
      { s with
        files := t
        dirty := c.dirties defaultVersion hostArch i s.dirty a
        script := some (i, next a) } := by
  obtain ⟨seen, safe⟩ := cached.running i _ at_
  refine ⟨?_, ?_⟩
  · rintro j rest ⟨⟩
    exact ⟨seen, safe.step done image⟩
  · intro clean stamp there
    rcases perform_clean safe.1 done clean with
      ⟨own, coherent⟩ | ⟨dirty, bzImage, configStamp, symvers⟩
    · cases own.symm.trans there
      exact ⟨i, seen, rfl, coherent⟩
    · obtain ⟨j, seenJ, same, imageJ, symversJ⟩ :=
        cached.clean dirty stamp (configStamp.symm.trans there)
      exact ⟨j, seenJ, same, bzImage.trans imageJ, symvers symversJ⟩

/-- **One step.** -/
theorem step_cached {a : Action} (cached : Cached defaultVersion hostArch s)
    (orderly : s.Orderly defaultVersion hostArch a)
    (next : step defaultVersion hostArch s a = some s') : Cached defaultVersion hostArch s' := by
  cases a with
  | start i =>
      simp only [step] at next
      split at next <;> cases next
      refine ⟨?_, ?_⟩
      · rintro j rest ⟨⟩
        exact ⟨List.mem_cons_self, buildKernel_safe orderly.1 (start_fresh cached orderly)⟩
      · intro clean stamp there
        obtain ⟨j, seen, right⟩ := cached.clean clean stamp there
        exact ⟨j, List.mem_cons_of_mem _ seen, right⟩
  | command a =>
      simp only [step] at next
      split at next
      · rename_i i c rest at_
        obtain ⟨t, done, rfl⟩ := Option.map_eq_some_iff.1 next
        refine command_cached cached at_ (orderly (i, c) ?_) done
        rw [State.next, at_]
        rfl
      · cases next
  | stop =>
      simp only [step] at next
      split at next <;> cases next
      refine ⟨?_, cached.clean⟩
      rintro i rest ⟨⟩

theorem Cached.skipsCoherent (cached : Cached defaultVersion hostArch s) :
    s.SkipsCoherent defaultVersion := by
  intro i next at_
  exact (cached.running i _ at_).2.1

/-- **The cache is coherent** along every orderly sequence of runs. -/
theorem setup_cache_coherent (defaultVersion : Text → Text) (hostArch : Text) (as : List Action)
    (meets : (system defaultVersion hostArch).Meets (State.Orderly defaultVersion hostArch)
      ⟨.none, [], false, none⟩ as) :
    (system defaultVersion hostArch).Always (State.SkipsCoherent defaultVersion)
      ⟨.none, [], false, none⟩ as := by
  have cached : (system defaultVersion hostArch).Always (Cached defaultVersion hostArch)
      ⟨.none, [], false, none⟩ as := by
    refine System.always_of_meets (fun s a t => step_cached) ?_ meets
    refine ⟨?_, ?_⟩
    · rintro i rest ⟨⟩
    · rintro _ stamp ⟨⟩
  exact cached.mono fun s => Cached.skipsCoherent

instance (defaultVersion : Text → Text) (i : Inputs) (c : Command) (a : Answer) :
    Decidable (OwnImage defaultVersion i c a) := by
  unfold OwnImage
  split <;> infer_instance

instance (defaultVersion : Text → Text) (hostArch : Text) (s : State) (a : Action) :
    Decidable (s.Orderly defaultVersion hostArch a) :=
  match a with
  | .start _ => inferInstanceAs (Decidable (_ ∧ _ ∧ _))
  | .command a =>
      inferInstanceAs (Decidable (∀ due ∈ s.next, OwnImage defaultVersion due.1 due.2 a))
  | .stop => .isTrue trivial

theorem next_eq_some {c : Command} (at_ : s.next = some (i, c)) :
    ∃ rest, s.script = some (i, .call c rest) := by
  unfold State.next at at_
  split at at_ <;> cases at_
  exact ⟨_, ‹_›⟩

/-! ### A build from source, and the run after it -/

/-- The default of the shipped `config.defaults`. -/
def shipped (_configDefaults : Text) : Text := text "6.12.6"

def x86 : Text := text "x86_64"

def stock : Inputs :=
  ⟨text "CONFIG_9P_FS=y\n", text "QEMU_MEM=512M\n", none, none, text "#!/bin/sh\n", true⟩

def succeeds : Action := .command ⟨true, .none⟩
def fails : Action := .command ⟨false, .none⟩

/-- The run after it finds the image and the stamp. -/
def buildThen (i : Inputs) : List Action :=
  [.start stock, fails, succeeds, succeeds, succeeds, succeeds, succeeds, succeeds, succeeds,
    succeeds, .stop, .start i, succeeds, succeeds]

theorem setup_cache_coherent_rerun :
    ((system shipped x86).run ⟨.none, [], false, none⟩ (buildThen stock)).map State.next =
      some (some (stock, .skip)) ∧
    (system shipped x86).Always (State.SkipsCoherent shipped) ⟨.none, [], false, none⟩
      (buildThen stock) :=
  ⟨by decide, setup_cache_coherent shipped x86 (buildThen stock) (by decide)⟩

def older : Inputs := { stock with environment := some (text "6.6.0") }

/-- The next run asks for another kernel, and the stamp does not see it. -/
theorem setup_cache_stale :
    ∃ s, (system shipped x86).Reachable s ∧ ¬ s.SkipsCoherent shipped := by
  have ends : ((system shipped x86).run ⟨.none, [], false, none⟩ (buildThen older)).map
      (fun s => (s.next, s.files.bzImage.map Source.version)) =
        some (some (older, .skip), some (text "6.12.6")) := by decide
  obtain ⟨s, ran, same⟩ := Option.map_eq_some_iff.1 ends
  obtain ⟨skip, image⟩ := Prod.mk.inj same
  refine ⟨s, ⟨_, _, rfl, ran⟩, ?_⟩
  intro skips
  obtain ⟨rest, at_⟩ := next_eq_some skip
  rw [(skips older rest at_).1] at image
  have version : older.kernelVersion shipped = text "6.12.6" := Option.some.inj image
  exact absurd version (by decide)

end

end Lkmpg.Devtools
