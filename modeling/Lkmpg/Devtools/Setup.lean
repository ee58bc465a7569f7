/-
# Lkmpg.Devtools.Setup -- build_kernel of devtools/setup.sh

A run of the script is a program of commands (`Theory.Calls`), which the environment
answers: tests by the files in `KERNEL_BUILD`, downloads as it likes.  A run may end
after any of its commands.  `set -e` and an interruption are the same here, so a command
whose failure would end the run only ever succeeds.

The other two phases touch none of these files, and `config.local` leaves the paths.  The
hash has no collisions, so a stamp is the text it was computed from, and so is a tag.  What
is in the tarball of a release is up to who has packed it under that tag (pack-prebuilt.sh
takes what it finds in `KERNEL_BUILD`), and `tar` may fail half way.
-/
import Lkmpg.Kernel.Library
import Lkmpg.Theory.Calls
import Lkmpg.Theory.System

namespace Lkmpg.Devtools

open Lkmpg.Kernel Lkmpg.Theory

set_option autoImplicit false

abbrev Text := List UInt8

/-! ## The inputs of a run -/

structure Inputs where
  kernelConfig : Text
  configDefaults : Text
  /-- `KERNEL_VERSION` in the environment. -/
  environment : Option Text
  /-- What `config.local` sets it to, after `config.defaults`. -/
  configLocal : Option Text
  /-- `initramfs/init`, `setup.sh` and `pack-prebuilt.sh`, one after the other. -/
  scripts : Text
  /-- `LKMPG_NO_PREBUILT=1`. -/
  noPrebuilt : Bool
  deriving DecidableEq

/-- `stamp_value`: the hash of the files it is given and `host_arch`. -/
structure Stamp where
  hashed : Text
  hostArch : Text
  deriving DecidableEq

/-- `prebuilt_tag`: the version, `host_arch`, and the hash of five files. -/
structure Tag where
  kernelVersion : Text
  hostArch : Text
  hashed : Text
  deriving DecidableEq

section

variable (defaultVersion : Text → Text) (hostArch : Text)

/-- `KERNEL_VERSION="${KERNEL_VERSION:-6.12.6}"` of `config.defaults`, from which it also
makes `KERNEL_SRC`. -/
def Inputs.srcVersion (i : Inputs) : Text :=
  match i.environment with
  | some (b :: version) => b :: version
  | _ => defaultVersion i.configDefaults

/-- `KERNEL_VERSION`, when `config.local` has been read. -/
def Inputs.kernelVersion (i : Inputs) : Text := i.configLocal.getD (i.srcVersion defaultVersion)

/-- `stamp_hash kernel.config config.defaults`: both files go through one `cat`. -/
def Inputs.expected (i : Inputs) : Stamp := ⟨i.kernelConfig ++ i.configDefaults, hostArch⟩

def Inputs.prebuiltTag (i : Inputs) : Tag :=
  ⟨i.kernelVersion defaultVersion, hostArch, i.kernelConfig ++ i.configDefaults ++ i.scripts⟩

/-! ## KERNEL_BUILD -/

/-- What a configuration or an image was made from: the kernel source, and the fragment
merged on top of its defconfig. -/
structure Source where
  version : Text
  fragment : Option Text
  deriving DecidableEq

structure Files where
  bzImage : Option Source
  /-- `Module.symvers` and `vmlinux.symvers` are there. -/
  moduleSymvers : Bool
  vmlinuxSymvers : Bool
  /-- `.config`. -/
  config : Option Source
  /-- `.config-stamp`. -/
  configStamp : Option Stamp
  deriving DecidableEq

def Files.none : Files := ⟨.none, false, false, .none, .none⟩

/-- The files that `tar` brings into `KERNEL_BUILD`, and what the image, the configuration
and the stamp are of. -/
structure Members where
  bzImage : Option Source
  moduleSymvers : Bool
  config : Option Source
  configStamp : Option Stamp
  deriving DecidableEq

def Members.none : Members := ⟨.none, false, .none, .none⟩

inductive Command where
  | testBzImage
  | testModuleSymvers
  | stampFresh (expected : Stamp)
  /-- `echo "[2/3] Kernel already built (config unchanged, skipping)"`. -/
  | skip
  | linkSource
  | curlHead (tag : Tag)
  | curl (tag : Tag)
  | removeTarball (tag : Tag)
  | mkdir
  /-- `tar -xJf "$tarball"`. -/
  | tar (tag : Tag)
  | writeStamp (expected : Stamp)
  /-- `command -v` of the build tools. -/
  | haveTools
  | makeDefconfig (version : Text)
  | mergeConfig (fragment : Text)
  | makeBzImage (version : Text)
  | makeModulesPrepare
  | copySymvers
  deriving DecidableEq

/-- The exit status, and for `tar` the files it has brought. -/
structure Answer where
  zero : Bool
  members : Members
  deriving DecidableEq

namespace Files

variable (f : Files)

def unpack (m : Members) : Files where
  bzImage := m.bzImage.or f.bzImage
  moduleSymvers := m.moduleSymvers || f.moduleSymvers
  vmlinuxSymvers := f.vmlinuxSymvers
  config := m.config.or f.config
  configStamp := m.configStamp.or f.configStamp

/-- A test answers what is the case. -/
def test (holds : Bool) (a : Answer) : Option Files := if a.zero = holds then some f else .none

/-- A command that succeeds. -/
def succeed (done : Files) (a : Answer) : Option Files := if a.zero then some done else .none

def perform : Command → Answer → Option Files
  | .testBzImage, a => f.test f.bzImage.isSome a
  | .testModuleSymvers, a => f.test f.moduleSymvers a
  | .stampFresh expected, a => f.test (f.configStamp = some expected) a
  | .skip, _ | .linkSource, _ | .curlHead _, _ | .curl _, _ | .removeTarball _, _ | .mkdir, _
  | .haveTools, _ => some f
  | .tar _, a => some (f.unpack a.members)
  | .writeStamp expected, a => succeed { f with configStamp := some expected } a
  | .makeDefconfig version, a => succeed { f with config := some ⟨version, .none⟩ } a
  | .mergeConfig fragment, a =>
      f.config.bind fun config =>
        succeed { f with config := some { config with fragment := some fragment } } a
  | .makeBzImage version, a =>
      f.config.bind fun config =>
        succeed { f with
          bzImage := some { config with version := version }
          vmlinuxSymvers := true } a
  | .makeModulesPrepare, a => succeed f a
  | .copySymvers, a =>
      if f.vmlinuxSymvers then succeed { f with moduleSymvers := true } a else .none

end Files

/-! ## The script -/

abbrev Script := Calls Command Answer

/-- A command in a condition. -/
def status (c : Command) : Script Bool := .ask c Answer.zero

def run (c : Command) : Script Unit := .ask c fun _ => ()

/-- How `build_kernel` ends. -/
inductive Outcome where
  | skipped
  | prebuilt
  | built
  /-- A build tool is missing. -/
  | died
  deriving DecidableEq

/-- It is called in a condition, where `set -e` does nothing: `mkdir` and `ln` may fail. -/
def tryPrebuilt (i : Inputs) : Script Bool := do
  if i.noPrebuilt then return false
  let tag := i.prebuiltTag defaultVersion hostArch
  if !(← status (.curlHead tag)) then return false
  if !(← status (.curl tag)) then
    run (.removeTarball tag)
    return false
  run .mkdir
  if !(← status (.tar tag)) then
    run (.removeTarball tag)
    return false
  if !(← Calls.both (status .testBzImage) (status .testModuleSymvers)) then return false
  run .linkSource
  return true

/-- The part of `build_kernel` that builds from source. -/
def buildFromSource (i : Inputs) : Script Outcome := do
  if !(← status .haveTools) then return .died
  run .mkdir
  run (.makeDefconfig (i.srcVersion defaultVersion))
  run (.mergeConfig i.kernelConfig)
  run (.makeBzImage (i.srcVersion defaultVersion))
  run .makeModulesPrepare
  run .copySymvers
  run (.writeStamp (i.expected hostArch))
  return .built

def buildKernel (i : Inputs) : Script Outcome := do
  if ← Calls.both (status .testBzImage) (status (.stampFresh (i.expected hostArch))) then
    run .skip
    run .linkSource
    return .skipped
  if ← Calls.both (tryPrebuilt defaultVersion hostArch i) (status .testBzImage) then
    run (.writeStamp (i.expected hostArch))
    return .prebuilt
  buildFromSource defaultVersion hostArch i

/-! ## Runs of the script -/

structure State where
  files : Files
  /-- The inputs of the runs so far. -/
  seen : List Inputs
  /-- A run has changed the image or the stamp, and no run has written its own stamp
  since. -/
  dirty : Bool
  /-- The run in progress, with what is left of it. -/
  script : Option (Inputs × Script Outcome)

inductive Action where
  | start (i : Inputs)
  | command (a : Answer)
  /-- The run has returned, or ends here. -/
  | stop

/-- What a run is to build. -/
def Inputs.source (i : Inputs) : Source := ⟨i.kernelVersion defaultVersion, some i.kernelConfig⟩

/-- The image, the symbols and the stamp of the run. -/
def Members.Own (i : Inputs) (m : Members) : Prop :=
  m.bzImage = some (i.source defaultVersion) ∧ m.moduleSymvers = true ∧
    m.configStamp = some (i.expected hostArch)

instance (i : Inputs) (m : Members) : Decidable (m.Own defaultVersion hostArch i) :=
  inferInstanceAs (Decidable (_ ∧ _ ∧ _))

/-- `dirty` after a command of a run. -/
def Command.dirties (i : Inputs) (dirty : Bool) (a : Answer) : Command → Bool
  | .tar _ =>
      if a.members.Own defaultVersion hostArch i then false
      else dirty || a.members.bzImage.isSome || a.members.configStamp.isSome
  | .makeBzImage _ => true
  | .writeStamp _ => false
  | _ => dirty

def step (s : State) : Action → Option State
  | .start i =>
      match s.script with
      | none => some { s with
          seen := i :: s.seen
          script := some (i, buildKernel defaultVersion hostArch i) }
      | some _ => none
  | .command a =>
      match s.script with
      | some (i, .call c next) =>
          (s.files.perform c a).map fun f =>
            { s with
              files := f
              dirty := c.dirties defaultVersion hostArch i s.dirty a
              script := some (i, next a) }
      | _ => none
  | .stop =>
      match s.script with
      | some _ => some { s with script := none }
      | none => none

def system : System State Action where
  Start s := s = ⟨.none, [], false, none⟩
  step := step defaultVersion hostArch

end

end Lkmpg.Devtools
