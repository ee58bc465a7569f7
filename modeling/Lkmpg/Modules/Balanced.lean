/-
# Lkmpg.Modules.Balanced -- no module leaks or misuses what it takes

Each init function, whichever of its calls fails, gives back all it has taken, or has what
it has checked for; then the exit function gives it back.  Nothing is released that is
not there, is released while something needs it, or is taken twice.

Some calls are not checked, or not for the load: those for the device files of chardev.c,
static_key.c and chardev2.c and for the files of hello-debugfs.c, and the probe of dma.c.
What they take is there when none of them has failed.
-/
import Lkmpg.Modules.CharDevices
import Lkmpg.Modules.OtherDevices

namespace Lkmpg.Modules

open Lkmpg.Theory Lkmpg.Theory.Lifecycle

set_option autoImplicit false

def Has (keeps : List Resource) (s : Holding Resource) : Prop := ∀ r ∈ keeps, r ∈ s.held

/-! ## Character devices -/

/-- The device file may be there or not. -/
theorem chardevExit_returns (major : Int) {held : List Resource}
    (is : held = [.device ⟨major, 0⟩, .cls, .chrdev major] ∨ held = [.cls, .chrdev major]) :
    Returns needs Nothing (chardevExit major) ⟨held, false⟩ := by
  rcases is with rfl | rfl <;> simp [chardevExit, deviceDestroy, classDestroy, unregisterChrdev]

theorem chardev_clean : Clean needs chardev fun major => Has [.cls, .chrdev major] := by
  show Returns needs _ chardevInit ⟨[], false⟩
  unfold chardevInit
  refine returns_allot (by simp) ?_ ?_
  · exact fun ret failed => returns_failed failed
  intro major _
  refine returns_acquire (fun _ => negative_iff) (by simp) ?_ ?_
  · intro ret failed
    simpa [unregisterChrdev] using settled_failed failed
  refine returns_attempt ?_ ?_
  · exact returns_loaded (by simp [Has]) (chardevExit_returns major (.inr rfl))
  · intro _
    exact returns_loaded (by simp [Has]) (chardevExit_returns major (.inl rfl))

theorem chardev2_clean : Clean needs chardev2 fun _ => Has [.cls, .chrdev majorNum] := by
  show Returns needs _ chardev2Init ⟨[], false⟩
  unfold chardev2Init
  refine returns_acquire (fun _ => negative_iff) (by simp) ?_ ?_
  · exact fun ret failed => returns_failed failed
  refine returns_acquire (fun _ => negative_iff) (by simp) ?_ ?_
  · intro ret failed
    simpa [unregisterChrdev] using settled_failed failed
  refine returns_attempt ?_ ?_
  · exact returns_loaded (by simp [Has]) (chardevExit_returns majorNum (.inr rfl))
  · intro _
    exact returns_loaded (by simp [Has]) (chardevExit_returns majorNum (.inl rfl))

/-- With the device file, when no call fails. -/
theorem chardev_full :
    Full needs chardev fun major => Has [.device ⟨major, 0⟩, .cls, .chrdev major] := by
  show Fills needs _ chardevInit .none_
  unfold chardevInit
  refine fills_allot fun major positive s₁ chrdev => ?_
  rw [if_neg (Int.not_lt.2 positive)]
  refine fills_call rfl fun s₂ cls => ?_
  refine fills_run rfl fun s₃ device _ => ?_
  intro r member
  rwa [device, cls, chrdev]

theorem chardev2_full :
    Full needs chardev2 fun _ => Has [.device ⟨majorNum, 0⟩, .cls, .chrdev majorNum] := by
  show Fills needs _ chardev2Init .none_
  unfold chardev2Init
  refine fills_call rfl fun s₁ chrdev => ?_
  refine fills_call rfl fun s₂ cls => ?_
  refine fills_run rfl fun s₃ device _ => ?_
  intro r member
  rwa [device, cls, chrdev]

theorem ioctl_clean :
    Clean needs ioctl fun major => Has [.cdev ⟨major, 0⟩, .region ⟨major, 0⟩] := by
  show Returns needs _ ioctlInit ⟨[], false⟩
  unfold ioctlInit
  refine returns_allot (by simp) ?_ ?_
  · exact fun ret failed => returns_failed failed
  intro major _
  refine returns_acquire (fun _ => nonzero_iff) (by simp) ?_ ?_
  · intro ret failed
    simpa [unregisterChrdevRegion] using settled_failed failed
  refine returns_loaded (by simp [Has]) ?_
  simp [ioctlExit, cdevDel, unregisterChrdevRegion]

/-! ## led.c and dht11.c -/

namespace GpioDevice

variable (v : GpioDevice) {dev : Dev} {ret : Int}

/-- What the driver works with, the last one taken first. -/
def keeps (dev : Dev) : List Resource :=
  [.gpio v.gpio, .device dev, .cls, .cdev dev, .region dev]

/-- The init function failed, or all is there. -/
abbrev Ended : Int × Dev → Holding Resource → Prop :=
  Settled needs v.driver fun dev => Has (v.keeps dev)

theorem fail1_returns (failed : ret < 0) :
    Returns needs v.Ended (fail1 dev ret) ⟨[.region dev], false⟩ := by
  simpa [fail1, unregisterChrdevRegion] using settled_failed failed

theorem fail2_returns (failed : ret < 0) :
    Returns needs v.Ended (fail2 dev ret) ⟨[.cdev dev, .region dev], false⟩ := by
  simpa [fail2, cdevDel] using v.fail1_returns failed

theorem fail3_returns (failed : ret < 0) :
    Returns needs v.Ended (fail3 dev ret) ⟨[.cls, .cdev dev, .region dev], false⟩ := by
  simpa [fail3, classDestroy] using v.fail2_returns failed

theorem fail4_returns (failed : ret < 0) :
    Returns needs v.Ended (fail4 dev ret)
      ⟨[.device dev, .cls, .cdev dev, .region dev], false⟩ := by
  simpa [fail4, deviceDestroy] using v.fail3_returns failed

theorem fail5_returns (failed : ret < 0) :
    Returns needs v.Ended (v.fail5 dev ret) ⟨v.keeps dev, false⟩ := by
  simpa [fail5, gpioFree, keeps] using v.fail4_returns failed

theorem exit_returns (dev : Dev) : Returns needs Nothing (v.exit dev) ⟨v.keeps dev, false⟩ := by
  simp [exit, gpioSetValue, gpioFree, deviceDestroy, classDestroy, cdevDel,
    unregisterChrdevRegion, keeps]

theorem addDevice_returns (dev : Dev) :
    Returns needs v.Ended (v.addDevice dev) ⟨[.region dev], false⟩ := by
  unfold addDevice
  refine returns_acquire (fun _ => nonzero_iff) (by simp) ?_ ?_
  · exact fun ret failed => v.fail1_returns failed
  refine returns_acquire (fun _ => negative_iff) (by simp) ?_ ?_
  · exact fun ret failed => v.fail2_returns failed
  refine returns_acquire (fun _ => negative_iff) (by simp) ?_ ?_
  · exact fun ret failed => v.fail3_returns failed
  refine returns_acquire (fun _ => nonzero_iff) (by simp) ?_ ?_
  · exact fun ret failed => v.fail4_returns failed
  refine returns_use (fun _ => nonzero_iff) (by simp) ?_ ?_
  · exact fun ret failed => v.fail5_returns failed
  exact returns_loaded (fun r member => member) (v.exit_returns dev)

theorem clean : Clean needs v.driver fun dev => Has (v.keeps dev) := by
  show Returns needs _ v.init ⟨[], false⟩
  unfold init
  split
  · refine returns_acquire (fun _ => negative_iff) (by simp) ?_ ?_
    · exact fun ret failed => returns_failed failed
    · exact v.addDevice_returns _
  · refine returns_allot (by simp) ?_ ?_
    · exact fun ret failed => returns_failed failed
    · exact fun major _ => v.addDevice_returns _

end GpioDevice

/-! ## vinput.c and vnetloop.c -/

theorem vinput_clean : Clean needs vinput fun vinputDev => Has [.cls, .chrdev vinputDev] := by
  show Returns needs _ vinputInit ⟨[], false⟩
  unfold vinputInit
  refine returns_allot (by simp) ?_ ?_
  · exact fun ret failed => returns_failed failed
  intro major _
  refine returns_acquire (fun _ => negative_iff) (by simp) ?_ ?_
  · intro ret failed
    simpa [unregisterChrdev] using settled_failed failed
  refine returns_loaded (by simp [Has]) ?_
  simp [vinputEnd, unregisterChrdev, classDestroy]

theorem vnetloop_clean : Clean needs vnetloop fun _ => Has [.netdev, .etherdev] := by
  show Returns needs _ vnetloopInit ⟨[], false⟩
  unfold vnetloopInit
  refine returns_acquire (fun _ => negative_iff) (by simp) ?_ ?_
  · exact fun ret failed => returns_failed (by decide)
  refine returns_acquire (fun _ => nonzero_iff) (by simp) ?_ ?_
  · intro ret failed
    simpa [freeNetdev] using settled_failed failed
  refine returns_loaded (by simp [Has]) ?_
  simp [vnetloopExit, freeNetdev]

/-! ## blkram.c -/

namespace Blkram

variable (era : Era) (putsQueue : Bool) {major ret : Int}

/-- The last one taken first. -/
def keeps (major : Int) : List Resource :=
  [.added, .disk, .queue, .tagSet, .data, .blkram, .blkdev major]

/-- What is released with `put_disk`, or by `blk_cleanup_queue` before 5.15. -/
def PutsQueue : Prop := era = .allocDisk ∨ putsQueue = true

abbrev Ended : Int × Int → Holding Resource → Prop :=
  Settled needs (blkram era putsQueue) fun major => Has (keeps major)

theorem errUnreg_returns (failed : ret < 0) :
    Returns needs (Ended era putsQueue) (errUnreg major ret) ⟨[.blkdev major], false⟩ := by
  simpa [errUnreg] using settled_failed failed

theorem errFreeDev_returns (failed : ret < 0) :
    Returns needs (Ended era putsQueue) (errFreeDev major ret)
      ⟨[.blkram, .blkdev major], false⟩ := by
  simpa [errFreeDev] using errUnreg_returns era putsQueue failed

theorem errFreeData_returns (failed : ret < 0) :
    Returns needs (Ended era putsQueue) (errFreeData major ret)
      ⟨[.data, .blkram, .blkdev major], false⟩ := by
  simpa [errFreeData] using errFreeDev_returns era putsQueue failed

theorem errTagSet_returns (failed : ret < 0) :
    Returns needs (Ended era putsQueue) (errTagSet major ret)
      ⟨[.tagSet, .data, .blkram, .blkdev major], false⟩ := by
  simpa [errTagSet] using errFreeData_returns era putsQueue failed

theorem errCleanupQueue_returns (failed : ret < 0) :
    Returns needs (Ended era putsQueue) (errCleanupQueue major ret)
      ⟨[.queue, .tagSet, .data, .blkram, .blkdev major], false⟩ := by
  simpa [errCleanupQueue] using errTagSet_returns era putsQueue failed

theorem errPutDisk_returns (failed : ret < 0) :
    Returns needs (Ended era true) (errPutDisk true major ret)
      ⟨[.disk, .queue, .tagSet, .data, .blkram, .blkdev major], false⟩ := by
  rw [errPutDisk, returns_bind]
  simpa [putDisk] using errTagSet_returns era true failed

theorem exit_returns (puts : PutsQueue era putsQueue) (major : Int) :
    Returns needs Nothing (exit era putsQueue major) ⟨keeps major, false⟩ := by
  rw [exit, returns_bind]
  rcases puts with rfl | rfl
  · simp [dropDisk, keeps]
  · cases era <;> simp [dropDisk, putDisk, keeps]

/-- The disk and its queue are made, or none of them. -/
theorem returns_blkMqAllocDisk {failed next : Int → Prog (Int × Int)} {held : List Resource}
    {Q : Int × Int → Holding Resource → Prop} (queue : Ready needs held .queue)
    (disk : Ready needs (.queue :: held) .disk)
    (fails : ∀ a < 0, Returns needs Q (failed a) ⟨held, false⟩)
    (succeeds : Returns needs Q (next 0) ⟨.disk :: .queue :: held, false⟩) :
    Returns needs Q (do
      let ret ← blkMqAllocDisk
      if ret < 0 then failed ret else next ret) ⟨held, false⟩ := by
  rw [returns_bind, blkMqAllocDisk]
  refine returns_acquire (fun _ => negative_iff) queue ?_ ?_
  · intro a negative
    rw [returns_pure, if_pos negative]
    exact fails a negative
  · refine returns_take disk ?_
    rw [returns_pure, if_neg (by decide)]
    exact succeeds

theorem makeDisk_returns (puts : PutsQueue era putsQueue) (major : Int) :
    Returns needs (Ended era putsQueue) (makeDisk putsQueue major era)
      ⟨[.tagSet, .data, .blkram, .blkdev major], false⟩ := by
  have loaded : Returns needs (Ended era putsQueue) (pure (0, major)) ⟨keeps major, false⟩ :=
    returns_loaded (fun r member => member) (exit_returns era putsQueue puts major)
  cases era with
  | allocDisk =>
      refine returns_acquire (fun _ => negative_iff) (by simp) ?_ ?_
      · exact fun ret failed => errTagSet_returns _ _ failed
      refine returns_acquire (fun _ => negative_iff) (by simp) ?_ ?_
      · exact fun ret failed => errCleanupQueue_returns _ _ (by decide)
      exact returns_take (by simp) loaded
  | addDiskVoid =>
      refine returns_blkMqAllocDisk (by simp) (by simp) ?_ ?_
      · exact fun ret failed => errTagSet_returns _ _ failed
      exact returns_take (by simp) loaded
  | addDisk =>
      obtain rfl : putsQueue = true := puts.resolve_left nofun
      refine returns_blkMqAllocDisk (by simp) (by simp) ?_ ?_
      · exact fun ret failed => errTagSet_returns _ _ failed
      refine returns_acquire (fun _ => nonzero_iff) (by simp) ?_ ?_
      · exact fun ret failed => errPutDisk_returns _ failed
      exact loaded

theorem clean (puts : PutsQueue era putsQueue) :
    Clean needs (blkram era putsQueue) fun major => Has (keeps major) := by
  show Returns needs _ (init era putsQueue) ⟨[], false⟩
  unfold init
  refine returns_allot (by simp) ?_ ?_
  · exact fun ret failed => returns_failed failed
  intro major _
  refine returns_acquire (fun _ => negative_iff) (by simp) ?_ ?_
  · exact fun ret failed => errUnreg_returns era putsQueue (by decide)
  refine returns_acquire (fun _ => negative_iff) (by simp) ?_ ?_
  · exact fun ret failed => errFreeDev_returns era putsQueue (by decide)
  refine returns_acquire (fun _ => nonzero_iff) (by simp) ?_ ?_
  · exact fun ret failed => errFreeData_returns era putsQueue failed
  exact makeDisk_returns era putsQueue puts major

/-- Where `put_disk` leaves the queue of `blk_mq_alloc_disk`, it is there after the module,
and its tag set was released under it. -/
theorem queue_left (newer : era ≠ .allocDisk) :
    ∃ as s, (system needs (blkram era false)).run (start _) as = some s ∧
      s.phase = .unloaded ∧ s.res = ⟨[.queue], true⟩ := by
  refine ⟨[.insmod, .answer 240] ++ List.replicate 6 (.answer 0) ++ [.rmmod] ++
    List.replicate 6 (.answer 0), ?_⟩
  cases era with
  | allocDisk => exact absurd rfl newer
  | addDiskVoid | addDisk => exact ⟨_, rfl, rfl, rfl⟩

end Blkram

/-! ## dma.c -/

namespace Dma

/-- What the driver core holds for the device, the driver and its device under it. -/
def bound : List Resource := [.platformDriver, .platformAdded, .platformDevice]

/-- The probe maps nothing at its end, and what `devm_` calls took is there: all of it
when it succeeds. -/
def Probed (_ : Int) (s : Holding Resource) : Prop :=
  ∃ taken : List Managed, s = ⟨taken.map .managed ++ bound, false⟩

theorem probe_returns : Returns needs Probed probe ⟨bound, false⟩ := by
  unfold probe bound
  refine returns_use (fun _ => nonzero_iff) (by simp) ?_ ?_
  · exact fun ret failed => ⟨[], rfl⟩
  refine returns_acquire (fun _ => negative_iff) (by simp) ?_ ?_
  · exact fun ret failed => ⟨[], rfl⟩
  refine returns_acquire (fun _ => negative_iff) (by simp) ?_ ?_
  · exact fun ret failed => ⟨[.demo], rfl⟩
  refine returns_acquire (fun _ => negative_iff) (by simp) ?_ ?_
  · exact fun ret failed => ⟨[.coherent, .demo], rfl⟩
  refine returns_acquire (fun _ => nonzero_iff) (by simp) ?_ ?_
  · exact fun ret failed => ⟨[.streaming, .coherent, .demo], rfl⟩
  rw [returns_release List.mem_cons_self (by simp)]
  exact ⟨[.streaming, .coherent, .demo], rfl⟩

/-- The driver core releases what `devm_` calls took. -/
theorem returns_shed_managed {ρ : Type} {Q : ρ → Holding Resource → Prop} {next : Unit → Prog ρ}
    (taken : List Managed) :
    Returns needs Q (run (.shed .platformDriver) >>= next) ⟨taken.map .managed ++ bound, false⟩ ↔
      Returns needs Q (next ()) ⟨bound, false⟩ :=
  returns_shed_over (by simp) (by simp [bound]) (by simp [bound])

/-- The driver is not registered, or it is and the device is probed. -/
theorem platformDriverRegister_returns :
    Returns needs (fun ret s => ret < 0 ∧ s = ⟨[.platformAdded, .platformDevice], false⟩ ∨
        ret = 0 ∧ ∃ taken : List Managed, s = ⟨taken.map .managed ++ bound, false⟩)
      platformDriverRegister ⟨[.platformAdded, .platformDevice], false⟩ := by
  unfold platformDriverRegister
  refine returns_acquire (fun _ => nonzero_iff) (by simp) ?_ ?_
  · exact fun ret failed => .inl ⟨failed, rfl⟩
  rw [returns_bind]
  refine Calls.Ends.mono ?_ probe_returns
  rintro probed s ⟨taken, rfl⟩
  split
  · rw [returns_shed_managed]
    exact .inr ⟨rfl, [], rfl⟩
  · exact .inr ⟨rfl, taken, rfl⟩

theorem exit_returns (taken : List Managed) :
    Returns needs Nothing (exit ()) ⟨taken.map .managed ++ bound, false⟩ := by
  have device : Returns needs Nothing
      (platformDeviceUnregister >>= fun _ => (pure () : Prog Unit))
        ⟨[.platformAdded, .platformDevice], false⟩ := by
    rw [returns_bind, platformDeviceUnregister]
    simp
  unfold exit platformDriverUnregister
  rw [returns_bind, returns_shed_managed, bound, returns_release List.mem_cons_self (by simp)]
  exact device

theorem clean : Clean needs dma fun _ => Has bound := by
  show Returns needs _ init ⟨[], false⟩
  unfold init
  refine returns_acquire (fun _ => negative_iff) (by simp) ?_ ?_
  · exact fun ret failed => returns_failed (by decide)
  refine returns_acquire (fun _ => nonzero_iff) (by simp) ?_ ?_
  · intro ret failed
    simpa using settled_failed failed
  rw [returns_bind]
  refine Calls.Ends.mono ?_ platformDriverRegister_returns
  rintro ret s (⟨failed, rfl⟩ | ⟨rfl, taken, rfl⟩)
  · rw [if_pos (Int.ne_of_lt failed), platformDeviceUnregister, returns_bind]
    simpa using settled_failed failed
  · rw [if_neg fun nonzero => nonzero rfl]
    exact returns_loaded (fun r member => List.mem_append_right _ member) (exit_returns taken)

/-- With its buffers, when no call fails. -/
def whole : List Resource :=
  [.managed .streaming, .managed .coherent, .managed .demo] ++ bound

theorem probe_fills {s : Holding Resource} (has : s.held = bound) :
    Fills needs (fun ret t => ret = 0 ∧ t.held = whole) probe s := by
  unfold probe
  refine fills_call rfl fun s₁ mask => ?_
  refine fills_call rfl fun s₂ demo => ?_
  refine fills_call rfl fun s₃ coherent => ?_
  refine fills_call rfl fun s₄ streaming => ?_
  refine fills_call rfl fun s₅ mapping => ?_
  refine fills_run rfl fun s₆ unmapped => ?_
  refine ⟨rfl, ?_⟩
  rw [unmapped, mapping, streaming, coherent, demo, mask, has]
  rfl

theorem full : Full needs dma fun _ => Has whole := by
  show Fills needs _ init .none_
  unfold init
  refine fills_call rfl fun s₁ device => ?_
  refine fills_call rfl fun s₂ added => ?_
  show Fills needs _ (platformDriverRegister >>= _) s₂
  rw [fills_bind]
  refine fills_call rfl fun s₃ driver => ?_
  show Fills needs _ (probe >>= _) s₃
  have has : s₃.held = bound := by
    rw [driver, added, device]
    rfl
  rw [fills_bind]
  refine Calls.Ends.mono ?_ (probe_fills has)
  rintro ret t ⟨rfl, held⟩ _ r member
  rwa [held]

end Dma

/-! ## Files -/

theorem procEntry_clean : Clean needs procEntry fun _ => Has [.procEntry] := by
  show Returns needs _ procInit ⟨[], false⟩
  unfold procInit
  refine returns_acquire (fun _ => negative_iff) (by simp) ?_ ?_
  · exact fun ret failed => returns_failed (by decide)
  refine returns_loaded (by simp [Has]) ?_
  simp [procExit]

/-- The last reference to the object is put, with its file there or not. -/
theorem kobjectPut_returns (above : List Resource) (upper : ∀ q ∈ above, q = .sysfsFile) :
    Returns needs Nothing kobjectPut ⟨above ++ [.kobject], false⟩ := by
  rw [kobjectPut, returns_shed_over]
  · simp
  · intro q member
    simp [upper q member]
  · simp
  · intro q member
    simp [upper q member]

theorem helloSysfs_clean : Clean needs helloSysfs fun _ => Has [.sysfsFile, .kobject] := by
  show Returns needs _ mymoduleInit ⟨[], false⟩
  unfold mymoduleInit
  refine returns_acquire (fun _ => negative_iff) (by simp) ?_ ?_
  · exact fun ret failed => returns_failed (by decide)
  refine returns_acquire (fun _ => nonzero_iff) (by simp) ?_ ?_
  · intro error failed
    rw [returns_bind]
    refine Calls.Ends.mono ?_ (kobjectPut_returns [] (by simp))
    rintro _ s rfl
    exact returns_failed failed
  refine returns_loaded (by simp [Has]) ?_
  show Returns needs Nothing (mymoduleExit ()) _
  rw [mymoduleExit, returns_bind]
  refine Calls.Ends.mono ?_ (kobjectPut_returns [.sysfsFile] (by simp))
  exact fun _ s empty => empty

/-- Of the directory and its files any part may be there. -/
theorem helloDebugfsExit_returns {above base : List Resource}
    (upper : ∀ q ∈ above, ∃ name, q = .debugfsFile name)
    (under : base = [.debugfsDir] ∨ base = []) :
    Returns needs Nothing (helloDebugfsExit ()) ⟨above ++ base, false⟩ := by
  rw [helloDebugfsExit, returns_shed_over]
  · rcases under with rfl | rfl <;> simp
  · intro q member
    obtain ⟨name, rfl⟩ := upper q member
    simp
  · rcases under with rfl | rfl <;> simp
  · intro q member
    obtain ⟨name, rfl⟩ := upper q member
    rcases under with rfl | rfl <;> simp

theorem helloDebugfs_clean : Clean needs helloDebugfs fun _ => Has [] := by
  have loaded (above base : List Resource) (upper : ∀ q ∈ above, ∃ name, q = .debugfsFile name)
      (under : base = [.debugfsDir] ∨ base = []) :
      Returns needs (Settled needs helloDebugfs fun _ => Has []) (pure (0, ()))
        ⟨above ++ base, false⟩ :=
    returns_loaded (by simp [Has]) (helloDebugfsExit_returns upper under)
  show Returns needs _ helloDebugfsInit ⟨[], false⟩
  unfold helloDebugfsInit
  refine returns_attempt ?_ ?_
  · -- there is no directory, so there are no files
    refine returns_attempt (returns_attempt ?_ ?_) ?_
    · exact loaded [] [] (by simp) (.inr rfl)
    · simp
    · simp
  intro _
  refine returns_attempt (returns_attempt ?_ ?_) fun _ => returns_attempt ?_ ?_
  · exact loaded [] [.debugfsDir] (by simp) (.inl rfl)
  · exact fun _ => loaded [.debugfsFile _] [.debugfsDir] (by simp) (.inl rfl)
  · exact loaded [.debugfsFile _] [.debugfsDir] (by simp) (.inl rfl)
  · exact fun _ => loaded [.debugfsFile _, .debugfsFile _] [.debugfsDir] (by simp) (.inl rfl)

theorem helloDebugfs_full : Full needs helloDebugfs fun _ =>
    Has [.debugfsFile "debug_enabled", .debugfsFile "debug_value", .debugfsDir] := by
  show Fills needs _ helloDebugfsInit .none_
  unfold helloDebugfsInit
  refine fills_run rfl fun s₁ dir => ?_
  refine fills_run rfl fun s₂ value => ?_
  refine fills_run rfl fun s₃ enabled _ => ?_
  intro r member
  rwa [enabled, value, dir]

/-! ## kmem_cache.c -/

namespace KmemCache

/-- The objects that are there, over the cache. -/
def objects (obj1 obj2 : Bool) : List Resource :=
  (if obj2 then [.object true] else []) ++ (if obj1 then [.object false] else []) ++ [.cache]

theorem freeObjects_returns (p : Pointers) :
    Returns needs (fun _ s => s = ⟨[.cache], false⟩) (freeObjects p)
      ⟨objects p.obj1 p.obj2, false⟩ := by
  obtain ⟨cachep, obj1, obj2⟩ := p
  cases obj1 <;> cases obj2 <;> simp [freeObjects, objects]

theorem exit_returns {p : Pointers} (cachep : p.cachep = true) :
    Returns needs Nothing (exit p) ⟨objects p.obj1 p.obj2, false⟩ := by
  rw [exit, returns_bind]
  refine Calls.Ends.mono ?_ (freeObjects_returns p)
  rintro _ s rfl
  simp [cachep]

/-- What follows the two allocations, whichever of them failed. -/
theorem allocated_returns (obj1 obj2 : Bool) :
    Returns needs (Settled needs kmemCache fun _ => Has [.object true, .object false, .cache])
      (if !obj1 || !obj2 then do
          freeObjects ⟨true, obj1, obj2⟩
          run (.release .cache)
          return (-enomem, ⟨true, obj1, obj2⟩)
        else return (0, ⟨true, obj1, obj2⟩))
      ⟨objects obj1 obj2, false⟩ := by
  split
  · rw [returns_bind]
    refine Calls.Ends.mono ?_ (freeObjects_returns ⟨true, obj1, obj2⟩)
    rintro _ s rfl
    simpa using settled_failed (by decide)
  · rename_i both
    simp only [Bool.or_eq_true, Bool.not_eq_true', not_or, Bool.not_eq_false] at both
    refine returns_loaded ?_ (exit_returns rfl)
    simp [Has, objects, both]

theorem clean : Clean needs kmemCache fun _ => Has [.object true, .object false, .cache] := by
  show Returns needs _ init ⟨[], false⟩
  unfold init
  refine returns_acquire (fun _ => negative_iff) (by simp) ?_ ?_
  · exact fun ret failed => returns_failed (by decide)
  refine returns_call (by simp) ?_ ?_
  · intro obj1 failed1
    have null1 : decide (obj1 = 0) = false := decide_eq_false (Int.ne_of_lt failed1)
    refine returns_call (by simp) ?_ ?_
    · intro obj2 failed2
      have null2 : decide (obj2 = 0) = false := decide_eq_false (Int.ne_of_lt failed2)
      rw [null1, null2]
      exact allocated_returns false false
    · rw [null1]
      exact allocated_returns false true
  · refine returns_call (by simp) ?_ ?_
    · intro obj2 failed2
      have null2 : decide (obj2 = 0) = false := decide_eq_false (Int.ne_of_lt failed2)
      rw [null2]
      exact allocated_returns true false
    · exact allocated_returns true true

end KmemCache

/-! ## All of them -/

inductive Module where
  /-- chardev.c and static_key.c. -/
  | chardev
  | chardev2
  | ioctl
  | led
  | dht11
  | vinput
  | vnetloop
  /-- `putsQueue`: `put_disk` releases the queue of `blk_mq_alloc_disk`. -/
  | blkram (era : Era) (putsQueue : Bool)
  | dma
  /-- procfs1.c to procfs4.c and sleep.c. -/
  | procEntry
  | helloSysfs
  | helloDebugfs
  | kmemCache

namespace Module

def driver : Module → Driver Resource
  | .chardev => Modules.chardev
  | .chardev2 => Modules.chardev2
  | .ioctl => Modules.ioctl
  | .led => Modules.led
  | .dht11 => Modules.dht11
  | .vinput => Modules.vinput
  | .vnetloop => Modules.vnetloop
  | .blkram era putsQueue => Modules.blkram era putsQueue
  | .dma => Modules.dma
  | .procEntry => Modules.procEntry
  | .helloSysfs => Modules.helloSysfs
  | .helloDebugfs => Modules.helloDebugfs
  | .kmemCache => Modules.kmemCache

/-- What a loaded module has, given what its init function left, whatever has failed. -/
def keeps : (m : Module) → m.driver.Globals → List Resource
  | .chardev, major => [.cls, .chrdev major]
  | .chardev2, _ => [.cls, .chrdev majorNum]
  | .ioctl, major => [.cdev ⟨major, 0⟩, .region ⟨major, 0⟩]
  | .led, dev => [.gpio 4, .device dev, .cls, .cdev dev, .region dev]
  | .dht11, dev => [.gpio 575, .device dev, .cls, .cdev dev, .region dev]
  | .vinput, vinputDev => [.cls, .chrdev vinputDev]
  | .vnetloop, _ => [.netdev, .etherdev]
  | .blkram _ _, major => Blkram.keeps major
  | .dma, _ => Dma.bound
  | .procEntry, _ => [.procEntry]
  | .helloSysfs, _ => [.sysfsFile, .kobject]
  | .helloDebugfs, _ => []
  | .kmemCache, _ => [.object true, .object false, .cache]

/-- What it has when no call has failed. -/
def whole : (m : Module) → m.driver.Globals → List Resource
  | .chardev, major => [.device ⟨major, 0⟩, .cls, .chrdev major]
  | .chardev2, _ => [.device ⟨majorNum, 0⟩, .cls, .chrdev majorNum]
  | .dma, _ => Dma.whole
  | .helloDebugfs, _ =>
      [.debugfsFile "debug_enabled", .debugfsFile "debug_value", .debugfsDir]
  | m, g => m.keeps g

/-- Where all that `put_disk` is to release is released. -/
def PutsQueue : Module → Prop
  | .blkram era putsQueue => Blkram.PutsQueue era putsQueue
  | _ => True

theorem clean (m : Module) (puts : m.PutsQueue) :
    Clean needs m.driver fun g => Has (m.keeps g) := by
  cases m with
  | chardev => exact chardev_clean
  | chardev2 => exact chardev2_clean
  | ioctl => exact ioctl_clean
  | led => exact GpioDevice.clean ⟨0, 0, 4⟩
  | dht11 => exact GpioDevice.clean ⟨0, 0, 575⟩
  | vinput => exact vinput_clean
  | vnetloop => exact vnetloop_clean
  | blkram era putsQueue => exact Blkram.clean era putsQueue puts
  | dma => exact Dma.clean
  | procEntry => exact procEntry_clean
  | helloSysfs => exact helloSysfs_clean
  | helloDebugfs => exact helloDebugfs_clean
  | kmemCache => exact KmemCache.clean

theorem full (m : Module) (puts : m.PutsQueue) : Full needs m.driver fun g => Has (m.whole g) := by
  cases m with
  | chardev => exact chardev_full
  | chardev2 => exact chardev2_full
  | dma => exact Dma.full
  | helloDebugfs => exact helloDebugfs_full
  | _ => exact (clean _ puts).full

end Module

/-- blkram.c on a kernel of today, loaded and unloaded, and its disk refused by the next
load. -/
def refusedDisk : List Act :=
  [.insmod, .answer 240] ++ List.replicate 6 (.answer 0) ++ [.rmmod] ++
    List.replicate 7 (.answer 0) ++ [.insmod, .answer 240] ++ List.replicate 5 (.answer 0) ++
    [.answer (-enomem)] ++ List.replicate 6 (.answer 0)

end Lkmpg.Modules
