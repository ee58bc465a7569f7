/-
# Lkmpg.Modules.OtherDevices -- a network device, a block device, a platform device

The init function of blkram.c depends on the version of the kernel, as do its labels; and
so does what `put_disk` releases.
The driver core calls `dma_demo_probe` of dma.c, and releases what `devm_` calls took
when it fails and when the driver is unregistered.
-/
import Lkmpg.Modules.Resources

namespace Lkmpg.Modules

open Lkmpg.Theory Lkmpg.Theory.Lifecycle

set_option autoImplicit false

def enomem : Int := 12

/-! ## vnetloop.c -/

def freeNetdev : Prog Unit := run (.release .etherdev)

def vnetloopInit : Prog (Int × Unit) := do
  let dev ← call (.acquire .etherdev)
  if dev < 0 then return (-enomem, ())
  let ret ← call (.acquire .netdev)
  if ret ≠ 0 then
    freeNetdev
    return (ret, ())
  return (0, ())

def vnetloopExit (_ : Unit) : Prog Unit := do
  run (.release .netdev)
  freeNetdev
  return

abbrev vnetloop : Driver Resource := ⟨Unit, vnetloopInit, vnetloopExit⟩

/-! ## blkram.c -/

/-- The versions of the kernel that blkram.c tells apart. -/
inductive Era where
  /-- 5.10 to 5.14: `alloc_disk` and `blk_mq_init_queue`. -/
  | allocDisk
  /-- 5.15: `add_disk` returns nothing. -/
  | addDiskVoid
  /-- 5.16 and later. -/
  | addDisk
  deriving DecidableEq

namespace Blkram

/-- `blk_mq_alloc_disk`: a disk and its queue, or an error. -/
def blkMqAllocDisk : Prog Int := do
  let queue ← call (.acquire .queue)
  if queue < 0 then return queue else
  run (.take .disk)
  return 0

/-- `put_disk` of such a disk, which releases its queue too (`putsQueue`) or leaves that to
`blk_cleanup_disk`. -/
def putDisk (putsQueue : Bool) : Prog Unit := do
  run (.release .disk)
  if putsQueue then run (.release .queue)
  return

/-! The labels, from the last one up.  The global is `blkram_major`. -/

def errUnreg (major ret : Int) : Prog (Int × Int) := do
  run (.release (.blkdev major))
  return (ret, major)

def errFreeDev (major ret : Int) : Prog (Int × Int) := do
  run (.release .blkram)
  errUnreg major ret

def errFreeData (major ret : Int) : Prog (Int × Int) := do
  run (.release .data)
  errFreeDev major ret

def errTagSet (major ret : Int) : Prog (Int × Int) := do
  run (.release .tagSet)
  errFreeData major ret

/-- Before 5.15 only. -/
def errCleanupQueue (major ret : Int) : Prog (Int × Int) := do
  run (.release .queue)
  errTagSet major ret

/-- From 5.16 on only. -/
def errPutDisk (putsQueue : Bool) (major ret : Int) : Prog (Int × Int) := do
  putDisk putsQueue
  errTagSet major ret

/-- The disk is allocated and added. -/
def makeDisk (putsQueue : Bool) (major : Int) : Era → Prog (Int × Int)
  | .allocDisk => do
      let queue ← call (.acquire .queue)
      if queue < 0 then errTagSet major queue else
      let disk ← call (.acquire .disk)
      if disk < 0 then errCleanupQueue major (-enomem) else
      run (.take .added)
      return (0, major)
  | .addDiskVoid => do
      let disk ← blkMqAllocDisk
      if disk < 0 then errTagSet major disk else
      run (.take .added)
      return (0, major)
  | .addDisk => do
      let disk ← blkMqAllocDisk
      if disk < 0 then errTagSet major disk else
      let ret ← call (.acquire .added)
      if ret ≠ 0 then errPutDisk putsQueue major ret else
      return (0, major)

def init (era : Era) (putsQueue : Bool) : Prog (Int × Int) := do
  let major ← call (.allot .blkdev)
  if major < 0 then return (major, major) else
  let blkram ← call (.acquire .blkram)
  if blkram < 0 then errUnreg major (-enomem) else
  let data ← call (.acquire .data)
  if data < 0 then errFreeDev major (-enomem) else
  let ret ← call (.acquire .tagSet)
  if ret ≠ 0 then errFreeData major ret else
  makeDisk putsQueue major era

/-- The disk is deleted and put, and before 5.15 its queue is cleaned up. -/
def dropDisk (putsQueue : Bool) : Era → Prog Unit
  | .allocDisk => do
      run (.release .added)
      run (.release .disk)
      run (.release .queue)
      return
  | .addDiskVoid | .addDisk => do
      run (.release .added)
      putDisk putsQueue

def exit (era : Era) (putsQueue : Bool) (major : Int) : Prog Unit := do
  dropDisk putsQueue era
  run (.release .tagSet)
  run (.release .data)
  run (.release .blkram)
  run (.release (.blkdev major))
  return

end Blkram

abbrev blkram (era : Era) (putsQueue : Bool) : Driver Resource :=
  ⟨Int, Blkram.init era putsQueue, Blkram.exit era putsQueue⟩

/-! ## dma.c -/

namespace Dma

/-- `dma_demo_probe`, from `devm_kzalloc` on; `dma_set_mask_and_coherent` takes
nothing. -/
def probe : Prog Int := do
  let ret ← call (.use .platformAdded)
  if ret ≠ 0 then return ret else
  let demo ← call (.acquire (.managed .demo))
  if demo < 0 then return -enomem else
  let coherent ← call (.acquire (.managed .coherent))
  if coherent < 0 then return -enomem else
  let streaming ← call (.acquire (.managed .streaming))
  if streaming < 0 then return -enomem else
  -- a mapping that `dma_mapping_error` refuses is none
  let handle ← call (.acquire .mapping)
  if handle ≠ 0 then return -5 else
  run (.release .mapping)
  return 0

/-- The driver core: the driver is registered and probes the device.  Its error is not
one of the registration. -/
def platformDriverRegister : Prog Int := do
  let ret ← call (.acquire .platformDriver)
  if ret ≠ 0 then return ret else
  let probed ← probe
  if probed ≠ 0 then
    run (.shed .platformDriver)
    return 0
  else return 0

def platformDriverUnregister : Prog Unit := do
  run (.shed .platformDriver)
  run (.release .platformDriver)
  return

def platformDeviceUnregister : Prog Unit := do
  run (.release .platformAdded)
  run (.release .platformDevice)
  return

def init : Prog (Int × Unit) := do
  let pdev ← call (.acquire .platformDevice)
  if pdev < 0 then return (-enomem, ()) else
  let ret ← call (.acquire .platformAdded)
  if ret ≠ 0 then
    run (.release .platformDevice)
    return (ret, ())
  else
    let ret ← platformDriverRegister
    if ret ≠ 0 then
      platformDeviceUnregister
      return (ret, ())
    else return (0, ())

def exit (_ : Unit) : Prog Unit := do
  platformDriverUnregister
  platformDeviceUnregister
  return

end Dma

abbrev dma : Driver Resource := ⟨Unit, Dma.init, Dma.exit⟩

/-! ## Files -/

/-- The init function of procfs1.c to procfs4.c and of sleep.c. -/
def procInit : Prog (Int × Unit) := do
  let file ← call (.acquire .procEntry)
  if file < 0 then return (-enomem, ()) else
  return (0, ())

def procExit (_ : Unit) : Prog Unit := do
  run (.release .procEntry)
  return

abbrev procEntry : Driver Resource := ⟨Unit, procInit, procExit⟩

/-- `kobject_put` of the last reference: its files go with it. -/
def kobjectPut : Prog Unit := do
  run (.shed .kobject)
  run (.release .kobject)
  return

/-- `mymodule_init` of hello-sysfs.c. -/
def mymoduleInit : Prog (Int × Unit) := do
  let mymodule ← call (.acquire .kobject)
  if mymodule < 0 then return (-enomem, ()) else
  let error ← call (.acquire .sysfsFile)
  if error ≠ 0 then
    kobjectPut
    return (error, ())
  else return (error, ())

def mymoduleExit (_ : Unit) : Prog Unit := do
  kobjectPut
  return

abbrev helloSysfs : Driver Resource := ⟨Unit, mymoduleInit, mymoduleExit⟩

def helloDebugfsInit : Prog (Int × Unit) := do
  run (.attempt .debugfsDir)
  run (.attempt (.debugfsFile "debug_value"))
  run (.attempt (.debugfsFile "debug_enabled"))
  return (0, ())

/-- `debugfs_remove_recursive` of what may be an error pointer. -/
def helloDebugfsExit (_ : Unit) : Prog Unit := do
  run (.shed .debugfsDir)
  run (.drop .debugfsDir)
  return

abbrev helloDebugfs : Driver Resource := ⟨Unit, helloDebugfsInit, helloDebugfsExit⟩

/-! ## kmem_cache.c -/

namespace KmemCache

/-- Which of the pointers `my_cachep`, `obj1` and `obj2` are not `NULL`. -/
structure Pointers where
  cachep : Bool
  obj1 : Bool
  obj2 : Bool

def freeObjects (p : Pointers) : Prog Unit := do
  if p.obj1 then run (.release (.object false))
  if p.obj2 then run (.release (.object true))
  return

/-- `kmem_cache_example_init` -/
def init : Prog (Int × Pointers) := do
  let cachep ← call (.acquire .cache)
  if cachep < 0 then return (-enomem, ⟨false, false, false⟩) else
  let obj1 ← call (.acquire (.object false))
  let obj2 ← call (.acquire (.object true))
  let p : Pointers := ⟨true, obj1 = 0, obj2 = 0⟩
  if !p.obj1 || !p.obj2 then
    freeObjects p
    run (.release .cache)
    return (-enomem, p)
  else return (0, p)

/-- `kmem_cache_example_exit` -/
def exit (p : Pointers) : Prog Unit := do
  freeObjects p
  if p.cachep then run (.release .cache)
  return

end KmemCache

abbrev kmemCache : Driver Resource := ⟨KmemCache.Pointers, KmemCache.init, KmemCache.exit⟩

end Lkmpg.Modules
