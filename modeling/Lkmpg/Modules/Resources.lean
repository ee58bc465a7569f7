/-
# Lkmpg.Modules.Resources -- what the modules take from the kernel

One constructor for each kind of resource, and one definition for each kernel function
that takes or releases one.
-/
import Lkmpg.Theory.Lifecycle

namespace Lkmpg.Modules

open Lkmpg.Theory.Lifecycle

set_option autoImplicit false

/-- `dev_t`, as `MKDEV` makes it. -/
structure Dev where
  major : Int
  minor : Int
  deriving DecidableEq

/-- What `devm_kzalloc` and `dmam_alloc_coherent` give to a device. -/
inductive Managed where
  | demo
  | coherent
  | streaming
  deriving DecidableEq

inductive Resource where
  | chrdev (major : Int)
  | region (dev : Dev)
  | cdev (dev : Dev)
  | cls
  | device (dev : Dev)
  | gpio (gpio : Nat)
  | etherdev
  | netdev
  | blkdev (major : Int)
  /-- `kzalloc` of `struct blkram_dev`. -/
  | blkram
  /-- `vzalloc` of the disk's data. -/
  | data
  | tagSet
  | queue
  | disk
  | added
  | platformDevice
  | platformAdded
  | platformDriver
  | managed (m : Managed)
  /-- `dma_map_single` of the streaming buffer. -/
  | mapping
  | procEntry
  | kobject
  | sysfsFile
  | cache
  | object (second : Bool)
  | debugfsDir
  | debugfsFile (name : String)
  deriving DecidableEq

/-- What has to be there as long as it is. -/
@[simp] def needs : Resource → List Resource
  | .cdev dev => [.region dev]
  | .device _ => [.cls]
  | .netdev => [.etherdev]
  -- `data` and `tag_set` are fields of `struct blkram_dev`
  | .data => [.blkram]
  | .tagSet => [.blkram]
  | .queue => [.tagSet]
  | .disk => [.queue, .data]
  | .added => [.disk]
  | .platformAdded => [.platformDevice]
  | .managed _ => [.platformDriver, .platformAdded]
  | .mapping => [.managed .streaming]
  | .sysfsFile => [.kobject]
  | .object _ => [.cache]
  | .debugfsFile _ => [.debugfsDir]
  | _ => []

abbrev Prog : Type → Type := Code Resource

/-! ## Character devices -/

def registerChrdev (major : Int) : Prog Int := call (.acquire (.chrdev major))

/-- `register_chrdev(0, …)`, which answers the major number. -/
def allocChrdev : Prog Int := call (.allot .chrdev)

def unregisterChrdev (major : Int) : Prog Unit := run (.release (.chrdev major))

def registerChrdevRegion (dev : Dev) : Prog Int := call (.acquire (.region dev))

/-- `alloc_chrdev_region(&dev, 0, …)`.  It returns 0 and stores the number; the answer
here is the major of that number, or the error. -/
def allocChrdevRegion : Prog Int := call (.allot fun major => .region ⟨major, 0⟩)

def unregisterChrdevRegion (dev : Dev) : Prog Unit := run (.release (.region dev))

def cdevAdd (dev : Dev) : Prog Int := call (.acquire (.cdev dev))

def cdevDel (dev : Dev) : Prog Unit := run (.release (.cdev dev))

/-- `class_create` or `class_register`; an error pointer is its error. -/
def classCreate : Prog Int := call (.acquire .cls)

def classDestroy : Prog Unit := run (.release .cls)

def deviceCreate (dev : Dev) : Prog Int := call (.acquire (.device dev))

/-- It looks the device up by its number, and does nothing when there is none. -/
def deviceDestroy (dev : Dev) : Prog Unit := run (.drop (.device dev))

/-! ## GPIOs -/

def gpioRequest (gpio : Nat) : Prog Int := call (.acquire (.gpio gpio))

def gpioDirectionOutput (gpio : Nat) : Prog Int := call (.use (.gpio gpio))

def gpioSetValue (gpio : Nat) : Prog Unit := run (.use (.gpio gpio))

def gpioFree (gpio : Nat) : Prog Unit := run (.release (.gpio gpio))

end Lkmpg.Modules
