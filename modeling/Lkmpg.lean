import Lkmpg.Blkram.Bounds
import Lkmpg.Blkram.Concurrent
import Lkmpg.Blkram.Driver
import Lkmpg.Blkram.Refinement
import Lkmpg.Buttons.Balance
import Lkmpg.Buttons.Directions
import Lkmpg.Buttons.Driver
import Lkmpg.Buttons.Gpio
import Lkmpg.Buttons.Presses
import Lkmpg.Buttons.Work
import Lkmpg.Chardev.Driver
import Lkmpg.Chardev.Reads
import Lkmpg.Chardev.Sessions
import Lkmpg.Chardev2.Driver
import Lkmpg.Chardev2.Faults
import Lkmpg.Chardev2.Ioctl
import Lkmpg.Chardev2.Messages
import Lkmpg.Chardev2.Races
import Lkmpg.Chardev2.Serial
import Lkmpg.Chardev2.Userspace
import Lkmpg.Ci.BuildNRun
import Lkmpg.Completions.Driver
import Lkmpg.Completions.Ends
import Lkmpg.Completions.Unload
import Lkmpg.Debugfs.Driver
import Lkmpg.Debugfs.Faults
import Lkmpg.Debugfs.Register
import Lkmpg.Devtools.Boot
import Lkmpg.Devtools.Cache
import Lkmpg.Devtools.Setup
import Lkmpg.Dht11.Decode
import Lkmpg.Dht11.Driver
import Lkmpg.Dht11.Received
import Lkmpg.Dht11.Report
import Lkmpg.Dht11.Retry
import Lkmpg.GuestTest.Script
import Lkmpg.GuestTest.Verdict
import Lkmpg.Ioctl.Driver
import Lkmpg.Ioctl.Register
import Lkmpg.Ioctl.Threads
import Lkmpg.Kbleds.Blinks
import Lkmpg.Kbleds.Driver
import Lkmpg.Kernel.CString
import Lkmpg.Kernel.Library
import Lkmpg.Kernel.ListHead
import Lkmpg.Kernel.MsgBuffer
import Lkmpg.Kernel.Numerals
import Lkmpg.Kernel.UserCopy
import Lkmpg.Led.Commands
import Lkmpg.Led.Driver
import Lkmpg.MessageDevices
import Lkmpg.Modules.Balanced
import Lkmpg.Modules.CharDevices
import Lkmpg.Modules.OtherDevices
import Lkmpg.Modules.Resources
import Lkmpg.Procfs3.Driver
import Lkmpg.Procfs3.Faults
import Lkmpg.Procfs3.Readers
import Lkmpg.Rcu.Driver
import Lkmpg.Rcu.Leaks
import Lkmpg.Rcu.Reclaim
import Lkmpg.Rcu.Register
import Lkmpg.Sleep.CatNonblock
import Lkmpg.Sleep.Driver
import Lkmpg.Sleep.Open
import Lkmpg.Sleep.Sessions
import Lkmpg.Sleep.Signals
import Lkmpg.Sleep.Wakeup
import Lkmpg.StaticKey.Commands
import Lkmpg.StaticKey.Driver
import Lkmpg.StaticKey.Sessions
import Lkmpg.SyscallSteal.Chain
import Lkmpg.SyscallSteal.Driver
import Lkmpg.SyscallSteal.Scan
import Lkmpg.Theory.Arena
import Lkmpg.Theory.Base64
import Lkmpg.Theory.Bytes
import Lkmpg.Theory.Calls
import Lkmpg.Theory.Cells
import Lkmpg.Theory.Chunks
import Lkmpg.Theory.Component
import Lkmpg.Theory.Custody
import Lkmpg.Theory.Exclusive
import Lkmpg.Theory.FirstMatch
import Lkmpg.Theory.GracePeriod
import Lkmpg.Theory.Lifecycle
import Lkmpg.Theory.Lines
import Lkmpg.Theory.Register
import Lkmpg.Theory.Rounds
import Lkmpg.Theory.Rwlock
import Lkmpg.Theory.SeqCount
import Lkmpg.Theory.System
import Lkmpg.Theory.Traced
import Lkmpg.Theory.Transfers
import Lkmpg.Theory.Waveform
import Lkmpg.Vinput.Accounts
import Lkmpg.Vinput.Calls
import Lkmpg.Vinput.Driver
import Lkmpg.Vinput.Export
import Lkmpg.Vinput.Ids
import Lkmpg.Vinput.Keys
import Lkmpg.Vinput.OpenFiles
import Lkmpg.Vinput.Overlap
import Lkmpg.Vinput.Ownership
import Lkmpg.Vinput.Reads
import Lkmpg.Vinput.Removal
import Lkmpg.Vinput.Teardown
import Lkmpg.Vinput.Threads
import Lkmpg.Vinput.TypeRemoval
import Lkmpg.Vinput.Vkbd
import Lkmpg.Vinput.Wellformed
import Lkmpg.Vnetloop.Driver
import Lkmpg.Vnetloop.Snapshots
import Lkmpg.Vnetloop.Versions
