import Nextgen.Lib.Transition
import Nextgen.Lib.Trace
import Nextgen.Lib.Spinlock
import Nextgen.Lib.SList
import Nextgen.Lib.ListUpdate
import Nextgen.Lib.Bytes
import Nextgen.Lib.Text
import Nextgen.Lib.Format
import Nextgen.Lib.FileTree
import Nextgen.Lib.Links
import Nextgen.Lib.Setup
import Nextgen.Lib.Heap
import Nextgen.Lib.Ownership
import Nextgen.Lib.Getopt
import Nextgen.Memory.Pool
import Nextgen.Memory.LockedPool
import Nextgen.Memory.Constructors
import Nextgen.Genetic.World
import Nextgen.Resource.Cached
import Nextgen.Resource.CleanPool
import Nextgen.Resource.Search
import Nextgen.Resource.Pools
import Nextgen.Concurrent.Epoch
import Nextgen.Concurrent.StopAll
import Nextgen.Concurrent.CasLoop
import Nextgen.Syscall.Entry
import Nextgen.Syscall.Dispatch
import Nextgen.Syscall.Table
import Nextgen.Syscall.BuildTable
import Nextgen.Syscall.Generate
import Nextgen.Syscall.Arguments
import Nextgen.Syscall.Draws
import Nextgen.Log.Arguments
import Nextgen.Syscall.FuzzLoop
import Nextgen.Syscall.TestResults
import Nextgen.Syscall.Alarm
import Nextgen.Syscall.Signals
import Nextgen.Syscall.Selection
import Nextgen.Syscall.Slots
import Nextgen.Syscall.ExitChild
import Nextgen.Syscall.Children
import Nextgen.Syscall.ChildCounter
import Nextgen.Syscall.Losses
import Nextgen.Syscall.Contexts
import Nextgen.Syscall.SlotOwnership
import Nextgen.Syscall.Reap
import Nextgen.File.Loop
import Nextgen.File.Seeds
import Nextgen.File.Index
import Nextgen.File.Crash
import Nextgen.File.Mutate
import Nextgen.File.KillThread
import Nextgen.File.Resources
import Nextgen.Crypto.RandRange
import Nextgen.Utils.Copy
import Nextgen.Utils.Binary
import Nextgen.Utils.Names
import Nextgen.Utils.Cleanup
import Nextgen.Crypto.Digest
import Nextgen.Crypto.Seed
import Nextgen.Plugins.Plugin
import Nextgen.Utils.RandomFile
import Nextgen.Utils.Walk
import Nextgen.Utils.RemovalOrder
import Nextgen.Utils.DeleteDirectory
import Nextgen.Network.Server
import Nextgen.Runtime.Modules
import Nextgen.Runtime.CommandLine
import Nextgen.Runtime.Configuration
