import NoDrop.Lib.Bytes
import NoDrop.Lib.Runs
import NoDrop.EventTable
import NoDrop.UserMem
import NoDrop.ValToRing
import NoDrop.Filler
import NoDrop.Record
import NoDrop.Records
import NoDrop.BufferQueue
import NoDrop.Fillers
import NoDrop.Monitor
import NoDrop.Events
import NoDrop.BufferInvariant
import NoDrop.Delivery
import NoDrop.Room
import NoDrop.Restart
import NoDrop.FreeSpace
import NoDrop.Context
import NoDrop.Privil
import NoDrop.Trace
import NoDrop.Leaving
import NoDrop.Bounds
import NoDrop.Hooks
import NoDrop.ProcTable
import NoDrop.TaskTable
import NoDrop.Handles
import NoDrop.NewTasks
import NoDrop.Instances
import NoDrop.Asserts
import NoDrop.Flags
import NoDrop.Kernel
import NoDrop.SyscallFillers
import NoDrop.SocketFillers
import NoDrop.FillersTable
import NoDrop.AssertsHold
import NoDrop.Pushes
import NoDrop.Arity
import NoDrop.Decode
import NoDrop.ResParam
import NoDrop.Lib.Links
import NoDrop.Lib.Words
import NoDrop.MmheapIndex
import NoDrop.Mmheap
import NoDrop.MmheapLayout
import NoDrop.MmheapLists
import NoDrop.MmheapRep
import NoDrop.MmheapBlocks
import NoDrop.MmheapHands
import NoDrop.MmheapAlloc
import NoDrop.MmheapFree
import NoDrop.Lib.Areas
import NoDrop.MmapCheck
import NoDrop.AddrSpace
import NoDrop.FsRoot
import NoDrop.DevMmap
import NoDrop.LuaState
import NoDrop.Pkeys
import NoDrop.Elf
import NoDrop.ElfLoad
import NoDrop.ElfImage
import NoDrop.Lib.Fallible
import NoDrop.Loader
import NoDrop.LoaderStack
import NoDrop.StartStack
import NoDrop.ElfLog
import NoDrop.DoLoad
import NoDrop.LoadMonitor
import NoDrop.Encoder
import NoDrop.Walk
import NoDrop.WriteData
import NoDrop.PollList
import NoDrop.VectorData
import NoDrop.BindAddr
import NoDrop.FetchBuffer
import NoDrop.CountInfo
import NoDrop.Pages
import NoDrop.Shield
import NoDrop.LoaderInit
import NoDrop.MmheapRealloc
import NoDrop.MmheapPools
import NoDrop.MmheapRuns
import NoDrop.Quantities
import NoDrop.StartMain
import NoDrop.RecordWriter
import NoDrop.LuaScript
import NoDrop.EventNames
import NoDrop.Lib.Numerals
import NoDrop.Lib.Snprintf
import NoDrop.Rendering
import NoDrop.LuaFields
import NoDrop.MmheapAligned
import NoDrop.MmheapOversized
import NoDrop.MmheapClasses
import NoDrop.MmheapIndexable
import NoDrop.UserStrings
import NoDrop.Lib.Passes
import NoDrop.MmheapCanonical
import NoDrop.MmheapCheck
import NoDrop.RecordFile
import NoDrop.Relocate
import NoDrop.Lib.Ledger
import NoDrop.Lifecycle
import NoDrop.ScriptLog
import NoDrop.Statistics
import NoDrop.Fetch
import NoDrop.FlagRecords
import NoDrop.Lib.Fields
import NoDrop.Protection
import NoDrop.Endings
import NoDrop.Terminates
import NoDrop.StaleBytes
import NoDrop.LastAttempt
import NoDrop.SameRecord
