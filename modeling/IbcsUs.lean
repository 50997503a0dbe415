import IbcsUs.Core.Runs
import IbcsUs.Core.Links
import IbcsUs.Core.Chain
import IbcsUs.Core.Paths
import IbcsUs.Core.Strings
import IbcsUs.Memory.Word
import IbcsUs.Memory.Brk
import IbcsUs.Memory.Malloc
import IbcsUs.Memory.MallocChain
import IbcsUs.Memory.MallocScan
import IbcsUs.Memory.Heap
import IbcsUs.Memory.HeapSafety
import IbcsUs.Memory.HeapChain
import IbcsUs.Memory.MallocEnds
import IbcsUs.Inodes.ShortInode
import IbcsUs.Inodes.Slots
import IbcsUs.Inodes.LruQueue
import IbcsUs.Inodes.HashCircles
import IbcsUs.Inodes.Stability
import IbcsUs.Files.FileTable
import IbcsUs.Files.TableInvariant
import IbcsUs.Files.TableSafety
import IbcsUs.Files.Descriptors
import IbcsUs.Files.Dispatch
import IbcsUs.Files.Release
import IbcsUs.Names.Normalise
import IbcsUs.Names.Filemap
import IbcsUs.Names.MapLine
import IbcsUs.Names.MapParse
import IbcsUs.Names.MapFile
import IbcsUs.Names.MapChain
import IbcsUs.Startup.Credentials
import IbcsUs.Startup.PathSearch
import IbcsUs.Syscalls.Seek
import IbcsUs.Syscalls.Getdents
import IbcsUs.Syscalls.Table
import IbcsUs.Syscalls.NameSpace
import IbcsUs.Output.Format
import IbcsUs.Memory.AbiBrk
import IbcsUs.Memory.LoaderBrk
import IbcsUs.Signals.Tables
import IbcsUs.Signals.WaitStatus
import IbcsUs.Syscalls.ReadDir
import IbcsUs.Inodes.ThreeViews
import IbcsUs.Files.Mounts
import IbcsUs.Core.AddressSpace
import IbcsUs.Loaders.Mmap
import IbcsUs.Loaders.Xout
import IbcsUs.Loaders.XoutImage
import IbcsUs.Loaders.Coff
import IbcsUs.Loaders.CoffImage
import IbcsUs.Loaders.InitBrk
import IbcsUs.Names.Resolve
import IbcsUs.Core.Bits
import IbcsUs.Signals.Masks
import IbcsUs.Terminals.Termios
import IbcsUs.Terminals.BsdTermios
import IbcsUs.Terminals.Termio
import IbcsUs.Syscalls.Dispatch
import IbcsUs.Signals.Faults
import IbcsUs.Signals.Sigfunc
import IbcsUs.Syscalls.Lcall
import IbcsUs.Files.StatvfsAgree
import IbcsUs.Sockets.Messages
import IbcsUs.Core.Stores
import IbcsUs.Names.InPlace
import IbcsUs.Names.Rewriting
import IbcsUs.Files.Devices
import IbcsUs.Signals.SetThenGet
import IbcsUs.Output.Truncation
import IbcsUs.Output.Composition
import IbcsUs.Memory.Refusal
import IbcsUs.Memory.FirstFit
import IbcsUs.Loaders.Comments
import IbcsUs.Syscalls.Offsets
import IbcsUs.Files.HighestFd
import IbcsUs.Files.RecordLocks
import IbcsUs.Ipc.Structures
import IbcsUs.Ipc.Control
import IbcsUs.Ipc.SemaphoreArrays
import IbcsUs.Syscalls.Rlimits
import IbcsUs.Sockets.Options
import IbcsUs.Sockets.Arguments
import IbcsUs.Sockets.Socksys
import IbcsUs.Sockets.Tidy
import IbcsUs.Sockets.SocketPair
import IbcsUs.Sockets.Spx
import IbcsUs.Startup.EffectiveIds
import IbcsUs.Files.StatusFlags
import IbcsUs.Syscalls.Utsname
import IbcsUs.Files.Access
import IbcsUs.Files.Times
import IbcsUs.Memory.MmapVariants
import IbcsUs.Syscalls.SolGetdents
import IbcsUs.Syscalls.DirSeek
import IbcsUs.Startup.FlagExpressions
import IbcsUs.Startup.Getoption
import IbcsUs.Startup.ProcessIds
import IbcsUs.Files.SocketOpen
import IbcsUs.Syscalls.SizedResults
import IbcsUs.Syscalls.Nap
import IbcsUs.Syscalls.Hrtsys
import IbcsUs.X286.SegmentTable
import IbcsUs.X286.Brkctl
import IbcsUs.X286.VerifyArea
import IbcsUs.X286.Exec
import IbcsUs.X286.Calls
import IbcsUs.X286.Frame
import IbcsUs.X286.Signals
import IbcsUs.X286.Delivery
import IbcsUs.Core.Numerals
import IbcsUs.Startup.NumberScan
import IbcsUs.Output.Digits
import IbcsUs.Loaders.SharedLibs
import IbcsUs.Signals.Lookups
import IbcsUs.Core.Refinement
import IbcsUs.Core.Walks
import IbcsUs.Locking.RwSemaphore
import IbcsUs.Syscalls.ExecDomains
import IbcsUs.Loaders.Formats
import IbcsUs.Files.ChrdevTable
import IbcsUs.X286.LoadXout
import IbcsUs.X286.OddCalls
import IbcsUs.X286.Fixups
import IbcsUs.X286.EntryCode
import IbcsUs.X286.Emulator
import IbcsUs.X286.Writes
import IbcsUs.Loaders.Elf
import IbcsUs.Loaders.ElfImage
import IbcsUs.Startup.Handover
