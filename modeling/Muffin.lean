import Muffin.Lib.BitSet
import Muffin.Lib.Bytes
import Muffin.Lib.Str
import Muffin.Abi.Errno
import Muffin.Abi.Signal
import Muffin.Syscall.Signal
import Muffin.Syscall.SignalInvariant
import Muffin.Park.Lot
import Muffin.Park.Protocol
import Muffin.Lib.Rust
import Muffin.X86.Addr
import Muffin.Lib.EStateM
import Muffin.Mem.Frames
import Muffin.Mem.PhysInit
import Muffin.Mem.Vmm
import Muffin.X86.Paging
import Muffin.Mem.Space
import Muffin.Mem.Mapping
import Muffin.Exec.Elf
import Muffin.Exec.Load
import Muffin.Elfloader.File
import Muffin.Vfs.Path
import Muffin.Vfs.Vfs
import Muffin.Syscall.UserAccess
import Muffin.Syscall.SigFrame
import Muffin.Syscall.Mmap
import Muffin.Ext2.Fs
import Muffin.Ext2.File
import Muffin.Mem.Resident
import Muffin.Exec.PageIn
import Muffin.Syscall.InitialStack
import Muffin.Exec.Image
import Muffin.Syscall.ExecArgs
import Muffin.Syscall.Kill
import Muffin.Lib.First
import Muffin.PhysicalMemory.Manager
import Muffin.PhysicalMemory.FirstFree
import Muffin.PhysicalMemory.Search
import Muffin.PhysicalMemory.Allocate
import Muffin.Vfs.Filenames
import Muffin.Syscall.Lseek
import Muffin.Device.Block
import Muffin.Ext2.Dir
import Muffin.Ext2.DirBlock
import Muffin.Ext2.DirInsert
import Muffin.Vfs.Components
import Muffin.Ext2.Indirect
import Muffin.Lib.Bytefield
import Muffin.Ext2.Layout
import Muffin.Ext2.ReadBlocks
import Muffin.Lib.Slice
import Muffin.Lib.LastMax
import Muffin.Log.Filter
import Muffin.Log.Spec
import Muffin.Lib.Run
import Muffin.Lib.Utf8
import Muffin.Log.SpanStack
import Muffin.Log.Subscriber
import Muffin.Mtask.Scheduler
import Muffin.Mtask.Kernel
import Muffin.Mtask.Reap
