import Mathlib.Data.List.Basic
import Mathlib.Data.UInt

/-! # Event types and their declared parameters

`include/events.h` enumerates the event types and the parameter types;
`kmodule/tables/events_table.c` declares, for every event type, how many
parameters its record has (`nparams`) and the type of each, and
`kmodule/tables/dynamic_params_table.c` the variants a `PT_DYN` parameter chooses
from.  Only what the recorder reads is kept: the printing formats and names are the
readers' business.

The table is the source's, slips included: `mmap2` lists fourteen parameters but
declares ten, `splice` lists five but declares four.  An event type without an entry
is zero-initialised and so declares no parameter.
-/
namespace NoDrop

/-- `enum nod_param_type`. -/
inductive ParamType where
  | none | int8 | int16 | int32 | int64 | uint8 | uint16 | uint32 | uint64 | charbuf | bytebuf
  | errno | sockaddr | socktuple | fd | pid | fdlist | fspath | syscallid | sigtype | reltime
  | abstime | port | l4proto | sockfamily | bool | ipv4addr | dyn | flags8 | flags16 | flags32
  | uid | gid | double | sigset | charbufarray | charbufPairArray | ipv4net | ipv6addr
  | ipv6net | ipaddr | ipnet | mode | fsrelpath
deriving DecidableEq, Repr

/-- `enum nod_event_type`, in its numeric order. -/
inductive EventType where
  | generic | syscallOpen | syscallClose | syscallRead | syscallWrite | syscallBrk_1
  | syscallExit | syscallExitGroup | syscallExecve_8 | syscallClone_11 | socketSocket
  | socketBind | socketConnect | socketListen | socketAccept | socketSend | socketSendto
  | socketRecv | socketRecvfrom | socketShutdown | socketGetsockname | socketGetpeername
  | socketSocketpair | socketSetsockopt | socketGetsockopt | socketSendmsg | socketSendmmsg
  | socketRecvmsg | socketRecvmmsg | socketAccept4 | syscallCreat | syscallPipe
  | syscallEventfd | syscallFutex | syscallStat | syscallLstat | syscallFstat | syscallStat64
  | syscallLstat64 | syscallFstat64 | syscallEpollwait | syscallPoll | syscallSelect
  | syscallLseek | syscallLlseek | syscallIoctl_2 | syscallGetcwd | syscallChdir
  | syscallFchdir | syscallMkdir | syscallRmdir | syscallOpenat | syscallLink | syscallLinkat
  | syscallUnlink | syscallUnlinkat | syscallPread | syscallPwrite | syscallReadv
  | syscallWritev | syscallPreadv | syscallPwritev | syscallDup | syscallSignalfd | syscallKill
  | syscallTkill | syscallTgkill | syscallNanosleep | syscallTimerfdCreate | syscallInotifyInit
  | syscallGetrlimit | syscallSetrlimit | syscallPrlimit | syscallFcntl | syscallExecve_13
  | syscallClone_16 | syscallBrk_4 | syscallMmap | syscallMmap2 | syscallMunmap | syscallSplice
  | syscallPtrace | syscallIoctl_3 | syscallExecve_14 | syscallRename | syscallRenameat
  | syscallSymlink | syscallSymlinkat | syscallFork | syscallVfork | syscallSendfile
  | syscallQuotactl | syscallSetresuid | syscallSetresgid | syscallSetuid | syscallSetgid
  | syscallGetuid | syscallGeteuid | syscallGetgid | syscallGetegid | syscallGetresuid
  | syscallGetresgid | syscallExecve_15 | syscallClone_17 | syscallFork_17 | syscallVfork_17
  | syscallClone_20 | syscallFork_20 | syscallVfork_20 | syscallExecve_16 | syscallGetdents
  | syscallGetdents64 | syscallSetns | syscallFlock | socketAccept_5 | socketAccept4_5
  | syscallSemop | syscallSemctl | syscallPpoll | syscallMount | syscallUmount | syscallSemget
  | syscallAccess | syscallChroot | syscallSetsid | syscallMkdir_2 | syscallRmdir_2
  | syscallExecve_17 | syscallUnshare | syscallExecve_18 | syscallExecve_19 | syscallSetpgid
  | syscallBpf | syscallSeccomp | syscallUnlink_2 | syscallUnlinkat_2 | syscallMkdirat
  | syscallOpenat_2 | syscallLink_2 | syscallLinkat_2 | syscallFchmodat | syscallChmod
  | syscallFchmod | syscallRenameat2 | syscallUserfaultfd | syscallOpenat2 | syscallMprotect
  | syscallExecveat | syscallCopyFileRange | syscallClone3
deriving DecidableEq, Repr

/-- `NODE_EVENT_MAX`: the number of event types. -/
def nodeEventMax : Nat := 150

/-- The numeric value of an event type, as the record header stores it. -/
def EventType.toNat (t : EventType) : Nat := t.ctorIdx

theorem EventType.toNat_lt (t : EventType) : t.toNat < nodeEventMax := by
  cases t <;> decide

/-- What the recorder reads of a `struct nod_param_info`: the type, and for a
`PT_DYN` parameter the types it can stand for (`info` and `ninfo`). -/
structure ParamInfo where
  type : ParamType
  dyn : List ParamType := []
deriving DecidableEq, Repr

/-- What the recorder reads of a `struct nod_event_info`. -/
structure EventInfo where
  nparams : Nat
  params : List ParamInfo
deriving Repr

/-- `params[i]`; the array is zero-filled, hence `PT_NONE` past the listed ones. -/
def EventInfo.param (e : EventInfo) (i : Nat) : ParamInfo := e.params.getD i ⟨.none, []⟩

/-- `sockopt_dynamic_param`. -/
def sockoptDynamicParam : List ParamType := [.bytebuf, .errno, .uint32, .uint64, .reltime]

/-- `ptrace_dynamic_param`. -/
def ptraceDynamicParam : List ParamType := [.uint64, .sigtype]

/-- `bpf_dynamic_param`. -/
def bpfDynamicParam : List ParamType := [.fd, .errno]

/-- An event whose parameters are all of fixed type. -/
def EventInfo.plain (nparams : Nat) (types : List ParamType) : EventInfo :=
  ⟨nparams, types.map fun t => ⟨t, []⟩⟩

/-- The run of parameters every `execve`, `clone` and `fork` variant contains:
executable, arguments, process identity, working directory, descriptor limit and
memory counters.  The variants declare the descriptor limit with different types. -/
def procParams (fdlimit : ParamType) : List ParamType :=
  [.charbuf, .bytebuf, .pid, .pid, .pid, .charbuf, fdlimit, .uint64, .uint64, .uint32,
    .uint32, .uint32]

/-- `g_event_info`. -/
def gEventInfo : EventType → EventInfo
  | .generic => .plain 1 [.syscallid]
  | .syscallOpen => .plain 5 [.fd, .fspath, .flags32, .uint32, .uint32]
  | .syscallClose => .plain 2 [.fd, .errno]
  | .syscallRead => .plain 4 [.fd, .uint32, .errno, .bytebuf]
  | .syscallWrite => .plain 4 [.fd, .uint32, .errno, .bytebuf]
  | .syscallBrk_1 => .plain 2 [.uint32, .uint64]
  | .syscallExit => .plain 1 [.int32]
  | .syscallExitGroup => .plain 1 [.int32]
  | .syscallExecve_8 => .plain 19 ([.fspath, .errno] ++ procParams .uint64 ++
      [.charbuf, .bytebuf, .int32, .pid, .int32])
  | .syscallClone_11 => .plain 19 ([.pid] ++ procParams .int64 ++
      [.charbuf, .flags32, .uint32, .uint32, .pid, .pid])
  | .socketSocket => .plain 4 [.flags32, .uint32, .uint32, .fd]
  | .socketBind => .plain 3 [.fd, .errno, .sockaddr]
  | .socketConnect => .plain 3 [.fd, .errno, .socktuple]
  | .socketListen => .plain 3 [.fd, .uint32, .errno]
  | .socketAccept => .plain 3 [.fd, .socktuple, .uint8]
  | .socketSend => .plain 4 [.fd, .uint32, .errno, .bytebuf]
  | .socketSendto => .plain 5 [.fd, .uint32, .socktuple, .errno, .bytebuf]
  | .socketRecv => .plain 4 [.fd, .uint32, .errno, .bytebuf]
  | .socketRecvfrom => .plain 5 [.fd, .uint32, .errno, .bytebuf, .socktuple]
  | .socketShutdown => .plain 3 [.fd, .flags8, .errno]
  | .socketGetsockname => .plain 0 []
  | .socketGetpeername => .plain 0 []
  | .socketSocketpair => .plain 8 [.flags32, .uint32, .uint32, .errno, .fd, .fd, .uint64, .uint64]
  | .socketSetsockopt => ⟨6, [⟨.errno, []⟩, ⟨.fd, []⟩, ⟨.flags8, []⟩, ⟨.flags8, []⟩,
      ⟨.dyn, sockoptDynamicParam⟩, ⟨.uint32, []⟩]⟩
  | .socketGetsockopt => ⟨6, [⟨.errno, []⟩, ⟨.fd, []⟩, ⟨.flags8, []⟩, ⟨.flags8, []⟩,
      ⟨.dyn, sockoptDynamicParam⟩, ⟨.uint32, []⟩]⟩
  | .socketSendmsg => .plain 5 [.fd, .uint32, .socktuple, .errno, .bytebuf]
  | .socketSendmmsg => .plain 0 []
  | .socketRecvmsg => .plain 5 [.fd, .errno, .uint32, .bytebuf, .socktuple]
  | .socketRecvmmsg => .plain 0 []
  | .syscallCreat => .plain 4 [.fd, .fspath, .uint32, .uint32]
  | .syscallPipe => .plain 4 [.errno, .fd, .fd, .uint64]
  | .syscallEventfd => .plain 3 [.uint64, .flags32, .fd]
  | .syscallFutex => .plain 4 [.uint64, .flags16, .uint64, .errno]
  | .syscallStat => .plain 2 [.errno, .fspath]
  | .syscallLstat => .plain 2 [.errno, .fspath]
  | .syscallFstat => .plain 2 [.fd, .errno]
  | .syscallStat64 => .plain 2 [.errno, .fspath]
  | .syscallLstat64 => .plain 2 [.errno, .fspath]
  | .syscallFstat64 => .plain 2 [.fd, .errno]
  | .syscallEpollwait => .plain 2 [.errno, .errno]
  | .syscallPoll => .plain 4 [.fdlist, .int64, .errno, .fdlist]
  | .syscallSelect => .plain 1 [.errno]
  | .syscallLseek => .plain 4 [.fd, .uint64, .flags8, .errno]
  | .syscallLlseek => .plain 4 [.fd, .uint64, .flags8, .errno]
  | .syscallGetcwd => .plain 2 [.errno, .charbuf]
  | .syscallChdir => .plain 2 [.errno, .charbuf]
  | .syscallFchdir => .plain 2 [.fd, .errno]
  | .syscallMkdir => .plain 3 [.fspath, .uint32, .errno]
  | .syscallRmdir => .plain 2 [.fspath, .errno]
  | .syscallOpenat => .plain 5 [.fd, .charbuf, .flags32, .uint32, .errno]
  | .syscallLink => .plain 3 [.fspath, .fspath, .errno]
  | .syscallLinkat => .plain 5 [.fd, .charbuf, .fd, .charbuf, .errno]
  | .syscallUnlink => .plain 2 [.fspath, .errno]
  | .syscallUnlinkat => .plain 3 [.fd, .charbuf, .errno]
  | .syscallPread => .plain 5 [.fd, .uint32, .uint64, .errno, .bytebuf]
  | .syscallPwrite => .plain 5 [.fd, .uint32, .uint64, .errno, .bytebuf]
  | .syscallReadv => .plain 4 [.fd, .errno, .uint32, .bytebuf]
  | .syscallWritev => .plain 4 [.fd, .uint32, .errno, .bytebuf]
  | .syscallPreadv => .plain 5 [.fd, .uint64, .errno, .uint32, .bytebuf]
  | .syscallPwritev => .plain 5 [.fd, .uint32, .uint64, .errno, .bytebuf]
  | .syscallDup => .plain 2 [.fd, .fd]
  | .syscallSignalfd => .plain 4 [.fd, .uint32, .flags8, .fd]
  | .syscallKill => .plain 3 [.pid, .sigtype, .errno]
  | .syscallTkill => .plain 3 [.pid, .sigtype, .errno]
  | .syscallTgkill => .plain 4 [.pid, .pid, .sigtype, .errno]
  | .syscallNanosleep => .plain 2 [.reltime, .errno]
  | .syscallTimerfdCreate => .plain 3 [.uint8, .flags8, .fd]
  | .syscallInotifyInit => .plain 2 [.flags8, .fd]
  | .syscallGetrlimit => .plain 4 [.flags8, .errno, .int64, .int64]
  | .syscallSetrlimit => .plain 4 [.flags8, .errno, .int64, .int64]
  | .syscallPrlimit => .plain 7 [.pid, .flags8, .errno, .int64, .int64, .int64, .int64]
  | .syscallFcntl => .plain 3 [.fd, .flags8, .fd]
  | .syscallBrk_4 => .plain 5 [.uint64, .uint64, .uint32, .uint32, .uint32]
  | .syscallMmap => .plain 10 [.uint64, .uint64, .flags32, .flags32, .fd, .uint64, .uint64,
      .uint32, .uint32, .uint32]
  | .syscallMmap2 => .plain 10 [.uint64, .uint64, .flags32, .flags32, .fd, .uint64, .uint64,
      .uint32, .uint32, .uint32, .uint64, .uint32, .uint32, .uint32]
  | .syscallMunmap => .plain 6 [.uint64, .uint64, .errno, .uint32, .uint32, .uint32]
  | .syscallSplice => .plain 4 [.fd, .fd, .uint64, .flags32, .errno]
  | .syscallPtrace => ⟨5, [⟨.flags16, []⟩, ⟨.pid, []⟩, ⟨.errno, []⟩, ⟨.dyn, ptraceDynamicParam⟩,
      ⟨.dyn, ptraceDynamicParam⟩]⟩
  | .syscallIoctl_3 => .plain 4 [.fd, .uint64, .uint64, .errno]
  | .syscallExecve_14 => .plain 14 ([.errno] ++ procParams .uint64 ++ [.bytebuf])
  | .syscallRename => .plain 3 [.errno, .fspath, .fspath]
  | .syscallRenameat => .plain 5 [.errno, .fd, .fsrelpath, .fd, .fsrelpath]
  | .syscallSymlink => .plain 3 [.errno, .charbuf, .fspath]
  | .syscallSymlinkat => .plain 4 [.errno, .charbuf, .fd, .fsrelpath]
  | .syscallFork => .plain 19 ([.pid] ++ procParams .int64 ++
      [.charbuf, .flags32, .uint32, .uint32, .pid, .pid])
  | .syscallVfork => .plain 19 ([.pid] ++ procParams .int64 ++
      [.charbuf, .flags32, .uint32, .uint32, .pid, .pid])
  | .syscallSendfile => .plain 6 [.fd, .fd, .uint64, .uint64, .errno, .uint64]
  | .syscallQuotactl => .plain 18 [.flags16, .flags8, .uint32, .flags8, .errno, .charbuf,
      .charbuf, .uint64, .uint64, .uint64, .uint64, .uint64, .reltime, .reltime, .reltime,
      .reltime, .flags8, .flags8]
  | .syscallSetresuid => .plain 4 [.uid, .uid, .uid, .errno]
  | .syscallSetresgid => .plain 4 [.gid, .gid, .gid, .errno]
  | .syscallSetuid => .plain 2 [.uid, .errno]
  | .syscallSetgid => .plain 2 [.gid, .errno]
  | .syscallGetuid => .plain 1 [.uid]
  | .syscallGeteuid => .plain 1 [.uid]
  | .syscallGetgid => .plain 1 [.gid]
  | .syscallGetegid => .plain 1 [.gid]
  | .syscallGetresuid => .plain 4 [.errno, .uid, .uid, .uid]
  | .syscallGetresgid => .plain 4 [.errno, .gid, .gid, .gid]
  | .syscallExecve_15 => .plain 15 ([.errno] ++ procParams .uint64 ++ [.charbuf, .bytebuf])
  | .syscallClone_17 => .plain 17 ([.pid] ++ procParams .int64 ++
      [.charbuf, .flags32, .uint32, .uint32])
  | .syscallFork_17 => .plain 17 ([.pid] ++ procParams .int64 ++
      [.charbuf, .flags32, .uint32, .uint32])
  | .syscallVfork_17 => .plain 17 ([.pid] ++ procParams .int64 ++
      [.charbuf, .flags32, .uint32, .uint32])
  | .syscallClone_20 => .plain 20 ([.pid] ++ procParams .int64 ++
      [.charbuf, .bytebuf, .flags32, .uint32, .uint32, .pid, .pid])
  | .syscallFork_20 => .plain 20 ([.pid] ++ procParams .int64 ++
      [.charbuf, .bytebuf, .flags32, .uint32, .uint32, .pid, .pid])
  | .syscallVfork_20 => .plain 20 ([.pid] ++ procParams .int64 ++
      [.charbuf, .bytebuf, .flags32, .uint32, .uint32, .pid, .pid])
  | .syscallExecve_16 => .plain 16 ([.errno] ++ procParams .uint64 ++
      [.charbuf, .bytebuf, .bytebuf])
  | .syscallGetdents => .plain 2 [.fd, .errno]
  | .syscallGetdents64 => .plain 2 [.fd, .errno]
  | .syscallSetns => .plain 3 [.fd, .flags32, .errno]
  | .syscallFlock => .plain 3 [.fd, .flags32, .errno]
  | .socketAccept_5 => .plain 5 [.fd, .socktuple, .uint8, .uint32, .uint32]
  | .socketAccept4_5 => .plain 6 [.int32, .fd, .socktuple, .uint8, .uint32, .uint32]
  | .syscallSemop => .plain 9 [.int32, .errno, .uint32, .uint16, .int16, .flags16, .uint16,
      .int16, .flags16]
  | .syscallSemctl => .plain 5 [.int32, .int32, .flags16, .int32, .errno]
  | .syscallPpoll => .plain 5 [.fdlist, .reltime, .sigset, .errno, .fdlist]
  | .syscallMount => .plain 5 [.flags32, .errno, .charbuf, .fspath, .charbuf]
  | .syscallUmount => .plain 3 [.flags32, .errno, .fspath]
  | .syscallSemget => .plain 4 [.int32, .int32, .flags32, .errno]
  | .syscallAccess => .plain 3 [.flags32, .errno, .fspath]
  | .syscallChroot => .plain 2 [.errno, .fspath]
  | .syscallSetsid => .plain 1 [.pid]
  | .syscallMkdir_2 => .plain 3 [.uint32, .errno, .fspath]
  | .syscallRmdir_2 => .plain 2 [.errno, .fspath]
  | .syscallExecve_17 => .plain 17 ([.errno] ++ procParams .uint64 ++
      [.charbuf, .bytebuf, .bytebuf, .int32])
  | .syscallUnshare => .plain 2 [.flags32, .errno]
  | .syscallExecve_18 => .plain 18 ([.fspath, .errno] ++ procParams .uint64 ++
      [.charbuf, .bytebuf, .bytebuf, .int32])
  | .syscallExecve_19 => .plain 21 ([.fspath, .errno] ++ procParams .uint64 ++
      [.charbuf, .bytebuf, .bytebuf, .int32, .pid, .int32, .flags32])
  | .syscallSetpgid => .plain 3 [.pid, .pid, .pid]
  | .syscallBpf => ⟨2, [⟨.int64, []⟩, ⟨.dyn, bpfDynamicParam⟩]⟩
  | .syscallSeccomp => .plain 3 [.uint64, .uint64, .errno]
  | .syscallUnlink_2 => .plain 2 [.errno, .fspath]
  | .syscallUnlinkat_2 => .plain 4 [.errno, .fd, .fsrelpath, .flags32]
  | .syscallMkdirat => .plain 4 [.errno, .fd, .fsrelpath, .uint32]
  | .syscallOpenat_2 => .plain 6 [.fd, .fd, .fsrelpath, .flags32, .uint32, .uint32]
  | .syscallLink_2 => .plain 3 [.errno, .fspath, .fspath]
  | .syscallLinkat_2 => .plain 6 [.errno, .fd, .fsrelpath, .fd, .fsrelpath, .flags32]
  | .syscallFchmodat => .plain 4 [.errno, .fd, .fsrelpath, .mode]
  | .syscallChmod => .plain 3 [.errno, .fspath, .mode]
  | .syscallFchmod => .plain 3 [.errno, .fd, .mode]
  | .syscallRenameat2 => .plain 6 [.errno, .fd, .fsrelpath, .fd, .fsrelpath, .flags32]
  | .syscallUserfaultfd => .plain 2 [.errno, .flags32]
  | .syscallOpenat2 => .plain 6 [.fd, .fd, .fsrelpath, .flags32, .uint32, .flags32]
  | .syscallMprotect => .plain 4 [.uint64, .uint64, .flags32, .errno]
  | .syscallExecveat => .plain 23 ([.fd, .fsrelpath, .flags32, .errno] ++ procParams .uint64 ++
      [.charbuf, .bytebuf, .bytebuf, .int32, .pid, .int32, .flags32])
  | .syscallCopyFileRange => .plain 6 [.fd, .uint64, .uint64, .errno, .fd, .uint64]
  | .syscallClone3 => .plain 20 ([.pid] ++ procParams .int64 ++
      [.charbuf, .bytebuf, .flags32, .uint32, .uint32, .pid, .pid])
  | .socketAccept4 | .syscallIoctl_2 | .syscallExecve_13 | .syscallClone_16 => .plain 0 []

/-- `NOD_MAX_EVENT_PARAMS`: the length of the `params` array. -/
def nodMaxEventParams : Nat := 32

theorem gEventInfo_nparams_le (t : EventType) : (gEventInfo t).nparams ≤ nodMaxEventParams := by
  cases t <;> decide

end NoDrop
