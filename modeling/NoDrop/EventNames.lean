import NoDrop.EventTable

/-! # Names and formats

The rest of `kmodule/tables/events_table.c`: what a reader of the records shows.  Every event
type has a name, and every parameter a name and a format for printing it.

As in `EventTable`, the rows are the source's: `mmap2` and `splice` list more parameters than
they declare, and an event type without an entry has an empty name.
-/
namespace NoDrop

/-- `enum nod_print_format`.  `PF_ID` and `PF_DIR`, which no parameter has, are left out. -/
inductive PrintFormat where
  | na | dec | hex | paddedDec | oct
deriving DecidableEq, Repr

/-- What a reader shows of a `struct nod_param_info`. -/
structure ParamText where
  name : String
  fmt : PrintFormat
deriving DecidableEq, Repr

/-- What a reader shows of a `struct nod_event_info`. -/
structure EventText where
  name : String
  params : List ParamText
deriving Repr

/-- `params[i]`; the array is zero-filled. -/
def EventText.param (e : EventText) (i : Nat) : ParamText := e.params.getD i ⟨"", .na⟩

/-- The texts of `procParams`. -/
def procTexts : List ParamText :=
  [⟨"exe", .na⟩, ⟨"args", .na⟩, ⟨"tid", .dec⟩, ⟨"pid", .dec⟩, ⟨"ptid", .dec⟩, ⟨"cwd", .na⟩,
    ⟨"fdlimit", .dec⟩, ⟨"pgft_maj", .dec⟩, ⟨"pgft_min", .dec⟩, ⟨"vm_size", .dec⟩,
    ⟨"vm_rss", .dec⟩, ⟨"vm_swap", .dec⟩]

/-- `g_event_info`. -/
def gEventText : EventType → EventText
  | .generic => ⟨"syscall", [⟨"ID", .dec⟩]⟩
  | .syscallOpen => ⟨"open", [⟨"fd", .dec⟩, ⟨"name", .na⟩, ⟨"flags", .hex⟩, ⟨"mode", .oct⟩,
      ⟨"dev", .hex⟩]⟩
  | .syscallClose => ⟨"close", [⟨"fd", .dec⟩, ⟨"res", .dec⟩]⟩
  | .syscallRead => ⟨"read", [⟨"fd", .dec⟩, ⟨"size", .dec⟩, ⟨"res", .dec⟩, ⟨"data", .na⟩]⟩
  | .syscallWrite => ⟨"write", [⟨"fd", .dec⟩, ⟨"size", .dec⟩, ⟨"res", .dec⟩, ⟨"data", .na⟩]⟩
  | .syscallBrk_1 => ⟨"brk", [⟨"size", .dec⟩, ⟨"res", .hex⟩]⟩
  | .syscallExit => ⟨"exit", [⟨"code", .dec⟩]⟩
  | .syscallExitGroup => ⟨"exit_group", [⟨"code", .dec⟩]⟩
  | .syscallExecve_8 => ⟨"execve", [⟨"filename", .na⟩, ⟨"res", .dec⟩] ++ procTexts ++
      [⟨"comm", .na⟩, ⟨"env", .na⟩, ⟨"tty", .dec⟩, ⟨"pgid", .dec⟩, ⟨"loginuid", .dec⟩]⟩
  | .syscallClone_11 => ⟨"clone", [⟨"res", .dec⟩] ++ procTexts ++
      [⟨"comm", .na⟩, ⟨"flags", .hex⟩, ⟨"uid", .dec⟩, ⟨"gid", .dec⟩, ⟨"vtid", .dec⟩,
      ⟨"vpid", .dec⟩]⟩
  | .socketSocket => ⟨"socket", [⟨"domain", .dec⟩, ⟨"type", .dec⟩, ⟨"proto", .dec⟩, ⟨"fd", .dec⟩]⟩
  | .socketBind => ⟨"bind", [⟨"fd", .dec⟩, ⟨"res", .dec⟩, ⟨"addr", .na⟩]⟩
  | .socketConnect => ⟨"connect", [⟨"fd", .dec⟩, ⟨"res", .dec⟩, ⟨"tuple", .na⟩]⟩
  | .socketListen => ⟨"listen", [⟨"fd", .dec⟩, ⟨"backlog", .dec⟩, ⟨"res", .dec⟩]⟩
  | .socketAccept => ⟨"accept", [⟨"fd", .dec⟩, ⟨"tuple", .na⟩, ⟨"queuepct", .dec⟩]⟩
  | .socketSend => ⟨"send", [⟨"fd", .dec⟩, ⟨"size", .dec⟩, ⟨"res", .dec⟩, ⟨"data", .na⟩]⟩
  | .socketSendto => ⟨"sendto", [⟨"fd", .dec⟩, ⟨"size", .dec⟩, ⟨"tuple", .na⟩, ⟨"res", .dec⟩,
      ⟨"data", .na⟩]⟩
  | .socketRecv => ⟨"recv", [⟨"fd", .dec⟩, ⟨"size", .dec⟩, ⟨"res", .dec⟩, ⟨"data", .na⟩]⟩
  | .socketRecvfrom => ⟨"recvfrom", [⟨"fd", .dec⟩, ⟨"size", .dec⟩, ⟨"res", .dec⟩, ⟨"data", .na⟩,
      ⟨"tuple", .na⟩]⟩
  | .socketShutdown => ⟨"shutdown", [⟨"fd", .dec⟩, ⟨"how", .hex⟩, ⟨"res", .dec⟩]⟩
  | .socketGetsockname => ⟨"getsockname", []⟩
  | .socketGetpeername => ⟨"getpeername", []⟩
  | .socketSocketpair => ⟨"socketpair", [⟨"domain", .dec⟩, ⟨"type", .dec⟩, ⟨"proto", .dec⟩,
      ⟨"res", .dec⟩, ⟨"fd1", .dec⟩, ⟨"fd2", .dec⟩, ⟨"source", .hex⟩, ⟨"peer", .hex⟩]⟩
  | .socketSetsockopt => ⟨"setsockopt", [⟨"res", .dec⟩, ⟨"fd", .dec⟩, ⟨"level", .dec⟩,
      ⟨"optname", .dec⟩, ⟨"val", .dec⟩, ⟨"optlen", .dec⟩]⟩
  | .socketGetsockopt => ⟨"getsockopt", [⟨"res", .dec⟩, ⟨"fd", .dec⟩, ⟨"level", .dec⟩,
      ⟨"optname", .dec⟩, ⟨"val", .dec⟩, ⟨"optlen", .dec⟩]⟩
  | .socketSendmsg => ⟨"sendmsg", [⟨"fd", .dec⟩, ⟨"size", .dec⟩, ⟨"tuple", .na⟩, ⟨"res", .dec⟩,
      ⟨"data", .na⟩]⟩
  | .socketSendmmsg => ⟨"sendmmsg", []⟩
  | .socketRecvmsg => ⟨"recvmsg", [⟨"fd", .dec⟩, ⟨"res", .dec⟩, ⟨"size", .dec⟩, ⟨"data", .na⟩,
      ⟨"tuple", .na⟩]⟩
  | .socketRecvmmsg => ⟨"recvmmsg", []⟩
  | .syscallCreat => ⟨"creat", [⟨"fd", .dec⟩, ⟨"name", .na⟩, ⟨"mode", .oct⟩, ⟨"dev", .hex⟩]⟩
  | .syscallPipe => ⟨"pipe", [⟨"res", .dec⟩, ⟨"fd1", .dec⟩, ⟨"fd2", .dec⟩, ⟨"ino", .dec⟩]⟩
  | .syscallEventfd => ⟨"eventfd", [⟨"initval", .dec⟩, ⟨"flags", .hex⟩, ⟨"res", .dec⟩]⟩
  | .syscallFutex => ⟨"futex", [⟨"addr", .hex⟩, ⟨"op", .hex⟩, ⟨"val", .dec⟩, ⟨"res", .dec⟩]⟩
  | .syscallStat => ⟨"stat", [⟨"res", .dec⟩, ⟨"path", .na⟩]⟩
  | .syscallLstat => ⟨"lstat", [⟨"res", .dec⟩, ⟨"path", .na⟩]⟩
  | .syscallFstat => ⟨"fstat", [⟨"fd", .na⟩, ⟨"res", .dec⟩]⟩
  | .syscallStat64 => ⟨"stat64", [⟨"res", .dec⟩, ⟨"path", .na⟩]⟩
  | .syscallLstat64 => ⟨"lstat64", [⟨"res", .dec⟩, ⟨"path", .na⟩]⟩
  | .syscallFstat64 => ⟨"fstat64", [⟨"fd", .na⟩, ⟨"res", .dec⟩]⟩
  | .syscallEpollwait => ⟨"epoll_wait", [⟨"maxevents", .dec⟩, ⟨"res", .dec⟩]⟩
  | .syscallPoll => ⟨"poll", [⟨"fds", .dec⟩, ⟨"timeout", .dec⟩, ⟨"res", .dec⟩, ⟨"fds", .dec⟩]⟩
  | .syscallSelect => ⟨"select", [⟨"res", .dec⟩]⟩
  | .syscallLseek => ⟨"lseek", [⟨"fd", .dec⟩, ⟨"offset", .dec⟩, ⟨"whence", .dec⟩, ⟨"res", .dec⟩]⟩
  | .syscallLlseek => ⟨"llseek", [⟨"fd", .dec⟩, ⟨"offset", .dec⟩, ⟨"whence", .dec⟩,
      ⟨"res", .dec⟩]⟩
  | .syscallGetcwd => ⟨"getcwd", [⟨"res", .dec⟩, ⟨"path", .na⟩]⟩
  | .syscallChdir => ⟨"chdir", [⟨"res", .dec⟩, ⟨"path", .na⟩]⟩
  | .syscallFchdir => ⟨"fchdir", [⟨"fd", .na⟩, ⟨"res", .dec⟩]⟩
  | .syscallMkdir => ⟨"mkdir", [⟨"path", .na⟩, ⟨"mode", .hex⟩, ⟨"res", .dec⟩]⟩
  | .syscallRmdir => ⟨"rmdir", [⟨"path", .na⟩, ⟨"res", .dec⟩]⟩
  | .syscallOpenat => ⟨"openat", [⟨"dirfd", .dec⟩, ⟨"name", .na⟩, ⟨"flags", .hex⟩, ⟨"mode", .oct⟩,
      ⟨"res", .dec⟩]⟩
  | .syscallLink => ⟨"link", [⟨"oldpath", .na⟩, ⟨"newpath", .na⟩, ⟨"res", .dec⟩]⟩
  | .syscallLinkat => ⟨"linkat", [⟨"olddir", .dec⟩, ⟨"oldpath", .na⟩, ⟨"newdir", .dec⟩,
      ⟨"newpath", .na⟩, ⟨"res", .dec⟩]⟩
  | .syscallUnlink => ⟨"unlink", [⟨"path", .na⟩, ⟨"res", .dec⟩]⟩
  | .syscallUnlinkat => ⟨"unlinkat", [⟨"dirfd", .dec⟩, ⟨"name", .na⟩, ⟨"res", .dec⟩]⟩
  | .syscallPread => ⟨"pread", [⟨"fd", .dec⟩, ⟨"size", .dec⟩, ⟨"pos", .dec⟩, ⟨"res", .dec⟩,
      ⟨"data", .na⟩]⟩
  | .syscallPwrite => ⟨"pwrite", [⟨"fd", .dec⟩, ⟨"size", .dec⟩, ⟨"pos", .dec⟩, ⟨"res", .dec⟩,
      ⟨"data", .na⟩]⟩
  | .syscallReadv => ⟨"readv", [⟨"fd", .dec⟩, ⟨"res", .dec⟩, ⟨"size", .dec⟩, ⟨"data", .na⟩]⟩
  | .syscallWritev => ⟨"writev", [⟨"fd", .dec⟩, ⟨"size", .dec⟩, ⟨"res", .dec⟩, ⟨"data", .na⟩]⟩
  | .syscallPreadv => ⟨"preadv", [⟨"fd", .dec⟩, ⟨"pos", .dec⟩, ⟨"res", .dec⟩, ⟨"size", .dec⟩,
      ⟨"data", .na⟩]⟩
  | .syscallPwritev => ⟨"pwritev", [⟨"fd", .dec⟩, ⟨"size", .dec⟩, ⟨"pos", .dec⟩, ⟨"res", .dec⟩,
      ⟨"data", .na⟩]⟩
  | .syscallDup => ⟨"dup", [⟨"fd", .dec⟩, ⟨"res", .dec⟩]⟩
  | .syscallSignalfd => ⟨"signalfd", [⟨"fd", .dec⟩, ⟨"mask", .hex⟩, ⟨"flags", .hex⟩,
      ⟨"res", .dec⟩]⟩
  | .syscallKill => ⟨"kill", [⟨"pid", .dec⟩, ⟨"sig", .dec⟩, ⟨"res", .dec⟩]⟩
  | .syscallTkill => ⟨"tkill", [⟨"tid", .dec⟩, ⟨"sig", .dec⟩, ⟨"res", .dec⟩]⟩
  | .syscallTgkill => ⟨"tgkill", [⟨"pid", .dec⟩, ⟨"tid", .dec⟩, ⟨"sig", .dec⟩, ⟨"res", .dec⟩]⟩
  | .syscallNanosleep => ⟨"nanosleep", [⟨"interval", .dec⟩, ⟨"res", .dec⟩]⟩
  | .syscallTimerfdCreate => ⟨"timerfd_create", [⟨"clockid", .dec⟩, ⟨"flags", .hex⟩,
      ⟨"res", .dec⟩]⟩
  | .syscallInotifyInit => ⟨"inotify_init", [⟨"flags", .hex⟩, ⟨"res", .dec⟩]⟩
  | .syscallGetrlimit => ⟨"getrlimit", [⟨"resource", .dec⟩, ⟨"res", .dec⟩, ⟨"cur", .dec⟩,
      ⟨"max", .dec⟩]⟩
  | .syscallSetrlimit => ⟨"setrlimit", [⟨"resource", .dec⟩, ⟨"res", .dec⟩, ⟨"cur", .dec⟩,
      ⟨"max", .dec⟩]⟩
  | .syscallPrlimit => ⟨"prlimit", [⟨"pid", .dec⟩, ⟨"resource", .dec⟩, ⟨"res", .dec⟩,
      ⟨"newcur", .dec⟩, ⟨"newmax", .dec⟩, ⟨"oldcur", .dec⟩, ⟨"oldmax", .dec⟩]⟩
  | .syscallFcntl => ⟨"fcntl", [⟨"fd", .dec⟩, ⟨"cmd", .dec⟩, ⟨"res", .dec⟩]⟩
  | .syscallBrk_4 => ⟨"brk", [⟨"addr", .hex⟩, ⟨"res", .hex⟩, ⟨"vm_size", .dec⟩, ⟨"vm_rss", .dec⟩,
      ⟨"vm_swap", .dec⟩]⟩
  | .syscallMmap => ⟨"mmap", [⟨"addr", .hex⟩, ⟨"length", .dec⟩, ⟨"prot", .hex⟩, ⟨"flags", .hex⟩,
      ⟨"fd", .dec⟩, ⟨"offset", .dec⟩, ⟨"res", .hex⟩, ⟨"vm_size", .dec⟩, ⟨"vm_rss", .dec⟩,
      ⟨"vm_swap", .dec⟩]⟩
  | .syscallMmap2 => ⟨"mmap2", [⟨"addr", .hex⟩, ⟨"length", .dec⟩, ⟨"prot", .hex⟩, ⟨"flags", .hex⟩,
      ⟨"fd", .dec⟩, ⟨"pgoffset", .dec⟩, ⟨"res", .hex⟩, ⟨"vm_size", .dec⟩, ⟨"vm_rss", .dec⟩,
      ⟨"vm_swap", .dec⟩, ⟨"res", .hex⟩, ⟨"vm_size", .dec⟩, ⟨"vm_rss", .dec⟩, ⟨"vm_swap", .dec⟩]⟩
  | .syscallMunmap => ⟨"munmap", [⟨"addr", .hex⟩, ⟨"length", .dec⟩, ⟨"res", .dec⟩,
      ⟨"vm_size", .dec⟩, ⟨"vm_rss", .dec⟩, ⟨"vm_swap", .dec⟩]⟩
  | .syscallSplice => ⟨"splice", [⟨"fd_in", .dec⟩, ⟨"fd_out", .dec⟩, ⟨"size", .dec⟩,
      ⟨"flags", .hex⟩, ⟨"res", .dec⟩]⟩
  | .syscallPtrace => ⟨"ptrace", [⟨"request", .dec⟩, ⟨"pid", .dec⟩, ⟨"res", .dec⟩, ⟨"addr", .hex⟩,
      ⟨"data", .hex⟩]⟩
  | .syscallIoctl_3 => ⟨"ioctl", [⟨"fd", .dec⟩, ⟨"request", .hex⟩, ⟨"argument", .hex⟩,
      ⟨"res", .dec⟩]⟩
  | .syscallExecve_14 => ⟨"execve", [⟨"res", .dec⟩] ++ procTexts ++
      [⟨"env", .na⟩]⟩
  | .syscallRename => ⟨"rename", [⟨"res", .dec⟩, ⟨"oldpath", .na⟩, ⟨"newpath", .na⟩]⟩
  | .syscallRenameat => ⟨"renameat", [⟨"res", .dec⟩, ⟨"olddirfd", .dec⟩, ⟨"oldpath", .na⟩,
      ⟨"newdirfd", .dec⟩, ⟨"newpath", .na⟩]⟩
  | .syscallSymlink => ⟨"symlink", [⟨"res", .dec⟩, ⟨"target", .na⟩, ⟨"linkpath", .na⟩]⟩
  | .syscallSymlinkat => ⟨"symlinkat", [⟨"res", .dec⟩, ⟨"target", .na⟩, ⟨"linkdirfd", .dec⟩,
      ⟨"linkpath", .na⟩]⟩
  | .syscallFork => ⟨"fork", [⟨"res", .dec⟩] ++ procTexts ++
      [⟨"comm", .na⟩, ⟨"flags", .hex⟩, ⟨"uid", .dec⟩, ⟨"gid", .dec⟩, ⟨"vtid", .dec⟩,
      ⟨"vpid", .dec⟩]⟩
  | .syscallVfork => ⟨"vfork", [⟨"res", .dec⟩] ++ procTexts ++
      [⟨"comm", .na⟩, ⟨"flags", .hex⟩, ⟨"uid", .dec⟩, ⟨"gid", .dec⟩, ⟨"vtid", .dec⟩,
      ⟨"vpid", .dec⟩]⟩
  | .syscallSendfile => ⟨"sendfile", [⟨"out_fd", .dec⟩, ⟨"in_fd", .dec⟩, ⟨"offset", .dec⟩,
      ⟨"size", .dec⟩, ⟨"res", .dec⟩, ⟨"offset", .dec⟩]⟩
  | .syscallQuotactl => ⟨"quotactl", [⟨"cmd", .dec⟩, ⟨"type", .dec⟩, ⟨"id", .dec⟩,
      ⟨"quota_fmt", .dec⟩, ⟨"res", .dec⟩, ⟨"special", .na⟩, ⟨"quotafilepath", .na⟩,
      ⟨"dqb_bhardlimit", .dec⟩, ⟨"dqb_bsoftlimit", .dec⟩, ⟨"dqb_curspace", .dec⟩,
      ⟨"dqb_ihardlimit", .dec⟩, ⟨"dqb_isoftlimit", .dec⟩, ⟨"dqb_btime", .dec⟩,
      ⟨"dqb_itime", .dec⟩, ⟨"dqi_bgrace", .dec⟩, ⟨"dqi_igrace", .dec⟩, ⟨"dqi_flags", .dec⟩,
      ⟨"quota_fmt_out", .dec⟩]⟩
  | .syscallSetresuid => ⟨"setresuid", [⟨"ruid", .dec⟩, ⟨"euid", .dec⟩, ⟨"suid", .dec⟩,
      ⟨"res", .dec⟩]⟩
  | .syscallSetresgid => ⟨"setresgid", [⟨"rgid", .dec⟩, ⟨"egid", .dec⟩, ⟨"sgid", .dec⟩,
      ⟨"res", .dec⟩]⟩
  | .syscallSetuid => ⟨"setuid", [⟨"uid", .dec⟩, ⟨"res", .dec⟩]⟩
  | .syscallSetgid => ⟨"setgid", [⟨"gid", .dec⟩, ⟨"res", .dec⟩]⟩
  | .syscallGetuid => ⟨"getuid", [⟨"uid", .dec⟩]⟩
  | .syscallGeteuid => ⟨"geteuid", [⟨"euid", .dec⟩]⟩
  | .syscallGetgid => ⟨"getgid", [⟨"gid", .dec⟩]⟩
  | .syscallGetegid => ⟨"getegid", [⟨"egid", .dec⟩]⟩
  | .syscallGetresuid => ⟨"getresuid", [⟨"res", .dec⟩, ⟨"ruid", .dec⟩, ⟨"euid", .dec⟩,
      ⟨"suid", .dec⟩]⟩
  | .syscallGetresgid => ⟨"getresgid", [⟨"res", .dec⟩, ⟨"rgid", .dec⟩, ⟨"egid", .dec⟩,
      ⟨"sgid", .dec⟩]⟩
  | .syscallExecve_15 => ⟨"execve", [⟨"res", .dec⟩] ++ procTexts ++
      [⟨"comm", .na⟩, ⟨"env", .na⟩]⟩
  | .syscallClone_17 => ⟨"clone", [⟨"res", .dec⟩] ++ procTexts ++
      [⟨"comm", .na⟩, ⟨"flags", .hex⟩, ⟨"uid", .dec⟩, ⟨"gid", .dec⟩]⟩
  | .syscallFork_17 => ⟨"fork", [⟨"res", .dec⟩] ++ procTexts ++
      [⟨"comm", .na⟩, ⟨"flags", .hex⟩, ⟨"uid", .dec⟩, ⟨"gid", .dec⟩]⟩
  | .syscallVfork_17 => ⟨"vfork", [⟨"res", .dec⟩] ++ procTexts ++
      [⟨"comm", .na⟩, ⟨"flags", .hex⟩, ⟨"uid", .dec⟩, ⟨"gid", .dec⟩]⟩
  | .syscallClone_20 => ⟨"clone", [⟨"res", .dec⟩] ++ procTexts ++
      [⟨"comm", .na⟩, ⟨"cgroups", .na⟩, ⟨"flags", .hex⟩, ⟨"uid", .dec⟩, ⟨"gid", .dec⟩,
      ⟨"vtid", .dec⟩, ⟨"vpid", .dec⟩]⟩
  | .syscallFork_20 => ⟨"fork", [⟨"res", .dec⟩] ++ procTexts ++
      [⟨"comm", .na⟩, ⟨"cgroups", .na⟩, ⟨"flags", .hex⟩, ⟨"uid", .dec⟩, ⟨"gid", .dec⟩,
      ⟨"vtid", .dec⟩, ⟨"vpid", .dec⟩]⟩
  | .syscallVfork_20 => ⟨"vfork", [⟨"res", .dec⟩] ++ procTexts ++
      [⟨"comm", .na⟩, ⟨"cgroups", .na⟩, ⟨"flags", .hex⟩, ⟨"uid", .dec⟩, ⟨"gid", .dec⟩,
      ⟨"vtid", .dec⟩, ⟨"vpid", .dec⟩]⟩
  | .syscallExecve_16 => ⟨"execve", [⟨"res", .dec⟩] ++ procTexts ++
      [⟨"comm", .na⟩, ⟨"cgroups", .na⟩, ⟨"env", .na⟩]⟩
  | .syscallGetdents => ⟨"getdents", [⟨"fd", .na⟩, ⟨"res", .dec⟩]⟩
  | .syscallGetdents64 => ⟨"getdents64", [⟨"fd", .na⟩, ⟨"res", .dec⟩]⟩
  | .syscallSetns => ⟨"setns", [⟨"fd", .na⟩, ⟨"nstype", .hex⟩, ⟨"res", .dec⟩]⟩
  | .syscallFlock => ⟨"flock", [⟨"fd", .na⟩, ⟨"operation", .hex⟩, ⟨"res", .dec⟩]⟩
  | .socketAccept_5 => ⟨"accept", [⟨"fd", .dec⟩, ⟨"tuple", .na⟩, ⟨"queuepct", .dec⟩,
      ⟨"queuelen", .dec⟩, ⟨"queuemax", .dec⟩]⟩
  | .socketAccept4_5 => ⟨"accept", [⟨"flags", .hex⟩, ⟨"fd", .dec⟩, ⟨"tuple", .na⟩,
      ⟨"queuepct", .dec⟩, ⟨"queuelen", .dec⟩, ⟨"queuemax", .dec⟩]⟩
  | .syscallSemop => ⟨"semop", [⟨"semid", .dec⟩, ⟨"res", .dec⟩, ⟨"nsops", .dec⟩,
      ⟨"sem_num_0", .dec⟩, ⟨"sem_op_0", .dec⟩, ⟨"sem_flg_0", .hex⟩, ⟨"sem_num_1", .dec⟩,
      ⟨"sem_op_1", .dec⟩, ⟨"sem_flg_1", .hex⟩]⟩
  | .syscallSemctl => ⟨"semctl", [⟨"semid", .dec⟩, ⟨"semnum", .dec⟩, ⟨"cmd", .hex⟩, ⟨"val", .dec⟩,
      ⟨"res", .dec⟩]⟩
  | .syscallPpoll => ⟨"ppoll", [⟨"fds", .dec⟩, ⟨"timeout", .dec⟩, ⟨"sigmask", .dec⟩,
      ⟨"res", .dec⟩, ⟨"fds", .dec⟩]⟩
  | .syscallMount => ⟨"mount", [⟨"flags", .hex⟩, ⟨"res", .dec⟩, ⟨"dev", .na⟩, ⟨"dir", .na⟩,
      ⟨"type", .na⟩]⟩
  | .syscallUmount => ⟨"umount", [⟨"flags", .hex⟩, ⟨"res", .dec⟩, ⟨"name", .na⟩]⟩
  | .syscallSemget => ⟨"semget", [⟨"key", .hex⟩, ⟨"nsems", .dec⟩, ⟨"semflg", .hex⟩,
      ⟨"res", .dec⟩]⟩
  | .syscallAccess => ⟨"access", [⟨"mode", .hex⟩, ⟨"res", .dec⟩, ⟨"name", .na⟩]⟩
  | .syscallChroot => ⟨"chroot", [⟨"res", .dec⟩, ⟨"path", .na⟩]⟩
  | .syscallSetsid => ⟨"setsid", [⟨"res", .dec⟩]⟩
  | .syscallMkdir_2 => ⟨"mkdir", [⟨"mode", .hex⟩, ⟨"res", .dec⟩, ⟨"path", .na⟩]⟩
  | .syscallRmdir_2 => ⟨"rmdir", [⟨"res", .dec⟩, ⟨"path", .na⟩]⟩
  | .syscallExecve_17 => ⟨"execve", [⟨"res", .dec⟩] ++ procTexts ++
      [⟨"comm", .na⟩, ⟨"cgroups", .na⟩, ⟨"env", .na⟩, ⟨"tty", .dec⟩]⟩
  | .syscallUnshare => ⟨"unshare", [⟨"flags", .hex⟩, ⟨"res", .dec⟩]⟩
  | .syscallExecve_18 => ⟨"execve", [⟨"filename", .na⟩, ⟨"res", .dec⟩] ++ procTexts ++
      [⟨"comm", .na⟩, ⟨"cgroups", .na⟩, ⟨"env", .na⟩, ⟨"tty", .dec⟩]⟩
  | .syscallExecve_19 => ⟨"execve", [⟨"filename", .na⟩, ⟨"res", .dec⟩] ++ procTexts ++
      [⟨"comm", .na⟩, ⟨"cgroups", .na⟩, ⟨"env", .na⟩, ⟨"tty", .dec⟩, ⟨"pgid", .dec⟩,
      ⟨"loginuid", .dec⟩, ⟨"flags", .hex⟩]⟩
  | .syscallSetpgid => ⟨"setpgid", [⟨"pid", .dec⟩, ⟨"pgid", .dec⟩, ⟨"res", .dec⟩]⟩
  | .syscallBpf => ⟨"bpf", [⟨"cmd", .dec⟩, ⟨"res_or_fd", .dec⟩]⟩
  | .syscallSeccomp => ⟨"seccomp", [⟨"op", .dec⟩, ⟨"flags", .hex⟩, ⟨"res", .dec⟩]⟩
  | .syscallUnlink_2 => ⟨"unlink", [⟨"res", .dec⟩, ⟨"path", .na⟩]⟩
  | .syscallUnlinkat_2 => ⟨"unlinkat", [⟨"res", .dec⟩, ⟨"dirfd", .dec⟩, ⟨"name", .na⟩,
      ⟨"flags", .hex⟩]⟩
  | .syscallMkdirat => ⟨"mkdirat", [⟨"res", .dec⟩, ⟨"dirfd", .dec⟩, ⟨"path", .na⟩,
      ⟨"mode", .hex⟩]⟩
  | .syscallOpenat_2 => ⟨"openat", [⟨"fd", .dec⟩, ⟨"dirfd", .dec⟩, ⟨"name", .na⟩,
      ⟨"flags", .hex⟩, ⟨"mode", .oct⟩, ⟨"dev", .hex⟩]⟩
  | .syscallLink_2 => ⟨"link", [⟨"res", .dec⟩, ⟨"oldpath", .na⟩, ⟨"newpath", .na⟩]⟩
  | .syscallLinkat_2 => ⟨"linkat", [⟨"res", .dec⟩, ⟨"olddir", .dec⟩, ⟨"oldpath", .na⟩,
      ⟨"newdir", .dec⟩, ⟨"newpath", .na⟩, ⟨"flags", .hex⟩]⟩
  | .syscallFchmodat => ⟨"fchmodat", [⟨"res", .dec⟩, ⟨"dirfd", .dec⟩, ⟨"filename", .na⟩,
      ⟨"mode", .oct⟩]⟩
  | .syscallChmod => ⟨"chmod", [⟨"res", .dec⟩, ⟨"filename", .na⟩, ⟨"mode", .oct⟩]⟩
  | .syscallFchmod => ⟨"fchmod", [⟨"res", .dec⟩, ⟨"fd", .dec⟩, ⟨"mode", .oct⟩]⟩
  | .syscallRenameat2 => ⟨"renameat2", [⟨"res", .dec⟩, ⟨"olddirfd", .dec⟩, ⟨"oldpath", .na⟩,
      ⟨"newdirfd", .dec⟩, ⟨"newpath", .na⟩, ⟨"flags", .hex⟩]⟩
  | .syscallUserfaultfd => ⟨"userfaultfd", [⟨"res", .dec⟩, ⟨"flags", .hex⟩]⟩
  | .syscallOpenat2 => ⟨"openat2", [⟨"fd", .dec⟩, ⟨"dirfd", .dec⟩, ⟨"name", .na⟩, ⟨"flags", .hex⟩,
      ⟨"mode", .oct⟩, ⟨"resolve", .hex⟩]⟩
  | .syscallMprotect => ⟨"mprotect", [⟨"addr", .hex⟩, ⟨"length", .dec⟩, ⟨"prot", .hex⟩,
      ⟨"res", .dec⟩]⟩
  | .syscallExecveat => ⟨"execveat", [⟨"dirfd", .dec⟩, ⟨"pathname", .na⟩, ⟨"flags", .hex⟩,
      ⟨"res", .dec⟩] ++ procTexts ++
      [⟨"comm", .na⟩, ⟨"cgroups", .na⟩, ⟨"env", .na⟩, ⟨"tty", .dec⟩, ⟨"pgid", .dec⟩,
      ⟨"loginuid", .dec⟩, ⟨"flags", .hex⟩]⟩
  | .syscallCopyFileRange => ⟨"copy_file_range", [⟨"fdin", .dec⟩, ⟨"offin", .dec⟩, ⟨"len", .dec⟩,
      ⟨"res", .dec⟩, ⟨"fdout", .dec⟩, ⟨"offout", .dec⟩]⟩
  | .syscallClone3 => ⟨"clone3", [⟨"res", .dec⟩] ++ procTexts ++
      [⟨"comm", .na⟩, ⟨"cgroups", .na⟩, ⟨"flags", .hex⟩, ⟨"uid", .dec⟩, ⟨"gid", .dec⟩,
      ⟨"vtid", .dec⟩, ⟨"vpid", .dec⟩]⟩
  | .socketAccept4 | .syscallIoctl_2 | .syscallExecve_13 | .syscallClone_16 => ⟨"", []⟩

/-- The two halves of the table list the same parameters. -/
theorem gEventText_params_length (t : EventType) :
    (gEventText t).params.length = (gEventInfo t).params.length := by
  cases t <;> rfl

/-- A name of the table: up to fifteen characters of ASCII. -/
def nameOk (name : String) : Bool :=
  name.toList.length ≤ 15 && name.toList.all fun c => 0 < c.toNat && c.toNat < 128

/-- All names are like that. -/
theorem gEventText_nameOk (t : EventType) :
    nameOk (gEventText t).name ∧ ∀ p ∈ (gEventText t).params, nameOk p.name := by
  have hall : (nameOk (gEventText t).name && (gEventText t).params.all fun p => nameOk p.name) := by
    cases t <;> decide +kernel
  rw [Bool.and_eq_true, List.all_eq_true] at hall
  exact hall

theorem gEventText_param_nameOk (t : EventType) (i : Nat) : nameOk ((gEventText t).param i).name := by
  unfold EventText.param
  rw [List.getD_eq_getElem?_getD]
  cases h : (gEventText t).params[i]? with
  | none => rfl
  | some p => exact (gEventText_nameOk t).2 p (List.mem_of_getElem? h)

end NoDrop
