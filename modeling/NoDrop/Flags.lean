import Mathlib.Data.List.Basic
import Mathlib.Data.UInt

/-! # The portable flags

The converters of `kmodule/flags.h`.  A record does not hold the kernel's own flag and
command numbers but the `NOD_*` ones of `include/events.h`, and a converter is a chain of
`if (flags & K) res |= N` (`flagBits`) or a `switch` (`switchCase`) over pairs of the two.
The kernel's numbers are those of Linux 5.6 and later on x86-64, the versions that have
`struct proc_ops`; a constant that these headers do not define is left out with its
`#ifdef`.

Three converters end in `ASSERT(false)`.  They return `none` there.
-/
namespace NoDrop

/-- A chain of `if (flags & K) res |= N`, over the pairs `(K, N)`. -/
def flagBits (table : List (UInt64 × UInt64)) (flags : UInt64) : UInt64 :=
  table.foldl (fun res p => if flags &&& p.1 ≠ 0 then res ||| p.2 else res) 0

/-- A `switch` over the pairs `(K, N)`. -/
def switchCase (table : List (UInt64 × UInt64)) (default v : UInt64) : UInt64 :=
  (table.lookup v).getD default

/-- The conversion to `int` or `unsigned` at a call: the low word of the register. -/
def lowWord (v : UInt64) : UInt64 := v.toUInt32.toUInt64

/-! ## Files -/

/-- `O_TMPFILE`, which contains `O_DIRECTORY`. -/
def oTmpfile : UInt64 := 0x410000

/-- `O_CREAT`. -/
def oCreat : UInt64 := 0x40

/-- `open_flags_to_scap`.  `O_SYNC` contains `O_DSYNC`. -/
def openFlagsToScap (flags : UInt64) : UInt64 :=
  (if flags &&& 3 = 1 then 2 else if flags &&& 3 = 2 then 3 else 1) |||
    flagBits [(oCreat, 0x4), (oTmpfile, 0x2000), (0x400, 0x8), (0x1000, 0x10), (0x80, 0x20),
      (0x800, 0x40), (0x101000, 0x80), (0x200, 0x100), (0x4000, 0x200), (0x10000, 0x400),
      (0x8000, 0x800), (0x80000, 0x1000)] flags

/-- The permission bits, which the kernel and the records number alike. -/
def modeBits : List (UInt64 × UInt64) :=
  [(0x100, 0x100), (0x80, 0x80), (0x40, 0x40), (0x20, 0x20), (0x10, 0x10), (0x8, 0x8), (0x4, 0x4),
    (0x2, 0x2), (0x1, 0x1), (0x800, 0x800), (0x400, 0x400), (0x200, 0x200)]

/-- `open_modes_to_scap`. -/
def openModesToScap (flags modes : UInt64) : UInt64 :=
  if flags &&& (oCreat ||| oTmpfile) = 0 then 0 else flagBits modeBits modes

/-- `chmod_mode_to_scap`. -/
def chmodModeToScap (modes : UInt64) : UInt64 := flagBits modeBits modes

/-- `access_flags_to_scap`. -/
def accessFlagsToScap (flags : UInt64) : UInt64 :=
  flagBits [(0x1, 0x1), (0x4, 0x4), (0x2, 0x2)] (lowWord flags)

/-- `flock_flags_to_scap`. -/
def flockFlagsToScap (flags : UInt64) : UInt64 :=
  flagBits [(0x2, 0x2), (0x1, 0x1), (0x8, 0x8), (0x4, 0x4)] flags

/-- `lseek_whence_to_scap`. -/
def lseekWhenceToScap (whence : UInt64) : UInt64 := switchCase [(0, 0), (1, 1), (2, 2)] 0 whence

/-- `unlinkat_flags_to_scap`. -/
def unlinkatFlagsToScap (flags : UInt64) : UInt64 := flagBits [(0x200, 0x200)] flags

/-- `linkat_flags_to_scap`. -/
def linkatFlagsToScap (flags : UInt64) : UInt64 :=
  flagBits [(0x400, 0x400), (0x1000, 0x1000)] flags

/-- `execveat_flags_to_scap`. -/
def execveatFlagsToScap (flags : UInt64) : UInt64 := flagBits [(0x1000, 0x1), (0x100, 0x2)] flags

/-- `openat2_resolve_to_scap`, without `RESOLVE_CACHED`, which later headers define. -/
def openat2ResolveToScap (flags : UInt64) : UInt64 :=
  flagBits [(0x1, 0x10), (0x2, 0x4), (0x4, 0x8), (0x8, 0x1), (0x10, 0x2)] flags

/-- `NOD_AT_FDCWD` and `AT_FDCWD`, as the `unsigned long` the fillers keep it in. -/
def nodAtFdcwd : UInt64 := UInt64.ofInt (-100)

/-- `if ((int)val == AT_FDCWD) val = NOD_AT_FDCWD`. -/
def atFdcwd (val : UInt64) : UInt64 := if val.toUInt32 = UInt32.ofInt (-100) then nodAtFdcwd else val

/-- The commands `fcntl_cmd_to_scap` knows on a 64-bit kernel. -/
def fcntlCmds : List (UInt64 × UInt64) :=
  [(0, 1), (1, 2), (2, 3), (3, 4), (4, 5), (5, 6), (6, 8), (7, 9), (8, 10), (9, 12), (10, 13),
    (11, 15), (15, 21), (16, 22), (1024, 23), (1025, 24), (1029, 25), (1030, 26), (1026, 27),
    (1031, 28), (1032, 29), (36, 30), (37, 31), (38, 32)]

/-- `fcntl_cmd_to_scap`: `none` where `ASSERT(false)` stands. -/
def fcntlCmdToScap (cmd : UInt64) : Option UInt64 := fcntlCmds.lookup cmd

/-! ## Memory and processes -/

/-- `prot_flags_to_scap`. -/
def protFlagsToScap (prot : UInt64) : UInt64 :=
  flagBits [(0x1, 0x1), (0x2, 0x2), (0x4, 0x4), (0x8, 0x8), (0x1000000, 0x10), (0x2000000, 0x20)]
    (lowWord prot)

/-- `mmap_flags_to_scap`.  `MAP_FILE` is zero, so its flag is never set. -/
def mmapFlagsToScap (flags : UInt64) : UInt64 :=
  flagBits [(0x1, 0x1), (0x2, 0x2), (0x10, 0x4), (0x20, 0x8), (0x40, 0x10), (0x4000, 0x40),
    (0x8000, 0x80), (0x10000, 0x100), (0x100, 0x200), (0x800, 0x400), (0x1000, 0x800),
    (0, 0x2000), (0x2000, 0x4000)] (lowWord flags)

/-- `clone_flags_to_scap`. -/
def cloneFlagsToScap (flags : UInt64) : UInt64 :=
  flagBits [(0x400, 0x1), (0x200, 0x2), (0x80000000, 0x4), (0x8000000, 0x8), (0x40000000, 0x10),
    (0x20000, 0x20), (0x20000000, 0x40), (0x4000000, 0x80), (0x100000, 0x200), (0x8000, 0x100),
    (0x2000, 0x400), (0x800, 0x800), (0x40000, 0x1000), (0x10000, 0x2000), (0x800000, 0x4000),
    (0x100, 0x8000), (0x10000000, 0x100000), (0x200000, 0x800000), (0x1000000, 0x1000000),
    (0x80000, 0x2000000), (0x4000, 0x8000000), (0x2000000, 0x10000000)] flags

/-- `NOD_CL_CHILD_IN_PIDNS`. -/
def nodClChildInPidns : UInt64 := 0x20000000

/-- `futex_op_to_scap`. -/
def futexOpToScap (op : UInt64) : UInt64 :=
  switchCase [(0, 0), (1, 1), (2, 2), (3, 3), (4, 4), (5, 5), (6, 6), (7, 7), (8, 8), (9, 9),
    (10, 10), (11, 11), (12, 12)] 0 (op &&& 127) ||| flagBits [(128, 128), (256, 256)] op

/-- `rlimit_resource_to_scap`. -/
def rlimitResourceToScap (rresource : UInt64) : UInt64 :=
  if rresource < 16 then rresource else 255

/-- `ptrace_requests_to_scap`. -/
def ptraceRequestsToScap (req : UInt64) : UInt64 :=
  switchCase [(33, 38), (32, 37), (31, 36), (30, 35), (26, 34), (25, 33), (21, 32), (19, 31),
    (18, 30), (15, 29), (14, 28), (13, 27), (12, 26), (0x420b, 25), (0x420a, 24), (0x4209, 23),
    (0x4208, 22), (0x4207, 21), (0x4206, 20), (0x4205, 19), (0x4204, 18), (0x4203, 17),
    (0x4202, 16), (0x4201, 15), (0x4200, 14), (24, 13), (17, 12), (16, 11), (9, 10), (8, 9),
    (7, 8), (6, 7), (5, 6), (4, 5), (3, 4), (2, 3), (1, 2), (0, 1)] 0 req

/-! ## Quotas and semaphores -/

/-- `quotactl_type_to_scap`. -/
def quotactlTypeToScap (cmd : UInt64) : UInt64 := switchCase [(0, 1), (1, 2)] 0 (cmd &&& 0xff)

/-- `quotactl_cmd_to_scap`. -/
def quotactlCmdToScap (cmd : UInt64) : UInt64 :=
  switchCase [(0x800001, 0x80), (0x800002, 0x1), (0x800003, 0x2), (0x800004, 0x4), (0x800005, 0x8),
    (0x800006, 0x10), (0x800007, 0x20), (0x800008, 0x40), (0x5801, 0x100), (0x5802, 0x200),
    (0x5803, 0x400), (0x5804, 0x800), (0x5805, 0x1000), (0x5806, 0x2000), (0x5807, 0x4000)] 0
    (cmd >>> 8)

/-- `quotactl_fmt_to_scap`. -/
def quotactlFmtToScap (fmt : UInt64) : UInt64 := switchCase [(1, 2), (2, 4), (4, 8)] 1 fmt

/-- `semop_flags_to_scap`. -/
def semopFlagsToScap (flags : UInt64) : UInt64 := flagBits [(0x800, 0x1), (0x1000, 0x2)] flags

/-- `semget_flags_to_scap`. -/
def semgetFlagsToScap (flags : UInt64) : UInt64 :=
  flagBits [(0x200, 0x2000), (0x400, 0x4000)] (lowWord flags)

/-- `semctl_cmd_to_scap`. -/
def semctlCmdToScap (cmd : UInt64) : UInt64 :=
  switchCase [(2, 0x1), (1, 0x2), (0, 0x4), (3, 0x8), (19, 0x10), (18, 0x20), (13, 0x40),
    (14, 0x80), (11, 0x100), (12, 0x200), (15, 0x400), (17, 0x800), (16, 0x1000)] 0 (lowWord cmd)

/-! ## Sockets -/

/-- `shutdown_how_to_scap`.  The kernel's `SHUT_RD` is an enumerator and no macro, so that
all but the last line is compiled out. -/
def shutdownHowToScap (how : UInt64) : UInt64 := how.toUInt16.toUInt64

/-- `socket_family_to_scap`: `none` where `ASSERT(false)` stands.  The `NOD_AF_*` are the
kernel's numbers, of which two are missing. -/
def socketFamilyToScap (family : UInt8) : Option UInt8 :=
  if family ≤ 26 ∨ (29 ≤ family ∧ family ≤ 39) then some family else none

/-- `SOL_SOCKET`. -/
def solSocket : UInt32 := 1

/-- `sockopt_level_to_scap`. -/
def sockoptLevelToScap (level : UInt32) : UInt64 :=
  if level = solSocket then 1 else if level = 6 then 2 else 0

/-- The options `sockopt_optname_to_scap` knows.  Inside the kernel, headers of 5.1 and
later name the options that carry a time (`SO_RCVTIMEO`, `SO_SNDTIMEO`, `SO_TIMESTAMP`,
`SO_TIMESTAMPNS`, `SO_TIMESTAMPING`) by their `_OLD` and `_NEW` variants only, and the cases
under the old names are compiled out: `timeNames` says whether they are in. -/
def sockoptOptnames (timeNames : Bool) : List (UInt32 × UInt64) :=
  [(1, 1), (2, 2), (3, 3), (4, 4), (5, 5), (6, 6), (7, 7), (8, 8), (32, 32), (33, 33), (9, 9),
    (10, 10), (11, 11), (12, 12), (13, 13), (14, 14), (15, 15), (16, 16), (17, 17), (18, 18),
    (19, 19)] ++ (if timeNames then [(20, 20), (21, 21)] else []) ++
  [(22, 22), (23, 23), (24, 24), (25, 25), (26, 26), (27, 27), (28, 28)] ++
    (if timeNames then [(29, 29)] else []) ++ [(30, 30), (31, 31), (34, 34)] ++
    (if timeNames then [(35, 35)] else []) ++ [(36, 36)] ++
    (if timeNames then [(37, 37)] else []) ++
  [(38, 38), (39, 39), (40, 40), (41, 41), (42, 42), (43, 43), (44, 44), (45, 45), (46, 46),
    (47, 47), (48, 48), (49, 49), (50, 50), (59, 51), (55, 52), (57, 53)]

/-- `sockopt_optname_to_scap`: `none` where `ASSERT(false)` stands. -/
def sockoptOptnameToScap (timeNames : Bool) (level optname : UInt32) : Option UInt64 :=
  if level ≠ solSocket then some 0 else (sockoptOptnames timeNames).lookup optname

end NoDrop
