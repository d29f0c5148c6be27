import NoDrop.Kernel

/-! # The remaining fillers

The fillers of `kmodule/fillers.c` that `NoDrop.Fillers` leaves out, on x86-64: those that read
the kernel's objects, that convert flags, and that copy structures from user memory.  Each is
translated under its own name; most are lists of pushes, and a filler that contains or calls
something with an `ASSERT` is a `CheckedFiller`.

Two branches of the source cannot be taken and are left out.  `f_sys_execve` and
`f_sys_execveat` replace a file name by `"<NA>"` if `val_to_ring` reports
`NOD_FAILURE_INVALID_USER_MEMORY`, which it never does (`pushData_cases`).  And the `ASSERT` of
`parse_readv_writev_bufs` repeats the condition of the `if` it stands under.
-/
namespace NoDrop

open Bytes Filler

section

variable {ty : EventType} (k : Kernel) (s : Syscall)

/-! ## Files -/

/-- `f_sys_open`. -/
def fSysOpen : Filler ty :=
  pushes [.imm s.ret, .user (s.arg 0), .imm (openFlagsToScap (s.arg 1)),
    .imm (openModesToScap (s.arg 1) (s.arg 2)), .imm (k.getFdDev s.ret)] done

/-- `f_sys_creat`. -/
def fSysCreat : Filler ty :=
  pushes [.imm s.ret, .user (s.arg 0), .imm (openModesToScap oCreat (s.arg 1)),
    .imm (k.getFdDev s.ret)] done

/-- `f_sys_openat`. -/
def fSysOpenat : Filler ty :=
  pushes [.imm s.ret, .imm (atFdcwd (s.arg 0)), .user (s.arg 1), .imm (openFlagsToScap (s.arg 2)),
    .imm (openModesToScap (s.arg 2) (s.arg 3)), .imm (k.getFdDev s.ret)] done

/-- `f_sys_openat2`.  `struct open_how` is `flags`, `mode` and `resolve`. -/
def fSysOpenat2 : Filler ty :=
  pushes [.imm s.ret, .imm (atFdcwd (s.arg 0)), .user (s.arg 1)] <|
    fetch s.um (s.arg 2) 24 fun how =>
      pushes [.user (openFlagsToScap (field64 how 0)),
        .user (openModesToScap (field64 how 0) (field64 how 8)),
        .user (openat2ResolveToScap (field64 how 16))] done

/-- `f_sys_mkdirat`. -/
def fSysMkdirat : Filler ty :=
  pushes [.imm s.ret, .imm (atFdcwd (s.arg 0)), .user (s.arg 1), .imm (s.arg 2)] done

/-- `f_sys_unlinkat`. -/
def fSysUnlinkat : Filler ty :=
  pushes [.imm s.ret, .imm (atFdcwd (s.arg 0)), .user (s.arg 1),
    .imm (unlinkatFlagsToScap (s.arg 2))] done

/-- `f_sys_linkat`. -/
def fSysLinkat : Filler ty :=
  pushes [.imm s.ret, .imm (atFdcwd (s.arg 0)), .user (s.arg 1), .imm (atFdcwd (s.arg 2)),
    .user (s.arg 3), .imm (linkatFlagsToScap (s.arg 4))] done

/-- `f_sys_symlinkat`. -/
def fSysSymlinkat : Filler ty :=
  pushes [.imm s.ret, .user (s.arg 0), .imm (atFdcwd (s.arg 1)), .user (s.arg 2)] done

/-- `f_sys_renameat`. -/
def fSysRenameat : Filler ty :=
  pushes [.imm s.ret, .imm (atFdcwd (s.arg 0)), .user (s.arg 1), .imm (atFdcwd (s.arg 2)),
    .user (s.arg 3)] done

/-- `f_sys_renameat2`. -/
def fSysRenameat2 : Filler ty :=
  pushes [.imm s.ret, .imm (atFdcwd (s.arg 0)), .user (s.arg 1), .imm (atFdcwd (s.arg 2)),
    .user (s.arg 3), .imm (s.arg 4)] done

/-- `f_sys_fchmodat`. -/
def fSysFchmodat : Filler ty :=
  pushes [.imm s.ret, .imm (atFdcwd (s.arg 0)), .user (s.arg 1),
    .imm (chmodModeToScap (s.arg 2))] done

/-- `f_sys_chmod`. -/
def fSysChmod : Filler ty :=
  pushes [.imm s.ret, .user (s.arg 0), .imm (chmodModeToScap (s.arg 1))] done

/-- `f_sys_fchmod`. -/
def fSysFchmod : Filler ty :=
  pushes [.imm s.ret, .imm (s.arg 0), .imm (chmodModeToScap (s.arg 1))] done

/-- `f_sys_access`. -/
def fSysAccess : Filler ty := pushes [.user (accessFlagsToScap (s.arg 1))] done

/-- `f_sys_mount`.  The complement of `NOD_MS_MGC_MSK` is that of an `unsigned`. -/
def fSysMount : Filler ty :=
  let val := s.arg 3
  pushes [.imm (if val &&& 0xffff0000 = 0xC0ED0000 then val &&& 0xffff else val)] done

/-- `f_sys_lseek`. -/
def fSysLseek : Filler ty :=
  pushes [.imm (s.arg 0), .imm (s.arg 1), .imm (lseekWhenceToScap (s.arg 2))] done

/-- `f_sys_llseek`. -/
def fSysLlseek : Filler ty :=
  pushes [.imm (s.arg 0), .imm ((s.arg 1 <<< 32) + s.arg 2),
    .imm (lseekWhenceToScap (s.arg 4))] done

/-- `f_sys_flock`. -/
def fSysFlock : Filler ty := pushes [.imm (s.arg 0), .imm (flockFlagsToScap (s.arg 1))] done

/-- `f_sys_fcntl`.  The `ASSERT` is that of `fcntl_cmd_to_scap`. -/
def fSysFcntl : CheckedFiller ty :=
  .assert (pushes [.imm (s.arg 0)] done) (fcntlCmdToScap (s.arg 1)).isSome <|
    .plain (pushes [.imm ((fcntlCmdToScap (s.arg 1)).getD 0)] done)

/-- `f_sys_pipe`. -/
def fSysPipe : Filler ty :=
  pushes [.imm s.ret] <| fetch s.um (s.arg 0) 8 fun fds =>
    pushes [.imm (sext (field32 fds 0)), .imm (sext (field32 fds 4)),
      .imm ((k.fdIno (field32 fds 0)).getD 0)] done

/-- `f_sys_eventfd`. -/
def fSysEventfd : Filler ty := pushes [.imm (s.arg 0), .imm 0] done

/-- `f_sys_copy_file_range`. -/
def fSysCopyFileRange : Filler ty :=
  pushes [.imm (s.arg 0), .imm (s.arg 1), .imm (s.arg 4), .imm s.ret, .imm (s.arg 2),
    .imm (s.arg 3)] done

/-- The `offset` of `f_sys_sendfile`, which is read twice. -/
def sendfileOffset : UInt64 :=
  if s.arg 2 = 0 then 0
  else if (s.um.nodCopyFromUser (s.arg 2).toNat 8).2 ≠ 0 then 0
  else field64 (s.um.nodCopyFromUser (s.arg 2).toNat 8).1 0

/-- `f_sys_sendfile`. -/
def fSysSendfile : Filler ty :=
  pushes [.user (s.arg 0), .user (s.arg 1), .user (sendfileOffset s), .user (s.arg 3), .imm s.ret,
    .user (sendfileOffset s)] done

/-- `args->snaplen` as the `retval` of `parse_readv_writev_bufs`. -/
def snaplenRetval : UInt64 := UInt64.ofNat snaplen

/-- `f_sys_writev_pwritev`. -/
def fSysWritevPwritev : Filler ty :=
  pushes [.imm s.ret] <|
    parseReadvWritevBufs s (s.arg 1) (s.arg 2) snaplenRetval ⟨false, true, true⟩

/-- `f_sys_writev`. -/
def fSysWritev : Filler ty :=
  (pushes [.imm (s.arg 0)] <|
    parseReadvWritevBufs s (s.arg 1) (s.arg 2) snaplenRetval ⟨true, false, true⟩).seq <|
  fSysWritevPwritev s

/-- `f_sys_pwritev`. -/
def fSysPwritev : Filler ty :=
  (pushes [.imm (s.arg 0)] <|
    parseReadvWritevBufs s (s.arg 1) (s.arg 2) snaplenRetval ⟨true, false, true⟩).seq <|
  pushes [.imm (pos64 s)] <| fSysWritevPwritev s

/-! ## Time and limits -/

/-- `timespec_parse`.  From 5.6 on `nodrop.h` defines a `struct timespec` of two `int32_t`, and
`targetbuf` is `str_storage`. -/
def timespecParse (val : UInt64) (next : Filler ty) : Filler ty :=
  let got := s.um.nodCopyFromUser val.toNat 8
  scratch ⟨0, got.1⟩ <|
    if got.2 ≠ 0 then ret nodFailureInvalidUserMemory
    else push (.imm (sext (field32 got.1 0) * 1000000000 + sext (field32 got.1 4))) next

/-- `f_sys_nanosleep`. -/
def fSysNanosleep : Filler ty := timespecParse s (s.arg 0) done

/-- `f_sys_poll_x_common`. -/
def fSysPollXCommon : Filler ty := pushes [.imm s.ret] <| pollParseFds s false

/-- `f_sys_ppoll`. -/
def fSysPpoll : Filler ty :=
  let sigmask : Filler ty :=
    if s.arg 3 = 0 then pushes [.imm 0] <| fSysPollXCommon s
    else fetch s.um (s.arg 3) 8 fun mask => pushes [.imm (field64 mask 0)] <| fSysPollXCommon s
  (pollParseFds s true).seq <|
    if s.arg 2 = 0 then pushes [.imm (UInt64.ofInt (-1))] sigmask
    else timespecParse s (s.arg 2) sigmask

/-- `cur` and `max` of a `struct rlimit`, both `-1` where it cannot be read. -/
def rlimitOr (got : List UInt8 × Nat) : UInt64 × UInt64 :=
  if got.2 ≠ 0 then (UInt64.ofInt (-1), UInt64.ofInt (-1)) else (field64 got.1 0, field64 got.1 8)

/-- `f_sys_getrlimit_setrlrimit`. -/
def fSysGetrlimitSetrlrimit : Filler ty :=
  pushes [.imm (rlimitResourceToScap (s.arg 0)), .imm s.ret] <|
    if 0 ≤ signed s.ret ∨ ty = .syscallSetrlimit then
      fetch s.um (s.arg 1) 16 fun rl => pushes [.imm (field64 rl 0), .imm (field64 rl 8)] done
    else pushes [.imm (UInt64.ofInt (-1)), .imm (UInt64.ofInt (-1))] done

/-- `f_sys_prlimit`. -/
def fSysPrlimit : Filler ty :=
  let new := if 0 ≤ signed s.ret then rlimitOr (s.um.nodCopyFromUser (s.arg 2).toNat 16)
    else (UInt64.ofInt (-1), UInt64.ofInt (-1))
  let old := rlimitOr (s.um.nodCopyFromUser (s.arg 3).toNat 16)
  pushes [.imm (s.arg 0), .imm (rlimitResourceToScap (s.arg 1)), .imm s.ret, .imm new.1,
    .imm new.2, .imm old.1, .imm old.2] done

/-- `f_sys_futex`. -/
def fSysFutex : Filler ty :=
  pushes [.imm (s.arg 0), .imm (futexOpToScap (s.arg 1)), .imm (s.arg 2)] done

/-! ## Memory -/

/-- The memory counters of the task, in kilobytes. -/
def vmCounters : List Value :=
  match k.mm with
  | none => [.imm 0, .imm 0, .imm 0]
  | some mm => [.imm (mm.totalVm <<< 2), .imm (mm.rss <<< 2), .imm (mm.swap <<< 2)]

/-- `f_sys_mmap`. -/
def fSysMmap (next : Filler ty) : Filler ty :=
  pushes [.imm (s.arg 0), .imm (s.arg 1), .imm (protFlagsToScap (s.arg 2)),
    .imm (mmapFlagsToScap (s.arg 3)), .imm (s.arg 4), .imm (s.arg 5)] next

/-- `f_sys_brk_munmap_mmap`. -/
def fSysBrkMunmapMmap : Filler ty :=
  let rest : Filler ty := pushes (.imm s.ret :: vmCounters k) done
  if ty = .syscallMmap ∨ ty = .syscallMmap2 then fSysMmap s rest else rest

/-- `f_sys_mprotect`. -/
def fSysMprotect : Filler ty :=
  pushes [.imm (s.arg 0), .imm (s.arg 1), .imm (protFlagsToScap (s.arg 2)), .imm s.ret] done

/-! ## Processes -/

/-- `parse_ptrace_addr`. -/
def parsePtraceAddr : Value := .imm (s.arg 2)

/-- `parse_ptrace_data`.  A peek reads the word back; continuing, stepping, detaching and tracing
system calls carry a signal. -/
def parsePtraceData (request : UInt64) : Filler ty :=
  if request = 2 ∨ request = 3 ∨ request = 4 then
    fetch s.um (s.arg 3) 8 fun word => pushes [.imm (field64 word 0)] done
  else if request = 8 ∨ request = 10 ∨ request = 12 ∨ request = 13 then
    pushes [{ val := s.arg 3, dynIdx := 1 }] done
  else pushes [.imm (s.arg 3)] done

/-- `f_sys_ptrace`. -/
def fSysPtrace : Filler ty :=
  pushes [.imm (ptraceRequestsToScap (s.arg 0)), .imm (s.arg 1), .imm s.ret] <|
    if signed s.ret < 0 then pushes [.imm 0, .imm 0] done
    else pushes [parsePtraceAddr s] <| parsePtraceData s (ptraceRequestsToScap (s.arg 0))

/-- `f_sys_getresuid_and_gid`, whose `retval` is an `int16_t`. -/
def fSysGetresuidAndGid : Filler ty :=
  pushes [.imm (sext16 s.ret.toUInt16)] <|
    fetch s.um (s.arg 0) 4 fun ruid => pushes [.imm (field32 ruid 0).toUInt64] <|
      fetch s.um (s.arg 1) 4 fun euid => pushes [.imm (field32 euid 0).toUInt64] <|
        fetch s.um (s.arg 2) 4 fun suid => pushes [.imm (field32 suid 0).toUInt64] done

/-- `f_sys_setns`. -/
def fSysSetns : Filler ty := pushes [.user (s.arg 0), .user (cloneFlagsToScap (s.arg 1))] done

/-- `f_sys_unshare`. -/
def fSysUnshare : Filler ty := pushes [.user (cloneFlagsToScap (s.arg 0))] done

/-- `f_sys_bpf`. -/
def fSysBpf : Filler ty :=
  let idx : UInt8 := if 0 ≤ signed s.ret ∧ (s.arg 0 = 0 ∨ s.arg 0 = 5) then 0 else 1
  pushes [{ val := s.ret, dynIdx := idx }] done

/-- `f_sys_semop`.  The second `struct sembuf` is read only if there are two. -/
def fSysSemop : Filler ty :=
  let sops (j : Nat) (next : Filler ty) : Filler ty :=
    let push3 (b : List UInt8) : Filler ty :=
      pushes [.user (field16 b 0).toUInt64, .user (sext16 (field16 b 2)),
        .user (semopFlagsToScap (sext16 (field16 b 4)))] next
    if j < (s.arg 2).toNat then fetch s.um (s.arg 1 + UInt64.ofNat (6 * j)) 6 push3
    else push3 [0, 0, 0, 0, 0, 0]
  pushes [.imm s.ret, .user (s.arg 2)] <|
    if s.arg 2 ≠ 0 ∧ s.arg 1 ≠ 0 then sops 0 (sops 1 done) else done

/-- `f_sys_semctl`.  `SETVAL` has an argument. -/
def fSysSemctl : Filler ty :=
  pushes [.user (s.arg 0), .user (s.arg 1), .user (semctlCmdToScap (s.arg 2)),
    .user (if s.arg 2 = 16 then s.arg 3 else 0)] done

/-- `f_sys_semget`. -/
def fSysSemget : Filler ty :=
  pushes [.user (s.arg 0), .user (s.arg 1), .user (semgetFlagsToScap (s.arg 2))] done

/-- A field of a structure that is pushed if its bit of the `valid` word is set, else zero. -/
def ifValid (valid bit : UInt32) (v : UInt64) : Value := .imm (if valid &&& bit ≠ 0 then v else 0)

/-- The `struct if_dqblk` of `f_sys_quotactl`; all of it counts as invalid where `dqb_valid` is
zero. -/
def dqblkFields (b : List UInt8) : List Value :=
  let valid := field32 b 64
  [ifValid valid 1 (field64 b 0), ifValid valid 1 (field64 b 8), ifValid valid 2 (field64 b 16),
    ifValid valid 4 (field64 b 24), ifValid valid 4 (field64 b 32),
    ifValid valid 0x10 (field64 b 48), ifValid valid 0x20 (field64 b 56)]

/-- The `struct if_dqinfo` of `f_sys_quotactl`. -/
def dqinfoFields (b : List UInt8) : List Value :=
  let valid := field32 b 20
  [ifValid valid 1 (field64 b 0), ifValid valid 2 (field64 b 8),
    ifValid valid 4 (field32 b 16).toUInt64]

/-- A structure that is read from `addr` only for some commands. -/
def fetchIf (c : Bool) (addr : UInt64) (n : Nat) (next : List UInt8 → Filler ty) : Filler ty :=
  if c then fetch s.um addr n next else next (List.replicate n 0)

/-- `f_sys_quotactl`. -/
def fSysQuotactl : Filler ty :=
  let cmd := quotactlCmdToScap (s.arg 0)
  let id : UInt64 := if cmd = 0x20 ∨ cmd = 0x40 ∨ cmd = 0x400 ∨ cmd = 0x800 then
    (s.arg 2).toUInt32.toUInt64 else 0
  let fmt := if cmd = 0x1 then quotactlFmtToScap (s.arg 2) else 1
  pushes [.imm cmd, .imm (quotactlTypeToScap (s.arg 0)), .imm id, .imm fmt, .imm s.ret,
    .user (s.arg 1), if cmd = 0x1 then .user (s.arg 3) else .text []] <|
  fetchIf s (cmd = 0x20 ∨ cmd = 0x40) (s.arg 3) 72 fun dqblk =>
  pushes (dqblkFields dqblk) <|
  fetchIf s (cmd = 0x8 ∨ cmd = 0x10) (s.arg 3) 24 fun dqinfo =>
  pushes (dqinfoFields dqinfo) <|
  if cmd = 0x4 then
    fetch s.um (s.arg 3) 4 fun out =>
      pushes [.imm (quotactlFmtToScap (field32 out 0).toUInt64)] done
  else pushes [.imm 1] done

/-- The part of `f_proc_startupdate` from the identity of the process up to the control groups: what
every call pushes, and the store that clears the page for them. -/
def procIdentity : Filler ty :=
  pushes ([.imm (sext k.pid), .imm (sext k.tgid), .imm (sext (k.realParent.getD 0)), .text [],
    .imm k.nofile, .imm k.majFlt, .imm k.minFlt] ++ vmCounters k ++
    [{ val := rodata, mem := k.comm ++ [0] }]) <|
  scratch ⟨0, [0]⟩ done

/-- The control groups, as `f_proc_startupdate` pushes them. -/
def procCgroups (next : Filler ty) : Filler ty :=
  let cgroups := Kernel.appendCgroups k.cgroups pageSize
  scratch ⟨0, cgroups⟩ <|
  push { val := s.strStorage, len := UInt32.ofNat cgroups.length, mem := cgroups } next

/-- The parameters of the `clone` family at the end of `f_proc_startupdate`. -/
def cloneFields : Filler ty :=
  let ids (flags : UInt64) : Filler ty :=
    pushes [.imm (cloneFlagsToScap flags ||| if k.inPidns then nodClChildInPidns else 0),
      .imm k.euid.toUInt64, .imm k.egid.toUInt64, .imm (sext k.vtid), .imm (sext k.vpid)] done
  if ty = .syscallClone_20 then ids (s.arg 0)
  else if ty = .syscallClone3 then
    fetch s.um (s.arg 0) k.cloneArgsSize fun clArgs => ids (field64 clArgs 0)
  else ids 0

/-- A region of the process's own memory, cut off at a page, as `f_proc_startupdate` puts it into
`str_storage` with its last byte cleared: the stores and the bytes.  `len` is the difference of
the two ends. -/
def ownStrings (start : UInt64) (len : Nat) : List Write × List UInt8 :=
  let n := min len pageSize
  let got := s.um.nodCopyFromUser start.toNat n
  if n = 0 then ([], [])
  else if got.2 ≠ 0 then ([⟨0, got.1⟩], [])
  else ([⟨0, got.1⟩, ⟨n - 1, [0]⟩], got.1.take (n - 1) ++ [0])

/-- The strings of a vector the caller passed, none where it cannot be read. -/
def givenStrings (argv : UInt64) (available : Nat) : List Write × List UInt8 :=
  let acc := accumulateArgvOrEnv s.um argv available
  (acc.out, if acc.res < 0 then [] else acc.bytes)

/-- The parameters of the `execve` family at the end of `f_proc_startupdate`.  `env_len` is a
`long`. -/
def execveFields : Filler ty :=
  let available := pageSize - (Kernel.appendCgroups k.cgroups pageSize).length
  let env :=
    if 0 ≤ signed s.ret then
      match k.mm with
      | none => ([], [])
      | some mm => ownStrings s mm.envStart (mm.envEnd - mm.envStart).toNat
    else givenStrings s (if ty = .syscallExecve_19 then s.arg 2
      else if ty = .syscallExecveat then s.arg 3 else 0) available
  scratches env.1 <| scratches (if env.2 = [] then [⟨0, [0]⟩] else []) <|
  pushes [{ val := s.strStorage, len := UInt32.ofNat env.2.length, mem := env.2 },
    .imm (sext k.ttyNr), .imm (sext k.pgid), .imm k.loginuid.toUInt64,
    .imm (if k.exeWritable then 1 else 0)] done

/-- The end of `f_proc_startupdate`. -/
def procEnd : Filler ty :=
  if ty = .syscallClone_20 ∨ ty = .syscallFork_20 ∨ ty = .syscallVfork_20 ∨ ty = .syscallClone3 then
    cloneFields k s
  else if ty = .syscallExecve_19 ∨ ty = .syscallExecveat then execveFields k s
  else done

/-- The executable and the arguments, in `str_storage`, as `f_proc_startupdate` pushes them. -/
def exeAndArgs (strings : List Write × List UInt8) (next : Filler ty) : Filler ty :=
  let bytes := strings.2
  let exeLen := min ((bytes.takeWhile (· ≠ 0)).length + 1) bytes.length
  scratches strings.1 <| scratches (if bytes = [] then [⟨0, [0]⟩] else []) <|
  pushes [{ val := s.strStorage, mem := if bytes = [] then [0] else bytes },
    { val := s.strStorage + UInt64.ofNat exeLen, len := UInt32.ofNat (bytes.length - exeLen),
      mem := bytes.drop exeLen }] next

/-- The part of `f_proc_startupdate` before the control groups.  `args_len` is an `int`. -/
def procHead : Filler ty :=
  let rest : Filler ty := procIdentity k
  let execve : Prop := ty = .syscallExecve_19 ∨ ty = .syscallExecveat
  pushes [.imm s.ret] <|
    if signed s.ret < 0 ∧ ¬ execve then
      scratch ⟨0, [0]⟩ <| pushes [{ val := s.strStorage, mem := [0] },
        { val := s.strStorage, mem := [0] }] rest
    else if 0 ≤ signed s.ret then
      match k.mm with
      | none => scratch ⟨0, [0]⟩ <| ret nodFailureBug
      | some mm =>
          if mm.argEnd = 0 then scratch ⟨0, [0]⟩ <| ret nodFailureBug
          else exeAndArgs s (ownStrings s mm.argStart
            (sext (mm.argEnd - mm.argStart).toUInt32).toNat) rest
    else
      scratch ⟨0, [0]⟩ <| exeAndArgs s (givenStrings s (if ty = .syscallExecve_19 then s.arg 1
        else if ty = .syscallExecveat then s.arg 2 else 0) pageSize) rest

/-- `f_proc_startupdate`.  The `ASSERT`s are those of `append_cgroup`. -/
def fProcStartupdate : CheckedFiller ty :=
  (CheckedFiller.asserts (Kernel.appendCgroupsAsserts k.cgroups pageSize) <| .plain <|
    procCgroups k s (procEnd k s)).after <| procHead k s

/-- `f_sys_execve`. -/
def fSysExecve : CheckedFiller ty := (fProcStartupdate k s).after <| pushes [.user (s.arg 0)] done

/-- `f_sys_execveat`. -/
def fSysExecveat : CheckedFiller ty :=
  (fProcStartupdate k s).after <| pushes
    [.imm (atFdcwd (s.arg 0)), .user (s.arg 1), .imm (execveatFlagsToScap (s.arg 4))] done

end

end NoDrop
