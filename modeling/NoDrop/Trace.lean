import NoDrop.Context
import NoDrop.Privil
import NoDrop.Record

/-! # The status machine

A traced thread as `kmodule/trace.c` sees it: the probe at the end of every system call
(`syscall_exit_probe`), the hook of the exits (`exit_filter`), the two `ioctl` commands
with which the monitor asks to leave (`nod_dev_ioctl`), and the loader
(`nod_load_monitor`), which all read and write the status of the thread's
`nod_proc_info`.

A system call is two steps, the entry and the return, between which other tasks may
start or stop the recording: the `ioctl` only marks the status, and the work is done at
the return, by the probe, if there is a probe by then.

Left out of `nod_proc_info` is what no transition depends on: the `pid`, the `mm`, and of
the `nod_stack_info` all but what the `ioctl` checks.
-/
namespace NoDrop

/-! ## Data -/

/-- `enum nod_proc_status`. -/
inductive ProcStatus where
  | nodUnknown | nodIn | nodOut | nodClone | nodShare | nodRestoreContext | nodRestoreSecurity
deriving DecidableEq, Repr

/-- What the switch statements on the status take together: `NOD_OUT`, `NOD_CLONE` and
`NOD_SHARE`. -/
def ProcStatus.outside : ProcStatus → Bool
  | .nodOut | .nodClone | .nodShare => true
  | _ => false

/-- The part of a thread's privileges that is its own. -/
structure OwnPrivil where
  seccomp : SeccompMode
  blocked : UInt64
  clearChildTid : UInt64

/-- A thread's privileges. -/
structure Privileges (Path : Type) where
  shared : SharedPrivil Path
  own : OwnPrivil

/-- `struct nod_proc_info`. -/
structure ProcInfo (Path : Type) where
  status : ProcStatus
  ioctlFd : Int
  entryAddr : UInt64
  stackAddr : UInt64
  ctx : ProcContext
  sec : ProcSecurity Path
  buf : NodBuffer

/-- A thread in the kernel, with its `nod_proc_info` if it has one. -/
structure TracedTask (Path Fpu : Type) where
  uid : UInt32
  cpu : Cpu Fpu
  th : ThreadStruct
  privil : Privileges Path
  info : Option (ProcInfo Path)
  stat : EventStatistic

/-- The system calls the code tells apart. -/
inductive Sysno where
  | clone | execve | execveat | exit | exitGroup | ioctl
  | other (nr : Nat)
deriving DecidableEq, Repr

/-- What `nod_load_monitor` depends on beside the thread: the `entry_addr` of the group
leader's `nod_proc_info`, the outcome of `do_load_monitor`, an error or the entry point
and the stack, and the number of bytes `update_stack_info` could not copy. -/
structure LoadEnv where
  leaderEntry : Option UInt64
  doLoad : Except Int (UInt64 × UInt64)
  notCopied : Nat

/-- What the probe and the filter depend on beside the thread: the buffer a new
`nod_proc_info` gets, if it can be allocated, the event of the system call, if the table
has one, the attempts within which its recording returns, and the loader's environment. -/
structure ProbeEnv where
  alloc : Option NodBuffer
  event : Option Event
  fuel : Nat
  load : LoadEnv

/-- The part of `struct nod_stack_info` that the `ioctl` reads. -/
structure StackInfo where
  ioctlFd : Int32
  pkey : Int32
  fsbase : UInt64
  hash : UInt64
  buffer : UInt64
  bufferInfo : UInt64

/-- `nod_calc_hash`. -/
def nodCalcHash (stack : StackInfo) : UInt64 :=
  stack.fsbase ^^^ (stack.ioctlFd + 42).toInt64.toUInt64 ^^^ (stack.pkey - 42).toInt64.toUInt64 ^^^
    stack.buffer ^^^ stack.bufferInfo

/-! ## `kmodule/procinfo.c` -/

section Procinfo

variable {Path : Type}

/-- `nod_proc_set_status`. -/
def nodProcSetStatus (p : ProcInfo Path) (status : ProcStatus) (fd : Int) : ProcInfo Path :=
  { p with status := status, ioctlFd := fd }

/-- `nod_copy_procinfo`, from the group leader's `nod_proc_info`. -/
def nodCopyProcinfo (leaderEntry : Option UInt64) (p : ProcInfo Path) : ProcInfo Path :=
  match leaderEntry with
  | some entryAddr => { p with entryAddr := entryAddr }
  | none => p

/-- `nod_event_from`. -/
def nodEventFrom (info : Option (ProcInfo Path)) : ProcStatus :=
  match info with
  | some p => p.status
  | none => .nodOut

variable [Inhabited Path]

/-- A cleared `struct nod_proc_context`. -/
def ProcContext.zero : ProcContext := ⟨false, 0, 0, fun _ => 0⟩

/-- A cleared `struct nod_proc_security`. -/
def ProcSecurity.zero : ProcSecurity Path :=
  ⟨false, 0, .disabled, 0, 0, 0, default, fun _ => ⟨0, 0⟩⟩

/-- `nod_init_procinfo`, which keeps the status and the buffer. -/
def nodInitProcinfo (p : ProcInfo Path) : ProcInfo Path :=
  { p with ioctlFd := -1, entryAddr := 0, ctx := .zero, sec := .zero }

/-- `nod_alloc_procinfo`. -/
def nodAllocProcinfo (alloc : Option NodBuffer) : Option (ProcInfo Path) :=
  alloc.map fun buf => ⟨.nodUnknown, 0, 0, 0, .zero, .zero, buf⟩

/-- `nod_proc_acquire`: the `nod_proc_info` afterwards, if there is one. -/
def nodProcAcquire (status : ProcStatus) (fd : Int) (alloc : Option NodBuffer)
    (info : Option (ProcInfo Path)) : Option (ProcInfo Path) :=
  match info with
  | some p => some (nodProcSetStatus p status fd)
  | none => (nodAllocProcinfo alloc).map fun p => nodProcSetStatus (nodInitProcinfo p) status fd

end Procinfo

/-! ## Acting on the thread -/

namespace TracedTask

variable {Path Fpu : Type}

/-- The privileges as `privil.c` sees them. -/
def taskPrivil (s : TracedTask Path Fpu) (p : ProcInfo Path) : TaskPrivil Path :=
  ⟨s.privil.own.seccomp, s.privil.own.blocked, s.privil.own.clearChildTid, p.ioctlFd, p.sec⟩

/-- The thread after a function of `privil.c`. -/
def putPrivil (s : TracedTask Path Fpu) (p : ProcInfo Path)
    (r : SharedPrivil Path × TaskPrivil Path) : TracedTask Path Fpu :=
  { s with
    privil := ⟨r.1, ⟨r.2.seccomp, r.2.blocked, r.2.clearChildTid⟩⟩
    info := some { p with ioctlFd := r.2.ioctlFd, sec := r.2.sec } }

/-- `nod_restore_security`. -/
def restoreSecurity (s : TracedTask Path Fpu) (p : ProcInfo Path) : TracedTask Path Fpu :=
  s.putPrivil p (nodRestoreSecurity s.privil.shared (s.taskPrivil p))

/-- `nod_restore_context`. -/
def restoreContext (s : TracedTask Path Fpu) (p : ProcInfo Path) : TracedTask Path Fpu :=
  let r := nodRestoreContext p.ctx (s.cpu, s.th)
  { s with cpu := r.2.1, th := r.2.2, info := some { p with ctx := r.1 } }

/-- `nod_proc_set_out`. -/
def setOut (s : TracedTask Path Fpu) (p : ProcInfo Path) : TracedTask Path Fpu :=
  { s with info := some (nodProcSetStatus p .nodOut (-1)) }

/-- A function of the thread and its `nod_proc_info`, which the caller knows to exist. -/
def onInfo (s : TracedTask Path Fpu)
    (f : TracedTask Path Fpu → ProcInfo Path → TracedTask Path Fpu) : TracedTask Path Fpu :=
  match s.info with
  | some p => f s p
  | none => s

/-- What a recording leaves in the buffer and in the statistic. -/
def putRecorded (s : TracedTask Path Fpu) (r : Recorded) : TracedTask Path Fpu :=
  { s with info := s.info.map fun p => { p with buf := r.buf }, stat := r.stat }

/-- The system call's result. -/
def setAx (s : TracedTask Path Fpu) (v : UInt64) : TracedTask Path Fpu :=
  { s with cpu := { s.cpu with regs := Function.update s.cpu.regs .ax v } }

end TracedTask

/-! ## `kmodule/loader.c` -/

section Code

variable {Path Fpu : Type} (k : KernelPrivil Path)

/-- `nod_load_monitor`.  `nod_share_procinfo` is about the protection key only. -/
def nodLoadMonitor (env : LoadEnv) (p : ProcInfo Path) (s : TracedTask Path Fpu) :
    Int × TracedTask Path Fpu :=
  let p := if p.status = .nodClone then nodCopyProcinfo env.leaderEntry p else p
  match if p.entryAddr = 0 then env.doLoad else .ok (p.entryAddr, p.stackAddr) with
  | .error code => (code, { s with info := some p })
  | .ok (entryAddr, stackAddr) =>
      let p := { p with entryAddr := entryAddr, stackAddr := stackAddr }
      if 0 < env.notCopied then (env.notCopied, { s with info := some p })
      else
        let p := nodProcSetStatus p .nodIn (-1)
        let s := s.putPrivil p (nodPrepareSecurity k s.privil.shared (s.taskPrivil p))
        let (ctx, cpu, th) := enterMonitor stackAddr entryAddr (s.cpu, s.th)
        (nodSuccessLoad,
          { s with cpu := cpu, th := th, info := s.info.map fun p => { p with ctx := ctx } })

/-! ## `kmodule/trace.c` -/

/-- `NOD_FAILURE_INVALID_EVENT`. -/
def nodFailureInvalidEvent : Int := -3

/-- `syscall_probe`, if the recording returns. -/
def syscallProbe (e : ProbeEnv) (force : Bool) (p : ProcInfo Path) (s : TracedTask Path Fpu) :
    Option (Int × TracedTask Path Fpu) :=
  match e.event with
  | none => some (nodFailureInvalidEvent, { s with info := some p })
  | some ev =>
      let load := nodLoadMonitor k e.load p s
      let r := doRecordOneEvent e.fuel p.entryAddr load.1 { ev with force := force } p.buf s.stat
      r.ret.map fun ret =>
        (ret, (if r.forced then load.2 else { s with info := some p }).putRecorded r)

/-- `CLONE_VM`. -/
def cloneVm : UInt64 := 0x100

variable [Inhabited Path]

/-- The `nod_proc_info` that `syscall_exit_probe` records an event with: `execve` takes
away the monitor, and a thread seen for the first time gets one. -/
def probeProcinfo (e : ProbeEnv) (id : Sysno) (info : Option (ProcInfo Path)) :
    Option (ProcInfo Path) :=
  match info with
  | some p => some (if id = .execve ∨ id = .execveat then nodInitProcinfo p else p)
  | none => nodProcAcquire (nodEventFrom info) (-1) e.alloc info

/-- `syscall_exit_probe` in the cases `NOD_OUT`, `NOD_CLONE` and `NOD_SHARE`. -/
def probeOutside (e : ProbeEnv) (id : Sysno) (s : TracedTask Path Fpu) :
    Option (TracedTask Path Fpu) :=
  if id = .clone ∧ s.cpu.regs .ax = 0 then
    -- the flags are taken from the second argument
    let status := if s.cpu.regs .si &&& cloneVm = 0 then .nodClone else .nodShare
    some { s with info := nodProcAcquire status (-1) e.alloc s.info }
  else
    match probeProcinfo e id s.info with
    | none => some s
    | some p => (syscallProbe k e false p s).map Prod.snd

/-- `syscall_exit_probe`, for a thread whose system call `id` returns what is in `ax`. -/
def syscallExitProbe (e : ProbeEnv) (id : Sysno) (s : TracedTask Path Fpu) :
    Option (TracedTask Path Fpu) :=
  match nodEventFrom s.info with
  | .nodRestoreContext =>
      some (((s.onInfo .restoreSecurity).onInfo .restoreContext).onInfo .setOut)
  | .nodRestoreSecurity => some (s.onInfo .restoreSecurity)
  | .nodOut | .nodClone | .nodShare => probeOutside k e id s
  | .nodUnknown | .nodIn => some s

/-- The end of a filter: `BUG()`, or a return. -/
inductive Filtered (Path Fpu : Type) where
  | bug
  | ret (again : Bool) (s : TracedTask Path Fpu)

/-- `exit_filter`, if the recording returns; it returns `-EAGAIN` or 0. -/
def exitFilter (e : ProbeEnv) (s : TracedTask Path Fpu) : Option (Filtered Path Fpu) :=
  match s.info <|> nodProcAcquire .nodOut (-1) e.alloc none with
  | none => some (.ret false s)
  | some p =>
      match p.status with
      | .nodOut | .nodClone | .nodShare =>
          (syscallProbe k e true p s).map fun r => .ret (r.1 = nodSuccessLoad) r.2
      | .nodIn => some (.ret false (s.restoreSecurity p))
      | .nodUnknown | .nodRestoreContext | .nodRestoreSecurity => some .bug

end Code

/-! ## `kmodule/proc.c` -/

/-- The two commands of `nod_dev_ioctl` for leaving the monitor. -/
inductive RestoreCmd where
  | security | context
deriving DecidableEq, Repr

/-- The status a command sets. -/
def RestoreCmd.status : RestoreCmd → ProcStatus
  | .security => .nodRestoreSecurity
  | .context => .nodRestoreContext

/-- `nod_dev_ioctl`: the return value and the `nod_proc_info`.  `filp` says that the file
was opened by this thread when it had its `nod_proc_info`; `stack` is what could be
copied from user memory. -/
def nodDevIoctl {Path : Type} (cmd : RestoreCmd) (filp : Bool) (stack : Option StackInfo)
    (info : Option (ProcInfo Path)) : Int × Option (ProcInfo Path) :=
  match info, filp with
  | some p, true =>
      if p.status ≠ .nodIn then (-19, info)
      else
        match stack with
        | none => (-14, info)
        | some stack =>
            if stack.hash ≠ nodCalcHash stack then (-22, info)
            else (0, some (nodProcSetStatus p cmd.status stack.ioctlFd.toInt))
  | _, _ => (-19, info)

/-! ## The thread among other tasks -/

/-- Where the thread is: in user mode, in a system call of which only the probe is left,
past its exit, or in `BUG()`. -/
inductive Mode where
  | user
  | kernel (id : Sysno)
  | gone
  | bug
deriving DecidableEq, Repr

/-- What is the application's: its registers and segment bases when it was last sent into
the monitor, and the privileges it has given itself. -/
structure AppState (Path : Type) where
  regs : PtRegs
  fsbase : UInt64
  gsbase : UInt64
  privil : Privileges Path

/-- One thread, with `tracepoint_registered`; `app` is history. -/
structure Traced (Path Fpu : Type) where
  registered : Bool
  mode : Mode
  task : TracedTask Path Fpu
  app : AppState Path

/-- What happens.  A system call that is not an exit or one of the two `ioctl` commands
may leave any privileges and any user; the thread may be switched out at any time, after
which its `thread_struct` may be any. -/
inductive TraceAct (Path Fpu : Type) where
  | instr (i : MonitorInstr Fpu)
  | switched (th : ThreadStruct)
  | syscall (id : Sysno) (ret : UInt64) (uid : UInt32) (privil : Privileges Path)
  | ioctl (cmd : RestoreCmd) (filp : Bool) (stack : Option StackInfo)
  | exit (id : Sysno) (e : ProbeEnv)
  | ret (e : ProbeEnv)
  | stopRecording
  | startRecording (ok : Bool)

/-- The hooked system calls of `exit_filter`. -/
def Sysno.isExit : Sysno → Bool
  | .exit | .exitGroup => true
  | _ => false

namespace Traced

variable {Path Fpu : Type}

/-- `p->status`, if there is a `p`. -/
def status (t : Traced Path Fpu) : Option ProcStatus := t.task.info.map (·.status)

/-- The probe and the filters act on the thread: they are installed, and the thread's
user is the one `NOD_TEST` lets through. -/
def Observed (t : Traced Path Fpu) : Prop := t.registered = true ∧ t.task.uid = 1000

instance (t : Traced Path Fpu) : Decidable t.Observed := inferInstanceAs (Decidable (_ ∧ _))

/-- The thread after the probe or the filter; if that sent it into the monitor, the
application's context is noted. -/
def follow (t : Traced Path Fpu) (s : TracedTask Path Fpu) : Traced Path Fpu :=
  { t with
    task := s
    app :=
      if t.status ≠ some .nodIn ∧ s.info.map (·.status) = some .nodIn then
        ⟨t.task.cpu.regs, t.task.th.fsbase, t.task.th.gsbase, t.app.privil⟩
      else t.app }

end Traced

/-- `nod_proc_release`. -/
def nodProcRelease {Path Fpu : Type} (s : TracedTask Path Fpu) : TracedTask Path Fpu :=
  { s with
    info := none
    stat := { s.stat with
      nDropEvtsUnsolved := s.stat.nDropEvtsUnsolved + (s.info.map (·.buf.info.nevents)).getD 0 } }

section Step

variable {Path Fpu : Type} [Inhabited Path] (k : KernelPrivil Path)

/-- One step. -/
def traceStep (t : Traced Path Fpu) : TraceAct Path Fpu → Option (Traced Path Fpu)
  | .instr i =>
      if t.mode = .user then some { t with task := { t.task with cpu := i.run t.task.cpu } }
      else none
  | .switched th => some { t with task := { t.task with th := th } }
  | .syscall id ret uid privil =>
      if t.mode = .user ∧ id.isExit = false then
        some { t with
          mode := .kernel id
          task := { t.task with uid := uid, privil := privil }.setAx ret
          app := if t.status = some .nodIn then t.app else { t.app with privil := privil } }
      else none
  | .ioctl cmd filp stack =>
      if t.mode = .user then
        let r := nodDevIoctl cmd filp stack t.task.info
        some { t with
          mode := .kernel .ioctl
          task := { t.task with info := r.2 }.setAx (Int64.ofInt r.1).toUInt64 }
      else none
  -- `hook_general`, and `do_exit` if it comes to that
  | .exit id e =>
      if t.mode = .user ∧ id.isExit = true then
        if t.Observed then
          (exitFilter k e t.task).map fun
            | .bug => { t with mode := .bug }
            | .ret true s => { t.follow (s.setAx (-11)) with mode := .kernel id }
            | .ret false s => { t with mode := .gone, task := nodProcRelease s }
        else some { t with mode := .gone }
      else none
  | .ret e =>
      match t.mode with
      | .kernel id =>
          if t.Observed then
            (syscallExitProbe k e id t.task).map fun s => { t.follow s with mode := .user }
          else some { t with mode := .user }
      | _ => none
  | .stopRecording => some { t with registered := false }
  | .startRecording ok => some { t with registered := t.registered || ok }

end Step

end NoDrop
