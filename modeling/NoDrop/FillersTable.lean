import NoDrop.SocketFillers

/-! # From a system call number to its filler

`g_syscall_event_table` of `kmodule/syscall_table.c` gives every system call number its event
type, `g_nod_events` of `kmodule/fillers_table.c` every event type its filler and its automatic
arguments, and `nod_filler_callback` runs them.  Here is the whole chain, for x86-64: the rows
that `gNodEvents` translates are taken from there, the others are added
(`nodFillerCallback_eq`).
-/
namespace NoDrop

open Bytes Filler

/-- `SYSCALL_TABLE_SIZE`. -/
def tableSize : Nat := 512

/-- `g_syscall_event_table`.  A number without an entry is zero-initialised, which is
`NODE_GENERIC`. -/
def gSyscallEventTable : Nat → EventType
  | 0 => .syscallRead
  | 1 => .syscallWrite
  | 2 => .syscallOpen
  | 3 => .syscallClose
  | 4 => .syscallStat
  | 5 => .syscallFstat
  | 6 => .syscallLstat
  | 7 => .syscallPoll
  | 8 => .syscallLseek
  | 9 => .syscallMmap
  | 10 => .syscallMprotect
  | 11 => .syscallMunmap
  | 12 => .syscallBrk_4
  | 16 => .syscallIoctl_3
  | 17 => .syscallPread
  | 18 => .syscallPwrite
  | 19 => .syscallReadv
  | 20 => .syscallWritev
  | 21 => .syscallAccess
  | 22 => .syscallPipe
  | 23 => .syscallSelect
  | 32 => .syscallDup
  | 33 => .syscallDup
  | 35 => .syscallNanosleep
  | 40 => .syscallSendfile
  | 41 => .socketSocket
  | 42 => .socketConnect
  | 43 => .socketAccept_5
  | 44 => .socketSendto
  | 45 => .socketRecvfrom
  | 46 => .socketSendmsg
  | 47 => .socketRecvmsg
  | 48 => .socketShutdown
  | 49 => .socketBind
  | 50 => .socketListen
  | 51 => .socketGetsockname
  | 52 => .socketGetpeername
  | 53 => .socketSocketpair
  | 54 => .socketSetsockopt
  | 55 => .socketGetsockopt
  | 56 => .syscallClone_20
  | 57 => .syscallFork_20
  | 58 => .syscallVfork_20
  | 59 => .syscallExecve_19
  | 62 => .syscallKill
  | 64 => .syscallSemget
  | 65 => .syscallSemop
  | 66 => .syscallSemctl
  | 72 => .syscallFcntl
  | 73 => .syscallFlock
  | 78 => .syscallGetdents
  | 79 => .syscallGetcwd
  | 80 => .syscallChdir
  | 81 => .syscallFchdir
  | 82 => .syscallRename
  | 83 => .syscallMkdir_2
  | 84 => .syscallRmdir_2
  | 85 => .syscallCreat
  | 86 => .syscallLink_2
  | 87 => .syscallUnlink_2
  | 88 => .syscallSymlink
  | 90 => .syscallChmod
  | 91 => .syscallFchmod
  | 97 => .syscallGetrlimit
  | 101 => .syscallPtrace
  | 102 => .syscallGetuid
  | 104 => .syscallGetgid
  | 105 => .syscallSetuid
  | 106 => .syscallSetgid
  | 107 => .syscallGeteuid
  | 108 => .syscallGetegid
  | 109 => .syscallSetpgid
  | 112 => .syscallSetsid
  | 117 => .syscallSetresuid
  | 118 => .syscallGetresuid
  | 119 => .syscallSetresgid
  | 120 => .syscallGetresgid
  | 160 => .syscallSetrlimit
  | 161 => .syscallChroot
  | 165 => .syscallMount
  | 166 => .syscallUmount
  | 179 => .syscallQuotactl
  | 200 => .syscallTkill
  | 202 => .syscallFutex
  | 217 => .syscallGetdents64
  | 232 => .syscallEpollwait
  | 234 => .syscallTgkill
  | 253 => .syscallInotifyInit
  | 257 => .syscallOpenat_2
  | 258 => .syscallMkdirat
  | 263 => .syscallUnlinkat_2
  | 264 => .syscallRenameat
  | 265 => .syscallLinkat_2
  | 266 => .syscallSymlinkat
  | 268 => .syscallFchmodat
  | 271 => .syscallPpoll
  | 272 => .syscallUnshare
  | 275 => .syscallSplice
  | 282 => .syscallSignalfd
  | 283 => .syscallTimerfdCreate
  | 284 => .syscallEventfd
  | 288 => .socketAccept4_5
  | 289 => .syscallSignalfd
  | 290 => .syscallEventfd
  | 292 => .syscallDup
  | 293 => .syscallPipe
  | 294 => .syscallInotifyInit
  | 295 => .syscallPreadv
  | 296 => .syscallPwritev
  | 299 => .socketRecvmmsg
  | 302 => .syscallPrlimit
  | 307 => .socketSendmmsg
  | 308 => .syscallSetns
  | 316 => .syscallRenameat2
  | 317 => .syscallSeccomp
  | 321 => .syscallBpf
  | 322 => .syscallExecveat
  | 323 => .syscallUserfaultfd
  | 326 => .syscallCopyFileRange
  | 435 => .syscallClone3
  | 437 => .syscallOpenat2
  | _ => .generic

theorem socketBind_plain (i : Nat) : ((gEventInfo .socketBind).param i).type ≠ .dyn := by
  match i with
  | 0 => decide
  | 1 => decide
  | 2 => decide
  | n + 3 => simp [gEventInfo, EventInfo.plain, EventInfo.param]

theorem socketConnect_plain (i : Nat) : ((gEventInfo .socketConnect).param i).type ≠ .dyn := by
  match i with
  | 0 => decide
  | 1 => decide
  | 2 => decide
  | n + 3 => simp [gEventInfo, EventInfo.plain, EventInfo.param]

section

variable (k : Kernel) (s : Syscall)

/-- `f_sys_generic`, with the branch for a number outside the table. -/
def fSysGenericChecked {ty : EventType} : CheckedFiller ty :=
  if s.nr.toNat < tableSize then .plain (fSysGeneric s)
  else .assert done false <| .plain (pushes [.imm rodata] done)

/-- A row of `g_nod_events` with a filler: the filler and its automatic arguments. -/
structure EventRow (ty : EventType) where
  callback : CheckedFiller ty
  autofill : List AutofillArg

/-- The rows of `g_nod_events` that `gNodEvents` leaves open.  `f_sys_procstart` is declared
but defined nowhere, so that the weak symbol is `NULL`. -/
def otherEvents : (ty : EventType) → Option (EventRow ty)
  | .syscallOpen => some ⟨.plain (fSysOpen k s), []⟩
  | .syscallExecve_8 => some ⟨fSysExecve k s, []⟩
  | .syscallClone_11 => none
  | .socketBind => some ⟨fSysSocketBind k s socketBind_plain, [.arg 0]⟩
  | .socketConnect => some ⟨fSysConnect k s socketConnect_plain, [.arg 0]⟩
  | .socketSend => some ⟨.plain (fSysSend s), []⟩
  | .socketSendto => some ⟨fSysSendto k s, []⟩
  | .socketRecv => some ⟨.plain (fSysRecv s), [.arg 0, .arg 2]⟩
  | .socketRecvfrom => some ⟨fSysRecvfrom k s, [.arg 0, .arg 2]⟩
  | .socketShutdown => some ⟨.plain (fSysShutdown s), [.retval]⟩
  | .socketSocketpair => some ⟨.plain (fSysSocketpair k s), [.arg 0, .arg 1, .arg 2]⟩
  | .socketSetsockopt => some ⟨fSysSetsockopt k s, []⟩
  | .socketGetsockopt => some ⟨fSysGetsockopt k s, []⟩
  | .socketSendmsg => some ⟨fSysSendmsg k s, []⟩
  | .socketRecvmsg => some ⟨fSysRecvmsg k s, [.arg 0]⟩
  | .syscallCreat => some ⟨.plain (fSysCreat k s), []⟩
  | .syscallPipe => some ⟨.plain (fSysPipe k s), []⟩
  | .syscallEventfd => some ⟨.plain (fSysEventfd s), [.retval]⟩
  | .syscallFutex => some ⟨.plain (fSysFutex s), [.retval]⟩
  | .syscallLseek => some ⟨.plain (fSysLseek s), [.retval]⟩
  | .syscallLlseek => some ⟨.plain (fSysLlseek s), [.retval]⟩
  | .syscallWritev => some ⟨.plain (fSysWritev s), []⟩
  | .syscallPwritev => some ⟨.plain (fSysPwritev s), []⟩
  | .syscallNanosleep => some ⟨.plain (fSysNanosleep s), [.retval]⟩
  | .syscallGetrlimit => some ⟨.plain (fSysGetrlimitSetrlrimit s), []⟩
  | .syscallSetrlimit => some ⟨.plain (fSysGetrlimitSetrlrimit s), []⟩
  | .syscallPrlimit => some ⟨.plain (fSysPrlimit s), []⟩
  | .syscallFcntl => some ⟨fSysFcntl s, [.retval]⟩
  | .syscallBrk_4 => some ⟨.plain (fSysBrkMunmapMmap k s), [.arg 0]⟩
  | .syscallMmap => some ⟨.plain (fSysBrkMunmapMmap k s), []⟩
  | .syscallMmap2 => some ⟨.plain (fSysBrkMunmapMmap k s), []⟩
  | .syscallMunmap => some ⟨.plain (fSysBrkMunmapMmap k s), [.arg 0, .arg 1]⟩
  | .syscallPtrace => some ⟨.plain (fSysPtrace s), []⟩
  | .syscallRenameat => some ⟨.plain (fSysRenameat s), []⟩
  | .syscallSymlinkat => some ⟨.plain (fSysSymlinkat s), []⟩
  | .syscallSendfile => some ⟨.plain (fSysSendfile s), []⟩
  | .syscallQuotactl => some ⟨.plain (fSysQuotactl s), []⟩
  | .syscallGetresuid => some ⟨.plain (fSysGetresuidAndGid s), []⟩
  | .syscallGetresgid => some ⟨.plain (fSysGetresuidAndGid s), []⟩
  | .syscallClone_20 => some ⟨fProcStartupdate k s, []⟩
  | .syscallFork_20 => some ⟨fProcStartupdate k s, []⟩
  | .syscallVfork_20 => some ⟨fProcStartupdate k s, []⟩
  | .syscallSetns => some ⟨.plain (fSysSetns s), [.retval]⟩
  | .syscallFlock => some ⟨.plain (fSysFlock s), [.retval]⟩
  | .socketAccept_5 => some ⟨fSysAccept k s, []⟩
  | .socketAccept4_5 => some ⟨fSysAccept4 k s, []⟩
  | .syscallSemop => some ⟨.plain (fSysSemop s), [.arg 0]⟩
  | .syscallSemctl => some ⟨.plain (fSysSemctl s), [.retval]⟩
  | .syscallPpoll => some ⟨.plain (fSysPpoll s), []⟩
  | .syscallMount => some ⟨.plain (fSysMount s), [.retval, .arg 0, .arg 1, .arg 2]⟩
  | .syscallSemget => some ⟨.plain (fSysSemget s), [.retval]⟩
  | .syscallAccess => some ⟨.plain (fSysAccess s), [.retval, .arg 0]⟩
  | .syscallUnshare => some ⟨.plain (fSysUnshare s), [.retval]⟩
  | .syscallExecve_19 => some ⟨fSysExecve k s, []⟩
  | .syscallBpf => some ⟨.plain (fSysBpf s), [.arg 0]⟩
  | .syscallUnlinkat_2 => some ⟨.plain (fSysUnlinkat s), []⟩
  | .syscallMkdirat => some ⟨.plain (fSysMkdirat s), []⟩
  | .syscallOpenat_2 => some ⟨.plain (fSysOpenat k s), []⟩
  | .syscallLinkat_2 => some ⟨.plain (fSysLinkat s), []⟩
  | .syscallFchmodat => some ⟨.plain (fSysFchmodat s), []⟩
  | .syscallChmod => some ⟨.plain (fSysChmod s), []⟩
  | .syscallFchmod => some ⟨.plain (fSysFchmod s), []⟩
  | .syscallRenameat2 => some ⟨.plain (fSysRenameat2 s), []⟩
  | .syscallOpenat2 => some ⟨.plain (fSysOpenat2 s), []⟩
  | .syscallMprotect => some ⟨.plain (fSysMprotect s), []⟩
  | .syscallExecveat => some ⟨fSysExecveat k s, []⟩
  | .syscallCopyFileRange => some ⟨.plain (fSysCopyFileRange s), []⟩
  | .syscallClone3 => some ⟨fProcStartupdate k s, []⟩
  | _ => none

/-- `g_nod_events`, whole. -/
def eventRow (ty : EventType) : Option (EventRow ty) :=
  if ty = .generic then some ⟨fSysGenericChecked s, []⟩
  else
    match gNodEvents s ty with
    | .null => none
    | .other => otherEvents k s ty
    | .entry callback autofill => some ⟨.plain callback, autofill⟩

/-- `NOD_MAX_AUTOFILL_ARGS`. -/
def nodMaxAutofillArgs : Nat := 8

/-- `nod_autofill` over a part of the entries, with the `ASSERT` it begins with.  The part lies
inside the `n` entries there are by construction. -/
def nodAutofillChecked {ty : EventType} (n : Nat) (entries : List AutofillArg) : CheckedFiller ty :=
  .assert done (n ≤ nodMaxAutofillArgs ∧ entries.length ≤ n) <| .plain (nodAutofill s entries)

/-- `nod_filler_callback`. -/
def fillerCallback (ty : EventType) : CheckedFiller ty :=
  match eventRow k s ty with
  | none => .plain (.ret nodFailureBug)
  | some ⟨callback, []⟩ => callback
  | some ⟨callback, autofill⟩ =>
      (nodAutofillChecked s autofill.length (autofill.takeWhile AutofillArg.isArg)).seq <|
        callback.seq <|
          nodAutofillChecked s autofill.length (autofill.dropWhile AutofillArg.isArg)

@[simp] theorem nodAutofillChecked_filler {ty : EventType} (n : Nat) (entries : List AutofillArg) :
    (nodAutofillChecked s n entries : CheckedFiller ty).filler = nodAutofill s entries := by
  simp [nodAutofillChecked, CheckedFiller.filler, done]

/-- `nod_filler_callback` without its `ASSERT`s: the leading registers, the callback and the
rest of the automatic arguments. -/
theorem fillerCallback_filler {k : Kernel} {s : Syscall} {ty : EventType} {row : EventRow ty}
    (hrow : eventRow k s ty = some row) :
    (fillerCallback k s ty).filler =
      (nodAutofill s (row.autofill.takeWhile AutofillArg.isArg)).seq
        (row.callback.filler.seq (nodAutofill s (row.autofill.dropWhile AutofillArg.isArg))) := by
  obtain ⟨callback, autofill⟩ := row
  unfold fillerCallback
  rw [hrow]
  cases autofill with
  | nil => simp [nodAutofill]
  | cons entry entries => simp only [CheckedFiller.filler_seq, nodAutofillChecked_filler]

/-- The rows that `gNodEvents` translates are filled in alike. -/
theorem nodFillerCallback_eq {ty : EventType} {f : Filler ty} (hnr : s.nr.toNat < tableSize)
    (h : nodFillerCallback s ty = some f) : (fillerCallback k s ty).filler = f := by
  by_cases hg : ty = .generic
  · subst hg
    obtain rfl : fSysGeneric s = f := Option.some.inj h
    simp [fillerCallback, eventRow, fSysGenericChecked, hnr, CheckedFiller.filler]
  · unfold nodFillerCallback at h
    unfold fillerCallback eventRow
    rw [if_neg hg]
    cases hrow : gNodEvents s ty with
    | null =>
      simp only [hrow, Option.some.injEq] at h
      exact h
    | other => simp [hrow] at h
    | entry callback autofill =>
      cases autofill with
      | nil =>
        simp only [hrow, Option.some.injEq] at h
        exact h
      | cons entry entries =>
        simp only [hrow, Option.some.injEq] at h
        simp only [CheckedFiller.filler_seq, nodAutofillChecked_filler]
        exact h

end

end NoDrop
