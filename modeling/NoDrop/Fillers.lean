import NoDrop.Filler

/-! # The fillers of the system calls

`g_nod_events` of `kmodule/fillers_table.c` gives every event type a filler and a list of
arguments to fill in automatically before and after it; `nod_filler_callback` runs them.

Translated are the rows that are filled in automatically alone (`f_sys_empty`) and those
of `read`, `write` and `readv` with their positioned siblings, of `poll` and of the system
calls without a filler of their own (`f_sys_generic`), on x86-64.  They show every shape a
filler has: integers, user strings, user data, data assembled in `str_storage`, and fillers
that report `NOD_FAILURE_BUFFER_FULL` on their own account.  The remaining rows (`EventEntry.other`)
are programs of the same type `Filler`, and the results about the recorder hold for every
such program.
-/
namespace NoDrop

open Bytes

/-- For the numerals that name the argument registers. -/
instance neZero_six : NeZero 6 := ⟨by decide⟩

/-- The system call being recorded: its argument registers, return value and number, the
caller's memory and the address of `str_storage`. -/
structure Syscall where
  arg : Fin 6 → UInt64
  ret : UInt64
  nr : UInt32
  um : UserMem
  strStorage : UInt64

/-- `args` as a signed number. -/
def signed (v : UInt64) : Int := v.toBitVec.toInt

/-- One entry of `autofill_args`: an argument register (`id >= 0`), `AF_ID_RETVAL` or
`AF_ID_USEDEFAULT`. -/
inductive AutofillArg where
  | arg (i : Fin 6)
  | retval
  | useDefault (v : UInt64)
deriving DecidableEq, Repr

/-- `autofill_args[i].id >= 0`. -/
def AutofillArg.isArg : AutofillArg → Bool
  | .arg _ => true
  | _ => false

namespace Filler

variable {ty : EventType}

/-- A store into `str_storage`, which a filler that leaves the page does not survive. -/
def scratch (w : Write) (next : Filler ty) : Filler ty :=
  if h : w.stop ≤ pageSize then store w h next else runaway

/-- `return val_to_ring(...)`. -/
def pushLast (v : Value) : Filler ty := push v (ret nodSuccess)

end Filler

section

variable {ty : EventType} (s : Syscall)

/-- What `nod_autofill` pushes for an entry. -/
def AutofillArg.value : AutofillArg → Value
  | .arg i => { val := s.arg i, fromuser := true }
  | .retval => { val := s.ret }
  | .useDefault v => { val := v }

/-- `nod_autofill`, over the entries from `start_index` to `end_index`. -/
def nodAutofill : List AutofillArg → Filler ty
  | [] => .ret nodSuccess
  | a :: as => .push (a.value s) (nodAutofill as)

/-! ## Fillers -/

/-- `f_sys_empty`. -/
def fSysEmpty : Filler ty := .ret nodSuccess

/-- `f_sys_generic`.  The event types of the table are those of numbers inside it, so the
branch for a number out of bounds is not taken. -/
def fSysGeneric : Filler ty := .pushLast { val := s.nr.toUInt64 }

/-- `f_sys_read`. -/
def fSysRead : Filler ty :=
  .push { val := s.ret } <|
    if signed s.ret < 0 then .pushLast { val := 0, len := 0, fromuser := true }
    else .pushLast { val := s.arg 1, len := s.ret.toUInt32, fromuser := true }

/-- `f_sys_write`. -/
def fSysWrite : Filler ty :=
  .push { val := s.ret } <|
    .pushLast { val := s.arg 1, len := (s.arg 2).toUInt32, fromuser := true }

/-- `struct iovec`: base and length. -/
abbrev Iovec := Nat × Nat

/-- The `iovec`s in the bytes copied from user memory. -/
def iovecs : Nat → List UInt8 → List Iovec
  | 0, _ => []
  | n + 1, bs => (leNat (bs.take 8), leNat ((bs.drop 8).take 8)) :: iovecs n (bs.drop 16)

/-- The flags of `parse_readv_writev_bufs`. -/
structure PrbFlags where
  pushSize : Bool
  pushData : Bool
  isWrite : Bool

/-- The loop that merges the buffers: what it has stored at `targetbuf`, and whether it
came to its end.  `room` is `targetbuflen`. -/
def mergeBufs (um : UserMem) (retval room : Nat) (isWrite : Bool) :
    List Iovec → List UInt8 → List UInt8 × Bool
  | [], buf => (buf, true)
  | (base, len) :: rest, buf =>
      if isWrite = false ∧ retval ≤ buf.length then (buf, true)
      else
        let want := if isWrite then len else min len (retval - buf.length)
        let tocopy := min want (room - buf.length - 1)
        let got := um.nodCopyFromUser base tocopy
        if got.2 ≠ 0 then (buf ++ got.1, false)
        else if tocopy ≠ len then (buf ++ got.1, true)
        else mergeBufs um retval room isWrite rest (buf ++ got.1)

/-- `parse_readv_writev_bufs`. -/
def parseReadvWritevBufs (iovsrc iovcnt : UInt64) (retval : UInt64) (flags : PrbFlags) :
    Filler ty :=
  let copylen := iovcnt.toNat * 16
  let got := s.um.nodCopyFromUser iovsrc.toNat copylen
  let iov := iovecs iovcnt.toNat got.1
  let total := (iov.map Prod.snd).sum % 2 ^ 64
  let size := if flags.isWrite = false ∧ retval.toNat < total then retval.toNat else total
  let data := mergeBufs s.um retval.toNat (pageSize - copylen) flags.isWrite iov []
  let pushData : Filler ty :=
    if flags.pushData = false then .ret nodSuccess
    else if 0 < signed retval ∧ 0 < iovcnt.toNat then
      .scratch ⟨copylen, data.1⟩ <|
        if data.2 then
          .pushLast { val := s.strStorage + UInt64.ofNat copylen, len := UInt32.ofNat data.1.length,
                      mem := data.1 }
        else .ret nodFailureInvalidUserMemory
    else .pushLast { val := 0 }
  if 0xffffffff ≤ iovcnt.toNat then .ret nodFailureBufferFull
  else if pageSize ≤ copylen then .ret nodFailureBufferFull
  else
    .scratch ⟨0, got.1⟩ <|
      if got.2 ≠ 0 then .ret nodFailureInvalidUserMemory
      else if flags.pushSize then .push { val := UInt64.ofNat size } pushData
      else pushData

/-- `f_sys_readv_preadv`. -/
def fSysReadvPreadv : Filler ty :=
  .push { val := s.ret } <|
    parseReadvWritevBufs s (s.arg 1) (s.arg 2) s.ret ⟨true, true, false⟩

/-- `merge_64`. -/
def merge64 (hi lo : UInt64) : UInt64 := (hi <<< 32) + (lo &&& 0xffffffff)

/-- `pos64` of the positioned reads and writes.  `_64BIT_ARGS_SINGLE_REGISTER` is defined nowhere,
so the offset is put together from two registers on x86-64 too. -/
def pos64 : UInt64 := merge64 (s.arg 4) (s.arg 3)

/-- `f_sys_pread`. -/
def fSysPread : Filler ty :=
  .push { val := s.arg 0 } <| .push { val := s.arg 2 } <| .push { val := pos64 s } <| fSysRead s

/-- `f_sys_pwrite`. -/
def fSysPwrite : Filler ty :=
  .push { val := s.arg 0 } <| .push { val := s.arg 2 } <| .push { val := pos64 s } <| fSysWrite s

/-- `f_sys_preadv`. -/
def fSysPreadv : Filler ty :=
  .push { val := s.arg 0 } <| .push { val := pos64 s } <| fSysReadvPreadv s

/-- `poll_events_to_scap`.  The kernel's `POLL*` bits and the `NOD_POLL*` bits, in the
order of the source. -/
def pollEventsToScap (events : Nat) : Nat :=
  ([(0x1, 0x1), (0x2, 0x2), (0x4, 0x4), (0x2000, 0x8), (0x8, 0x10), (0x10, 0x20), (0x20, 0x40),
    (0x40, 0x80), (0x80, 0x100), (0x100, 0x200), (0x200, 0x400)].map fun p =>
      if events &&& p.1 ≠ 0 then p.2 else 0).sum

/-- `struct pollfd`: the descriptor, sign-extended to 64 bits, `events` and `revents`. -/
def pollfds : Nat → List UInt8 → List (Nat × Nat × Nat)
  | 0, _ => []
  | n + 1, bs =>
      (((BitVec.ofNat 32 (leNat (bs.take 4))).signExtend 64).toNat, leNat ((bs.drop 4).take 2),
        leNat ((bs.drop 6).take 2)) :: pollfds n (bs.drop 8)

/-- `poll_parse_fds`.  `nfds` is the whole register, but the loop counts in a `u32`, so
that from `2 ^ 32` on it never ends. -/
def pollParseFds (enter : Bool) : Filler ty :=
  let nfds := (s.arg 1).toNat
  let got := s.um.nodCopyFromUser (s.arg 0).toNat (nfds * 8 % 2 ^ 64)
  let fds := (pollfds nfds got.1).filterMap fun p =>
    if enter then some (p.1, pollEventsToScap p.2.1)
    else if p.2.2 = 0 then none else some (p.1, pollEventsToScap p.2.2)
  let target := leBytes 2 fds.length ++ fds.flatMap fun p => leBytes 8 p.1 ++ leBytes 2 p.2
  if pageSize < (8 * nfds + 2 + 10 * nfds) % 2 ^ 64 then .ret nodFailureBufferFull
  else
    .scratch ⟨0, got.1⟩ <|
      if got.2 ≠ 0 then .ret nodFailureInvalidUserMemory
      else if 2 ^ 32 ≤ nfds then .runaway
      else
        .scratch ⟨nfds * 8 + 2, target⟩ <|
          .pushLast { val := s.strStorage + UInt64.ofNat (nfds * 8 + 2),
                      len := UInt32.ofNat target.length, mem := target }

/-- `f_sys_poll`. -/
def fSysPoll : Filler ty :=
  (pollParseFds s true).seq <| .push { val := s.arg 2 } <| .push { val := s.ret } <|
    pollParseFds s false

/-! ## The table -/

/-- A row of `g_nod_events`: none (a `NULL` callback), one whose filler is not translated,
or a filler and its automatic arguments. -/
inductive EventEntry (ty : EventType) where
  | null
  | other
  | entry (callback : Filler ty) (autofill : List AutofillArg)

/-- `g_nod_events`. -/
def gNodEvents : (ty : EventType) → EventEntry ty
  | .generic => .entry (fSysGeneric s) []
  | .syscallRead => .entry (fSysRead s) [.arg 0, .arg 2]
  | .syscallWrite => .entry (fSysWrite s) [.arg 0, .arg 2]
  | .syscallPread => .entry (fSysPread s) []
  | .syscallPwrite => .entry (fSysPwrite s) []
  | .syscallReadv => .entry (fSysReadvPreadv s) [.arg 0]
  | .syscallPreadv => .entry (fSysPreadv s) []
  | .syscallPoll => .entry (fSysPoll s) []
  | .socketGetsockname | .socketGetpeername | .socketSendmmsg | .socketRecvmmsg =>
      .entry fSysEmpty []
  | .syscallExit | .syscallExitGroup => .entry fSysEmpty [.arg 0]
  | .syscallSelect | .syscallGetuid | .syscallGeteuid | .syscallGetgid | .syscallGetegid
  | .syscallSetsid => .entry fSysEmpty [.retval]
  | .syscallClose | .syscallBrk_1 | .syscallFstat64 | .syscallFchdir | .syscallUnlink
  | .syscallDup | .syscallSetuid | .syscallSetgid | .syscallGetdents | .syscallGetdents64 =>
      .entry fSysEmpty [.arg 0, .retval]
  | .syscallStat | .syscallLstat | .syscallFstat | .syscallStat64 | .syscallLstat64
  | .syscallGetcwd | .syscallChdir | .syscallChroot | .syscallRmdir_2 | .syscallUnlink_2
  | .syscallUserfaultfd => .entry fSysEmpty [.retval, .arg 0]
  | .syscallEpollwait => .entry fSysEmpty [.arg 2, .retval]
  | .syscallInotifyInit => .entry fSysEmpty [.useDefault 0, .retval]
  | .socketListen | .syscallUnlinkat | .syscallKill | .syscallTkill | .syscallSetpgid
  | .syscallSeccomp => .entry fSysEmpty [.arg 0, .arg 1, .retval]
  | .syscallRename | .syscallSymlink | .syscallLink_2 => .entry fSysEmpty [.retval, .arg 0, .arg 1]
  | .syscallUmount => .entry fSysEmpty [.arg 1, .retval, .arg 0]
  | .syscallMkdir_2 => .entry fSysEmpty [.useDefault 0, .retval, .arg 0]
  | .syscallTimerfdCreate => .entry fSysEmpty [.useDefault 0, .useDefault 0, .retval]
  | .socketSocket | .syscallTgkill | .syscallIoctl_3 | .syscallSetresuid | .syscallSetresgid =>
      .entry fSysEmpty [.arg 0, .arg 1, .arg 2, .retval]
  -- four entries are announced and three given; the fourth is zero-initialised
  | .syscallSignalfd => .entry fSysEmpty [.arg 0, .useDefault 0, .useDefault 0, .arg 0]
  | .syscallSplice => .entry fSysEmpty [.arg 0, .arg 2, .arg 4, .arg 5, .retval]
  | .socketAccept | .socketAccept4 | .syscallIoctl_2 | .syscallMkdir | .syscallRmdir
  | .syscallOpenat | .syscallLink | .syscallLinkat | .syscallExecve_13 | .syscallClone_16
  | .syscallExecve_14 | .syscallFork | .syscallVfork | .syscallExecve_15 | .syscallClone_17
  | .syscallFork_17 | .syscallVfork_17 | .syscallExecve_16 | .syscallExecve_17
  | .syscallExecve_18 => .null
  | _ => .other

/-- `nod_filler_callback`, for the rows that are translated. -/
def nodFillerCallback (ty : EventType) : Option (Filler ty) :=
  match gNodEvents s ty with
  | .null => some (.ret nodFailureBug)
  | .other => none
  | .entry callback [] => some callback
  | .entry callback autofill =>
      some <| (nodAutofill s (autofill.takeWhile AutofillArg.isArg)).seq <|
        callback.seq <| nodAutofill s (autofill.dropWhile AutofillArg.isArg)

end

end NoDrop
