import NoDrop.SyscallFillers

/-! # The fillers of the socket calls

`f_sys_socket_bind` and `f_sys_connect`, the sends and receives, `accept`, `socketpair`,
`shutdown` and the socket options.  They go through the helpers that contain `ASSERT`s:
`pack_addr`, `fd_to_socktuple` and the converter of option names.

On x86-64 there is no `socketcall`, so `is_socketcall` is false and the arguments come from the
registers.
-/
namespace NoDrop

open Bytes Filler

section

variable {ty : EventType} (k : Kernel) (s : Syscall)

/-- The push of an address or a tuple that was put into `str_storage`. -/
def pushPacked (packed : List Write × List UInt8) (next : Filler ty) : Filler ty :=
  scratches packed.1 <|
    push { val := s.strStorage, len := UInt32.ofNat packed.2.length, mem := packed.2 } next

/-- The address the user passed at `uaddr` with the length `val`, as the fillers read it:
nothing for a null address or no length, else what `addr_to_kernel` makes of it. -/
def usrAddr (uaddr val : UInt64) : Option (Image × UInt32) :=
  if uaddr ≠ 0 ∧ val ≠ 0 then
    (addrToKernel s.um k.stack uaddr val.toUInt32).map fun a => (a, val.toUInt32)
  else none

/-- The tuple of a descriptor and the address the user passed, empty without one. -/
def usrTuple (fd : UInt32) (addr : Option (Image × UInt32)) (isInbound : Bool) :
    List Write × List UInt8 :=
  match addr with
  | none => ([], [])
  | some _ => k.fdToSocktuple fd ⟨addr, isInbound⟩

/-- The `ASSERT`s on the way to that tuple. -/
def usrTupleAsserts (fd : UInt32) (addr : Option (Image × UInt32)) (isInbound : Bool) : List Bool :=
  match addr with
  | none => []
  | some _ => k.fdToSocktupleAsserts fd ⟨addr, isInbound⟩

/-! ## Addresses -/

/-- `f_sys_socket_bind`.  The code of the first push is dropped. -/
def fSysSocketBind (plain : ∀ i, ((gEventInfo ty).param i).type ≠ .dyn) : CheckedFiller ty :=
  let addr := usrAddr k s (s.arg 1) (s.arg 2)
  let packed := (addr.map fun a => packAddr a.1 a.2).getD ([], [])
  let conds := (addr.map fun a => packAddrAsserts a.1).getD []
  (CheckedFiller.asserts conds <| .plain <| pushPacked s packed done).after <|
    pushAnyway (.imm s.ret) plain done

/-- `f_sys_connect`.  The code of the first push is dropped. -/
def fSysConnect (plain : ∀ i, ((gEventInfo ty).param i).type ≠ .dyn) : CheckedFiller ty :=
  let fd := (s.arg 0).toUInt32
  let addr := if fd.toBitVec.toInt < 0 then none else usrAddr k s (s.arg 1) (s.arg 2)
  (CheckedFiller.asserts (usrTupleAsserts k fd addr false) <| .plain <|
    pushPacked s (usrTuple k fd addr false) done).after <|
    pushAnyway (.imm s.ret) plain done

/-- `f_sys_accept_common`. -/
def fSysAcceptCommon : CheckedFiller ty :=
  let fd := s.ret.toUInt32
  let t : TupleArgs := ⟨none, true⟩
  let backlog : UInt32 × UInt32 :=
    ((k.sk (s.arg 0).toUInt32).map fun sk => (sk.ackBacklog, sk.maxAckBacklog)).getD (0, 0)
  let queuepct : UInt64 :=
    if backlog.2 = 0 then 0 else backlog.1.toUInt64 * 100 / backlog.2.toUInt64
  (CheckedFiller.asserts (k.fdToSocktupleAsserts fd t) <| .plain <|
    pushPacked s (k.fdToSocktuple fd t) <|
      pushes [.imm queuepct, .imm backlog.1.toUInt64, .imm backlog.2.toUInt64] done).after <|
    pushes [.imm (sext fd)] done

/-- `f_sys_accept`. -/
def fSysAccept : CheckedFiller ty := fSysAcceptCommon k s

/-- `f_sys_accept4`. -/
def fSysAccept4 : CheckedFiller ty := (fSysAcceptCommon k s).after <| pushes [.imm 0] done

/-! ## Sending and receiving -/

/-- `f_sys_send_e_common`. -/
def fSysSendECommon : List Value := [.imm (s.arg 0), .imm (s.arg 2)]

/-- The data of a send or a receive: as many bytes as were transferred, none if it failed. -/
def transferred : Value :=
  if signed s.ret < 0 then { val := 0, len := 0, fromuser := true }
  else { val := s.arg 1, len := s.ret.toUInt32, fromuser := true }

/-- `f_sys_send_x_common`. -/
def fSysSendXCommon : Filler ty := pushes [.imm s.ret, transferred s] done

/-- `f_sys_send`. -/
def fSysSend : Filler ty := pushes (fSysSendECommon s) <| fSysSendXCommon s

/-- `f_sys_sendto`. -/
def fSysSendto : CheckedFiller ty :=
  let fd := (s.arg 0).toUInt32
  let addr := usrAddr k s (s.arg 4) (s.arg 5)
  (CheckedFiller.asserts (usrTupleAsserts k fd addr false) <| .plain <|
    pushPacked s (usrTuple k fd addr false) <| fSysSendXCommon s).after <|
    scratch ⟨0, [250]⟩ <| pushes (fSysSendECommon s) done

/-- `f_sys_recv_common`. -/
def fSysRecvCommon : List Value := [.imm s.ret, transferred s]

/-- `f_sys_recv`. -/
def fSysRecv : Filler ty := pushes (fSysRecvCommon s) done

/-- `f_sys_recvfrom`.  The length of the address is behind a pointer. -/
def fSysRecvfrom : CheckedFiller ty :=
  let fd := (s.arg 0).toUInt32
  let got := s.um.nodCopyFromUser (s.arg 5).toNat 4
  let wanted : Prop := 0 ≤ signed s.ret ∧ s.arg 4 ≠ 0 ∧ s.arg 5 ≠ 0
  let addrlen := field32 got.1 0
  let addr := if wanted then
    (addrToKernel s.um k.stack (s.arg 4) addrlen).map fun a => (a, addrlen) else none
  if wanted ∧ got.2 ≠ 0 then
    .plain <| pushes (fSysRecvCommon s) <| ret nodFailureInvalidUserMemory
  else
    (CheckedFiller.asserts (usrTupleAsserts k fd addr true) <| .plain <|
      pushPacked s (usrTuple k fd addr true) done).after <| pushes (fSysRecvCommon s) done

/-- The fields of a `struct user_msghdr` that are read: the name and its length, and the
buffers. -/
structure Msghdr where
  name : UInt64
  namelen : UInt32
  iov : UInt64
  iovlen : UInt64

/-- A `struct user_msghdr` in the bytes copied from user memory. -/
def msghdr (bs : List UInt8) : Msghdr :=
  ⟨field64 bs 0, field32 bs 8, field64 bs 16, field64 bs 24⟩

/-- `sizeof(struct user_msghdr)`. -/
def msghdrSize : Nat := 56

/-- The address in a message header. -/
def Msghdr.addr (mh : Msghdr) : Option (Image × UInt32) :=
  if mh.name ≠ 0 ∧ mh.namelen ≠ 0 then
    (addrToKernel s.um k.stack mh.name mh.namelen).map fun a => (a, mh.namelen)
  else none

/-- `f_sys_sendmsg`. -/
def fSysSendmsg : CheckedFiller ty :=
  let fd := (s.arg 0).toUInt32
  let got := s.um.nodCopyFromUser (s.arg 1).toNat msghdrSize
  let mh := msghdr got.1
  let addr := mh.addr k s
  if got.2 ≠ 0 then .plain <| pushes [.imm (s.arg 0)] <| ret nodFailureInvalidUserMemory
  else
    (CheckedFiller.asserts (usrTupleAsserts k fd addr false) <| .plain <|
      pushPacked s (usrTuple k fd addr false) <| pushes [.imm s.ret] <|
        parseReadvWritevBufs s mh.iov mh.iovlen snaplenRetval ⟨false, true, true⟩).after <|
      pushes [.imm (s.arg 0)] <|
        parseReadvWritevBufs s mh.iov mh.iovlen snaplenRetval ⟨true, false, true⟩

/-- `f_sys_recvmsg`. -/
def fSysRecvmsg : CheckedFiller ty :=
  let fd := (s.arg 0).toUInt32
  let got := s.um.nodCopyFromUser (s.arg 1).toNat msghdrSize
  let mh := msghdr got.1
  let addr := if 0 ≤ signed s.ret then mh.addr k s else none
  if got.2 ≠ 0 then .plain <| pushes [.imm s.ret] <| ret nodFailureInvalidUserMemory
  else
    (CheckedFiller.asserts (usrTupleAsserts k fd addr true) <| .plain <|
      pushPacked s (usrTuple k fd addr true) done).after <|
      pushes [.imm s.ret] <|
        parseReadvWritevBufs s mh.iov mh.iovlen s.ret ⟨true, true, false⟩

/-- `f_sys_shutdown`. -/
def fSysShutdown : Filler ty := pushes [.imm (s.arg 0), .imm (shutdownHowToScap (s.arg 1))] done

/-- `f_sys_socketpair`.  It takes for granted that the socket it finds has its `struct sock`. -/
def fSysSocketpair : Filler ty :=
  pushes [.imm s.ret] <|
    if signed s.ret < 0 then pushes [.imm 0, .imm 0, .imm 0, .imm 0] done
    else
      fetch s.um (s.arg 3) 8 fun fds =>
        pushes [.imm (sext (field32 fds 0)), .imm (sext (field32 fds 4))] <|
          match k.sockfdLookup (field32 fds 0) with
          | .error err _ => ret err
          | .sock none => pushes [.imm 0, .imm 0] done
          | .sock (some sk) => pushes [.imm sk.us, .imm sk.peer] done

/-! ## Options -/

/-- The options whose value is a 32-bit number, by `SO_*` number. -/
def sockoptWords (timeNames : Bool) : List UInt32 :=
  [1, 2, 3, 5, 6, 7, 8, 32, 33, 9, 10, 11, 12, 14, 15, 16, 18, 19, 22, 23, 24, 25, 27, 30, 31, 34, 36,
    38, 39, 40, 41, 42, 43, 44, 45, 46, 47, 48, 49] ++ if timeNames then [29, 35, 37] else []

/-- `parse_sockopt`.  `struct timeval` is two `int32_t` from 5.6 on, and the product is one of
`int`s. -/
def parseSockopt (level optname : UInt32) (optval : UInt64) (optlen : UInt32) (next : Filler ty) :
    Filler ty :=
  let unknown : Filler ty := push { val := optval, len := optlen, fromuser := true } next
  if level ≠ solSocket then unknown
  else if optname = 4 then
    fetch s.um optval 4 fun v =>
      push { val := sext (0 - field32 v 0), dynIdx := 1 } next
  else if k.timeNames ∧ (optname = 20 ∨ optname = 21) then
    fetch s.um optval 8 fun tv =>
      push { val := sext (field32 tv 0 * 1000000000 + field32 tv 4 * 1000), dynIdx := 4 } next
  else if optname = 57 then
    fetch s.um optval 8 fun v => push { val := field64 v 0, dynIdx := 3 } next
  else if optname ∈ sockoptWords k.timeNames then
    fetch s.um optval 4 fun v => push { val := (field32 v 0).toUInt64, dynIdx := 2 } next
  else unknown

/-- What `f_sys_setsockopt` and `f_sys_getsockopt` begin with, up to the option name, whose
conversion contains the `ASSERT`. -/
def sockoptHead (next : CheckedFiller ty) : CheckedFiller ty :=
  let level := (s.arg 1).toUInt32
  let optname := sockoptOptnameToScap k.timeNames level (s.arg 2).toUInt32
  .assert (pushes [.imm s.ret, .user (s.arg 0), .user (sockoptLevelToScap level)] done)
    optname.isSome <| next.after <| pushes [.user (optname.getD 0)] done

/-- `f_sys_setsockopt`. -/
def fSysSetsockopt : CheckedFiller ty :=
  sockoptHead k s <| .plain <|
    parseSockopt k s (s.arg 1).toUInt32 (s.arg 2).toUInt32 (s.arg 3) (s.arg 4).toUInt32 <|
      pushes [.user (s.arg 4)] done

/-- `f_sys_getsockopt`.  The length of the option is behind a pointer. -/
def fSysGetsockopt : CheckedFiller ty :=
  sockoptHead k s <| .plain <|
    fetch s.um (s.arg 4) 4 fun optlen =>
      parseSockopt k s (s.arg 1).toUInt32 (s.arg 2).toUInt32 (s.arg 3) (field32 optlen 0) <|
        pushes [.user (field32 optlen 0).toUInt64] done

end

end NoDrop
