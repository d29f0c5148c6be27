import NoDrop.Asserts
import NoDrop.Flags

/-! # What the fillers read of the kernel

Beside the registers and the caller's memory a filler reads the calling task, its address
space and the objects behind its descriptors.  They are parameters here (`Kernel`), and stand
still during the call.  On top of them are the helpers of `kmodule/fillers.c` that turn such
an object into bytes: the socket addresses (`pack_addr`, `fd_to_socktuple`), the argument
vector (`accumulate_argv_or_env`) and the control groups (`append_cgroup`).

A helper that contains `ASSERT`s has their conditions in a definition of its own.
-/
namespace NoDrop

open Bytes

/-- `struct sock`, with what `sock_getname` reports. -/
structure Sk where
  /-- `sk_family`. -/
  family : UInt16
  /-- The `sockaddr_storage` of the socket's own name, if its protocol gives one: the sockets of
  `AF_ALG` do not. -/
  name : Option Image
  /-- The `sockaddr_storage` of the peer's name, if the socket has one. -/
  peerName : Option Image
  /-- The address of the structure, and that of its `peer`. -/
  us : UInt64
  peer : UInt64
  ackBacklog : UInt32
  maxAckBacklog : UInt32

/-- `sockfd_lookup`: a socket, which may have lost its `struct sock`, or the error. -/
inductive SockfdLookup where
  | sock (sk : Option Sk)
  | error (err : Int) (neg : err < 0)

/-- `struct mm_struct`. -/
structure Mm where
  argStart : UInt64
  argEnd : UInt64
  envStart : UInt64
  envEnd : UInt64
  totalVm : UInt64
  rss : UInt64
  swap : UInt64

/-- The calling task and the kernel's objects, as far as the fillers read them. -/
structure Kernel where
  /-- Whether the headers name the socket options with a time by their old names. -/
  timeNames : Bool
  /-- `sizeof(struct clone_args)`. -/
  cloneArgsSize : Nat
  sockfdLookup : UInt32 → SockfdLookup
  /-- The device of an open descriptor, `new_encode_dev(sb->s_dev)`. -/
  fdDev : Nat → Option UInt32
  /-- The inode number of an open descriptor. -/
  fdIno : UInt32 → Option UInt64
  /-- What the uninitialised `struct sockaddr_storage` of a filler holds. -/
  stack : Image
  mm : Option Mm
  pid : UInt32
  tgid : UInt32
  realParent : Option UInt32
  comm : List UInt8
  nofile : UInt64
  majFlt : UInt64
  minFlt : UInt64
  /-- The control groups, as name and path, in the order of `linux/cgroup_subsys.h`.  There is no
  path where the task is in no such group or `cgroup_path` fails. -/
  cgroups : List (List UInt8 × Option (List UInt8))
  euid : UInt32
  egid : UInt32
  inPidns : Bool
  vtid : UInt32
  vpid : UInt32
  ttyNr : UInt32
  pgid : UInt32
  loginuid : UInt32
  exeWritable : Bool

/-- A task with nothing open. -/
def Kernel.idle : Kernel where
  timeNames := false
  cloneArgsSize := 88
  sockfdLookup := fun _ => .error (-9) (by decide)
  fdDev := fun _ => none
  fdIno := fun _ => none
  stack := fun _ => 0
  mm := none
  pid := 1
  tgid := 1
  realParent := none
  comm := [0]
  nofile := 1024
  majFlt := 0
  minFlt := 0
  cgroups := []
  euid := 0
  egid := 0
  inPidns := false
  vtid := 1
  vpid := 1
  ttyNr := 0
  pgid := 1
  loginuid := 0
  exeWritable := false

/-! ## Values -/

/-- Conversion of an `int` to 64 bits. -/
def sext (v : UInt32) : UInt64 := ⟨v.toBitVec.signExtend 64⟩

/-- Conversion of a `short` to 64 bits. -/
def sext16 (v : UInt16) : UInt64 := ⟨v.toBitVec.signExtend 64⟩

/-- `val_to_ring(args, v, 0, false, 0)`. -/
def Value.imm (v : UInt64) : Value := { val := v }

/-- `val_to_ring(args, v, 0, true, 0)`. -/
def Value.user (v : UInt64) : Value := { val := v, fromuser := true }

/-- An address in the kernel's read-only data.  Only that it is not null matters. -/
def rodata : UInt64 := 0xffffffff82000000

/-- A string constant. -/
def Value.text (str : List UInt8) : Value := { val := rodata, mem := str ++ [0] }

namespace Filler

variable {ty : EventType}

/-- Pushes one after another, each of whose codes is returned unless it is `NOD_SUCCESS`. -/
def pushes (vs : List Value) (next : Filler ty) : Filler ty := vs.foldr push next

/-- The end of a filler. -/
def done : Filler ty := ret nodSuccess

/-- `nod_copy_from_user` of `n` bytes into a local variable, returning
`NOD_FAILURE_INVALID_USER_MEMORY` if any is missing. -/
def fetch (um : UserMem) (addr : UInt64) (n : Nat) (next : List UInt8 → Filler ty) : Filler ty :=
  if (um.nodCopyFromUser addr.toNat n).2 ≠ 0 then ret nodFailureInvalidUserMemory
  else next (um.nodCopyFromUser addr.toNat n).1

/-- Stores into `str_storage`, one after another. -/
def scratches (ws : List Write) (next : Filler ty) : Filler ty := ws.foldr scratch next

end Filler

/-- A 16-bit field at `off` of a structure copied from user memory. -/
def field16 (bs : List UInt8) (off : Nat) : UInt16 := UInt16.ofNat (leNat ((bs.drop off).take 2))

/-- A 32-bit field. -/
def field32 (bs : List UInt8) (off : Nat) : UInt32 := UInt32.ofNat (leNat ((bs.drop off).take 4))

/-- A 64-bit field. -/
def field64 (bs : List UInt8) (off : Nat) : UInt64 := UInt64.ofNat (leNat ((bs.drop off).take 8))

/-! ## Socket addresses -/

/-- `AF_UNIX`, `AF_INET` and `AF_INET6`. -/
def afUnix : UInt16 := 1
def afInet : UInt16 := 2
def afInet6 : UInt16 := 10

/-- `sizeof(struct sockaddr_storage)`. -/
def sockaddrStorageSize : Nat := 128

/-- `UNIX_PATH_MAX`. -/
def unixPathMax : Nat := 108

/-- `addr_to_kernel`, into a `struct sockaddr_storage` that holds `stack`: what it holds then,
`none` for a negative return value.  `ulen` is an `int`. -/
def addrToKernel (um : UserMem) (stack : Image) (uaddr : UInt64) (ulen : UInt32) : Option Image :=
  if sockaddrStorageSize < ulen.toNat then none
  else if ulen = 0 then some stack
  else if (um.nodCopyFromUser uaddr.toNat ulen.toNat).2 ≠ 0 then none
  else some (stack.write ⟨0, (um.nodCopyFromUser uaddr.toNat ulen.toNat).1⟩)

/-- The family, port (in host order) and addresses of a `struct sockaddr_in` and of a
`struct sockaddr_in6`. -/
def saFamily (a : Image) : UInt16 := field16 (a.read 0 2) 0
def saPort (a : Image) : List UInt8 := (a.read 2 2).reverse
def saIp (a : Image) : List UInt8 := a.read 4 4
def saIp6 (a : Image) : List UInt8 := a.read 8 16

/-- The byte `socket_family_to_scap` gives for a family. -/
def familyByte (family : UInt16) : UInt8 := (socketFamilyToScap family.toUInt8).getD 0

/-- What `strncpy(dest, path, UNIX_PATH_MAX)` stores, and the path up to its terminator once
`dest[UNIX_PATH_MAX - 1] = 0` is done. -/
def unixPath (path : List UInt8) : List UInt8 × List UInt8 :=
  let str := path.takeWhile (· ≠ 0)
  (str ++ List.replicate (unixPathMax - str.length) 0, str.take (unixPathMax - 1) ++ [0])

/-- The terminator put behind a UNIX address of `ulen` bytes. -/
def terminated (a : Image) (ulen : UInt32) : Image :=
  a.write ⟨if ulen.toNat = sockaddrStorageSize then ulen.toNat - 1 else ulen.toNat, [0]⟩

/-- `pack_addr`: the stores into `targetbuf` and the address packed there. -/
def packAddr (a : Image) (ulen : UInt32) : List Write × List UInt8 :=
  let family := saFamily a
  if family = afInet then
    let bytes := [familyByte family] ++ saIp a ++ saPort a
    ([⟨0, bytes⟩], bytes)
  else if family = afInet6 then
    let bytes := [familyByte family] ++ saIp6 a ++ saPort a
    ([⟨0, bytes⟩], bytes)
  else if family = afUnix then
    let path := unixPath ((terminated a ulen).read 2 unixPathMax)
    ([⟨0, [familyByte family]⟩, ⟨1, path.1⟩, ⟨unixPathMax, [0]⟩], [familyByte family] ++ path.2)
  else ([], [])

/-- The `ASSERT` in `socket_family_to_scap`, which `pack_addr` calls in three of its cases. -/
def packAddrAsserts (a : Image) : List Bool :=
  if saFamily a = afInet ∨ saFamily a = afInet6 ∨ saFamily a = afUnix then
    [(socketFamilyToScap (saFamily a).toUInt8).isSome]
  else []

/-- The arguments of `fd_to_socktuple` beside the descriptor and the target: the address the
user passed with its length, if any is used, and `is_inbound`. -/
structure TupleArgs where
  usrsockaddr : Option (Image × UInt32)
  isInbound : Bool

/-- The source and destination of a tuple: those of the other end and of the socket itself
when the data comes in, the other way round when it goes out. -/
def TupleArgs.order {α : Type} (t : TupleArgs) (other own : α) : α × α :=
  if t.isInbound then (other, own) else (own, other)

/-- What `sock_address` holds: the socket's own name.  Without one the `ASSERT` behind
`sock_getname` does not let the filler get here. -/
def Sk.ownName (sk : Sk) : Image := sk.name.getD fun _ => 0

/-- The path of a UNIX tuple: the socket's own when the data comes in, otherwise the one the
user passed or the peer's. -/
def TupleArgs.usName (t : TupleArgs) (sk : Sk) : Image :=
  if t.isInbound then sk.ownName
  else
    match t.usrsockaddr with
    | some (a, ulen) => terminated a ulen
    | none => sk.peerName.getD fun _ => 0

/-- `fd_to_socktuple`, once the socket is found: the stores into `targetbuf` and the tuple
packed there. -/
def Sk.tuple (sk : Sk) (t : TupleArgs) : List Write × List UInt8 :=
  let other : Option Image := (t.usrsockaddr.map Prod.fst).or sk.peerName
  if sk.family = afInet then
    let (src, dst) :=
      match other with
      | some o => t.order (saIp o, saPort o) (saIp sk.ownName, saPort sk.ownName)
      | none => ((List.replicate 4 0, [0, 0]), (List.replicate 4 0, [0, 0]))
    let bytes := [familyByte sk.family] ++ src.1 ++ src.2 ++ dst.1 ++ dst.2
    ([⟨0, bytes⟩], bytes)
  else if sk.family = afInet6 then
    let o := other.getD fun _ => 0
    let (src, dst) := t.order (saIp6 o, saPort o) (saIp6 sk.ownName, saPort sk.ownName)
    let bytes := [familyByte sk.family] ++ src.1 ++ src.2 ++ dst.1 ++ dst.2
    ([⟨0, bytes⟩], bytes)
  else if sk.family = afUnix then
    -- the two ends, where a tuple that comes in has the socket itself first
    let ends := if t.isInbound then (sk.us, sk.peer) else (sk.peer, sk.us)
    let head := [familyByte sk.family] ++ leBytes 8 ends.1.toNat ++ leBytes 8 ends.2.toNat
    let path := unixPath ((t.usName sk).read 2 unixPathMax)
    ([⟨0, head⟩, ⟨17, path.1⟩, ⟨16 + unixPathMax, [0]⟩], head ++ path.2)
  else ([], [])

/-- The `ASSERT`s of `fd_to_socktuple` on a socket: its own name is known, an IPv6 peer's is
known where it is asked for, the family is one of those that are converted. -/
def Sk.tupleAsserts (sk : Sk) (t : TupleArgs) : List Bool :=
  [sk.name.isSome] ++
    (if sk.family = afInet6 ∧ t.usrsockaddr.isNone then [sk.peerName.isSome] else []) ++
    (if sk.family = afUnix ∧ t.usrsockaddr.isNone ∧ t.isInbound = false then
      [sk.peerName.isSome] else []) ++
    if sk.family = afInet ∨ sk.family = afInet6 ∨ sk.family = afUnix then
      [(socketFamilyToScap sk.family.toUInt8).isSome]
    else []

namespace Kernel

variable (k : Kernel)

/-- The `struct sock` of a descriptor. -/
def sk (fd : UInt32) : Option Sk :=
  match k.sockfdLookup fd with
  | .sock sk => sk
  | .error _ _ => none

/-- `fd_to_socktuple`. -/
def fdToSocktuple (fd : UInt32) (t : TupleArgs) : List Write × List UInt8 :=
  match k.sk fd with
  | none => ([], [])
  | some sk => sk.tuple t

/-- The `ASSERT`s of `fd_to_socktuple`. -/
def fdToSocktupleAsserts (fd : UInt32) (t : TupleArgs) : List Bool :=
  match k.sk fd with
  | none => []
  | some sk => sk.tupleAsserts t

/-- `get_fd_dev`. -/
def getFdDev (fd : UInt64) : UInt64 :=
  if signed fd < 0 then 0 else ((k.fdDev fd.toNat).getD 0).toUInt64

/-! ## Strings -/

/-- What `append_cgroup` adds to `str_storage` for a control group. -/
def cgroupEntry (name path : List UInt8) : List UInt8 := name ++ [0x3D] ++ path ++ [0]

/-- `append_cgroup` over the control groups that are left: what they add to `str_storage`, the
first that does not fit ending the list.  `available` is the room left in the page. -/
def appendCgroups : List (List UInt8 × Option (List UInt8)) → Nat → List UInt8
  | [], _ => []
  | (_, none) :: _, _ => []
  | (name, some path) :: rest, available =>
      let entry := cgroupEntry name path
      if available < entry.length then []
      else entry ++ appendCgroups rest (available - entry.length)

/-- The `ASSERT`s of `append_cgroup`, one for each group it gets to: the task is in the group, and
the path of the group is found. -/
def appendCgroupsAsserts : List (List UInt8 × Option (List UInt8)) → Nat → List Bool
  | [], _ => []
  | (_, none) :: _, _ => [false]
  | (name, some path) :: rest, available =>
      let entry := cgroupEntry name path
      true :: if available < entry.length then []
        else appendCgroupsAsserts rest (available - entry.length)

end Kernel

/-- What `accumulate_argv_or_env` leaves: its stores into `str_storage`, the strings it put
together and its return value. -/
structure Accumulated where
  out : List Write
  bytes : List UInt8
  res : Int

/-- The loop of `accumulate_argv_or_env`.  Every string takes a byte of `available`, so a fuel
above it is enough. -/
def accumulateLoop (um : UserMem) : Nat → Nat → Nat → List UInt8 → Accumulated
  | 0, _, _, bytes => ⟨[], bytes, nodFailureBufferFull⟩
  | fuel + 1, argv, available, bytes =>
      let got := um.nodCopyFromUser argv 8
      let p := leNat got.1
      let copied := um.nodStrncpyFromUser p available
      if got.2 ≠ 0 then ⟨[], bytes, nodFailureInvalidUserMemory⟩
      else if p = 0 then ⟨[], bytes, bytes.length⟩
      else if available < 1 then ⟨[], bytes, nodFailureBufferFull⟩
      else
        let store : Write := ⟨bytes.length, copied.1⟩
        -- the count includes the terminator, which the code takes off
        if copied.2 - 1 < 0 then ⟨[store], bytes, nodFailureInvalidUserMemory⟩
        else if available ≤ copied.2 - 1 then ⟨[store], bytes, nodFailureBufferFull⟩
        else
          let rest := accumulateLoop um fuel (argv + 8) (available - copied.2.toNat)
            (bytes ++ copied.1.take copied.2.toNat)
          { rest with out := store :: rest.out }

/-- `accumulate_argv_or_env`. -/
def accumulateArgvOrEnv (um : UserMem) (argv : UInt64) (available : Nat) : Accumulated :=
  if argv = 0 then ⟨[], [], 0⟩ else accumulateLoop um (available + 1) argv.toNat available []

end NoDrop
