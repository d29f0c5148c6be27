import NoDrop.Elf
import NoDrop.Lib.Fallible
import NoDrop.ProcTable

/-! # Loading the monitor

`nod_load_monitor` of `kmodule/loader.c` sends the current thread into the monitor.  The first
time it maps the monitor and its dynamic linker (`do_load_monitor`) and makes the stack on
which the monitor starts (`create_elf_tbls`); each time it tells the monitor about the system
call (`update_stack_info`), saves the thread's privileges and registers and points the thread
at the monitor's entry.

Every step may fail, and what was done before stays done.  The functions are therefore
computations that may give up (`Fallible`), on the address space and the thread's
`nod_proc_info`.
-/
namespace NoDrop

open Areas Bytes

/-! ## Data -/

/-- `sizeof(void *)`, the random bytes of `AT_RANDOM` and `sizeof(struct nod_stack_info)`. -/
def sizeofPtr : UInt64 := 8
def sizeofRand : UInt64 := 16
def sizeofStackInfo : UInt64 := 72

/-- `MAX_ARG_STRLEN`. -/
def maxArgStrlen : Nat := 32 * pageSize

/-- The types of the entries of an auxiliary vector. -/
def atNull : UInt64 := 0
def atPhdr : UInt64 := 3
def atPhent : UInt64 := 4
def atPhnum : UInt64 := 5
def atPagesz : UInt64 := 6
def atBase : UInt64 := 7
def atFlags : UInt64 := 8
def atEntry : UInt64 := 9
def atHwcap : UInt64 := 16
def atClktck : UInt64 := 17
def atRandom : UInt64 := 25

/-- `sizeof(struct elf_phdr)`. -/
def sizeofPhdr : UInt64 := 56

/-- `struct nod_stack_info` in memory, with the padding behind `syscall_nr`. -/
def NodStackInfo.bytes (info : NodStackInfo) : List UInt8 :=
  leBytes 4 info.ioctlFd.toUInt32.toNat ++ leBytes 4 info.pkey.toUInt32.toNat ++
    leBytes 4 info.syscallNr.toUInt32.toNat ++ leBytes 4 0 ++
    leBytes 8 info.exitCode.toUInt64.toNat ++ leBytes 8 info.fsbase.toNat ++
    leBytes 8 info.hash.toNat ++ leBytes 8 info.stackStart.toNat ++
    leBytes 8 info.stackEnd.toNat ++ leBytes 8 info.buffer.toNat ++ leBytes 8 info.bufferInfo.toNat

theorem NodStackInfo.bytes_length (info : NodStackInfo) : info.bytes.length = 72 := by
  simp [NodStackInfo.bytes]

/-- What the loader depends on beside the kernel's calls: `CONFIG_MONITOR_STACK_SIZE`, which is a
constant of type `int`, what `get_random_bytes` gives, `ELF_HWCAP`, and where the task's
environment is. -/
structure LoadSetup where
  stackSize : UInt64
  rand : List UInt8
  hwcap : UInt64
  envStart : UInt64
  envEnd : UInt64
  rand_length : rand.length = 16
  stackSize_lt : stackSize.toNat < 2 ^ 31

/-- The files found by `loader_init`: the monitor and its dynamic linker, if it has one. -/
structure LoadFiles (File : Type) where
  monitor : ElfImage File
  interp : Option (ElfImage File)

/-- What loading works on: the task's address space and its `nod_proc_info`. -/
structure LoadState (File : Type) where
  sys : Sys File
  p : ProcEntry

/-- A step of the loader, which may give up with an error. -/
abbrev LoadStep (File : Type) := Fallible (LoadState File) Int

/-! ## The code -/

namespace Loader

section Code

variable {File : Type} (k : Kern File)

namespace LoadStep

/-- A call into the kernel. -/
def call {α : Type} (f : Sys File → α × Sys File) : LoadStep File α :=
  .lift fun t => ((f t.sys).1, { t with sys := (f t.sys).2 })

/-- An assignment to the `nod_proc_info`. -/
def assign (f : ProcEntry → ProcEntry) : LoadStep File Unit :=
  .lift fun t => ((), { t with p := f t.p })

/-- `if (cond) goto err`. -/
def gotoIf (cond : Prop) [Decidable cond] (err : Int) : LoadStep File Unit :=
  if cond then .fail err else pure ()

/-- `-EFAULT`. -/
def efault : Int := -14

/-- `copy_to_user`, or give up. -/
def copyToUser (addr : UInt64) (data : List UInt8) : LoadStep File Unit := do
  let left ← call (Sys.copyToUser k addr data)
  gotoIf (left ≠ 0) efault

/-- `put_user`, or give up. -/
def putUser (addr v : UInt64) : LoadStep File Unit := do
  let err ← call (Sys.putUser k addr v)
  gotoIf (err ≠ 0) efault

/-- `TRAVERSE_ENV_ENT`: the length of a string of the environment with its terminator. -/
def traverseEnvEnt (start : UInt64) : LoadStep File UInt64 := do
  let len ← call (Sys.strnlenUser k start maxArgStrlen)
  gotoIf (len = 0 ∨ maxArgStrlen < len.toNat) efault
  pure len

end LoadStep

open LoadStep

/-- `create_stack_with_red_zone`. -/
def createStackWithRedZone (addr size : UInt64) (s : Sys File) : UInt64 × Sys File :=
  let preferAddr := if addr > 4096 then addr - 4096 else addr
  let (stackBegin, s) := s.vmMmap k .stack none preferAddr (size + 4096 + 4096)
    ⟨false, false, false⟩ false 0
  if BadAddr stackBegin then (stackBegin, s)
  else
    let addr := stackBegin + 4096
    let s := s.vmMunmap addr size
    s.vmMmap k .stack none addr size ⟨true, true, false⟩ false 0

/-- The strings of `argv` are pushed; the last one first, so that `args` is `argv` in reverse. -/
def pushArgs : List (List UInt8) → UInt64 → LoadStep File UInt64
  | [], p => pure p
  | arg :: args, p => do
    let p := p - UInt64.ofNat (arg.length + 1)
    copyToUser k p (arg ++ [0])
    pushArgs args p

/-- The loop that counts the environment.  Each string has at least its terminator, so that
`fuel` is enough when it is the length of what is left. -/
def countEnv (envEnd : UInt64) : Nat → UInt64 → LoadStep File Nat
  | 0, _ => pure 0
  | fuel + 1, envStart =>
    if envStart < envEnd then do
      let len ← traverseEnvEnt k envStart
      let envc ← countEnv envEnd fuel (envStart + len)
      pure (envc + 1)
    else pure 0

/-- The loop that puts the pointers of `argv`. -/
def putArgs : List (List UInt8) → UInt64 → UInt64 → LoadStep File UInt64
  | [], _, sp => pure sp
  | arg :: args, argStart, sp => do
    putUser k sp argStart
    putArgs args (argStart + UInt64.ofNat (arg.length + 1)) (sp + 8)

/-- The loop that puts the pointers of the environment (`INSERT_ENV_ENT`). -/
def putEnv (envEnd : UInt64) : Nat → UInt64 → UInt64 → LoadStep File UInt64
  | 0, _, sp => pure sp
  | fuel + 1, envStart, sp =>
    if envStart < envEnd then do
      putUser k sp envStart
      let len ← traverseEnvEnt k envStart
      putEnv envEnd fuel (envStart + len) (sp + 8)
    else pure sp

/-- The auxiliary vector: `elf_info`. -/
def elfInfo (exec : ElfImage File) (loadAddr interpLoadAddr hwcap uRandBytes : UInt64) :
    List UInt64 :=
  [atHwcap, hwcap, atPagesz, 4096, atClktck, 100, atPhdr, loadAddr + exec.ePhoff,
    atPhent, sizeofPhdr, atPhnum, UInt64.ofNat exec.phdrs.length, atBase, interpLoadAddr,
    atFlags, 0, atEntry, loadAddr + exec.eEntry, atRandom, uRandBytes, atNull, 0]

/-- `STACK_ROUND(STACK_ADD(p, n), items)`. -/
def stackRound (p : UInt64) (n items : Nat) : UInt64 :=
  (p - UInt64.ofNat (8 * n) - UInt64.ofNat (8 * items)) &&& ~~~15

/-- The first part of `create_elf_tbls`: the stack, the random bytes, the `nod_stack_info` and
the strings of `argv`.  It returns `u_rand_bytes` and `arg_start`. -/
def fillStack (setup : LoadSetup) (argv : List (List UInt8)) : LoadStep File (UInt64 × UInt64) := do
  let p ← call (createStackWithRedZone k 0 setup.stackSize)
  gotoIf (BadAddr p) efault
  assign fun e =>
    { e with
      stackInfo.stackStart := p
      stackInfo.stackEnd := p + setup.stackSize }
  let uRandBytes := p + setup.stackSize - sizeofPtr - sizeofRand
  copyToUser k uRandBytes setup.rand
  let infoAddr := uRandBytes - sizeofStackInfo
  assign fun e => { e with stackInfoAddr := infoAddr }
  let info ← .lift fun t => (t.p.stackInfo, t)
  copyToUser k infoAddr info.bytes
  let argStart ← pushArgs k argv.reverse infoAddr
  pure (uRandBytes, argStart)

/-- The second part of `create_elf_tbls`: the pointers and the auxiliary vector `info`. -/
def putTbls (setup : LoadSetup) (argv : List (List UInt8)) (info : List UInt64)
    (argStart : UInt64) : LoadStep File Unit := do
  let fuel := setup.envEnd.toNat - setup.envStart.toNat
  let envc ← countEnv k setup.envEnd fuel setup.envStart
  let items := argv.length + 1 + (envc + 1) + 1 + 1
  let sp := stackRound argStart info.length items
  assign fun e => { e with stackAddr := sp }
  putUser k sp (UInt64.ofNat (argv.length + 1))
  let sp ← putArgs k argv argStart (sp + 8)
  let infoAddr ← .lift fun t => (t.p.stackInfoAddr, t)
  putUser k sp infoAddr
  putUser k (sp + 8) 0
  let sp ← putEnv k setup.envEnd fuel setup.envStart (sp + 8 + 8)
  putUser k sp 0
  copyToUser k (sp + 8) (Image.wordBytes (info.map UInt64.toNat))

/-- `create_elf_tbls`.  The bytes of `elf_info` are freed on every path. -/
def createElfTbls (setup : LoadSetup) (exec : ElfImage File) (loadAddr interpLoadAddr : UInt64)
    (argv : List (List UInt8)) : LoadStep File Unit := do
  let (uRandBytes, argStart) ← fillStack k setup argv
  let mem ← call (Sys.vmalloc k (8 * 12 * 2))
  gotoIf (mem = 0) efault
  putTbls k setup argv (elfInfo exec loadAddr interpLoadAddr setup.hwcap uRandBytes) argStart

/-- The error that `do_load_monitor` makes of what `elf_load_binary` returned. -/
def loadError (addr : UInt64) : Int :=
  if 2 ^ 64 - 4095 ≤ addr.toNat then (addr.toNat : Int) - 2 ^ 64 else -22

/-- A call of `elf_load_binary` in `do_load_monitor`. -/
def loadImage (img : ElfImage File) : LoadStep File UInt64 := do
  let addr ← call (elfLoadBinary k img)
  gotoIf (BadAddr addr) (loadError addr)
  pure addr

/-- `do_load_monitor`. -/
def doLoadMonitor (setup : LoadSetup) (files : LoadFiles File) (argv : List (List UInt8)) :
    LoadStep File Unit := do
  let interpLoadAddr ←
    match files.interp with
    | some interp => loadImage k interp
    | none => pure 0
  let loadAddr ← loadImage k files.monitor
  createElfTbls k setup files.monitor loadAddr interpLoadAddr argv
  let entry :=
    match files.interp with
    | some interp => interpLoadAddr + interp.eEntry
    | none => loadAddr + files.monitor.eEntry
  assign fun e => { e with entryAddr := entry }

end Code

end Loader

end NoDrop
