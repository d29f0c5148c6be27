import NoDrop.Lib.Fallible
import NoDrop.LuaState
import NoDrop.Handles

/-! # One activation of the monitor

`nod_start_main` of `monitor/src/startup.c`: set the monitor up if this is its first time,
open the device, map the buffer, look after the Lua script, handle the events, leave.  Any of
the system calls on the way may fail.  Most failures are meant to go to `out`, where the
monitor leaves as if nothing had happened; some undo the mappings first.

What the calls return is a parameter (`StartCalls`), and the mappings in place are counted.
There are three ways to leave that are not the monitor's own (`leavesRight_iff`):

* protecting the data or the stack of a new monitor fails, and the thread exits with `-1`;
* the device cannot be opened, and the context is to be restored through descriptor `-1`;
* the kernel does not take the new state of the script, and `nod_start_main` returns.

`_start_c` returns after it, to nowhere.  On all paths the two pointers
are `NULL` exactly when nothing is mapped (`nodStartMain_mapped`).
-/
namespace NoDrop

namespace StartMain

/-! ## Data -/

/-- What the system calls of one activation return. -/
structure StartCalls where
  /-- The thread's base of `fs`, as `arch_prctl` stores it. -/
  archPrctl : UInt64
  /-- `pkey_mprotect` of the data and of the stack. -/
  pkeyData : Bool
  pkeyStack : Bool
  /-- `open` of the device. -/
  openDev : Option { fd : Int32 // 0 ≤ fd }
  /-- `mmap` and `pkey_mprotect` of the buffer's information. -/
  mmapInfo : Option { addr : UInt64 // addr ≠ 0 }
  pkeyInfo : Bool
  /-- `mmap` and `pkey_mprotect` of the buffer. -/
  mmapBuffer : Option { addr : UInt64 // addr ≠ 0 }
  pkeyBuffer : Bool
  /-- `NOD_IOCTL_GET_LUA_STATE`. -/
  getLuaState : Option LuaState
  /-- `stat` of the script: its `st_mtime`. -/
  stat : Option UInt64
  /-- `NOD_IOCTL_SET_LUA_STATE`. -/
  setLuaState : Bool
  /-- `NOD_IOCTL_GET_RECORD_FLAG`. -/
  getRecordFlag : Option Int32

/-- The arguments of `nod_monitor_main`. -/
structure MainArgs where
  buffer : UInt64
  bufferInfo : UInt64
  globalState : LuaState
  recordFlag : Int32

/-- The thread's `nod_stack_info`, `__info.fsbase` of its process, where the two parts of
the buffer are mapped, and what `nod_monitor_main` was called with. -/
structure Activation where
  p : NodStackInfo
  infoFsbase : UInt64
  infoMaps : List UInt64
  bufferMaps : List UInt64
  ran : Option MainArgs

/-- How the part before `out` is left early. -/
inductive Leave where
  | out
  | ret
  | exit (nr : Int32) (code : Int64)
deriving DecidableEq

/-- How an activation ends. -/
inductive End where
  /-- A system call that ends the thread. -/
  | exit (nr : Int32) (code : Int64)
  /-- `NOD_IOCTL_RESTORE_CONTEXT`. -/
  | restoreContext (fd : Int32) (stack : NodStackInfo)
  /-- `nod_start_main` returns. -/
  | returned
deriving DecidableEq

/-- The part of `nod_start_main` before `out`. -/
abbrev StartStep := Fallible Activation Leave

/-! ## `monitor/src/startup.c` -/

/-- `SYSCALL_EXIT_FAMILY`. -/
def syscallExitFamily (nr : Int32) : Bool := nr = 60 ∨ nr = 231

/-- `ASSERT_EXIT`. -/
def assertExit (eval : Bool) : StartStep Unit :=
  if eval then pure () else Fallible.fail (.exit 60 (-1))

/-- `ASSERT_OUT`, with what is done before it goes to `out`. -/
def assertOut (eval : Bool) (pre : Activation → Activation) : StartStep Unit :=
  fun s => if eval then (.ok (), s) else (.error .out, pre s)

/-- `munmap` of the buffer's information, and the pointer is `NULL`. -/
def Activation.dropInfo (s : Activation) : Activation :=
  { s with
    infoMaps := if s.p.bufferInfo ≠ 0 then s.infoMaps.erase s.p.bufferInfo else s.infoMaps
    p := { s.p with bufferInfo := 0 } }

/-- The same for the buffer. -/
def Activation.dropBuffer (s : Activation) : Activation :=
  { s with
    bufferMaps := if s.p.buffer ≠ 0 then s.bufferMaps.erase s.p.buffer else s.bufferMaps
    p := { s.p with buffer := 0 } }

section Code

variable (c : StartCalls)

/-- `nod_initialize`.  The rights of the protection key and the monitor's heap are not part
of the state. -/
def nodInitialize : StartStep Unit := fun s =>
  let s := { s with p := { s.p with fsbase := c.archPrctl } }
  if s.infoFsbase = 0 then
    let s := { s with infoFsbase := s.p.fsbase }
    if s.p.pkey ≠ -1 then (do assertExit c.pkeyData; assertExit c.pkeyStack) s else (.ok (), s)
  else (.ok (), s)

/-- The first time the thread is in the monitor, this is set up. -/
def enterMonitor : StartStep Unit := fun s =>
  if s.p.fsbase = 0 then nodInitialize c s else (.ok (), s)

/-- `open`.  What it returns is stored before it is looked at. -/
def openDevice : StartStep Unit := fun s =>
  match c.openDev with
  | none => (.error .out, { s with p := { s.p with ioctlFd := -1 } })
  | some fd => (.ok (), { s with p := { s.p with ioctlFd := fd } })

/-- A part of the buffer that is not mapped yet is mapped: where the pointer is, what `mmap`
and `pkey_mprotect` return, and what is undone when one of them fails. -/
def mapPart (ptr : NodStackInfo → UInt64) (mmap : Option { addr : UInt64 // addr ≠ 0 })
    (pkeyOk : Bool) (store : UInt64 → Activation → Activation)
    (noMap noKey : Activation → Activation) : StartStep Unit := fun s =>
  if ptr s.p = 0 then
    match mmap with
    | none => (.error .out, noMap s)
    | some addr =>
        let s := store addr s
        if s.p.pkey ≠ -1 then assertOut pkeyOk noKey s else (.ok (), s)
  else (.ok (), s)

/-- The buffer's information is mapped at `addr`. -/
def storeInfo (addr : UInt64) (s : Activation) : Activation :=
  { s with infoMaps := addr :: s.infoMaps, p := { s.p with bufferInfo := addr } }

/-- The buffer is mapped at `addr`. -/
def storeBuffer (addr : UInt64) (s : Activation) : Activation :=
  { s with bufferMaps := addr :: s.bufferMaps, p := { s.p with buffer := addr } }

/-- The buffer's information is mapped, unless it is already. -/
def mapBufferInfo : StartStep Unit :=
  mapPart (·.bufferInfo) c.mmapInfo c.pkeyInfo storeInfo
    (fun s => { s with p := { s.p with bufferInfo := 0 } }) Activation.dropInfo

/-- The buffer is mapped, unless it is already. -/
def mapEventBuffer : StartStep Unit :=
  mapPart (·.buffer) c.mmapBuffer c.pkeyBuffer storeBuffer
    (fun s => { s with p := { s.p with buffer := 0 } }.dropInfo) (·.dropBuffer.dropInfo)

/-- `kstate`, as it was read. -/
def kstate : LuaState := c.getLuaState.getD ⟨[], 0⟩

/-- The script's state, refreshed.  A state the kernel does not take ends in `return`. -/
def refreshState : StartStep LuaState := fun s =>
  if (kstate c).luaMtime ≠ 0 then
    match c.stat with
    | none => (.ok (kstate c), s)
    | some mtime =>
        if mtime ≠ (kstate c).luaMtime then
          if c.setLuaState then (.ok { kstate c with luaMtime := mtime }, s)
          else (.error .ret, s)
        else (.ok (kstate c), s)
  else (.ok (kstate c), s)

/-- `nod_monitor_main` is called. -/
def runMonitor (kstate : LuaState) : StartStep Unit := Fallible.lift fun s =>
  ((), { s with
    ran := some ⟨s.p.buffer, s.p.bufferInfo, kstate, c.getRecordFlag.getD 0⟩ })

/-- What is done with the open device. -/
def serve : StartStep Unit := do
  mapBufferInfo c
  mapEventBuffer c
  let kstate ← refreshState c
  runMonitor c kstate

/-- `nod_start_main` up to `out`. -/
def beforeOut : StartStep Unit := do
  enterMonitor c
  openDevice c
  serve c

/-- `nod_restore_context`. -/
def nodRestoreContext (p : NodStackInfo) : End :=
  if syscallExitFamily p.syscallNr then .exit p.syscallNr p.exitCode
  else .restoreContext p.ioctlFd p

/-- `nod_start_main` from `out` on. -/
def fromOut (s : Activation) : End × Activation :=
  let p := { s.p with hash := nodCalcHash s.p.hashed }
  (nodRestoreContext p, { s with p := p })

/-- `nod_start_main`. -/
def nodStartMain (s : Activation) : End × Activation :=
  match beforeOut c s with
  | (.ok _, s) => fromOut s
  | (.error .out, s) => fromOut s
  | (.error .ret, s) => (.returned, s)
  | (.error (.exit nr code), s) => (.exit nr code, s)

/-! ## What the code is for -/

/-- The pointers are `NULL` exactly when nothing is mapped, and otherwise say where. -/
structure Activation.Mapped (s : Activation) : Prop where
  info : s.infoMaps = if s.p.bufferInfo = 0 then [] else [s.p.bufferInfo]
  buffer : s.bufferMaps = if s.p.buffer = 0 then [] else [s.p.buffer]

/-- An activation begins: what the pointers say is mapped. -/
def Activation.start (p : NodStackInfo) (infoFsbase : UInt64) : Activation where
  p := p
  infoFsbase := infoFsbase
  infoMaps := if p.bufferInfo = 0 then [] else [p.bufferInfo]
  bufferMaps := if p.buffer = 0 then [] else [p.buffer]
  ran := none

/-- The activation has left through one of its exits: the saved system call, or
`NOD_IOCTL_RESTORE_CONTEXT` on the descriptor it has opened, with a hash that fits. -/
structure LeavesRight (p : NodStackInfo) (r : End × Activation) : Prop where
  ends : (syscallExitFamily p.syscallNr ∧ r.1 = .exit p.syscallNr p.exitCode) ∨
    ∃ fd, c.openDev = some fd ∧ r.1 = .restoreContext fd r.2.p ∧
      r.2.p.hash = nodCalcHash r.2.p.hashed
  mapped : r.2.Mapped

/-- A new monitor cannot protect its data or its stack. -/
def InitFails (p : NodStackInfo) (infoFsbase : UInt64) : Prop :=
  p.fsbase = 0 ∧ infoFsbase = 0 ∧ p.pkey ≠ -1 ∧ ¬(c.pkeyData ∧ c.pkeyStack)

/-- A part of the buffer is mapped, or can be. -/
def Maps (pkey : Int32) (ptr : UInt64) (mmap : Option { addr : UInt64 // addr ≠ 0 })
    (pkeyOk : Bool) : Prop :=
  ptr = 0 → mmap.isSome ∧ (pkey = -1 ∨ pkeyOk)

/-- Both parts are mapped, or can be. -/
def MapsBoth (p : NodStackInfo) : Prop :=
  Maps p.pkey p.bufferInfo c.mmapInfo c.pkeyInfo ∧ Maps p.pkey p.buffer c.mmapBuffer c.pkeyBuffer

/-- The script has changed, and the kernel does not take its new state. -/
def SetFails : Prop :=
  (kstate c).luaMtime ≠ 0 ∧ (∃ mtime, c.stat = some mtime ∧ mtime ≠ (kstate c).luaMtime) ∧
    c.setLuaState = false

end Code

/-! ## Every step -/

section Steps

variable {c : StartCalls} {s t : Activation}

theorem start_mapped (p : NodStackInfo) (infoFsbase : UInt64) :
    (Activation.start p infoFsbase).Mapped := ⟨rfl, rfl⟩

theorem Activation.Mapped.dropInfo (h : s.Mapped) : s.dropInfo.Mapped := by
  refine ⟨?_, h.buffer⟩
  show (if s.p.bufferInfo ≠ 0 then s.infoMaps.erase s.p.bufferInfo else s.infoMaps) = []
  rw [h.info]
  by_cases h0 : s.p.bufferInfo = 0
  · simp [h0]
  · simp [h0]

theorem Activation.Mapped.dropBuffer (h : s.Mapped) : s.dropBuffer.Mapped := by
  refine ⟨h.info, ?_⟩
  show (if s.p.buffer ≠ 0 then s.bufferMaps.erase s.p.buffer else s.bufferMaps) = []
  rw [h.buffer]
  by_cases h0 : s.p.buffer = 0
  · simp [h0]
  · simp [h0]

/-- What no step changes: the saved system call, the protection key, and that the pointers
say what is mapped. -/
structure Keeps (s t : Activation) : Prop where
  syscallNr : t.p.syscallNr = s.p.syscallNr
  exitCode : t.p.exitCode = s.p.exitCode
  pkey : t.p.pkey = s.p.pkey
  mapped : s.Mapped → t.Mapped

theorem Keeps.refl (s : Activation) : Keeps s s := ⟨rfl, rfl, rfl, id⟩

theorem Keeps.trans {u : Activation} (h : Keeps s t) (h' : Keeps t u) : Keeps s u :=
  ⟨h'.syscallNr.trans h.syscallNr, h'.exitCode.trans h.exitCode, h'.pkey.trans h.pkey,
    h'.mapped ∘ h.mapped⟩

/-- With the device open, the descriptor does not change either. -/
structure Serves (s t : Activation) : Prop extends Keeps s t where
  ioctlFd : t.p.ioctlFd = s.p.ioctlFd

theorem Serves.refl (s : Activation) : Serves s s := ⟨.refl s, rfl⟩

theorem Serves.trans {u : Activation} (h : Serves s t) (h' : Serves t u) : Serves s u :=
  ⟨h.toKeeps.trans h'.toKeeps, h'.ioctlFd.trans h.ioctlFd⟩

theorem Serves.dropInfo (h : Serves s t) : Serves s t.dropInfo :=
  ⟨⟨h.syscallNr, h.exitCode, h.pkey, fun hs => (h.mapped hs).dropInfo⟩, h.ioctlFd⟩

theorem Serves.dropBuffer (h : Serves s t) : Serves s t.dropBuffer :=
  ⟨⟨h.syscallNr, h.exitCode, h.pkey, fun hs => (h.mapped hs).dropBuffer⟩, h.ioctlFd⟩

/-- A mapping is made where there was none. -/
theorem Serves.storeInfo (h0 : s.p.bufferInfo = 0) {addr : UInt64} (ha : addr ≠ 0) :
    Serves s (storeInfo addr s) := by
  refine ⟨⟨rfl, rfl, rfl, fun hs => ⟨?_, hs.buffer⟩⟩, rfl⟩
  show addr :: s.infoMaps = if addr = 0 then [] else [addr]
  rw [hs.info, if_pos h0, if_neg ha]

theorem Serves.storeBuffer (h0 : s.p.buffer = 0) {addr : UInt64} (ha : addr ≠ 0) :
    Serves s (storeBuffer addr s) := by
  refine ⟨⟨rfl, rfl, rfl, fun hs => ⟨hs.info, ?_⟩⟩, rfl⟩
  show addr :: s.bufferMaps = if addr = 0 then [] else [addr]
  rw [hs.buffer, if_pos h0, if_neg ha]

/-- A part is mapped: what a mapping, and each of the two ways to undo, has to keep. -/
theorem mapPart_spec {ptr : NodStackInfo → UInt64} {mmap : Option { addr : UInt64 // addr ≠ 0 }}
    {pkeyOk : Bool} {store : UInt64 → Activation → Activation} {noMap noKey : Activation → Activation}
    (hstore : ptr s.p = 0 → ∀ addr ≠ 0, Serves s (store addr s) ∧ ptr (store addr s).p ≠ 0)
    (hmap : ptr s.p = 0 → Serves s (noMap s)) (hkey : ∀ {t}, Serves s t → Serves s (noKey t)) :
    ∃ r t, mapPart ptr mmap pkeyOk store noMap noKey s = (r, t) ∧ Serves s t ∧
      ((r = .ok () ∧ Maps s.p.pkey (ptr s.p) mmap pkeyOk ∧ ptr t.p ≠ 0 ∧
          (t = s ∨ ∃ addr, t = store addr s)) ∨
        (r = .error .out ∧ ¬Maps s.p.pkey (ptr s.p) mmap pkeyOk)) := by
  unfold mapPart
  by_cases h0 : ptr s.p = 0
  · rw [if_pos h0]
    cases mmap with
    | none =>
      refine ⟨_, _, rfl, hmap h0, .inr ⟨rfl, fun hmaps => ?_⟩⟩
      cases (hmaps h0).1
    | some addr =>
      obtain ⟨hserves, hne⟩ := hstore h0 addr addr.2
      by_cases hk : s.p.pkey = -1
      · exact ⟨_, _, if_neg (not_not.mpr (hserves.pkey.trans hk)), hserves,
          .inl ⟨rfl, fun _ => ⟨rfl, .inl hk⟩, hne, .inr ⟨_, rfl⟩⟩⟩
      · have hk' : (store addr s).p.pkey ≠ -1 := hserves.pkey ▸ hk
        cases pkeyOk with
        | true =>
          exact ⟨_, _, (if_pos hk').trans rfl, hserves,
            .inl ⟨rfl, fun _ => ⟨rfl, .inr rfl⟩, hne, .inr ⟨_, rfl⟩⟩⟩
        | false =>
          refine ⟨_, _, (if_pos hk').trans rfl, hkey hserves, .inr ⟨rfl, fun hmaps => ?_⟩⟩
          rcases (hmaps h0).2 with h | h
          · exact hk h
          · cases h
  · rw [if_neg h0]
    exact ⟨_, _, rfl, .refl s, .inl ⟨rfl, fun h => absurd h h0, h0, .inl rfl⟩⟩

theorem mapBufferInfo_spec (c : StartCalls) (s : Activation) :
    ∃ r t, mapBufferInfo c s = (r, t) ∧ Serves s t ∧
      ((r = .ok () ∧ Maps s.p.pkey s.p.bufferInfo c.mmapInfo c.pkeyInfo ∧ t.p.bufferInfo ≠ 0 ∧
          (t = s ∨ ∃ addr, t = storeInfo addr s)) ∨
        (r = .error .out ∧ ¬Maps s.p.pkey s.p.bufferInfo c.mmapInfo c.pkeyInfo)) := by
  apply mapPart_spec
  · exact fun h0 addr ha => ⟨.storeInfo h0 ha, ha⟩
  · intro h0
    refine ⟨⟨rfl, rfl, rfl, fun hs => ⟨?_, hs.buffer⟩⟩, rfl⟩
    rw [hs.info, if_pos h0, if_pos rfl]
  · exact Serves.dropInfo

theorem mapEventBuffer_spec (c : StartCalls) (s : Activation) :
    ∃ r t, mapEventBuffer c s = (r, t) ∧ Serves s t ∧
      ((r = .ok () ∧ Maps s.p.pkey s.p.buffer c.mmapBuffer c.pkeyBuffer ∧ t.p.buffer ≠ 0 ∧
          (t = s ∨ ∃ addr, t = storeBuffer addr s)) ∨
        (r = .error .out ∧ ¬Maps s.p.pkey s.p.buffer c.mmapBuffer c.pkeyBuffer)) := by
  apply mapPart_spec
  · exact fun h0 addr ha => ⟨.storeBuffer h0 ha, ha⟩
  · intro h0
    have hserves : Serves s { s with p := { s.p with buffer := 0 } } := by
      refine ⟨⟨rfl, rfl, rfl, fun hs => ⟨hs.info, ?_⟩⟩, rfl⟩
      rw [hs.buffer, if_pos h0, if_pos rfl]
    exact hserves.dropInfo
  · exact fun h => h.dropBuffer.dropInfo

theorem refreshState_spec (c : StartCalls) (s : Activation) :
    ∃ r, refreshState c s = (r, s) ∧
      ((∃ k, r = .ok k ∧ ¬SetFails c) ∨ (r = .error .ret ∧ SetFails c)) := by
  unfold refreshState SetFails
  by_cases hm : (kstate c).luaMtime = 0
  · exact ⟨_, if_neg (not_not.mpr hm), .inl ⟨_, rfl, fun h => h.1 hm⟩⟩
  · rw [if_pos hm]
    cases hstat : c.stat with
    | none => exact ⟨_, rfl, .inl ⟨_, rfl, by rintro ⟨-, ⟨t, ht, -⟩, -⟩; cases ht⟩⟩
    | some mtime =>
      by_cases he : mtime = (kstate c).luaMtime
      · refine ⟨_, if_neg (not_not.mpr he), .inl ⟨_, rfl, ?_⟩⟩
        rintro ⟨-, ⟨t, ht, hne⟩, -⟩
        cases ht
        exact hne he
      · cases hset : c.setLuaState with
        | true => exact ⟨_, (if_pos he).trans rfl, .inl ⟨_, rfl, by rintro ⟨-, -, h⟩; cases h⟩⟩
        | false => exact ⟨_, (if_pos he).trans rfl, .inr ⟨rfl, hm, ⟨_, rfl, he⟩, rfl⟩⟩

/-- `nod_monitor_main` is called with the places where the two parts are mapped. -/
def RanMapped (t : Activation) : Prop :=
  ∃ args, t.ran = some args ∧ args.buffer = t.p.buffer ∧ args.bufferInfo = t.p.bufferInfo ∧
    t.p.buffer ≠ 0 ∧ t.p.bufferInfo ≠ 0

/-- With the device open, all failures go to `out` but one. -/
theorem serve_spec (c : StartCalls) (s : Activation) :
    ∃ r t, serve c s = (r, t) ∧ Serves s t ∧
      ((r = .error .ret ∧ MapsBoth c s.p ∧ SetFails c) ∨
        ((r = .error .out ∨ (r = .ok () ∧ RanMapped t)) ∧ ¬(MapsBoth c s.p ∧ SetFails c))) := by
  obtain ⟨r, t, hinfo, hst, ⟨rfl, hmi, hne, hti⟩ | ⟨rfl, hmi⟩⟩ := mapBufferInfo_spec c s
  · -- the information is mapped, and the buffer's pointer is the old one
    have hbuffer : t.p.buffer = s.p.buffer := by
      rcases hti with rfl | ⟨_, rfl⟩ <;> rfl
    obtain ⟨r, u, hbuf, htu, ⟨rfl, hmb, hne', htb⟩ | ⟨rfl, hmb⟩⟩ := mapEventBuffer_spec c t
    · have hinfo' : u.p.bufferInfo = t.p.bufferInfo := by
        rcases htb with rfl | ⟨_, rfl⟩ <;> rfl
      rw [hst.pkey, hbuffer] at hmb
      obtain ⟨r, href, ⟨k, rfl, hset⟩ | ⟨rfl, hset⟩⟩ := refreshState_spec c u
      · let args : MainArgs := ⟨u.p.buffer, u.p.bufferInfo, k, c.getRecordFlag.getD 0⟩
        refine ⟨.ok (), { u with ran := some args }, ?_, hst.trans (htu.trans ?_),
          .inr ⟨.inr ⟨rfl, ⟨args, rfl, rfl, rfl, hne', hinfo' ▸ hne⟩⟩, fun h => hset h.2⟩⟩
        · rw [serve, Fallible.bind_of_ok hinfo, Fallible.bind_of_ok hbuf, Fallible.bind_of_ok href]
          rfl
        · exact ⟨⟨rfl, rfl, rfl, fun hs => ⟨hs.info, hs.buffer⟩⟩, rfl⟩
      · refine ⟨_, _, ?_, hst.trans htu, .inl ⟨rfl, ⟨hmi, hmb⟩, hset⟩⟩
        rw [serve, Fallible.bind_of_ok hinfo, Fallible.bind_of_ok hbuf]
        exact Fallible.bind_of_error href
    · rw [hst.pkey, hbuffer] at hmb
      refine ⟨_, _, ?_, hst.trans htu, .inr ⟨.inl rfl, fun h => hmb h.1.2⟩⟩
      rw [serve, Fallible.bind_of_ok hinfo]
      exact Fallible.bind_of_error hbuf
  · refine ⟨_, _, ?_, hst, .inr ⟨.inl rfl, fun h => hmi h.1.1⟩⟩
    rw [serve]
    exact Fallible.bind_of_error hinfo

/-- A new monitor is set up, or the thread exits. -/
theorem enterMonitor_spec (c : StartCalls) (s : Activation) :
    ∃ r t, enterMonitor c s = (r, t) ∧ Keeps s t ∧
      t.p.buffer = s.p.buffer ∧ t.p.bufferInfo = s.p.bufferInfo ∧
      ((r = .ok () ∧ ¬InitFails c s.p s.infoFsbase) ∨
        (r = .error (.exit 60 (-1)) ∧ InitFails c s.p s.infoFsbase)) := by
  have hkeeps : ∀ fsbase infoFsbase, Keeps s
      { s with p := { s.p with fsbase := fsbase }, infoFsbase := infoFsbase } :=
    fun _ _ => ⟨rfl, rfl, rfl, fun hs => ⟨hs.info, hs.buffer⟩⟩
  unfold enterMonitor
  by_cases hf : s.p.fsbase = 0
  · rw [if_pos hf]
    unfold nodInitialize
    by_cases hi : s.infoFsbase = 0
    · by_cases hk : s.p.pkey = -1
      · exact ⟨_, _, (if_pos hi).trans (if_neg (not_not.mpr hk)), hkeeps _ _, rfl, rfl,
          .inl ⟨rfl, fun h => h.2.2.1 hk⟩⟩
      · refine ⟨_, _, (if_pos hi).trans ((if_pos hk).trans rfl), ?_⟩
        cases hd : c.pkeyData with
        | false => exact ⟨hkeeps _ _, rfl, rfl, .inr ⟨rfl, hf, hi, hk, by simp [hd]⟩⟩
        | true =>
          cases hs : c.pkeyStack with
          | false => exact ⟨hkeeps _ _, rfl, rfl, .inr ⟨rfl, hf, hi, hk, by simp [hs]⟩⟩
          | true => exact ⟨hkeeps _ _, rfl, rfl, .inl ⟨rfl, fun h => h.2.2.2 ⟨hd, hs⟩⟩⟩
    · exact ⟨_, _, if_neg hi, hkeeps _ _, rfl, rfl, .inl ⟨rfl, fun h => hi h.2.1⟩⟩
  · rw [if_neg hf]
    exact ⟨_, _, rfl, .refl s, rfl, rfl, .inl ⟨rfl, fun h => hf h.1⟩⟩

end Steps

/-! ## Every activation -/

section Ends

variable {c : StartCalls} {s t : Activation}

/-- How the part before `out` ends: the thread exits; the device is not open; or the device is
open, and `serve_spec` says the rest. -/
theorem beforeOut_spec (c : StartCalls) (s : Activation) :
    ∃ r t, beforeOut c s = (r, t) ∧ Keeps s t ∧
      ((r = .error (.exit 60 (-1)) ∧ InitFails c s.p s.infoFsbase) ∨
        (¬InitFails c s.p s.infoFsbase ∧
          ((r = .error .out ∧ c.openDev = none ∧ t.p.ioctlFd = -1) ∨
            ∃ fd, c.openDev = some fd ∧ t.p.ioctlFd = fd ∧
              ((r = .error .ret ∧ MapsBoth c s.p ∧ SetFails c) ∨
                ((r = .error .out ∨ (r = .ok () ∧ RanMapped t)) ∧
                  ¬(MapsBoth c s.p ∧ SetFails c)))))) := by
  obtain ⟨r, t, henter, hst, hb, hi, ⟨rfl, hinit⟩ | ⟨rfl, hinit⟩⟩ := enterMonitor_spec c s
  · cases ho : c.openDev with
    | none =>
      have hopen : openDevice c t = (.error .out, { t with p := { t.p with ioctlFd := -1 } }) := by
        rw [openDevice, ho]
      refine ⟨.error .out, { t with p := { t.p with ioctlFd := -1 } }, ?_,
        hst.trans ⟨rfl, rfl, rfl, fun hs => ⟨hs.info, hs.buffer⟩⟩,
        .inr ⟨hinit, .inl ⟨rfl, rfl, rfl⟩⟩⟩
      rw [beforeOut, Fallible.bind_of_ok henter]
      exact Fallible.bind_of_error hopen
    | some fd =>
      have hopen : openDevice c t = (.ok (), { t with p := { t.p with ioctlFd := fd } }) := by
        rw [openDevice, ho]
      obtain ⟨r, u, hserve, hopu, hr⟩ := serve_spec c { t with p := { t.p with ioctlFd := fd } }
      have hkeeps : Keeps t { t with p := { t.p with ioctlFd := fd } } :=
        ⟨rfl, rfl, rfl, fun hs => ⟨hs.info, hs.buffer⟩⟩
      have hmaps : MapsBoth c { t.p with ioctlFd := fd } = MapsBoth c s.p := by
        unfold MapsBoth
        simp only [hst.pkey, hb, hi]
      simp only [hmaps] at hr
      refine ⟨r, u, ?_, hst.trans (hkeeps.trans hopu.toKeeps),
        .inr ⟨hinit, .inr ⟨fd, rfl, hopu.ioctlFd, hr⟩⟩⟩
      rw [beforeOut, Fallible.bind_of_ok henter, Fallible.bind_of_ok hopen, hserve]
  · refine ⟨_, _, ?_, hst, .inl ⟨rfl, hinit⟩⟩
    rw [beforeOut]
    exact Fallible.bind_of_error henter

theorem fromOut_keeps (s : Activation) : Keeps s (fromOut s).2 :=
  ⟨rfl, rfl, rfl, fun hs => ⟨hs.info, hs.buffer⟩⟩

/-- From `out` the monitor leaves through the saved system call, or with a hash that fits. -/
theorem fromOut_ends (s : Activation) :
    (syscallExitFamily s.p.syscallNr = true ∧
      (fromOut s).1 = .exit s.p.syscallNr s.p.exitCode) ∨
    (syscallExitFamily s.p.syscallNr = false ∧
      (fromOut s).1 = .restoreContext s.p.ioctlFd (fromOut s).2.p ∧
      (fromOut s).2.p.hash = nodCalcHash (fromOut s).2.p.hashed) := by
  cases hx : syscallExitFamily s.p.syscallNr with
  | true => exact .inl ⟨rfl, if_pos hx⟩
  | false => exact .inr ⟨rfl, if_neg (by simp [hx]), rfl⟩

/-- With the device open, `out` is a way to leave. -/
theorem leavesRight_fromOut (hkeeps : Keeps s t) (hs : s.Mapped)
    {fd : { fd : Int32 // 0 ≤ fd }} (ho : c.openDev = some fd) (hfd : t.p.ioctlFd = fd) :
    LeavesRight c s.p (fromOut t) := by
  refine ⟨?_, (hkeeps.trans (fromOut_keeps t)).mapped hs⟩
  have hends := fromOut_ends t
  rw [hkeeps.syscallNr, hkeeps.exitCode, hfd] at hends
  rcases hends with ⟨hx, he⟩ | ⟨-, he, hh⟩
  · exact .inl ⟨hx, he⟩
  · exact .inr ⟨fd, ho, he, hh⟩

/-- With no descriptor, only a thread that exits can leave. -/
theorem leavesRight_closed_iff (hkeeps : Keeps s t) (hs : s.Mapped) (ho : c.openDev = none) :
    LeavesRight c s.p (fromOut t) ↔ syscallExitFamily s.p.syscallNr = true := by
  constructor
  · rintro ⟨⟨hx, -⟩ | ⟨fd, hfd, -⟩, -⟩
    · exact hx
    · rw [ho] at hfd
      cases hfd
  · intro hx
    refine ⟨.inl ⟨hx, ?_⟩, (hkeeps.trans (fromOut_keeps t)).mapped hs⟩
    rcases fromOut_ends t with ⟨-, he⟩ | ⟨hx', -⟩
    · rw [he, hkeeps.syscallNr, hkeeps.exitCode]
    · rw [hkeeps.syscallNr, hx] at hx'
      cases hx'

theorem leavesRight_exit_iff {p : NodStackInfo} (ht : t.Mapped) :
    LeavesRight c p (.exit 60 (-1), t) ↔ p.syscallNr = 60 ∧ p.exitCode = -1 := by
  constructor
  · rintro ⟨⟨-, he⟩ | ⟨fd, -, he, -⟩, -⟩
    · injection he with hnr hcode
      exact ⟨hnr.symm, hcode.symm⟩
    · cases he
  · rintro ⟨hnr, hcode⟩
    refine ⟨.inl ⟨?_, ?_⟩, ht⟩
    · rw [hnr]
      rfl
    · rw [hnr, hcode]

theorem not_leavesRight_returned {p : NodStackInfo} : ¬LeavesRight c p (.returned, t) := by
  rintro ⟨⟨-, he⟩ | ⟨fd, -, he, -⟩, -⟩ <;> cases he

/-- **The pointers say what is mapped**, whatever fails. -/
theorem nodStartMain_mapped (c : StartCalls) (hs : s.Mapped) : (nodStartMain c s).2.Mapped := by
  obtain ⟨r, t, hbefore, hkeeps, -⟩ := beforeOut_spec c s
  unfold nodStartMain
  rw [hbefore]
  have hout := (hkeeps.trans (fromOut_keeps t)).mapped hs
  rcases r with (_ | _ | _) | _
  · exact hout
  · exact hkeeps.mapped hs
  · exact hkeeps.mapped hs
  · exact hout

/-- `nod_monitor_main` runs on mapped memory only. -/
theorem nodStartMain_ran (c : StartCalls) (p : NodStackInfo) (infoFsbase : UInt64) :
    (beforeOut c (.start p infoFsbase)).1 = .ok () →
      RanMapped (beforeOut c (.start p infoFsbase)).2 := by
  obtain ⟨r, t, hbefore, -, hr⟩ := beforeOut_spec c (.start p infoFsbase)
  rw [hbefore]
  rintro rfl
  rcases hr with ⟨hr, -⟩ | ⟨-, ⟨hr, -⟩ | ⟨-, -, -, ⟨hr, -⟩ | ⟨hr | ⟨-, hran⟩, -⟩⟩⟩
  · cases hr
  · cases hr
  · cases hr
  · cases hr
  · exact hran

end Ends

/-! ## A script that has changed -/

/-- All calls succeed but `NOD_IOCTL_SET_LUA_STATE`, and the script has changed. -/
def stateRefused : StartCalls where
  archPrctl := 0x7000
  pkeyData := true
  pkeyStack := true
  openDev := some ⟨3, by decide⟩
  mmapInfo := some ⟨0x10000, by decide⟩
  pkeyInfo := true
  mmapBuffer := some ⟨0x20000, by decide⟩
  pkeyBuffer := true
  getLuaState := some ⟨[47, 97], 1⟩
  stat := some 2
  setLuaState := false
  getRecordFlag := some 0

end StartMain

end NoDrop
