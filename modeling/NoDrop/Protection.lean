import NoDrop.Lib.Fields
import NoDrop.Lib.Runs
import NoDrop.StartMain

/-! # The monitor's protection key

The monitor lives in the application's memory.  Where the processor has protection keys, its data, its
stack and the mappings of the buffer get one of their own (`pkey_mprotect`), and the register PKRU
says what the thread may do with it: the monitor opens its key when it is entered and closes it
for writing when it leaves (`pkey_set` of `monitor/src/pkeys.h`).

`nod_start_main` is here once more, with the key of every area and with the register.  Without these
it is the one of `StartMain` (`nodStartMain_forgets`), but for its last call: `nod_restore_context`
closes the key for writing and then calls `ioctl`, on the stack that has this key.  The call faults,
and the application never goes on (`faults_of_run`).
-/
namespace NoDrop

namespace Protection

open StartMain Fields Runs

/-! ## `monitor/src/pkeys.h` -/

/-- `PKEY_WR`. -/
def pkeyWr : BitVec 64 := 0

/-- `PKEY_DISABLE_WRITE`. -/
def pkeyDisableWrite : BitVec 64 := 2

/-- `pkey_set`: what it returns, and the register. -/
def pkeySet (pkey : Int32) (rights : BitVec 64) (pkru : BitVec 32) : Int × BitVec 32 :=
  if pkey < 0 ∨ 15 < pkey ∨ 3 < rights then (-1, pkru)
  else
    let shift := (2 * pkey).toInt.toNat
    let mask := (3 : BitVec 32) <<< shift
    (0, ((pkru &&& ~~~mask).setWidth 64 ||| rights <<< shift).setWidth 32)

/-- Where the rights of a key stand. -/
def slot (key : Int32) : Nat := 2 * key.toInt.toNat

/-- The rights of a key: the lower bit disables any access, the upper one writing. -/
def rightsOf (pkru : BitVec 32) (key : Int32) : BitVec 2 := Fields.field (slot key) 2 pkru

/-- Pages of this key may be read, if their mapping can be. -/
def mayRead (pkru : BitVec 32) (key : Int32) : Bool := rightsOf pkru key &&& 1 == 0

/-- They may be written, if their mapping can be. -/
def mayWrite (pkru : BitVec 32) (key : Int32) : Bool := rightsOf pkru key == 0

/-! ## Data -/

/-- An activation with what guards its memory: the keys of the pages of `__bdata` to `__edata`, of
the stack and of the two mappings, and the thread's PKRU.  Pages that were given no key have key `0`.
The buffer is mapped for reading only, and its key is that of its first 4 KiB. -/
structure Guarded where
  p : NodStackInfo
  infoFsbase : UInt64
  dataKey : Int32
  stackKey : Int32
  infoMaps : List (UInt64 × Int32)
  bufferMaps : List (UInt64 × Int32)
  pkru : BitVec 32
  /-- What `nod_monitor_main` was called with, and the register then. -/
  ran : Option (MainArgs × BitVec 32)

/-- How `nod_start_main` ends: as in `StartMain`, or with a fault. -/
inductive GuardedEnd where
  | ends (e : End)
  | fault
deriving DecidableEq

/-- What guards it is forgotten. -/
def Guarded.activation (s : Guarded) : Activation where
  p := s.p
  infoFsbase := s.infoFsbase
  infoMaps := s.infoMaps.map Prod.fst
  bufferMaps := s.bufferMaps.map Prod.fst
  ran := s.ran.map Prod.fst

/-- The part of `nod_start_main` before `out`. -/
abbrev GuardedStep := Fallible Guarded Leave

/-! ## `monitor/src/startup.c` -/

/-- `pkey_set` of the monitor's key.  What it returns is not looked at. -/
def Guarded.setRights (rights : BitVec 64) (s : Guarded) : Guarded :=
  { s with pkru := (pkeySet s.p.pkey rights s.pkru).2 }

/-- The mapping at an address gets a key. -/
def keyAt (addr : UInt64) (key : Int32) (maps : List (UInt64 × Int32)) : List (UInt64 × Int32) :=
  maps.map fun m => if m.1 = addr then (m.1, key) else m

/-- `munmap`. -/
def unmapAt (addr : UInt64) (maps : List (UInt64 × Int32)) : List (UInt64 × Int32) :=
  if addr ≠ 0 then maps.eraseP fun m => m.1 == addr else maps

/-- `munmap` of the buffer's information, and the pointer is `NULL`. -/
def Guarded.dropInfo (s : Guarded) : Guarded :=
  { s with infoMaps := unmapAt s.p.bufferInfo s.infoMaps, p := { s.p with bufferInfo := 0 } }

/-- The same for the buffer. -/
def Guarded.dropBuffer (s : Guarded) : Guarded :=
  { s with bufferMaps := unmapAt s.p.buffer s.bufferMaps, p := { s.p with buffer := 0 } }

section Code

variable (c : StartCalls)

/-- `pkey_mprotect` of the data or of the stack, and the `ASSERT_EXIT` around it. -/
def protectOrExit (ok : Bool) (setKey : Guarded → Guarded) : GuardedStep Unit := fun s =>
  if ok then (.ok (), setKey s) else (.error (.exit 60 (-1)), s)

/-- `nod_initialize`.  The monitor's heap is not part of the state. -/
def nodInitialize : GuardedStep Unit := fun s =>
  let s := { s with p := { s.p with fsbase := c.archPrctl } }
  if s.infoFsbase = 0 then
    let s := { s with infoFsbase := s.p.fsbase }
    if s.p.pkey ≠ -1 then
      (do
        protectOrExit c.pkeyData fun s => { s with dataKey := s.p.pkey }
        protectOrExit c.pkeyStack fun s => { s with stackKey := s.p.pkey }) (s.setRights 0)
    else (.ok (), s)
  else (.ok (), s)

/-- The first time the thread is in the monitor, this is set up.  Later the key is opened. -/
def enterMonitor : GuardedStep Unit := fun s =>
  if s.p.fsbase = 0 then nodInitialize c s
  else if s.p.pkey ≠ -1 then (.ok (), s.setRights pkeyWr)
  else (.ok (), s)

/-- `open`.  What it returns is stored before it is looked at. -/
def openDevice : GuardedStep Unit := fun s =>
  match c.openDev with
  | none => (.error .out, { s with p := { s.p with ioctlFd := -1 } })
  | some fd => (.ok (), { s with p := { s.p with ioctlFd := fd } })

/-- A part of the buffer that is not mapped yet is mapped, and gets the key if there is one: where
the pointer is, what `mmap` and `pkey_mprotect` return, and what is undone when one of them fails.
-/
def mapPart (ptr : NodStackInfo → UInt64) (mmap : Option { addr : UInt64 // addr ≠ 0 })
    (pkeyOk : Bool) (store : UInt64 → Guarded → Guarded) (setKey noMap noKey : Guarded → Guarded) :
    GuardedStep Unit := fun s =>
  if ptr s.p = 0 then
    match mmap with
    | none => (.error .out, noMap s)
    | some addr =>
        let s := store addr s
        if s.p.pkey ≠ -1 then
          if pkeyOk then (.ok (), setKey s) else (.error .out, noKey s)
        else (.ok (), s)
  else (.ok (), s)

/-- The buffer's information is mapped at `addr`. -/
def storeInfo (addr : UInt64) (s : Guarded) : Guarded :=
  { s with infoMaps := (addr, 0) :: s.infoMaps, p := { s.p with bufferInfo := addr } }

/-- The buffer is mapped at `addr`. -/
def storeBuffer (addr : UInt64) (s : Guarded) : Guarded :=
  { s with bufferMaps := (addr, 0) :: s.bufferMaps, p := { s.p with buffer := addr } }

/-- The buffer's information is mapped, unless it is already. -/
def mapBufferInfo : GuardedStep Unit :=
  mapPart (·.bufferInfo) c.mmapInfo c.pkeyInfo storeInfo
    (fun s => { s with infoMaps := keyAt s.p.bufferInfo s.p.pkey s.infoMaps })
    (fun s => { s with p := { s.p with bufferInfo := 0 } }) Guarded.dropInfo

/-- The buffer is mapped, unless it is already. -/
def mapEventBuffer : GuardedStep Unit :=
  mapPart (·.buffer) c.mmapBuffer c.pkeyBuffer storeBuffer
    (fun s => { s with bufferMaps := keyAt s.p.buffer s.p.pkey s.bufferMaps })
    (fun s => { s with p := { s.p with buffer := 0 } }.dropInfo) (·.dropBuffer.dropInfo)

/-- The script's state, refreshed, as in `StartMain`. -/
def refreshState : GuardedStep LuaState := fun s =>
  ((StartMain.refreshState c s.activation).1, s)

/-- `nod_monitor_main` is called. -/
def runMonitor (kstate : LuaState) : GuardedStep Unit := Fallible.lift fun s =>
  ((), { s with
    ran := some (⟨s.p.buffer, s.p.bufferInfo, kstate, c.getRecordFlag.getD 0⟩, s.pkru) })

/-- What is done with the open device. -/
def serve : GuardedStep Unit := do
  mapBufferInfo c
  mapEventBuffer c
  let kstate ← refreshState c
  runMonitor c kstate

/-- `nod_start_main` up to `out`. -/
def beforeOut : GuardedStep Unit := do
  enterMonitor c
  openDevice c
  serve c

/-- `nod_restore_context`. -/
def nodRestoreContext (s : Guarded) : GuardedEnd × Guarded :=
  if syscallExitFamily s.p.syscallNr then (.ends (.exit s.p.syscallNr s.p.exitCode), s)
  else if s.p.pkey ≠ -1 then
    let s := s.setRights pkeyDisableWrite
    -- the call of `ioctl` pushes the address to return to
    if mayWrite s.pkru s.stackKey then (.ends (.restoreContext s.p.ioctlFd s.p), s) else (.fault, s)
  else (.ends (.restoreContext s.p.ioctlFd s.p), s)

/-- `nod_start_main` from `out` on. -/
def fromOut (s : Guarded) : GuardedEnd × Guarded :=
  nodRestoreContext { s with p := { s.p with hash := nodCalcHash s.p.hashed } }

/-- `nod_start_main`. -/
def nodStartMain (s : Guarded) : GuardedEnd × Guarded :=
  match beforeOut c s with
  | (.ok _, s) => fromOut s
  | (.error .out, s) => fromOut s
  | (.error .ret, s) => (.ends .returned, s)
  | (.error (.exit nr code), s) => (.ends (.exit nr code), s)

end Code

/-! ## A thread -/

/-- What happens to a thread: the application loads PKRU; or a system call is recorded and the
kernel is to start the monitor.  `copied` says whether `update_stack_info` gets through; what a copy
that fails leaves behind is overwritten by the next one. -/
inductive Act where
  | wrpkru (pkru : BitVec 32)
  | event (nr : Int32) (code : Int64) (copied : Bool) (c : StartCalls)

/-- The call that is saved is copied to the monitor's stack.  Whatever the descriptor is then, the
monitor stores its own before it looks at it. -/
def saveCall (nr : Int32) (code : Int64) (s : Guarded) : Guarded :=
  { s with p := { s.p with ioctlFd := -1, syscallNr := nr, exitCode := code }, ran := none }

/-- The monitor is started. -/
def activate (nr : Int32) (code : Int64) (c : StartCalls) (s : Guarded) : GuardedEnd × Guarded :=
  nodStartMain c (saveCall nr code s)

/-- One step.  The application goes on after `NOD_IOCTL_RESTORE_CONTEXT` on a descriptor, and where
the monitor could not be started. -/
def step (s : Guarded) : Act → Option Guarded
  | .wrpkru pkru => some { s with pkru := pkru }
  | .event nr code copied c =>
      if copied then
        match activate nr code c s with
        | (.ends (.restoreContext fd _), s) => if 0 ≤ fd then some s else none
        | _ => none
      else some s

/-! ## What guards the monitor, forgotten -/

section Forgetting

variable (c : StartCalls)

theorem keyAt_fst (addr : UInt64) (key : Int32) (maps : List (UInt64 × Int32)) :
    (keyAt addr key maps).map Prod.fst = maps.map Prod.fst := by
  rw [keyAt, List.map_map]
  apply List.map_congr_left
  intro m hm
  show (if m.1 = addr then (m.1, key) else m).1 = m.1
  split
  · rfl
  · rfl

theorem unmapAt_fst (addr : UInt64) (maps : List (UInt64 × Int32)) :
    (unmapAt addr maps).map Prod.fst =
      if addr ≠ 0 then (maps.map Prod.fst).erase addr else maps.map Prod.fst := by
  unfold unmapAt
  split
  · rw [List.erase_eq_eraseP', List.eraseP_map]
    rfl
  · rfl

theorem dropInfo_activation (s : Guarded) : s.dropInfo.activation = s.activation.dropInfo := by
  unfold Guarded.activation Guarded.dropInfo Activation.dropInfo
  simp only [unmapAt_fst]

theorem dropBuffer_activation (s : Guarded) : s.dropBuffer.activation = s.activation.dropBuffer := by
  unfold Guarded.activation Guarded.dropBuffer Activation.dropBuffer
  simp only [unmapAt_fst]

theorem protectOrExit_forgets (ok : Bool) {setKey : Guarded → Guarded}
    (hkey : ∀ s, (setKey s).activation = s.activation) :
    Fallible.Forgets Guarded.activation (protectOrExit ok setKey) (assertExit ok) := by
  intro s
  cases ok with
  | true => exact congrArg (Prod.mk _) (hkey s).symm
  | false => rfl

theorem mapPart_forgets (ptr : NodStackInfo → UInt64) (mmap : Option { addr : UInt64 // addr ≠ 0 })
    (pkeyOk : Bool) {store : UInt64 → Guarded → Guarded} {setKey noMap noKey : Guarded → Guarded}
    {store' : UInt64 → Activation → Activation} {noMap' noKey' : Activation → Activation}
    (hstore : ∀ addr s, (store addr s).activation = store' addr s.activation)
    (hkey : ∀ s, (setKey s).activation = s.activation)
    (hmap : ∀ s, (noMap s).activation = noMap' s.activation)
    (hnokey : ∀ s, (noKey s).activation = noKey' s.activation) :
    Fallible.Forgets Guarded.activation (mapPart ptr mmap pkeyOk store setKey noMap noKey)
      (StartMain.mapPart ptr mmap pkeyOk store' noMap' noKey') := by
  intro s
  unfold mapPart StartMain.mapPart
  by_cases h0 : ptr s.p = 0
  · rw [if_pos h0, if_pos (show ptr s.activation.p = 0 from h0)]
    cases mmap with
    | none => exact congrArg (Prod.mk _) (hmap s).symm
    | some addr =>
      have hst := hstore addr s
      have hp : (store' addr s.activation).p = (store addr s).p := congrArg Activation.p hst.symm
      by_cases hk : (store addr s).p.pkey = -1
      · simp only [hp, hk, ne_eq, not_true_eq_false, if_false, hst]
      · simp only [hp, hk, ne_eq, not_false_eq_true, if_true]
        cases pkeyOk with
        | true => exact congrArg (Prod.mk _) (hst.symm.trans (hkey _).symm)
        | false =>
          refine congrArg (Prod.mk _) ?_
          rw [← hst]
          exact (hnokey _).symm
  · rw [if_neg h0, if_neg (show ¬ptr s.activation.p = 0 from h0)]

theorem nodInitialize_forgets :
    Fallible.Forgets Guarded.activation (nodInitialize c) (StartMain.nodInitialize c) := by
  intro s
  unfold nodInitialize StartMain.nodInitialize
  by_cases hi : s.infoFsbase = 0
  · by_cases hk : s.p.pkey = -1
    · simp only [show s.activation.infoFsbase = 0 from hi, show s.activation.p.pkey = -1 from hk, hi, hk,
        ne_eq, not_true_eq_false, if_true, if_false]
      rfl
    · simp only [show s.activation.infoFsbase = 0 from hi, show ¬s.activation.p.pkey = -1 from hk, hi, hk,
        ne_eq, not_false_eq_true, if_true]
      have hdata : Fallible.Forgets Guarded.activation
          (protectOrExit c.pkeyData fun s => { s with dataKey := s.p.pkey }) (assertExit c.pkeyData) :=
        protectOrExit_forgets _ fun _ => rfl
      have hstack : Fallible.Forgets Guarded.activation
          (protectOrExit c.pkeyStack fun s => { s with stackKey := s.p.pkey })
          (assertExit c.pkeyStack) :=
        protectOrExit_forgets _ fun _ => rfl
      let t : Guarded := { s with p := { s.p with fsbase := c.archPrctl }, infoFsbase := c.archPrctl }
      exact (hdata.bind fun _ => hstack) (t.setRights 0)
  · simp only [show ¬s.activation.infoFsbase = 0 from hi, hi, if_false]
    rfl

theorem enterMonitor_forgets :
    Fallible.Forgets Guarded.activation (enterMonitor c) (StartMain.enterMonitor c) := by
  intro s
  unfold enterMonitor StartMain.enterMonitor
  by_cases hf : s.p.fsbase = 0
  · rw [if_pos hf, if_pos (show s.activation.p.fsbase = 0 from hf), nodInitialize_forgets]
  · rw [if_neg hf, if_neg (show ¬s.activation.p.fsbase = 0 from hf)]
    split
    · rfl
    · rfl

theorem openDevice_forgets :
    Fallible.Forgets Guarded.activation (openDevice c) (StartMain.openDevice c) := by
  intro s
  unfold openDevice StartMain.openDevice
  cases c.openDev with
  | none => rfl
  | some fd => rfl

theorem mapBufferInfo_forgets :
    Fallible.Forgets Guarded.activation (mapBufferInfo c) (StartMain.mapBufferInfo c) := by
  apply mapPart_forgets
  · exact fun _ _ => rfl
  · intro s
    simp only [Guarded.activation, keyAt_fst]
  · exact fun _ => rfl
  · exact dropInfo_activation

theorem mapEventBuffer_forgets :
    Fallible.Forgets Guarded.activation (mapEventBuffer c) (StartMain.mapEventBuffer c) := by
  apply mapPart_forgets
  · exact fun _ _ => rfl
  · intro s
    simp only [Guarded.activation, keyAt_fst]
  · exact fun s => dropInfo_activation { s with p := { s.p with buffer := 0 } }
  · exact fun s => (dropInfo_activation s.dropBuffer).trans (congrArg _ (dropBuffer_activation s))

theorem refreshState_forgets :
    Fallible.Forgets Guarded.activation (refreshState c) (StartMain.refreshState c) := by
  intro s
  obtain ⟨r, hr, -⟩ := refreshState_spec c s.activation
  unfold refreshState
  rw [hr]

theorem beforeOut_forgets :
    Fallible.Forgets Guarded.activation (beforeOut c) (StartMain.beforeOut c) := by
  refine (enterMonitor_forgets c).bind fun _ => (openDevice_forgets c).bind fun _ => ?_
  refine (mapBufferInfo_forgets c).bind fun _ => (mapEventBuffer_forgets c).bind fun _ => ?_
  exact (refreshState_forgets c).bind fun _ _ => rfl

/-- How it ends is the same, but for a fault in place of the last call. -/
def GuardedEnd.Forgets : GuardedEnd → End → Prop
  | .ends e', e => e' = e
  | .fault, e => ∃ fd p, e = .restoreContext fd p

theorem nodRestoreContext_forgets (s : Guarded) :
    (nodRestoreContext s).1.Forgets (StartMain.nodRestoreContext s.p) ∧
      s.activation = (nodRestoreContext s).2.activation := by
  unfold nodRestoreContext StartMain.nodRestoreContext
  by_cases hx : syscallExitFamily s.p.syscallNr = true
  · rw [if_pos hx, if_pos hx]
    exact ⟨rfl, rfl⟩
  · rw [if_neg hx, if_neg hx]
    split
    · dsimp only
      split
      · exact ⟨rfl, rfl⟩
      · exact ⟨⟨_, _, rfl⟩, rfl⟩
    · exact ⟨rfl, rfl⟩

theorem fromOut_forgets (s : Guarded) :
    (fromOut s).1.Forgets (StartMain.fromOut s.activation).1 ∧
      (StartMain.fromOut s.activation).2 = (fromOut s).2.activation :=
  nodRestoreContext_forgets { s with p := { s.p with hash := nodCalcHash s.p.hashed } }

/-- **It is the same `nod_start_main`**, but for the fault. -/
theorem nodStartMain_forgets (s : Guarded) :
    (nodStartMain c s).1.Forgets (StartMain.nodStartMain c s.activation).1 ∧
      (StartMain.nodStartMain c s.activation).2 = (nodStartMain c s).2.activation := by
  have h := beforeOut_forgets c s
  unfold nodStartMain StartMain.nodStartMain
  rw [h]
  rcases beforeOut c s with ⟨(_ | _ | _) | _, t⟩
  · exact fromOut_forgets t
  · exact ⟨rfl, rfl⟩
  · exact ⟨rfl, rfl⟩
  · exact fromOut_forgets t

end Forgetting

/-! ## The register -/

section Register

/-- They are written. -/
def withRights (pkru : BitVec 32) (key : Int32) (rights : BitVec 2) : BitVec 32 :=
  setField (slot key) rights pkru

/-- One of the sixteen keys. -/
structure ValidKey (key : Int32) : Prop where
  nonneg : 0 ≤ key
  le : key ≤ 15

variable {key : Int32}

theorem ValidKey.toInt (h : ValidKey key) : 0 ≤ key.toInt ∧ key.toInt ≤ 15 :=
  ⟨Int32.le_iff_toInt_le.mp h.nonneg, Int32.le_iff_toInt_le.mp h.le⟩

theorem ValidKey.ne (h : ValidKey key) : key ≠ -1 := by
  rintro rfl
  exact absurd h.nonneg (by decide)

theorem ValidKey.slot_le (h : ValidKey key) : slot key + 2 ≤ 32 := by
  have := h.toInt
  unfold slot
  omega

theorem ValidKey.two_mul (h : ValidKey key) : (2 * key).toInt.toNat = slot key := by
  have hk := h.toInt
  have htwo : (2 * key).toInt = 2 * key.toInt := by
    rw [Int32.toInt_mul, Int.bmod_eq_of_le]
    · rfl
    · show -(2 ^ 32 / 2 : Int) ≤ 2 * key.toInt
      omega
    · show 2 * key.toInt < ((2 ^ 32 : Nat) + 1 : Int) / 2
      omega
  rw [htwo, slot]
  omega

theorem rights_le (rights : BitVec 2) : ¬3 < rights.setWidth 64 := by
  revert rights
  decide

/-- **What `pkey_set` does**: it writes the key's field. -/
theorem pkeySet_eq (h : ValidKey key) (rights : BitVec 2) (pkru : BitVec 32) :
    (pkeySet key (rights.setWidth 64) pkru).2 = withRights pkru key rights := by
  have hguard : ¬(key < 0 ∨ 15 < key ∨ 3 < rights.setWidth 64) := by
    rintro (hlt | hlt | hlt)
    · exact Int32.not_lt.mpr h.nonneg hlt
    · exact Int32.not_lt.mpr h.le hlt
    · exact rights_le rights hlt
  have hmask : (3 : BitVec 32) = (BitVec.allOnes 2).setWidth 32 := by decide
  rw [pkeySet, if_neg hguard, h.two_mul, withRights, setField, ← hmask]
  -- the field of a word of 64 bits, cut to 32
  apply BitVec.eq_of_getLsbD_eq
  intro i hi
  have hi64 : i < 64 := by omega
  have hsub : i - slot key < 64 := by omega
  have hsub32 : i - slot key < 32 := by omega
  simp only [BitVec.getLsbD_setWidth, BitVec.getLsbD_or, BitVec.getLsbD_shiftLeft, hi, hi64, hsub, hsub32,
    decide_true, Bool.true_and]

/-- A field that is written gives the rights of its key, and of no other. -/
theorem rightsOf_withRights (h : ValidKey key) (rights : BitVec 2) (pkru : BitVec 32) :
    rightsOf (withRights pkru key rights) key = rights :=
  field_setField h.slot_le rights pkru

theorem rightsOf_withRights_of_ne {other : Int32} (h : ValidKey key) (h' : ValidKey other)
    (hne : other ≠ key) (rights : BitVec 2) (pkru : BitVec 32) :
    rightsOf (withRights pkru key rights) other = rightsOf pkru other := by
  have hne : other.toInt ≠ key.toInt := fun he => hne (Int32.toInt_inj.mp he)
  have := h.toInt
  have := h'.toInt
  refine field_setField_apart ?_ rights pkru
  unfold slot
  omega

end Register

/-! ## Inside the monitor -/

section Inside

/-- What always holds of a thread with a key: what is mapped has it, and so have the data and the
stack once the monitor is set up. -/
structure Guards (key : Int32) (s : Guarded) : Prop where
  pkey : s.p.pkey = key
  fsbase : s.infoFsbase = s.p.fsbase
  setUp : s.p.fsbase ≠ 0 → s.dataKey = key ∧ s.stackKey = key
  info : ∀ m ∈ s.infoMaps, m.2 = key
  buffer : ∀ m ∈ s.bufferMaps, m.2 = key

/-- In the monitor, which was entered with this register: all it has has the key, and the key is
open. -/
structure Opened (key : Int32) (pkru : BitVec 32) (s : Guarded) : Prop extends Guards key s where
  data : s.dataKey = key
  stack : s.stackKey = key
  rights : s.pkru = withRights pkru key 0
  ran : ∀ x ∈ s.ran, x.2 = withRights pkru key 0

/-- How the part before `out` is left: in this state, or because the monitor could not be set up. -/
def Left (key : Int32) (pkru : BitVec 32) (e : Leave) (s : Guarded) : Prop :=
  Opened key pkru s ∨ (e = .exit 60 (-1) ∧ s.ran = none)

variable {key : Int32} {pkru : BitVec 32} {s : Guarded}

theorem mem_unmapAt {addr : UInt64} {maps : List (UInt64 × Int32)} {m : UInt64 × Int32}
    (h : m ∈ unmapAt addr maps) : m ∈ maps := by
  unfold unmapAt at h
  split at h
  · exact List.mem_of_mem_eraseP h
  · exact h

theorem unmapAt_cons {addr : UInt64} (ha : addr ≠ 0) (key : Int32) (maps : List (UInt64 × Int32)) :
    unmapAt addr ((addr, key) :: maps) = maps := by
  rw [unmapAt, if_pos ha]
  exact List.eraseP_cons_of_pos (beq_self_eq_true addr)

/-- The new mapping gets the key, as the old ones have. -/
theorem keyAt_cons (addr : UInt64) (key other : Int32) {maps : List (UInt64 × Int32)}
    (h : ∀ m ∈ maps, m.2 = key) : ∀ m ∈ keyAt addr key ((addr, other) :: maps), m.2 = key := by
  intro m hm
  obtain ⟨m', hm', rfl⟩ := List.mem_map.mp hm
  split
  · rfl
  · rename_i hne
    rcases List.mem_cons.mp hm' with rfl | hm'
    · exact absurd rfl hne
    · exact h m' hm'

theorem Opened.dropInfo (h : Opened key pkru s) : Opened key pkru s.dropInfo :=
  { h with info := fun m hm => h.info m (mem_unmapAt hm) }

/-- A part is mapped with the key, or what there was stays. -/
theorem mapPart_opened (hk : ValidKey key) {ptr : NodStackInfo → UInt64}
    {mmap : Option { addr : UInt64 // addr ≠ 0 }} {pkeyOk : Bool} {store : UInt64 → Guarded → Guarded}
    {setKey noMap noKey : Guarded → Guarded} (hstore : ∀ addr s, (store addr s).p.pkey = s.p.pkey)
    (hkey : ∀ addr ≠ 0, ∀ s, Opened key pkru s → Opened key pkru (setKey (store addr s)))
    (hmap : ∀ s, Opened key pkru s → Opened key pkru (noMap s))
    (hnokey : ∀ addr ≠ 0, ∀ s, Opened key pkru s → Opened key pkru (noKey (store addr s))) :
    Fallible.Triple (Opened key pkru) (mapPart ptr mmap pkeyOk store setKey noMap noKey)
      (fun _ => Opened key pkru) (Left key pkru) := by
  refine Fallible.Triple.of_outcome fun s hs => ?_
  unfold mapPart
  by_cases h0 : ptr s.p = 0
  · rw [if_pos h0]
    cases mmap with
    | none => exact .inl (hmap s hs)
    | some addr =>
      have hpkey : (store addr s).p.pkey ≠ -1 := by
        rw [hstore, hs.pkey]
        exact hk.ne
      simp only [hpkey, ne_eq, not_false_eq_true, if_true]
      cases pkeyOk with
      | true => exact hkey addr addr.2 s hs
      | false => exact .inl (hnokey addr addr.2 s hs)
  · rw [if_neg h0]
    exact hs

variable (c : StartCalls)

theorem mapBufferInfo_opened (hk : ValidKey key) :
    Fallible.Triple (Opened key pkru) (mapBufferInfo c) (fun _ => Opened key pkru) (Left key pkru) := by
  apply mapPart_opened hk
  · exact fun _ _ => rfl
  · intro addr ha s hs
    refine { hs with info := ?_ }
    show ∀ m ∈ keyAt addr s.p.pkey ((addr, 0) :: s.infoMaps), m.2 = key
    rw [hs.pkey]
    exact keyAt_cons addr key 0 hs.info
  · exact fun s hs => { hs with }
  · intro addr ha s hs
    refine { hs with info := ?_ }
    show ∀ m ∈ unmapAt addr ((addr, 0) :: s.infoMaps), m.2 = key
    rw [unmapAt_cons ha]
    exact hs.info

theorem mapEventBuffer_opened (hk : ValidKey key) :
    Fallible.Triple (Opened key pkru) (mapEventBuffer c) (fun _ => Opened key pkru) (Left key pkru) := by
  apply mapPart_opened hk
  · exact fun _ _ => rfl
  · intro addr ha s hs
    refine { hs with buffer := ?_ }
    show ∀ m ∈ keyAt addr s.p.pkey ((addr, 0) :: s.bufferMaps), m.2 = key
    rw [hs.pkey]
    exact keyAt_cons addr key 0 hs.buffer
  · intro s hs
    have hdrop : Opened key pkru { s with p := { s.p with buffer := 0 } } := { hs with }
    exact hdrop.dropInfo
  · intro addr ha s hs
    have hdrop : Opened key pkru (storeBuffer addr s).dropBuffer := by
      refine { hs with buffer := ?_ }
      show ∀ m ∈ unmapAt addr ((addr, 0) :: s.bufferMaps), m.2 = key
      rw [unmapAt_cons ha]
      exact hs.buffer
    exact hdrop.dropInfo

theorem refreshState_opened :
    Fallible.Triple (Opened key pkru) (refreshState c) (fun _ => Opened key pkru) (Left key pkru) := by
  refine Fallible.Triple.of_outcome fun s hs => ?_
  unfold refreshState
  rcases (StartMain.refreshState c s.activation).1 with e | a
  · exact .inl hs
  · exact hs

theorem runMonitor_opened (kstate : LuaState) :
    Fallible.Triple (Opened key pkru) (runMonitor c kstate) (fun _ => Opened key pkru)
      (Left key pkru) := by
  apply Fallible.Triple.lift
  intro s hs
  refine { hs with ran := ?_ }
  rintro x ⟨⟩
  exact hs.rights

theorem serve_opened (hk : ValidKey key) :
    Fallible.Triple (Opened key pkru) (serve c) (fun _ => Opened key pkru) (Left key pkru) := by
  refine (mapBufferInfo_opened c hk).bind fun _ => (mapEventBuffer_opened c hk).bind fun _ => ?_
  exact (refreshState_opened c).bind fun kstate => runMonitor_opened c kstate

theorem openDevice_opened :
    Fallible.Triple (Opened key pkru) (openDevice c) (fun _ => Opened key pkru) (Left key pkru) := by
  refine Fallible.Triple.of_outcome fun s hs => ?_
  unfold openDevice
  cases c.openDev with
  | none => exact .inl { hs with }
  | some fd => exact { hs with }

/-- Entering the monitor opens the key, and the first time gives it to the data and the stack. -/
theorem enterMonitor_opened (hk : ValidKey key) :
    Fallible.Triple (fun s => Guards key s ∧ s.pkru = pkru ∧ s.ran = none) (enterMonitor c)
      (fun _ => Opened key pkru) (Left key pkru) := by
  refine Fallible.Triple.of_outcome ?_
  rintro s ⟨hs, rfl, hran⟩
  have hkey : s.p.pkey ≠ -1 := hs.pkey ▸ hk.ne
  have hrights : (pkeySet s.p.pkey 0 s.pkru).2 = withRights s.pkru key 0 := by
    rw [hs.pkey]
    exact pkeySet_eq hk 0 s.pkru
  have hnone : ∀ x ∈ s.ran, x.2 = withRights s.pkru key 0 := by
    rw [hran]
    rintro x ⟨⟩
  unfold enterMonitor
  by_cases hf : s.p.fsbase = 0
  · rw [if_pos hf]
    unfold nodInitialize
    simp only [hs.fsbase.trans hf, hkey, ne_eq, not_false_eq_true, if_true]
    cases c.pkeyData with
    | false => exact .inr ⟨rfl, hran⟩
    | true =>
      cases c.pkeyStack with
      | false => exact .inr ⟨rfl, hran⟩
      | true =>
        exact ⟨⟨hs.pkey, rfl, fun _ => ⟨hs.pkey, hs.pkey⟩, hs.info, hs.buffer⟩, hs.pkey, hs.pkey,
          hrights, hnone⟩
  · obtain ⟨hdata, hstack⟩ := hs.setUp hf
    rw [if_neg hf, if_pos hkey]
    exact ⟨{ hs with }, hdata, hstack, hrights, hnone⟩

theorem beforeOut_opened (hk : ValidKey key) :
    Fallible.Triple (fun s => Guards key s ∧ s.pkru = pkru ∧ s.ran = none) (beforeOut c)
      (fun _ => Opened key pkru) (Left key pkru) := by
  refine (enterMonitor_opened c hk).bind fun _ => ?_
  exact (openDevice_opened c).bind fun _ => serve_opened c hk

end Inside

/-! ## Every activation -/

section Activations

variable {key : Int32} {pkru : BitVec 32} {s : Guarded}

/-- How an activation ends that was entered with this register: the monitor could not be set up; or
it leaves what was opened as it is, and does not give the thread back; or it faults, and has closed it
for writing. -/
def Ends (key : Int32) (pkru : BitVec 32) (r : GuardedEnd × Guarded) : Prop :=
  (r.1 = .ends (.exit 60 (-1)) ∧ r.2.ran = none) ∨
    ∃ u, Opened key pkru u ∧ ((r.2 = u ∧ ∃ e, r.1 = .ends e ∧ ∀ fd p, e ≠ .restoreContext fd p) ∨
      (r.2 = u.setRights pkeyDisableWrite ∧ r.1 = .fault))

/-- Closing the key again writes over what opening it has written. -/
theorem Opened.closed (hk : ValidKey key) (h : Opened key pkru s) :
    (s.setRights pkeyDisableWrite).pkru = withRights pkru key 2 := by
  have hset : (pkeySet s.p.pkey pkeyDisableWrite s.pkru).2 = withRights s.pkru key 2 := by
    rw [h.pkey]
    exact pkeySet_eq hk 2 s.pkru
  refine hset.trans ?_
  rw [h.rights]
  exact setField_setField (slot key) 2 0 pkru

/-- Then its own stack is closed too. -/
theorem Opened.stack_closed (hk : ValidKey key) (h : Opened key pkru s) :
    mayWrite (s.setRights pkeyDisableWrite).pkru s.stackKey = false := by
  rw [mayWrite, h.closed hk, h.stack, rightsOf_withRights hk]
  rfl

theorem fromOut_ends (hk : ValidKey key) (hs : Opened key pkru s) : Ends key pkru (fromOut s) := by
  have hu : Opened key pkru { s with p := { s.p with hash := nodCalcHash s.p.hashed } } := { hs with }
  refine .inr ⟨_, hu, ?_⟩
  unfold fromOut nodRestoreContext
  split
  · exact .inl ⟨rfl, _, rfl, fun fd p h => by cases h⟩
  · rw [if_pos (hu.pkey ▸ hk.ne)]
    dsimp only
    rw [if_neg (Bool.not_eq_true _ ▸ hu.stack_closed hk)]
    exact .inr ⟨rfl, rfl⟩

theorem nodStartMain_ends (hk : ValidKey key) (hs : Guards key s) (hran : s.ran = none)
    (c : StartCalls) : Ends key s.pkru (nodStartMain c s) := by
  obtain ⟨hok, herr⟩ := beforeOut_opened c hk s ⟨hs, rfl, hran⟩
  unfold nodStartMain
  rcases h : beforeOut c s with ⟨e | a, t⟩
  · rcases herr e t h with ht | ⟨rfl, ht⟩
    · cases e with
      | out => exact fromOut_ends hk ht
      | ret => exact .inr ⟨t, ht, .inl ⟨rfl, _, rfl, fun fd p h => by cases h⟩⟩
      | exit nr code => exact .inr ⟨t, ht, .inl ⟨rfl, _, rfl, fun fd p h => by cases h⟩⟩
    · exact .inl ⟨rfl, ht⟩
  · exact fromOut_ends hk (hok a t h)

theorem activate_ends (hk : ValidKey key) (hs : Guards key s) (nr : Int32) (code : Int64)
    (c : StartCalls) : Ends key s.pkru (activate nr code c s) := by
  have hu : Guards key (saveCall nr code s) := { hs with }
  exact nodStartMain_ends hk hu rfl c

/-- What an activation comes to that would end like this. -/
def faulting : End → GuardedEnd
  | .restoreContext _ _ => .fault
  | e => .ends e

/-- **Where the monitor is to give the thread back, it faults**; the other ends are as they were. -/
theorem activate_faulting (hk : ValidKey key) (hs : Guards key s) (nr : Int32) (code : Int64)
    (c : StartCalls) : (activate nr code c s).1 =
      faulting (StartMain.nodStartMain c (saveCall nr code s).activation).1 := by
  have hforgets := (nodStartMain_forgets c (saveCall nr code s)).1
  have hstays : ∀ e, (activate nr code c s).1 = .ends e → ∀ fd p, e ≠ .restoreContext fd p := by
    rintro e he fd p rfl
    rcases activate_ends hk hs nr code c with ⟨hexit, -⟩ | ⟨u, -, ⟨-, e', he', hne⟩ | ⟨-, hfault⟩⟩
    · rw [he] at hexit
      cases hexit
    · rw [he] at he'
      cases he'
      exact hne fd p rfl
    · rw [he] at hfault
      cases hfault
  unfold activate at hstays ⊢
  generalize (nodStartMain c (saveCall nr code s)).1 = r at hforgets hstays ⊢
  generalize (StartMain.nodStartMain c (saveCall nr code s).activation).1 = e at hforgets ⊢
  cases r with
  | ends e' =>
    obtain rfl : e' = e := hforgets
    cases e' with
    | restoreContext fd p => exact absurd rfl (hstays _ rfl fd p)
    | exit nr code => rfl
    | returned => rfl
  | fault =>
    obtain ⟨fd, p, rfl⟩ := hforgets
    rfl

/-- What `nod_monitor_main` finds, wherever it is called: data, stack and information can be read and
written, the buffer's first page can be read, and the rights of other keys are as they were. -/
structure MonitorFinds (key : Int32) (t u : Guarded) (pkru : BitVec 32) : Prop where
  data : mayRead pkru u.dataKey = true ∧ mayWrite pkru u.dataKey = true
  stack : mayRead pkru u.stackKey = true ∧ mayWrite pkru u.stackKey = true
  info : ∀ m ∈ u.infoMaps, mayRead pkru m.2 = true ∧ mayWrite pkru m.2 = true
  buffer : ∀ m ∈ u.bufferMaps, mayRead pkru m.2 = true
  others : ∀ k, ValidKey k → k ≠ key → rightsOf pkru k = rightsOf t.pkru k

theorem Guards.monitorFinds (hk : ValidKey key) (h : Guards key s) {nr : Int32} {code : Int64}
    {c : StartCalls} {args : MainArgs} (hran : (activate nr code c s).2.ran = some (args, pkru)) :
    MonitorFinds key s (activate nr code c s).2 pkru := by
  rcases activate_ends hk h nr code c with ⟨-, hnone⟩ | ⟨u, hu, hend⟩
  · rw [hnone] at hran
    cases hran
  · -- what is in place does not change any more
    have hclosed : ∃ pkru', (activate nr code c s).2 = { u with pkru := pkru' } := by
      rcases hend with ⟨he, -⟩ | ⟨he, -⟩
      · exact ⟨u.pkru, he⟩
      · exact ⟨_, he⟩
    obtain ⟨pkru', hact⟩ := hclosed
    rw [hact] at hran ⊢
    obtain rfl : pkru = withRights s.pkru key 0 := hu.ran _ hran
    have hopen : mayRead (withRights s.pkru key 0) key = true ∧
        mayWrite (withRights s.pkru key 0) key = true := by
      rw [mayRead, mayWrite, rightsOf_withRights hk]
      decide
    refine ⟨?_, ?_, fun m hm => ?_, fun m hm => ?_, fun k hvalid hne => ?_⟩
    · rw [show _ = key from hu.data]
      exact hopen
    · rw [show _ = key from hu.stack]
      exact hopen
    · rw [hu.info m hm]
      exact hopen
    · rw [hu.buffer m hm]
      exact hopen.1
    · exact rightsOf_withRights_of_ne hk hvalid hne 0 s.pkru

end Activations

/-! ## Every run -/

section RunsOf

/-- The monitor was started. -/
def Act.starts : Act → Bool
  | .wrpkru _ => false
  | .event _ _ copied _ => copied

/-- What the application has last loaded, from `pkru` on. -/
def lastLoaded (pkru : BitVec 32) (acts : List Act) : BitVec 32 :=
  acts.foldl (fun pkru a => match a with | .wrpkru loaded => loaded | .event .. => pkru) pkru

theorem lastLoaded_snoc (pkru : BitVec 32) (acts : List Act) (a : Act) :
    lastLoaded pkru (acts ++ [a]) = lastLoaded (lastLoaded pkru acts) [a] :=
  List.foldl_append

/-- A monitor that was just loaded: nothing is set up or mapped. -/
structure Fresh (s : Guarded) : Prop where
  fsbase : s.p.fsbase = 0
  infoFsbase : s.infoFsbase = 0
  infoMaps : s.infoMaps = []
  bufferMaps : s.bufferMaps = []

variable {s t u : Guarded} {a : Act} {tr : List (Guarded × Act)}

theorem Fresh.guards (h : Fresh s) : Guards s.p.pkey s := by
  refine ⟨rfl, h.infoFsbase.trans h.fsbase.symm, fun hne => absurd h.fsbase hne, ?_, ?_⟩
  · rw [h.infoMaps]
    exact fun m hm => absurd hm List.not_mem_nil
  · rw [h.bufferMaps]
    exact fun m hm => absurd hm List.not_mem_nil

/-- A step that the application comes back from does not start the monitor. -/
theorem step_stays (hk : ValidKey t.p.pkey) (h : Guards t.p.pkey t) (hstep : step t a = some u) :
    a.starts = false ∧ u = { t with pkru := lastLoaded t.pkru [a] } := by
  cases a with
  | wrpkru pkru =>
    cases hstep
    exact ⟨rfl, rfl⟩
  | event nr code copied c =>
    cases copied with
    | false =>
      cases hstep
      exact ⟨rfl, rfl⟩
    | true =>
      have hend := activate_faulting hk h nr code c
      rw [step, if_pos rfl] at hstep
      rcases hr : activate nr code c t with ⟨e, w⟩
      rw [hr] at hstep hend
      dsimp only at hstep hend
      subst hend
      -- no end gives the thread back
      generalize (StartMain.nodStartMain c (saveCall nr code t).activation).1 = e at hstep
      cases e with
      | restoreContext fd p => cases hstep
      | exit nr code => cases hstep
      | returned => cases hstep

theorem stays_of_run (hs : Fresh s) (hk : ValidKey s.p.pkey) (hrun : Run (stepOf step) s tr t) :
    (∀ x ∈ tr, x.2.starts = false) ∧ t = { s with pkru := lastLoaded s.pkru (tr.map Prod.snd) } := by
  induction hrun with
  | nil => exact ⟨fun x hx => absurd hx List.not_mem_nil, rfl⟩
  | @snoc tr t u a hrun hlast ih =>
    obtain ⟨hstarts, rfl⟩ := ih
    have hguards : Guards s.p.pkey { s with pkru := lastLoaded s.pkru (tr.map Prod.snd) } :=
      { hs.guards with }
    obtain ⟨hno, rfl⟩ :=
      step_stays (t := { s with pkru := lastLoaded s.pkru (tr.map Prod.snd) }) hk hguards hlast
    refine ⟨fun x hx => ?_, ?_⟩
    · rcases List.mem_append.mp hx with hx | hx
      · exact hstarts x hx
      · obtain rfl := List.mem_singleton.mp hx
        exact hno
    · rw [List.map_append, List.map_cons, List.map_nil, lastLoaded_snoc]

/-- **With a protection key, the monitor does not come back**: in every run of a thread no start of it
has given the thread back to the application.  The next one finds its memory open, and faults just
where it is to give the thread back. -/
theorem faults_of_run (hs : Fresh s) (hk : ValidKey s.p.pkey) (hrun : Run (stepOf step) s tr t) :
    (∀ x ∈ tr, x.2.starts = false) ∧ t = { s with pkru := lastLoaded s.pkru (tr.map Prod.snd) } ∧
      ∀ nr code c,
        (activate nr code c t).1 =
            faulting (StartMain.nodStartMain c (saveCall nr code t).activation).1 ∧
          ∀ args pkru, (activate nr code c t).2.ran = some (args, pkru) →
            MonitorFinds s.p.pkey t (activate nr code c t).2 pkru := by
  obtain ⟨hstarts, rfl⟩ := stays_of_run hs hk hrun
  have hguards : Guards s.p.pkey { s with pkru := lastLoaded s.pkru (tr.map Prod.snd) } :=
    { hs.guards with }
  refine ⟨hstarts, rfl, fun nr code c => ⟨activate_faulting hk hguards nr code c, ?_⟩⟩
  intro args pkru hran
  exact hguards.monitorFinds hk hran

/-- All calls succeed. -/
def allSucceed : StartCalls := { stateRefused with setLuaState := true }

/-- A monitor that was just loaded, with key `1`; the application may use key `0` only. -/
def justLoaded : Guarded where
  p := { NodStackInfo.zero with pkey := 1 }
  infoFsbase := 0
  dataKey := 0
  stackKey := 0
  infoMaps := []
  bufferMaps := []
  pkru := 0x55555554
  ran := none

theorem justLoaded_fresh : Fresh justLoaded := ⟨rfl, rfl, rfl, rfl⟩

theorem justLoaded_key : ValidKey justLoaded.p.pkey := ⟨by decide, by decide⟩

/-- The application closes key `2`, the monitor cannot be started once, and then reads the events of a
`getpid`.  It ends there. -/
theorem faults_of_run_visit : ∃ tr t pkru, Run (stepOf step) justLoaded tr t ∧ tr.length = 2 ∧
    (activate 39 0 allSucceed t).1 = .fault ∧ (activate 39 0 allSucceed t).2.pkru = 0x55555578 ∧
    (∃ args, (activate 39 0 allSucceed t).2.ran = some (args, pkru)) ∧
    MonitorFinds 1 t (activate 39 0 allSucceed t).2 pkru := by
  have hrun : Run (stepOf step) justLoaded _ { justLoaded with pkru := 0x55555574 } :=
    (Run.nil.snoc (show stepOf step justLoaded (.wrpkru 0x55555574) _ from rfl)).snoc
      (show stepOf step _ (.event 39 0 false allSucceed) _ from rfl)
  obtain ⟨-, -, hnext⟩ := faults_of_run justLoaded_fresh justLoaded_key hrun
  obtain ⟨hend, hfinds⟩ := hnext 39 0 allSucceed
  exact ⟨_, _, _, hrun, rfl, hend, by decide, ⟨_, rfl⟩, hfinds _ _ rfl⟩

end RunsOf

end Protection

end NoDrop
