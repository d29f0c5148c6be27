import NoDrop.DoLoad
import NoDrop.StartStack
import NoDrop.Trace

/-! # Sending a thread into the monitor

`nod_load_monitor` of `kmodule/loader.c` returns `NOD_SUCCESS_LOAD` to say that the thread has
been sent into the monitor, and anything else to say that it has not.  Two things go wrong.
`update_stack_info` returns how many bytes could not be copied, and that number is returned as it
is: one byte is `NOD_SUCCESS_LOAD`.  And a thread that was not sent into the monitor is not as it
was: what was mapped before the failure stays, and so do the fields of its `nod_proc_info` that
were set.

`nodLoadMonitor_allOrNothing_iff` says exactly when neither happens.
-/
namespace NoDrop

open Areas Bytes

/-- `copy_to_user` does not leave more than it was to copy. -/
def Kern.Copies {File : Type} (k : Kern File) : Prop :=
  ∀ s addr len, (k.answer s (.copyToUser addr len)).toNat ≤ len

namespace Loader

/-! ## Data -/

/-- A thread in `nod_load_monitor`: its address space and `nod_proc_info`, its registers, its
privileges, and what its `nod_proc_info` keeps of both.  `entered` counts how often it was sent
into the monitor; the code does not know it. -/
structure LoadTask (File Path Fpu : Type) where
  state : LoadState File
  cpu : Cpu Fpu
  th : ThreadStruct
  privil : Privileges Path
  sec : ProcSecurity Path
  ctx : ProcContext
  entered : Nat

/-- What `nod_load_monitor` depends on beside the thread: `CONFIG_MONITOR_PATH`, what the stack
is made from, the files, the other entries, and the group of the thread. -/
structure LoadCall (File : Type) where
  monitorPath : List UInt8
  setup : LoadSetup
  files : LoadFiles File
  table : List ProcEntry
  tgid : Nat

/-! ## The code -/

section Code

variable {File Path Fpu : Type} (k : Kern File) (kp : KernelPrivil Path)

/-- The `switch` at the beginning of `nod_load_monitor`.  The key that `nod_share_procinfo` gives
back is not among what the loader works on. -/
def inheritProcinfo (c : LoadCall File) (p : ProcEntry) : ProcEntry :=
  match p.status with
  | .nodClone => ProcTable.nodCopyProcinfo c.table c.tgid p
  | .nodShare => ProcTable.nodShareProcinfo c.table c.tgid p
  | _ => p

/-- What the monitor is told: `syscall_get_nr` and the first argument of the system call. -/
def announce (regs : PtRegs) (p : ProcEntry) : ProcEntry :=
  { p with
    stackInfo.syscallNr := (regs .origAx).toUInt32.toInt32
    stackInfo.exitCode := (regs .di).toInt64 }

/-- `update_stack_info`, which returns an `int`. -/
def updateStackInfo (p : ProcEntry) (s : Sys File) : Int × Sys File :=
  let (left, s) := s.copyToUser k p.stackInfoAddr p.stackInfo.bytes
  (left.toUInt32.toInt32.toInt, s)

/-- The end of `nod_load_monitor`. -/
def sendIntoMonitor (t : LoadTask File Path Fpu) : LoadTask File Path Fpu :=
  let p := ProcTable.nodProcSetStatus t.state.p .nodIn (-1)
  let (shared, own) := nodPrepareSecurity kp t.privil.shared
    ⟨t.privil.own.seccomp, t.privil.own.blocked, t.privil.own.clearChildTid, p.ioctlFd, t.sec⟩
  let (ctx, cpu, th) := enterMonitor p.stackAddr p.entryAddr (t.cpu, t.th)
  { state := { t.state with p := p }
    cpu := cpu
    th := th
    privil := ⟨shared, ⟨own.seccomp, own.blocked, own.clearChildTid⟩⟩
    sec := own.sec
    ctx := ctx
    entered := t.entered + 1 }

/-- The beginning of `nod_load_monitor`: what the thread inherits, and the monitor loaded if it
was not. -/
def ensureLoaded (c : LoadCall File) : LoadStep File Unit := fun t =>
  let t := { t with p := inheritProcinfo c t.p }
  if t.p.entryAddr = 0 then doLoadMonitor k c.setup c.files [c.monitorPath] t else (.ok (), t)

/-- `nod_load_monitor`. -/
def nodLoadMonitor (c : LoadCall File) (t : LoadTask File Path Fpu) :
    Int × LoadTask File Path Fpu :=
  match ensureLoaded k c t.state with
  | (.error e, state) => (e, { t with state := state })
  | (.ok (), state) =>
    let p := announce t.cpu.regs state.p
    let (retval, sys) := updateStackInfo k p state.sys
    let t := { t with state := ⟨sys, p⟩ }
    if 0 < retval then (retval, t) else (nodSuccessLoad, sendIntoMonitor kp t)

end Code

/-! ## All or nothing -/

section Spec

variable {File Path Fpu : Type}

/-- The thread has been sent into the monitor: it was so once more, its status says so, its
privileges and its context are saved, and it will go on at the monitor's entry on the monitor's
stack. -/
structure Entered (t t' : LoadTask File Path Fpu) : Prop where
  entered : t'.entered = t.entered + 1
  status : t'.state.p.status = .nodIn
  sec : t'.sec =
    { available := true
      childTid := t.privil.own.clearChildTid
      seccompMode := t.privil.own.seccomp
      sigset := t.privil.own.blocked
      capPermitted := t.privil.shared.capPermitted
      capEffective := t.privil.shared.capEffective
      rootPath := t.privil.shared.root
      rlim := t.privil.shared.rlim }
  ctx : t'.ctx = nodPrepareContext t.th t.cpu.regs
  ip : t'.cpu.regs .ip = t'.state.p.entryAddr
  sp : t'.cpu.regs .sp = t'.state.p.stackAddr

/-- The thread is as it was, and nothing is mapped that was not. -/
structure Untouched (t t' : LoadTask File Path Fpu) : Prop where
  p : t'.state.p = t.state.p
  cpu : t'.cpu = t.cpu
  th : t'.th = t.th
  privil : t'.privil = t.privil
  sec : t'.sec = t.sec
  ctx : t'.ctx = t.ctx
  entered : t'.entered = t.entered
  mmap : ∀ x info, lookup t'.state.sys.space.mmap x = some info →
    lookup t.state.sys.space.mmap x = some info

/-- **Loading is all or nothing**: `NOD_SUCCESS_LOAD` says that the thread has been sent into the
monitor, and with any other result it is as it was. -/
def AllOrNothing (k : Kern File) (kp : KernelPrivil Path) (c : LoadCall File)
    (t : LoadTask File Path Fpu) : Prop :=
  ((nodLoadMonitor k kp c t).1 = nodSuccessLoad ↔ Entered t (nodLoadMonitor k kp c t).2) ∧
    ((nodLoadMonitor k kp c t).1 ≠ nodSuccessLoad → Untouched t (nodLoadMonitor k kp c t).2)

/-- What the kernel answered during the call. -/
def answers (k : Kern File) (kp : KernelPrivil Path) (c : LoadCall File)
    (t : LoadTask File Path Fpu) : List (Request File × UInt64) :=
  (nodLoadMonitor k kp c t).2.state.sys.log.drop t.state.sys.log.length

/-- The kernel refuses the very first mapping, and the entry was not changed before. -/
def RefusedFirst (k : Kern File) (c : LoadCall File) (t : LoadTask File Path Fpu) : Prop :=
  let p := inheritProcinfo c t.state.p
  p = t.state.p ∧ p.entryAddr = 0 ∧ c.files.first.Refused k t.state.sys

/-- The monitor was loaded before, the entry says already what it is to be told, and more than one
byte of it cannot be copied. -/
def RefusedAgain (k : Kern File) (c : LoadCall File) (t : LoadTask File Path Fpu) : Prop :=
  let p := inheritProcinfo c t.state.p
  p.entryAddr ≠ 0 ∧ announce t.cpu.regs p = t.state.p ∧
    1 < (k.answer t.state.sys (.copyToUser p.stackInfoAddr 72)).toNat

/-- What is returned, and what it leaves, once the monitor is loaded: the entry is told, or
`left` bytes of it could not be copied. -/
theorem nodLoadMonitor_of_ok {k : Kern File} (kp : KernelPrivil Path) {c : LoadCall File}
    {t : LoadTask File Path Fpu} {state : LoadState File} (hk : k.Copies)
    (h : ensureLoaded k c t.state = (.ok (), state)) :
    let p := announce t.cpu.regs state.p
    let left := k.answer state.sys (.copyToUser p.stackInfoAddr 72)
    let t' := { t with state := ⟨(state.sys.copyToUser k p.stackInfoAddr p.stackInfo.bytes).2, p⟩ }
    nodLoadMonitor k kp c t =
      if left = 0 then (nodSuccessLoad, sendIntoMonitor kp t') else ((left.toNat : Int), t') := by
  dsimp only
  have hlen : (announce t.cpu.regs state.p).stackInfo.bytes.length = 72 :=
    NodStackInfo.bytes_length _
  have hle := hk state.sys (announce t.cpu.regs state.p).stackInfoAddr 72
  have hret : (updateStackInfo k (announce t.cpu.regs state.p) state.sys).1 =
      (k.answer state.sys (.copyToUser (announce t.cpu.regs state.p).stackInfoAddr 72)).toNat := by
    unfold updateStackInfo Sys.copyToUser
    dsimp only
    rw [hlen]
    generalize k.answer state.sys (.copyToUser (announce t.cpu.regs state.p).stackInfoAddr 72) =
      left at hle
    rw [← Int32.toInt_toBitVec, UInt32.toBitVec_toInt32, BitVec.toInt_eq_toNat_bmod]
    have hnat : left.toUInt32.toBitVec.toNat = left.toNat := by
      rw [UInt32.toNat_toBitVec, UInt64.toNat_toUInt32]
      omega
    rw [hnat]
    exact Int.bmod_eq_of_le (by omega) (by omega)
  unfold nodLoadMonitor
  dsimp only
  rw [h]
  dsimp only
  rw [hret]
  by_cases hz : k.answer state.sys
      (.copyToUser (announce t.cpu.regs state.p).stackInfoAddr 72) = 0
  · rw [if_pos hz, hz, if_neg (by decide)]
    rfl
  · have hpos : (k.answer state.sys
        (.copyToUser (announce t.cpu.regs state.p).stackInfoAddr 72)).toNat ≠ 0 :=
      fun h0 => hz (UInt64.toNat_inj.mp h0)
    rw [if_neg hz, if_pos (by omega)]
    rfl

/-- No mapping of `s'` is new. -/
def NothingNew (s s' : Sys File) : Prop :=
  ∀ x info, lookup s'.space.mmap x = some info → lookup s.space.mmap x = some info

theorem Leaves.not_nothingNew {s s' : Sys File} (h : Leaves s s') : ¬NothingNew s s' := by
  obtain ⟨x, hfree, hmapped⟩ := h
  obtain ⟨info, hinfo⟩ := Option.ne_none_iff_exists'.mp hmapped
  intro hnew
  rw [hnew x info hinfo] at hfree
  cases hfree

section Outcomes

variable {k : Kern File} {kp : KernelPrivil Path} {c : LoadCall File} {t : LoadTask File Path Fpu}
  {state : LoadState File}

theorem entered_sendIntoMonitor :
    Entered t (sendIntoMonitor kp { t with state := state }) :=
  ⟨rfl, rfl, rfl, rfl, rfl, rfl⟩

theorem not_entered : ¬Entered t { t with state := state } :=
  fun h => absurd h.entered (Nat.ne_of_lt (Nat.lt_succ_self _))

theorem allOrNothing_of_sent
    (h : nodLoadMonitor k kp c t = (nodSuccessLoad, sendIntoMonitor kp { t with state := state })) :
    AllOrNothing k kp c t := by
  unfold AllOrNothing
  rw [h]
  exact ⟨⟨fun _ => entered_sendIntoMonitor, fun _ => rfl⟩, fun hne => absurd rfl hne⟩

/-- A thread that was not sent into the monitor. -/
theorem allOrNothing_of_kept {ret : Int}
    (h : nodLoadMonitor k kp c t = (ret, { t with state := state })) :
    AllOrNothing k kp c t ↔
      ret ≠ nodSuccessLoad ∧ state.p = t.state.p ∧ NothingNew t.state.sys state.sys := by
  unfold AllOrNothing
  rw [h]
  constructor
  · rintro ⟨hiff, hunt⟩
    have hne : ret ≠ nodSuccessLoad := fun heq => not_entered (hiff.mp heq)
    exact ⟨hne, (hunt hne).p, (hunt hne).mmap⟩
  · rintro ⟨hne, hp, hnew⟩
    exact ⟨⟨fun heq => absurd heq hne, fun hent => absurd hent not_entered⟩,
      fun _ => ⟨hp, rfl, rfl, rfl, rfl, rfl, rfl, hnew⟩⟩

theorem answers_eq {ext : List (Request File × UInt64)}
    (h : (nodLoadMonitor k kp c t).2.state.sys.log = t.state.sys.log ++ ext) :
    answers k kp c t = ext := by
  unfold answers
  rw [h, List.drop_left]

theorem ensureLoaded_of_absent (h0 : (inheritProcinfo c t.state.p).entryAddr = 0) :
    ensureLoaded k c t.state = doLoadMonitor k c.setup c.files [c.monitorPath]
      { t.state with p := inheritProcinfo c t.state.p } :=
  if_pos h0

/-- `do_load_monitor` has failed. -/
theorem allOrNothing_iff_of_failed (hk : k.Maps) (hp : Proper k c.files)
    (hs : Sorted t.state.sys.space.mmap) (h0 : (inheritProcinfo c t.state.p).entryAddr = 0)
    {e : Int} (hload : doLoadMonitor k c.setup c.files [c.monitorPath]
      { t.state with p := inheritProcinfo c t.state.p } = (.error e, state)) :
    AllOrNothing k kp c t ↔ (∀ e ∈ answers k kp c t, Granted e) ∨ RefusedFirst k c t := by
  obtain ⟨ext, hlog, hiff⟩ := doLoadMonitor_answered hk hp c.setup [c.monitorPath]
    (t := { t.state with p := inheritProcinfo c t.state.p }) hs
  have hneg : e < 0 := doLoadMonitor_error_neg hk hp c.setup (congrArg Prod.fst hload)
  rw [hload] at hlog hiff
  have heq : nodLoadMonitor k kp c t = (e, { t with state := state }) := by
    unfold nodLoadMonitor
    rw [ensureLoaded_of_absent h0, hload]
  have hans : answers k kp c t = ext := answers_eq (by rw [heq]; exact hlog)
  have hnot : ¬∀ e ∈ ext, Granted e := by
    intro hall
    obtain ⟨_, h⟩ := hiff.mp hall
    cases h
  have hne : e ≠ nodSuccessLoad := by
    intro h
    rw [h] at hneg
    exact absurd hneg (by decide)
  rw [allOrNothing_of_kept heq, hans, or_iff_right hnot, and_iff_right hne]
  unfold RefusedFirst
  dsimp only
  by_cases href : c.files.first.Refused k t.state.sys
  · obtain ⟨e', t', hload', hp', hspace⟩ := doLoadMonitor_of_refused hk hp c.setup [c.monitorPath]
      (t := { t.state with p := inheritProcinfo c t.state.p }) hs href
    rw [hload] at hload'
    cases hload'
    have hnew : NothingNew t.state.sys state.sys := by
      intro x info h
      rw [hspace] at h
      exact h
    rw [hp']
    exact ⟨fun h => ⟨h.1, h0, href⟩, fun h => ⟨h.1, hnew⟩⟩
  · have hleaves := doLoadMonitor_leaves hk hp c.setup [c.monitorPath]
      (t := { t.state with p := inheritProcinfo c t.state.p }) hs href
    rw [hload] at hleaves
    exact ⟨fun h => absurd h.2 hleaves.not_nothingNew, fun h => absurd h.2.2 href⟩

/-- The calls that were made, once the monitor is loaded: the last one tells it. -/
theorem granted_answers_iff (hcopy : k.Copies) {ext : List (Request File × UInt64)}
    (h : ensureLoaded k c t.state = (.ok (), state))
    (hlog : state.sys.log = t.state.sys.log ++ ext) (hext : ∀ e ∈ ext, Granted e) :
    (∀ e ∈ answers k kp c t, Granted e) ↔
      k.answer state.sys (.copyToUser state.p.stackInfoAddr 72) = 0 := by
  have heq := nodLoadMonitor_of_ok kp hcopy h
  have hans : answers k kp c t = ext ++ [(.copyToUser state.p.stackInfoAddr 72,
      k.answer state.sys (.copyToUser state.p.stackInfoAddr 72))] := by
    refine answers_eq ?_
    rw [heq, ← List.append_assoc, ← hlog]
    split <;> rfl
  rw [hans, List.forall_mem_append, List.forall_mem_singleton]
  exact and_iff_right hext

/-- The monitor has been loaded now. -/
theorem allOrNothing_iff_of_loaded (hk : k.Maps) (hcopy : k.Copies) (hp : Proper k c.files)
    (hs : Sorted t.state.sys.space.mmap) (h0 : (inheritProcinfo c t.state.p).entryAddr = 0)
    (hload : doLoadMonitor k c.setup c.files [c.monitorPath]
      { t.state with p := inheritProcinfo c t.state.p } = (.ok (), state)) :
    AllOrNothing k kp c t ↔ (∀ e ∈ answers k kp c t, Granted e) ∨ RefusedFirst k c t := by
  obtain ⟨ext, hlog, hiff⟩ := doLoadMonitor_answered hk hp c.setup [c.monitorPath]
    (t := { t.state with p := inheritProcinfo c t.state.p }) hs
  rw [hload] at hlog hiff
  have hnot : ¬c.files.first.Refused k t.state.sys := by
    intro href
    obtain ⟨e', t', hload', -⟩ := doLoadMonitor_of_refused hk hp c.setup [c.monitorPath]
      (t := { t.state with p := inheritProcinfo c t.state.p }) hs href
    rw [hload] at hload'
    cases hload'
  have hleaves := doLoadMonitor_leaves hk hp c.setup [c.monitorPath]
    (t := { t.state with p := inheritProcinfo c t.state.p }) hs hnot
  rw [hload] at hleaves
  have hthen := (ensureLoaded_of_absent h0).trans hload
  have hfirst : ¬RefusedFirst k c t := fun h => hnot h.2.2
  rw [or_iff_left hfirst, granted_answers_iff hcopy hthen hlog (hiff.mpr ⟨(), rfl⟩)]
  have heq := nodLoadMonitor_of_ok kp hcopy hthen
  dsimp only at heq
  by_cases hz : k.answer state.sys (.copyToUser state.p.stackInfoAddr 72) = 0
  · exact ⟨fun _ => hz, fun _ => allOrNothing_of_sent (heq.trans (if_pos hz))⟩
  · rw [allOrNothing_of_kept (heq.trans (if_neg hz))]
    exact ⟨fun h => absurd h.2.2 hleaves.not_nothingNew, fun h => absurd h hz⟩

/-- The monitor was loaded before. -/
theorem allOrNothing_iff_of_present (hcopy : k.Copies)
    (h0 : (inheritProcinfo c t.state.p).entryAddr ≠ 0) :
    AllOrNothing k kp c t ↔ (∀ e ∈ answers k kp c t, Granted e) ∨ RefusedAgain k c t := by
  have hthen : ensureLoaded k c t.state =
      (.ok (), { t.state with p := inheritProcinfo c t.state.p }) := if_neg h0
  rw [granted_answers_iff hcopy hthen (List.append_nil _).symm (fun e he => by cases he)]
  have heq := nodLoadMonitor_of_ok kp hcopy hthen
  unfold RefusedAgain
  dsimp only at heq ⊢
  have haddr : (announce t.cpu.regs (inheritProcinfo c t.state.p)).stackInfoAddr =
      (inheritProcinfo c t.state.p).stackInfoAddr := rfl
  rw [haddr] at heq
  generalize k.answer t.state.sys
    (.copyToUser (inheritProcinfo c t.state.p).stackInfoAddr 72) = left at heq ⊢
  by_cases hz : left = 0
  · exact ⟨fun _ => .inl hz, fun _ => allOrNothing_of_sent (heq.trans (if_pos hz))⟩
  · have hret : left.toNat ≠ 0 := fun h => hz (UInt64.toNat_inj.mp h)
    have hone : ((left.toNat : Int) ≠ nodSuccessLoad) ↔ 1 < left.toNat := by
      unfold nodSuccessLoad
      omega
    rw [allOrNothing_of_kept (heq.trans (if_neg hz)), or_iff_right hz, hone]
    constructor
    · rintro ⟨hmore, hsame, -⟩
      exact ⟨h0, hsame, hmore⟩
    · rintro ⟨-, hsame, hmore⟩
      exact ⟨hmore, hsame, fun _ _ h => h⟩

end Outcomes

/-- **When loading is all or nothing**: every call is granted, or the very first is refused and
the entry was as it was, or the monitor was loaded before and cannot be told what it was told
already, by more than one byte. -/
theorem nodLoadMonitor_allOrNothing_iff {k : Kern File} (kp : KernelPrivil Path)
    {c : LoadCall File} {t : LoadTask File Path Fpu} (hk : k.Maps) (hcopy : k.Copies)
    (hp : Proper k c.files) (hs : Sorted t.state.sys.space.mmap) :
    AllOrNothing k kp c t ↔
      (∀ e ∈ answers k kp c t, Granted e) ∨ RefusedFirst k c t ∨ RefusedAgain k c t := by
  by_cases h0 : (inheritProcinfo c t.state.p).entryAddr = 0
  · have hagain : ¬RefusedAgain k c t := fun h => h.1 h0
    rw [or_iff_left hagain]
    rcases hload : doLoadMonitor k c.setup c.files [c.monitorPath]
      { t.state with p := inheritProcinfo c t.state.p } with ⟨r, state⟩
    cases r with
    | error e => exact allOrNothing_iff_of_failed hk hp hs h0 hload
    | ok u => exact allOrNothing_iff_of_loaded hk hcopy hp hs h0 hload
  · have hfirst : ¬RefusedFirst k c t := fun h => h0 h.2.1
    rw [or_iff_right hfirst]
    exact allOrNothing_iff_of_present hcopy h0

end Spec

/-! ## One byte is success -/

/-- A thread on its way out of a system call, of a task with one string in its environment. -/
def outTask (p : ProcEntry) : LoadTask Unit Unit Unit where
  state := { oneEnvState with p := p }
  cpu := ⟨fun _ => 0, 0, 0, 0, 0, 0, 0, ()⟩
  th := ⟨0, 0, 0, 0, 0, 0⟩
  privil := ⟨⟨0, 0, (), fun _ => ⟨0, 0⟩⟩, ⟨.disabled, 0, 0⟩⟩
  sec := ⟨false, 0, .disabled, 0, 0, 0, (), fun _ => ⟨0, 0⟩⟩
  ctx := ⟨false, 0, 0, fun _ => 0⟩
  entered := 0

/-- A monitor of two segments, without a dynamic linker. -/
def staticCall : LoadCall Unit :=
  ⟨[47, 109], oneEnvSetup, ⟨twoSegments, none⟩, [], 100⟩

theorem staticCall_proper : Proper (roomyKern fun _ => [1, 2, 3]) staticCall.files := by
  refine ⟨⟨twoSegments_linked, by decide, by decide, by decide, ?_⟩, fun _ h => by cases h⟩
  intro f hf
  cases hf
  decide

theorem roomyKern_copies {File : Type} (content : File → List UInt8) :
    (roomyKern content).Copies := fun _ _ _ => Nat.zero_le _

theorem granted_answers_first : ∀ e ∈ answers (roomyKern fun _ => [1, 2, 3]) ⟨0, ()⟩ staticCall
    (outTask oneEnvState.p), Granted e := by
  decide +kernel

theorem nodLoadMonitor_first :
    AllOrNothing (roomyKern fun _ => [1, 2, 3]) ⟨0, ()⟩ staticCall (outTask oneEnvState.p) :=
  (nodLoadMonitor_allOrNothing_iff ⟨0, ()⟩ (roomyKern_maps _) (roomyKern_copies _)
    staticCall_proper ⟨by decide, by decide⟩).mpr (.inl granted_answers_first)

/-- The kernel with room, except that the last byte of the `nod_stack_info` cannot be copied. -/
def lastByteKern : Kern Unit :=
  { roomyKern fun _ => [1, 2, 3] with
    answer := fun s req =>
      match req with
      | .copyToUser _ 72 => 1
      | req => (roomyKern fun _ => [1, 2, 3]).answer s req }

/-- The entry of a thread whose monitor is loaded. -/
def loadedEntry : ProcEntry := ⟨0x5000, 100, 1, -1, 0x10000, 0x20000, 0x21000, .nodOut, .zero⟩

/-- **One byte that could not be copied is reported as success**: the thread is not sent into the
monitor, and the result says that it is. -/
theorem nodLoadMonitor_oneByteLeft :
    (nodLoadMonitor lastByteKern ⟨0, ()⟩ staticCall (outTask loadedEntry)).1 = nodSuccessLoad ∧
      (nodLoadMonitor lastByteKern ⟨0, ()⟩ staticCall (outTask loadedEntry)).2.entered = 0 ∧
      (nodLoadMonitor lastByteKern ⟨0, ()⟩ staticCall (outTask loadedEntry)).2.state.p.status =
        .nodOut ∧
      ¬AllOrNothing lastByteKern ⟨0, ()⟩ staticCall (outTask loadedEntry) := by
  have hret : (nodLoadMonitor lastByteKern ⟨0, ()⟩ staticCall (outTask loadedEntry)).1 =
      nodSuccessLoad := by decide +kernel
  have hzero : (nodLoadMonitor lastByteKern ⟨0, ()⟩ staticCall (outTask loadedEntry)).2.entered =
      0 := by decide +kernel
  refine ⟨hret, hzero, by decide +kernel, fun h => ?_⟩
  have hent := (h.1.mp hret).entered
  rw [hzero] at hent
  cases hent

end Loader

end NoDrop
