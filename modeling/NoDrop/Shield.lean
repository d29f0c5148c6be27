import NoDrop.DevMmap
import NoDrop.LoadMonitor
import NoDrop.Lib.Runs
import NoDrop.Pages

/-! # Keeping the application off the monitor's memory

While a thread is in the application it must not unmap, protect or move what is mapped for the
monitor.  `munmap`, `mprotect` and `mremap` are hooked, and `mm_range_filter` of `kmodule/trace.c`
refuses those that are about the monitor's memory.  It takes for that what is mapped from the file
of the monitor, in the range that the first two arguments give.

The loader maps more for the monitor than its file (`doLoadMonitor_areas`): the memory for which
the file has no bytes, a stack, the dynamic linker; the monitor itself maps its buffer; and the
target of `mremap` is in the last argument.  `shielded_iff` says which calls are refused as they
should be, and `stack_unshielded` that after no load all of them are.
-/
namespace NoDrop

open Areas Bytes Runs

/-! ## The calls -/

/-- The system calls that are filtered.  Of the flags of `mremap` there are `MREMAP_MAYMOVE` and
`MREMAP_FIXED`. -/
inductive MmCall where
  | munmap (addr length : UInt64)
  | mprotect (addr length : UInt64) (prot : Prot)
  | mremap (addr oldLen newLen : UInt64) (mayMove fixed : Bool) (newAddr : UInt64)

namespace MmCall

/-- The first two arguments. -/
def addr : MmCall → UInt64
  | .munmap addr _ | .mprotect addr _ _ | .mremap addr .. => addr

def length : MmCall → UInt64
  | .munmap _ length | .mprotect _ length _ | .mremap _ length .. => length

/-- A range of user space. -/
def userRange (start len : Nat) : List (Nat × Nat) :=
  if start + len ≤ taskSize then [(start, len)] else []

/-- The target that `mremap` gets with `MREMAP_FIXED` is one: whole pages of user space, apart from
the old range. -/
def TargetOk (addr newAddr old new : Nat) : Prop :=
  newAddr % pageSize = 0 ∧ newAddr + new ≤ taskSize ∧
    ((addr + old) % 2 ^ 64 ≤ newAddr ∨ newAddr + new ≤ addr)

instance (addr newAddr old new : Nat) : Decidable (TargetOk addr newAddr old new) :=
  inferInstanceAs (Decidable (_ ∧ _ ∧ _))

/-- The pages that the call unmaps, protects, moves or maps over, by start and length, where the
kernel does not refuse its arguments. -/
def ranges : MmCall → List (Nat × Nat)
  | .munmap addr length =>
      if addr.toNat % pageSize = 0 ∧ length ≠ 0 then
        userRange addr.toNat (pageAlign length.toNat)
      else []
  | .mprotect addr length _ =>
      if addr.toNat % pageSize = 0 ∧ addr.toNat + pageAlign length.toNat < 2 ^ 64 then
        [(addr.toNat, pageAlign length.toNat)]
      else []
  | .mremap addr oldLen newLen mayMove fixed newAddr =>
      let old := pageAlign oldLen.toNat % 2 ^ 64
      let new := pageAlign newLen.toNat % 2 ^ 64
      if addr.toNat % pageSize ≠ 0 ∨ new = 0 ∨ (fixed = true ∧ mayMove = false) ∨
          (fixed = true ∧ ¬TargetOk addr.toNat newAddr.toNat old new) then []
      else
        -- the target is unmapped before the old range is looked at, and a range that shrinks loses
        -- what is behind its new end, wherever that is in 64 bits
        (if fixed then [(newAddr.toNat, new)] else []) ++
          userRange ((addr.toNat + new) % 2 ^ 64) (old - new) ++ userRange addr.toNat old

end MmCall

section Code

variable {File : Type} [DecidableEq File]

/-- `mm_range_filter`, where `p` is the status in the task's `nod_proc_info`, if it has one. -/
def mmRangeFilter (filpMonitor : File) (p : Option ProcStatus) (mmap : List (Vma File))
    (addr length : UInt64) : Option Int :=
  match p with
  | none => some 0
  | some .nodIn | some .nodRestoreContext | some .nodRestoreSecurity => some 0
  | some _ =>
      (nodMmapCheck filpMonitor mmap addr length).map fun found =>
        if found ≠ 0 then -einval else 0

/-- `hook_general` in one of the three calls; `old` is what the kernel does. -/
def hookGeneral (old : MmCall → AddrSpace File → Int × AddrSpace File) (filpMonitor : File)
    (p : Option ProcStatus) (c : MmCall) (sp : AddrSpace File) : Option (Int × AddrSpace File) :=
  (mmRangeFilter filpMonitor p sp.mmap c.addr c.length).map fun ret =>
    if ret ≠ 0 then (ret, sp) else old c sp

end Code

/-! ## What is shielded -/

section Shield

variable {File : Type} [DecidableEq File]

/-- The task is not in the monitor. -/
def OutsideMonitor (p : Option ProcStatus) : Prop :=
  p ≠ some .nodIn ∧ p ≠ some .nodRestoreContext ∧ p ≠ some .nodRestoreSecurity

/-- The call is about a page that is mapped for the monitor. -/
def OnMonitor (c : MmCall) (sp : AddrSpace File) : Prop :=
  ∃ r ∈ c.ranges, ∃ a ∈ sp.mmap, a.val.owner ≠ .application ∧ Shares r.1 r.2 a

/-- A call that is about the monitor's memory is refused by the filter, and changes nothing. -/
def Shielded (old : MmCall → AddrSpace File → Int × AddrSpace File) (filp : File)
    (p : Option ProcStatus) (c : MmCall) (sp : AddrSpace File) : Prop :=
  OnMonitor c sp → mmRangeFilter filp p sp.mmap c.addr c.length = some (-einval) ∧
    hookGeneral old filp p c sp = some (-einval, sp)

/-- The range of the first two arguments does not wrap around and has an address of a file segment
of the monitor, and the task has a `nod_proc_info`. -/
def Recognised (filp : File) (p : Option ProcStatus) (c : MmCall) (sp : AddrSpace File) : Prop :=
  p ≠ none ∧ c.addr.toNat + c.length.toNat < 2 ^ 64 ∧
    ∃ a ∈ sp.mmap, a.val.owner = .segment filp ∧ Shares c.addr.toNat c.length.toNat a

/-- What is mapped from the file of the monitor are its segments. -/
def Labelled (filp : File) (info : VmInfo File) : Prop :=
  info.vmFile = some filp ↔ info.owner = .segment filp

variable {old : MmCall → AddrSpace File → Int × AddrSpace File} {filp : File}
  {p : Option ProcStatus} {c : MmCall} {sp : AddrSpace File}

/-- What the filter makes of the check. -/
theorem filter_of_check (mmap : List (Vma File)) (addr length : UInt64) :
    ((nodMmapCheck filp mmap addr length).map fun found => if found ≠ 0 then -einval else 0) =
      some (-einval) ↔ nodMmapCheck filp mmap addr length = some 1 := by
  unfold nodMmapCheck
  cases checkMapping filp (getMonitorAddr addr length) mmap with
  | none => exact ⟨fun h => absurd h.symm (Option.some_ne_none _), fun h => absurd h.symm
      (Option.some_ne_none _)⟩
  | some found => cases found <;> decide

/-- The filter recognises the segments of the monitor, for a task that it knows. -/
theorem mmRangeFilter_eq (h : Tidy (Labelled filp) sp.mmap) (hp : OutsideMonitor p) :
    mmRangeFilter filp p sp.mmap c.addr c.length = some (-einval) ↔ Recognised filp p c sp := by
  have hcheck : nodMmapCheck filp sp.mmap c.addr c.length = some 1 ↔
      c.addr.toNat + c.length.toNat < 2 ^ 64 ∧
        ∃ a ∈ sp.mmap, a.val.owner = .segment filp ∧ Shares c.addr.toNat c.length.toNat a := by
    by_cases hw : c.addr.toNat + c.length.toNat < 2 ^ 64
    · rw [nodMmapCheck_eq_one, checkMapping_ok_iff h.sorted hw, and_iff_right hw]
      refine exists_congr fun a => and_congr_right fun ha => ?_
      exact and_congr_left fun _ => decide_eq_true_iff.trans (h.info a ha)
    · rw [nodMmapCheck_wrapped (Nat.le_of_not_lt hw)]
      exact iff_of_false (by decide) fun hr => hw hr.1
  rw [Recognised, ← hcheck, ← filter_of_check]
  cases p with
  | none => exact ⟨fun hz => absurd hz (show some (0 : Int) ≠ some (-einval) by decide),
      fun hn => absurd rfl hn.1⟩
  | some status =>
    rw [and_iff_right (Option.some_ne_none _)]
    cases status with
    | nodIn => exact absurd rfl hp.1
    | nodRestoreContext => exact absurd rfl hp.2.1
    | nodRestoreSecurity => exact absurd rfl hp.2.2
    | _ => rfl

/-- A call is shielded just where it is recognised or needs no shield. -/
theorem shielded_iff_of_tidy (h : Tidy (Labelled filp) sp.mmap) (hp : OutsideMonitor p) :
    Shielded old filp p c sp ↔ (OnMonitor c sp → Recognised filp p c sp) := by
  refine forall_congr' fun _ => ?_
  rw [mmRangeFilter_eq h hp]
  refine and_iff_left_of_imp fun hrec => ?_
  rw [hookGeneral, (mmRangeFilter_eq h hp).mpr hrec, Option.map_some,
    if_pos (show -einval ≠ 0 by decide)]

/-! ## After a load -/

/-- What happens to the address space afterwards: something is mapped, by the application or by
the monitor for its buffer, with any contents; or one of the three calls is made, by anyone. -/
inductive SpaceAct (File : Type) where
  | mmap (start len : Nat) (info : VmInfo File) (mem : Image)
  | call (p : Option ProcStatus) (c : MmCall)

/-- A mapping that is not of the loader: whole pages, for the application or for the buffer, and
not from the file that only the module has opened. -/
def NotLoaders (filp : File) (start len : Nat) (info : VmInfo File) : Prop :=
  start % pageSize = 0 ∧ 0 < len ∧ len % pageSize = 0 ∧ info.vmFile ≠ some filp ∧
    (info.owner = .application ∨ info.owner = .buffer)

instance instDecidableNotLoaders (filp : File) (start len : Nat) (info : VmInfo File) :
    Decidable (NotLoaders filp start len info) :=
  inferInstanceAs (Decidable (_ ∧ _ ∧ _ ∧ _ ∧ _))

def spaceStep (old : MmCall → AddrSpace File → Int × AddrSpace File) (filp : File)
    (sp : AddrSpace File) : SpaceAct File → Option (AddrSpace File)
  | .mmap start len info mem =>
      if NotLoaders filp start len info then
        some ⟨Areas.map ⟨start, start + len, info⟩ sp.mmap, mem⟩
      else none
  | .call p c => (hookGeneral old filp p c sp).map Prod.snd

/-- The kernel keeps the areas in order and as whole pages, and does not change what a page is
for by moving it. -/
def KernelTidy (old : MmCall → AddrSpace File → Int × AddrSpace File) (filp : File) : Prop :=
  ∀ c sp, Tidy (Labelled filp) sp.mmap → Tidy (Labelled filp) (old c sp).2.mmap

theorem tidy_step (hold : KernelTidy old filp) {sp' : AddrSpace File} {a : SpaceAct File}
    (h : Tidy (Labelled filp) sp.mmap) (hs : stepOf (spaceStep old filp) sp a sp') :
    Tidy (Labelled filp) sp'.mmap := by
  cases a with
  | mmap start len info mem =>
    simp only [stepOf, spaceStep] at hs
    split at hs
    · rename_i hnew
      cases hs
      obtain ⟨hstart, hlen, hpage, hfile, howner⟩ := hnew
      refine h.map (Nat.lt_add_of_pos_right hlen) hstart ?_ ?_
      · rw [Nat.add_mod, hstart, hpage]
        rfl
      · refine iff_of_false hfile fun hseg => ?_
        rcases howner with heq | heq <;> rw [heq] at hseg <;> cases hseg
    · cases hs
  | call p c =>
    obtain ⟨r, hr, rfl⟩ := Option.map_eq_some_iff.mp hs
    obtain ⟨ret, -, rfl⟩ := Option.map_eq_some_iff.mp hr
    split
    · exact h
    · exact hold c sp h

omit [DecidableEq File] in
theorem loadLabels (files : LoadFiles File) :
    Loader.LoadLabels (Labelled files.monitor.file) files := by
  have hlabels : ∀ file : File, Labels (Labelled files.monitor.file) file := fun file =>
    ⟨fun _ => ⟨fun h => by rw [Option.some.inj h], fun h => by cases h; rfl⟩,
      fun _ => iff_of_false (Option.some_ne_none _).symm fun h => by cases h⟩
  exact ⟨hlabels _, fun img _ => hlabels img.file,
    fun _ => iff_of_false (Option.some_ne_none _).symm fun h => by cases h⟩

section Load

variable {k : Kern File} {setup : LoadSetup} {files : LoadFiles File}
  {argv : List (List UInt8)} {t t' : LoadState File}

/-- **After every load the application can unmap the monitor's stack.** -/
theorem stack_unshielded (hk : k.Maps)
    (ht : Tidy (Labelled files.monitor.file) t.sys.space.mmap)
    (hload : Loader.doLoadMonitor k setup files argv t = (.ok (), t')) :
    ∃ c, ∀ p, OutsideMonitor p → OnMonitor c t'.sys.space ∧
      ¬Shielded old files.monitor.file p c t'.sys.space := by
  obtain ⟨htidy, x, hx, prot, hlookup⟩ :=
    Loader.doLoadMonitor_areas hk (loadLabels files) ht hload
  obtain ⟨a, ha, hin, hval⟩ := (lookup_eq_some_iff htidy.sorted).mp hlookup
  have htop : taskSize % pageSize = 0 := by decide
  have hpage : pageStart x + pageSize ≤ taskSize := by
    unfold pageStart pageSize at *
    omega
  have haddr : (UInt64.ofNat (pageStart x)).toNat = pageStart x := by
    refine UInt64.toNat_ofNat_of_lt' (Nat.lt_of_le_of_lt (pageStart_le x) ?_)
    exact Nat.lt_trans hx (by decide)
  have hlen : pageAlign (4096 : UInt64).toNat = pageSize := by decide
  have hown : ∀ b ∈ t'.sys.space.mmap, Shares (pageStart x) pageSize b → b = a := by
    rintro b hb ⟨y, hy, hlo, hhi⟩
    refine htidy.sorted.eq_of_has hb ha hy (htidy.page_in ha hin ?_)
    unfold pageStart pageSize at *
    omega
  refine ⟨.munmap (UInt64.ofNat (pageStart x)) 4096, fun p hp => ?_⟩
  have hon : OnMonitor (.munmap (UInt64.ofNat (pageStart x)) 4096) t'.sys.space := by
    have hrange : (MmCall.munmap (UInt64.ofNat (pageStart x)) 4096).ranges =
        [(pageStart x, pageSize)] := by
      rw [MmCall.ranges, haddr, hlen, if_pos ⟨pageStart_mod x, by decide⟩, MmCall.userRange,
        if_pos hpage]
    refine ⟨_, by rw [hrange]; exact List.mem_cons_self, a, ha, ?_, x, hin, pageStart_le x, ?_⟩
    · rw [hval]
      exact fun h => by cases h
    · show x < pageStart x + pageSize
      unfold pageStart pageSize
      omega
  refine ⟨hon, fun hsh => ?_⟩
  obtain ⟨-, -, b, hb, hseg, hshares⟩ := (shielded_iff_of_tidy htidy hp).mp hsh hon
  have hba : b = a := by
    refine hown b hb ?_
    have heq : Shares (UInt64.ofNat (pageStart x)).toNat (4096 : UInt64).toNat b := hshares
    rwa [haddr] at heq
  rw [hba, hval] at hseg
  cases hseg

end Load

end Shield

/-! ## The stack is taken away -/

/-- A kernel that unmaps, and has no memory for the other two. -/
def unmapOnly : MmCall → AddrSpace Unit → Int × AddrSpace Unit
  | .munmap addr length, sp =>
      if addr.toNat % pageSize = 0 ∧ length ≠ 0 ∧
          addr.toNat + pageAlign length.toNat ≤ taskSize then
        (0, { sp with
          mmap := Areas.unmap addr.toNat (addr.toNat + pageAlign length.toNat) sp.mmap })
      else (-einval, sp)
  | _, sp => (-12, sp)

theorem unmapOnly_tidy : KernelTidy unmapOnly () := by
  intro c sp h
  cases c with
  | munmap addr length =>
    simp only [unmapOnly]
    split
    · rename_i hok
      refine h.unmap (Nat.le_add_right ..) hok.1 ?_
      rw [Nat.add_mod, hok.1, pageAlign_mod]
      rfl
    · exact h
  | mprotect addr length prot => exact h
  | mremap addr oldLen newLen mayMove fixed newAddr => exact h

/-- The monitor of two segments, without a dynamic linker. -/
def staticFiles : LoadFiles Unit := ⟨twoSegments, none⟩

/-- The monitor, loaded. -/
def staticLoaded : LoadState Unit :=
  (Loader.doLoadMonitor (roomyKern fun _ => [1, 2, 3]) Loader.oneEnvSetup staticFiles [[47, 109]]
    Loader.oneEnvState).2

theorem staticLoaded_eq : Loader.doLoadMonitor (roomyKern fun _ => [1, 2, 3]) Loader.oneEnvSetup
    staticFiles [[47, 109]] Loader.oneEnvState = (.ok (), staticLoaded) := by
  have hok : (Loader.doLoadMonitor (roomyKern fun _ => [1, 2, 3]) Loader.oneEnvSetup staticFiles
      [[47, 109]] Loader.oneEnvState).1.isOk = true := by
    decide +kernel
  rw [staticLoaded]
  generalize Loader.doLoadMonitor (roomyKern fun _ => [1, 2, 3]) Loader.oneEnvSetup staticFiles
    [[47, 109]] Loader.oneEnvState = r at hok
  obtain ⟨res, t'⟩ := r
  cases res with
  | ok u => rfl
  | error e => cases hok

theorem oneEnvState_tidy : Tidy (Labelled ()) Loader.oneEnvState.sys.space.mmap := by
  refine ⟨⟨by decide, by decide⟩, by decide, ?_⟩
  intro a ha
  obtain rfl := List.mem_singleton.mp ha
  exact iff_of_false (by decide) (by decide)

end NoDrop
