import NoDrop.TaskTable

/-! # New tasks

The first that the module sees of a new task is its return, with 0, from the call that has
made it.  `syscall_exit_probe` then marks the task's `nod_proc_info`: a task that shares
its creator's memory is to load a monitor of its own, any other is to go on with the one it
has got with its copy of the memory, which `nod_load_monitor` then fills in.

* The mark is set for `clone` alone, and by the second argument, the new stack, while the
  flags are the first one.
* What is filled in comes from the leader of the task's own group, which for a task with
  its own memory is the task itself.

So a new task follows its creator as it is meant to just if it is made by `clone`, the two
arguments agree in `CLONE_VM`, and there is nothing to fill in (`followsCreator_iff`).
-/
namespace NoDrop

open ProcTable

/-! ## The call -/

/-- The calls that make a task. -/
inductive CreateCall where
  | clone | clone3 | fork | vfork
deriving DecidableEq, Repr

/-- As the probe tells them apart. -/
def CreateCall.sysno : CreateCall → Sysno
  | .clone => .clone
  | .clone3 => .other 435
  | .fork => .other 57
  | .vfork => .other 58

/-- A call that makes a task: the first two argument registers, and the flags in the
`struct clone_args` that `clone3` is given. -/
structure CreateArgs where
  call : CreateCall
  di : UInt64
  si : UInt64
  cloneArgs : UInt64

namespace CreateArgs

/-- `CLONE_THREAD`. -/
def cloneThread : UInt64 := 0x10000

/-- The flags as `f_proc_startupdate` reads them for the record of the call. -/
def flags (c : CreateArgs) : UInt64 :=
  match c.call with
  | .clone => c.di
  | .clone3 => c.cloneArgs
  | .fork | .vfork => 0

/-- The new task shares its creator's memory. -/
def sharesMemory (c : CreateArgs) : Prop := c.flags &&& cloneVm ≠ 0 ∨ c.call = .vfork

/-- The new task is a thread of its creator's group. -/
def sharesGroup (c : CreateArgs) : Prop := c.flags &&& cloneThread ≠ 0

instance (c : CreateArgs) : Decidable c.sharesMemory := inferInstanceAs (Decidable (_ ∨ _))

instance (c : CreateArgs) : Decidable c.sharesGroup := inferInstanceAs (Decidable (_ ≠ _))

/-- What the kernel makes of the call: a thread of the same group shares its memory, and is
led by the same leader; any other task leads a group of its own. -/
structure Makes (c : CreateArgs) (creator child : Task) : Prop where
  thread : c.sharesGroup → c.sharesMemory
  tgid : child.tgid = if c.sharesGroup then creator.tgid else child.pid

end CreateArgs

/-! ## Following the creator -/

/-- What is promised of a new task: it is marked by what it shares, and if it is marked as
having its own copy of a loaded monitor, its first `nod_load_monitor`, with the table then
`later`, takes the creator's. -/
structure FollowsCreator (s : TaskSystem) (tid : Nat) (creator child : Task) (c : CreateArgs)
    (env : AllocEnv) (later : List ProcEntry) : Prop where
  marked : ∃ p, findProcInfo (s.syscallExitProbe tid child c.call.sysno 0 c.si env).table child.pid =
    some p ∧ p.status = if c.sharesMemory then .nodShare else .nodClone
  inherits : ∀ p q, findProcInfo later child.pid = some p → p.status = .nodClone →
    findProcInfo later creator.pid = some q → q.entryAddr ≠ 0 →
    (ProcTable.nodCopyProcinfo later child.tgid p).entryAddr = q.entryAddr ∧
      (ProcTable.nodCopyProcinfo later child.tgid p).stackInfo = q.stackInfo

section Follows

variable {s : TaskSystem} {tid : Nat} {creator child : Task} {c : CreateArgs} {env : AllocEnv}
  {later : List ProcEntry}

/-- The probe marks a task that it sees for the first time by the second argument of
`clone`, and else takes it for one that was there before. -/
theorem probe_new (tid : Nat) (hobs : s.observes child = true)
    (hnew : findProcInfo s.table child.pid = none)
    (haddr : env.addr ≠ none) :
    ∃ p, findProcInfo (s.syscallExitProbe tid child c.call.sysno 0 c.si env).table child.pid = some p ∧
      p.entryAddr = 0 ∧ p.status =
        if c.call = .clone then if c.si &&& cloneVm = 0 then .nodClone else .nodShare else .nodOut := by
  obtain ⟨addr, haddr⟩ := Option.ne_none_iff_exists'.mp haddr
  have hacquire : ∀ status, ∃ p, findProcInfo (s.acquire tid child status env).table child.pid =
      some p ∧ p.entryAddr = 0 ∧ p.status = status := by
    intro status
    refine ⟨ProcTable.nodProcSetStatus (ProcTable.nodInitProcinfo child.ids env.pkey
      (ProcTable.nodAllocProcinfo addr)) status (-1), ?_, rfl, rfl⟩
    simp only [TaskSystem.acquire, ProcTable.nodProcAcquire, Task.ids, hnew, haddr]
    simp [findProcInfo, insertProcInfo, ProcTable.nodProcSetStatus, ProcTable.nodInitProcinfo]
  have hev : ProcTable.nodEventFrom s.table child.pid = .nodOut := by
    simp only [ProcTable.nodEventFrom, hnew]
  simp only [TaskSystem.syscallExitProbe, if_neg (by simp [hobs] : ¬s.observes child = false), hev,
    and_true]
  by_cases hclone : c.call = .clone
  · have hid : c.call.sysno = .clone := by rw [hclone]; rfl
    rw [if_pos hid, if_pos hclone]
    exact hacquire _
  · have hid : c.call.sysno ≠ .clone := by
      intro hid
      cases hc : c.call <;> rw [hc] at hid hclone <;> simp [CreateCall.sysno] at hid hclone
    rw [if_neg hid, if_pos hnew, if_neg hclone]
    exact hacquire _

/-- **A new task follows its creator** just if it is made by `clone`, the new stack has the
bit of `CLONE_VM` as the flags have it, and the task shares the memory or its creator has no
monitor loaded at its first `nod_load_monitor`. -/
theorem followsCreator_iff (hobs : s.observes child = true)
    (hnew : findProcInfo s.table child.pid = none) (haddr : env.addr ≠ none)
    (hmakes : c.Makes creator child)
    (hlater : findProcInfo later child.pid =
      findProcInfo (s.syscallExitProbe tid child c.call.sysno 0 c.si env).table child.pid) :
    FollowsCreator s tid creator child c env later ↔
      c.call = .clone ∧ (c.si &&& cloneVm = 0 ↔ c.di &&& cloneVm = 0) ∧
        (c.sharesMemory ∨ ∀ q, findProcInfo later creator.pid = some q → q.entryAddr = 0) := by
  obtain ⟨p, hp, hentry, hstatus⟩ := probe_new tid hobs hnew haddr
  rw [hp] at hlater
  constructor
  · rintro ⟨⟨p', hp', hmark⟩, hinherits⟩
    cases hp.symm.trans hp'
    rw [hmark] at hstatus
    by_cases hclone : c.call = .clone
    · have hshares : c.sharesMemory ↔ c.di &&& cloneVm ≠ 0 := by
        simp [CreateArgs.sharesMemory, CreateArgs.flags, hclone]
      rw [if_pos hclone] at hstatus
      refine ⟨hclone, ?_, ?_⟩
      · by_cases hm : c.sharesMemory
        · rw [if_pos hm] at hstatus
          by_cases hsi : c.si &&& cloneVm = 0
          · rw [if_pos hsi] at hstatus
            cases hstatus
          · exact iff_of_false hsi (hshares.mp hm)
        · rw [if_neg hm] at hstatus
          by_cases hsi : c.si &&& cloneVm = 0
          · exact iff_of_true hsi (not_not.mp fun h => hm (hshares.mpr h))
          · rw [if_neg hsi] at hstatus
            cases hstatus
      · by_cases hm : c.sharesMemory
        · exact Or.inl hm
        · refine Or.inr fun q hq => ?_
          by_contra hne
          rw [if_neg hm] at hmark
          -- the task leads its own group, and takes over what it has
          have hown : child.tgid = child.pid := by
            rw [hmakes.tgid, if_neg fun hg => hm (hmakes.thread hg)]
          have hcopy := (hinherits p q hlater hmark hq hne).1
          simp only [ProcTable.nodCopyProcinfo, hown, hlater, hentry] at hcopy
          exact hne hcopy.symm
    · rw [if_neg hclone] at hstatus
      split at hstatus <;> cases hstatus
  · rintro ⟨hclone, hbit, hrest⟩
    have hshares : c.sharesMemory ↔ c.di &&& cloneVm ≠ 0 := by
      simp [CreateArgs.sharesMemory, CreateArgs.flags, hclone]
    have hmark : p.status = if c.sharesMemory then .nodShare else .nodClone := by
      rw [hstatus, if_pos hclone]
      by_cases hm : c.sharesMemory
      · rw [if_pos hm, if_neg fun hsi => hshares.mp hm (hbit.mp hsi)]
      · rw [if_neg hm, if_pos (hbit.mpr (not_not.mp fun h => hm (hshares.mpr h)))]
    refine ⟨⟨p, hp, hmark⟩, ?_⟩
    intro p' q hp' hclone' hq hne
    cases hlater.symm.trans hp'
    rcases hrest with hm | hrest
    · rw [hmark, if_pos hm] at hclone'
      cases hclone'
    · exact absurd (hrest q hq) hne

/-- A shell of one thread. -/
def shellAlone : TaskSystem where
  registered := true
  tasks := Function.update (fun _ => none) 0 (some ⟨100, 100, 1, 1000, false, false⟩)
  table := []
  owner _ := 0

/-- A `fork` by way of `clone`, by a shell without a monitor. -/
theorem followsCreator_fork : FollowsCreator shellAlone 1 ⟨100, 100, 1, 1000, false, false⟩
    ⟨101, 101, 2, 1000, false, false⟩ ⟨.clone, 0x1200011, 0, 0⟩ ⟨some 0x5000, -1⟩
    (shellAlone.syscallExitProbe 1 ⟨101, 101, 2, 1000, false, false⟩ .clone 0 0
      ⟨some 0x5000, -1⟩).table := by
  refine (followsCreator_iff rfl rfl (by decide) ⟨by decide, by decide⟩ rfl).mpr ⟨rfl, by decide, ?_⟩
  refine Or.inr ?_
  rintro q ⟨⟩

/-- **A thread is taken for a process**: the flags of its `clone` share the memory, and its
stack pointer does not have the bit. -/
theorem thread_marked_clone : ¬ ∀ (s : TaskSystem) (tid : Nat) (creator child : Task)
    (c : CreateArgs) (env : AllocEnv) (later : List ProcEntry), s.observes child = true →
    findProcInfo s.table child.pid = none → env.addr ≠ none → c.Makes creator child →
    findProcInfo later child.pid =
      findProcInfo (s.syscallExitProbe tid child c.call.sysno 0 c.si env).table child.pid →
    FollowsCreator s tid creator child c env later := by
  intro hall
  obtain ⟨⟨p, hp, hmark⟩, -⟩ := hall shellAlone 1 ⟨100, 100, 1, 1000, false, false⟩
    ⟨101, 100, 1, 1000, false, false⟩ ⟨.clone, 0x3d0f00, 0x7ffff7d80e40, 0⟩ ⟨some 0x5000, -1⟩
    _ rfl rfl (by decide) ⟨by decide, by decide⟩ rfl
  cases (Option.some.inj hp)
  exact absurd hmark (by decide)

end Follows

end NoDrop
