import Mathlib.Data.List.Nodup
import NoDrop.Trace

/-! # The process table

`kmodule/procinfo.c` keeps one `nod_proc_info` for each thread it has seen, in a hash
table whose key is the thread's pid.  A search takes the first entry with the pid, and a
new entry is put in front, so that for every pid the table is a list with the newest
entry first; here it is one list for all pids.

An entry is known by its address: the code holds on to `nod_proc_info` by pointer, in
`filp->private_data` also after it has been freed.
-/
namespace NoDrop

/-! ## Data -/

/-- `struct nod_stack_info`. -/
structure NodStackInfo where
  ioctlFd : Int32
  pkey : Int32
  syscallNr : Int32
  exitCode : Int64
  fsbase : UInt64
  hash : UInt64
  stackStart : UInt64
  stackEnd : UInt64
  buffer : UInt64
  bufferInfo : UInt64
deriving DecidableEq, Repr

/-- A cleared `struct nod_stack_info`. -/
def NodStackInfo.zero : NodStackInfo := ⟨0, 0, 0, 0, 0, 0, 0, 0, 0, 0⟩

/-- `struct nod_proc_info` at an address, without its buffer and the saved context and
privileges, which do not matter to the table. -/
structure ProcEntry where
  addr : Nat
  pid : Nat
  mm : Nat
  ioctlFd : Int
  entryAddr : UInt64
  stackAddr : UInt64
  stackInfoAddr : UInt64
  status : ProcStatus
  stackInfo : NodStackInfo
deriving DecidableEq, Repr

/-- The part of a `struct task_struct` that `procinfo.c` reads. -/
structure TaskIds where
  pid : Nat
  mm : Nat
deriving DecidableEq, Repr

/-- What `nod_proc_acquire` gets from the kernel: the address of a new `nod_proc_info`, if
there is memory, and a protection key. -/
structure AllocEnv where
  addr : Option Nat
  pkey : Int32

/-! ## `kmodule/procinfo.c` -/

namespace ProcTable

/-- `__find_proc_info`. -/
def findProcInfo (table : List ProcEntry) (pid : Nat) : Option ProcEntry :=
  table.find? fun p => p.pid = pid

/-- `__insert_proc_info`. -/
def insertProcInfo (table : List ProcEntry) (p : ProcEntry) : List ProcEntry := p :: table

/-- `__remove_proc_info`, after which the entry is freed. -/
def removeProcInfo (table : List ProcEntry) (p : ProcEntry) : List ProcEntry :=
  table.filter fun q => q.addr ≠ p.addr

/-- A change made to an entry through its address. -/
def putProcInfo (table : List ProcEntry) (p : ProcEntry) : List ProcEntry :=
  table.map fun q => if q.addr = p.addr then p else q

/-- `nod_proc_set_status`. -/
def nodProcSetStatus (p : ProcEntry) (status : ProcStatus) (fd : Int) : ProcEntry :=
  { p with status := status, ioctlFd := fd }

/-- `nod_init_procinfo`.  Of the fields that describe the monitor it clears `entry_addr`
and `stack_info`, but neither `stack_addr` nor `stack_info_addr`. -/
def nodInitProcinfo (task : TaskIds) (pkey : Int32) (p : ProcEntry) : ProcEntry :=
  { p with
    pid := task.pid
    mm := task.mm
    ioctlFd := -1
    entryAddr := 0
    stackInfo := { NodStackInfo.zero with pkey := pkey } }

@[simp] theorem nodProcSetStatus_pid (p : ProcEntry) (status : ProcStatus) (fd : Int) :
    (nodProcSetStatus p status fd).pid = p.pid := rfl

@[simp] theorem nodInitProcinfo_pid (task : TaskIds) (pkey : Int32) (p : ProcEntry) :
    (nodInitProcinfo task pkey p).pid = task.pid := rfl

/-- `nod_alloc_procinfo`. -/
def nodAllocProcinfo (addr : Nat) : ProcEntry := ⟨addr, 0, 0, 0, 0, 0, 0, .nodUnknown, .zero⟩

/-- `nod_proc_acquire`: the entry, if there is one now, and the table. -/
def nodProcAcquire (status : ProcStatus) (fd : Int) (task : TaskIds) (env : AllocEnv)
    (table : List ProcEntry) : Option ProcEntry × List ProcEntry :=
  match findProcInfo table task.pid, env.addr with
  | some p, _ =>
      let p := nodProcSetStatus p status fd
      (some p, putProcInfo table p)
  | none, some addr =>
      let p := nodProcSetStatus (nodInitProcinfo task env.pkey (nodAllocProcinfo addr)) status fd
      (some p, insertProcInfo table p)
  | none, none => (none, table)

/-- `nod_proc_release`. -/
def nodProcRelease (pid : Nat) (table : List ProcEntry) : List ProcEntry :=
  match findProcInfo table pid with
  | some p => removeProcInfo table p
  | none => table

/-- `nod_copy_procinfo`, for a task of the group of `tgid`: what is called the parent there is
the leader of the task's own group. -/
def nodCopyProcinfo (table : List ProcEntry) (tgid : Nat) (p : ProcEntry) : ProcEntry :=
  match findProcInfo table tgid with
  | some parent => { p with entryAddr := parent.entryAddr, stackInfo := parent.stackInfo }
  | none => p

/-- `nod_share_procinfo`, which takes the protection key over. -/
def nodShareProcinfo (table : List ProcEntry) (tgid : Nat) (p : ProcEntry) : ProcEntry :=
  match findProcInfo table tgid with
  | some parent => { p with stackInfo := { p.stackInfo with pkey := parent.stackInfo.pkey } }
  | none => p

/-- `nod_event_from`. -/
def nodEventFrom (table : List ProcEntry) (pid : Nat) : ProcStatus :=
  match findProcInfo table pid with
  | some p => p.status
  | none => .nodOut

/-! ## Searching -/

section Search

variable {table : List ProcEntry} {p q : ProcEntry} {pid : Nat}

theorem find_mem (h : findProcInfo table pid = some p) : p ∈ table ∧ p.pid = pid :=
  ⟨List.mem_of_find?_eq_some h, by simpa using List.find?_some h⟩

theorem find_none (h : findProcInfo table pid = none) : ∀ p ∈ table, p.pid ≠ pid := by
  intro p hp
  simpa using List.find?_eq_none.mp h p hp

/-- With one entry for each pid, a search finds every entry. -/
theorem find_of_mem (hn : (table.map (·.pid)).Nodup) (hp : p ∈ table) :
    findProcInfo table p.pid = some p := by
  cases hf : findProcInfo table p.pid with
  | none => exact absurd rfl (find_none hf p hp)
  | some q =>
    obtain ⟨hq, hpid⟩ := find_mem hf
    exact congrArg some (List.inj_on_of_nodup_map hn hq hp hpid)

theorem mem_insert : q ∈ insertProcInfo table p ↔ q = p ∨ q ∈ table := List.mem_cons

theorem mem_remove : q ∈ removeProcInfo table p ↔ q ∈ table ∧ q.addr ≠ p.addr := by
  simp [removeProcInfo]

theorem mem_put : q ∈ putProcInfo table p ↔
    (q = p ∧ ∃ r ∈ table, r.addr = p.addr) ∨ (q ∈ table ∧ q.addr ≠ p.addr) := by
  simp only [putProcInfo, List.mem_map]
  constructor
  · rintro ⟨r, hr, rfl⟩
    by_cases ha : r.addr = p.addr
    · exact Or.inl ⟨if_pos ha, r, hr, ha⟩
    · rw [if_neg ha]
      exact Or.inr ⟨hr, ha⟩
  · rintro (⟨rfl, r, hr, ha⟩ | ⟨hq, ha⟩)
    · exact ⟨r, hr, if_pos ha⟩
    · exact ⟨q, hq, if_neg ha⟩

end Search

/-! ## One entry for each pid -/

/-- No two entries have the same pid, or the same address. -/
structure Keyed (table : List ProcEntry) : Prop where
  pids : (table.map (·.pid)).Nodup
  addrs : (table.map (·.addr)).Nodup

namespace Keyed

variable {table : List ProcEntry} {p q : ProcEntry}

theorem nil : Keyed [] := ⟨List.nodup_nil, List.nodup_nil⟩

theorem eq_of_addr (h : Keyed table) (hp : p ∈ table) (hq : q ∈ table) (ha : p.addr = q.addr) :
    p = q :=
  List.inj_on_of_nodup_map h.addrs hp hq ha

theorem eq_of_pid (h : Keyed table) (hp : p ∈ table) (hq : q ∈ table) (ha : p.pid = q.pid) :
    p = q :=
  List.inj_on_of_nodup_map h.pids hp hq ha

theorem insert (h : Keyed table) (hpid : findProcInfo table p.pid = none)
    (haddr : ∀ q ∈ table, q.addr ≠ p.addr) : Keyed (insertProcInfo table p) := by
  constructor
  · rw [insertProcInfo, List.map_cons, List.nodup_cons, List.mem_map]
    refine ⟨?_, h.pids⟩
    rintro ⟨q, hq, he⟩
    exact find_none hpid q hq he
  · rw [insertProcInfo, List.map_cons, List.nodup_cons, List.mem_map]
    refine ⟨?_, h.addrs⟩
    rintro ⟨q, hq, he⟩
    exact haddr q hq he

theorem remove (h : Keyed table) (p : ProcEntry) : Keyed (removeProcInfo table p) :=
  ⟨h.pids.sublist (List.filter_sublist.map _), h.addrs.sublist (List.filter_sublist.map _)⟩

/-- Writing to an entry keeps the keys if it keeps the pid. -/
theorem put (h : Keyed table) (hq : q ∈ table) (ha : q.addr = p.addr) (hp : q.pid = p.pid) :
    Keyed (putProcInfo table p) := by
  have hmap : ∀ {β : Type} (f : ProcEntry → β), f p = f q →
      (putProcInfo table p).map f = table.map f := by
    intro β f hf
    rw [putProcInfo, List.map_map]
    apply List.map_congr_left
    intro r hr
    show f (if r.addr = p.addr then p else r) = f r
    by_cases hra : r.addr = p.addr
    · rw [if_pos hra, hf, h.eq_of_addr hr hq (hra.trans ha.symm)]
    · rw [if_neg hra]
  constructor
  · rw [hmap (·.pid) hp.symm]
    exact h.pids
  · rw [hmap (·.addr) ha.symm]
    exact h.addrs

theorem find_insert (table : List ProcEntry) (p : ProcEntry) (pid : Nat) :
    findProcInfo (insertProcInfo table p) pid =
      if p.pid = pid then some p else findProcInfo table pid := by
  by_cases h : p.pid = pid
  · simp [findProcInfo, insertProcInfo, h]
  · simp [findProcInfo, insertProcInfo, h]

/-- A search after an entry has changed. -/
theorem find_put (h : Keyed table) (hq : q ∈ table) (ha : q.addr = p.addr) (hp : q.pid = p.pid)
    (pid : Nat) : findProcInfo (putProcInfo table p) pid =
      if p.pid = pid then some p else findProcInfo table pid := by
  have hkeyed := h.put hq ha hp
  have hmem : p ∈ putProcInfo table p := mem_put.mpr (Or.inl ⟨rfl, q, hq, ha⟩)
  by_cases he : p.pid = pid
  · rw [if_pos he, ← he]
    exact find_of_mem hkeyed.pids hmem
  · rw [if_neg he]
    cases hf : findProcInfo table pid with
    | some r =>
      obtain ⟨hr, hrpid⟩ := find_mem hf
      have hne : r.addr ≠ p.addr := by
        intro hra
        rw [h.eq_of_addr hr hq (hra.trans ha.symm), hp] at hrpid
        exact he hrpid
      rw [← hrpid]
      exact find_of_mem hkeyed.pids (mem_put.mpr (Or.inr ⟨hr, hne⟩))
    | none =>
      apply List.find?_eq_none.mpr
      intro r hr
      rcases mem_put.mp hr with ⟨rfl, -⟩ | ⟨hr, -⟩
      · simpa using he
      · simpa using find_none hf r hr

/-- A search after an entry has been removed. -/
theorem find_remove (h : Keyed table) (hp : p ∈ table) (pid : Nat) :
    findProcInfo (removeProcInfo table p) pid =
      if p.pid = pid then none else findProcInfo table pid := by
  by_cases he : p.pid = pid
  · rw [if_pos he]
    apply List.find?_eq_none.mpr
    intro r hr
    obtain ⟨hr, hne⟩ := mem_remove.mp hr
    have hrp : r.pid ≠ pid := fun hrp =>
      hne (congrArg ProcEntry.addr (h.eq_of_pid hr hp (hrp.trans he.symm)))
    simpa using hrp
  · rw [if_neg he]
    cases hf : findProcInfo table pid with
    | some r =>
      obtain ⟨hr, hrpid⟩ := find_mem hf
      have hne : r.addr ≠ p.addr := by
        intro hra
        rw [h.eq_of_addr hr hp hra] at hrpid
        exact he hrpid
      rw [← hrpid]
      exact find_of_mem (h.remove p).pids (mem_remove.mpr ⟨hr, hne⟩)
    | none =>
      apply List.find?_eq_none.mpr
      intro r hr
      simpa using find_none hf r (mem_remove.mp hr).1

end Keyed

end ProcTable

end NoDrop
