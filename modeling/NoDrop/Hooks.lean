import NoDrop.Lib.Runs
import Mathlib.Logic.Function.Basic

/-! # The hooked system calls

`kmodule/trace.c` replaces five entries of the kernel's `sys_call_table` by one function,
`hook_general`, which asks a filter and then calls the entry it has replaced.  The old
entries are kept in `syscall_filters`, where `hook_general` looks them up, and they are
put there and taken away by `trace_syscall` and `untrace_syscall`, which any task may
cause at any time (`NOD_IOCTL_START_RECORDING`, `NOD_IOCTL_STOP_RECORDING`).

A thread in `hook_general` takes four steps: the entry through the table, the check of
`hooked`, the filter, and the call of `oldsyscall`.  Between any two of them the other
tasks may do anything, and nothing in the code keeps `untrace_syscall` from taking the old
entry away in between (`untrace_under_thread`).  Where it is not called while a thread is
inside, the hooks are transparent (`hooks_transparent`).

Left out of `struct nod_syscall_filter` is `enable`, which nothing reads.
-/
namespace NoDrop

open Runs

/-! ## Data -/

/-- A `sys_call_ptr_t`: no function, `hook_general`, or a function of the kernel. -/
inductive SysCallPtr where
  | null
  | hookGeneral
  | kernel (addr : UInt64)
deriving DecidableEq, Repr

/-- The filters that are installed. -/
inductive FilterFn where
  | exitFilter | mmRangeFilter
deriving DecidableEq, Repr

/-- What a filter returns if it does not return 0: `-EAGAIN` or `-EINVAL`. -/
def FilterFn.refusal : FilterFn → Int
  | .exitFilter => -11
  | .mmRangeFilter => -22

/-- `struct nod_syscall_filter`. -/
structure SyscallFilter where
  hooked : Bool
  filter : Option FilterFn
  oldsyscall : SysCallPtr

/-- `SYSCALL_TABLE_SIZE`. -/
def syscallTableSize : Nat := 512

/-- Where a thread is in `hook_general`.  Of a thread that has called the old entry it is
noted which function that was. -/
inductive HookPc where
  | out
  | entered (id : Nat)
  | checked (id : Nat)
  | passed (id : Nat)
  | called (id : Nat) (fn : SysCallPtr)
  | refused (code : Int)
  | bug
deriving DecidableEq, Repr

/-- The thread has yet to look something up in `syscall_filters[id]`. -/
def HookPc.inside : HookPc → Option Nat
  | .entered id | .checked id | .passed id => some id
  | .out | .called .. | .refused _ | .bug => none

/-- The shared variables of `trace.c`, and the threads. -/
structure Hooks where
  tracepointRegistered : Bool
  syscallTable : Nat → SysCallPtr
  syscallFilters : Nat → SyscallFilter
  threads : Nat → HookPc

namespace Hooks

/-- `syscall_table[id] = fn`. -/
def putTable (s : Hooks) (id : Nat) (fn : SysCallPtr) : Hooks :=
  { s with syscallTable := Function.update s.syscallTable id fn }

/-- `syscall_filters[id] = f`. -/
def putFilter (s : Hooks) (id : Nat) (f : SyscallFilter) : Hooks :=
  { s with syscallFilters := Function.update s.syscallFilters id f }

/-- The thread's next place. -/
def goto (s : Hooks) (tid : Nat) (pc : HookPc) : Hooks :=
  { s with threads := Function.update s.threads tid pc }

/-- The state in which the module is loaded, with the kernel's table. -/
def init (orig : Nat → UInt64) : Hooks where
  tracepointRegistered := false
  syscallTable id := .kernel (orig id)
  syscallFilters _ := ⟨false, none, .null⟩
  threads _ := .out

end Hooks

/-! ## `trace_syscall` and `untrace_syscall` -/

/-- The part of `hook_syscall` that is done once: the old entry is kept, and replaced. -/
def Hooks.install (s : Hooks) (id : Nat) : Hooks :=
  (s.putFilter id { s.syscallFilters id with
    hooked := true
    oldsyscall := s.syscallTable id }).putTable id .hookGeneral

/-- `hook_syscall`. -/
def hookSyscall (id : Nat) (filter : FilterFn) (s : Hooks) : Hooks :=
  if syscallTableSize ≤ id then s
  else
    let s := if (s.syscallFilters id).hooked then s else s.install id
    s.putFilter id { s.syscallFilters id with filter := some filter }

/-- `unhook_syscall`. -/
def unhookSyscall (id : Nat) (s : Hooks) : Hooks :=
  if syscallTableSize ≤ id then s
  else if (s.syscallFilters id).hooked then
    let s := s.putTable id (s.syscallFilters id).oldsyscall
    s.putFilter id { s.syscallFilters id with hooked := false, oldsyscall := .null }
  else s

/-- The system calls `trace_syscall` hooks, in its order: `exit`, `exit_group`, `munmap`,
`mprotect` and `mremap`. -/
def hookedSyscalls : List (Nat × FilterFn) :=
  [(60, .exitFilter), (231, .exitFilter), (11, .mmRangeFilter), (10, .mmRangeFilter),
    (25, .mmRangeFilter)]

/-- `trace_syscall`, given what the registration of the two probes returns. -/
def traceSyscall (sysExit procexit : Int) (s : Hooks) : Hooks :=
  if s.tracepointRegistered then s
  else if sysExit ≠ 0 then s
  else if procexit ≠ 0 then s
  else
    { hookedSyscalls.foldl (fun s h => hookSyscall h.1 h.2 s) s with tracepointRegistered := true }

/-- `untrace_syscall`. -/
def untraceSyscall (s : Hooks) : Hooks :=
  if s.tracepointRegistered then
    { hookedSyscalls.foldl (fun s h => unhookSyscall h.1 s) s with tracepointRegistered := false }
  else s

/-! ## `hook_general` -/

/-- What happens.  `enter` is a system call through the table, which is a step here if the
table leads to `hook_general`; `observed` says that the thread is no kernel thread and is
let through by `NOD_TEST`.  A filter that does not return is a thread that takes no
further step. -/
inductive HookAct where
  | trace (sysExit procexit : Int)
  | untrace
  | enter (tid id : Nat)
  | check (tid : Nat) (observed : Bool)
  | filter (tid : Nat) (ret : Int)
  | call (tid : Nat)
  | leave (tid : Nat)

/-- One step. -/
def hookStep (s : Hooks) : HookAct → Option Hooks
  | .trace sysExit procexit => some (traceSyscall sysExit procexit s)
  | .untrace => some (untraceSyscall s)
  | .enter tid id =>
      if s.threads tid = .out ∧ s.syscallTable id = .hookGeneral then
        some (s.goto tid (.entered id))
      else none
  | .check tid observed =>
      match s.threads tid with
      | .entered id =>
          if observed = false then some (s.goto tid (.passed id))
          -- `ASSERT(1 == syscall_filters[id].hooked)`
          else if (s.syscallFilters id).hooked then some (s.goto tid (.checked id))
          else some (s.goto tid .bug)
      | _ => none
  | .filter tid ret =>
      match s.threads tid with
      | .checked id =>
          match (s.syscallFilters id).filter with
          | some filter =>
              if ret = 0 then some (s.goto tid (.passed id))
              else if ret = filter.refusal then some (s.goto tid (.refused ret))
              else none
          | none => none
      | _ => none
  | .call tid =>
      match s.threads tid with
      | .passed id => some (s.goto tid (.called id (s.syscallFilters id).oldsyscall))
      | _ => none
  | .leave tid =>
      match s.threads tid with
      | .called .. | .refused _ => some (s.goto tid .out)
      | _ => none

/-! ## The invariant -/

namespace Hooks

variable {orig : Nat → UInt64} {s : Hooks}

/-- The entry is hooked, and the old one is kept. -/
structure Hooked (orig : Nat → UInt64) (s : Hooks) (id : Nat) : Prop where
  hooked : (s.syscallFilters id).hooked = true
  old : (s.syscallFilters id).oldsyscall = .kernel (orig id)
  table : s.syscallTable id = .hookGeneral

/-- The entry is the kernel's. -/
structure Bare (orig : Nat → UInt64) (s : Hooks) (id : Nat) : Prop where
  unhooked : (s.syscallFilters id).hooked = false
  table : s.syscallTable id = .kernel (orig id)

/-- Every entry is the kernel's or hooked, and only those are hooked that are meant to. -/
def Tidy (orig : Nat → UInt64) (s : Hooks) : Prop :=
  ∀ id, (id ∈ hookedSyscalls.map Prod.fst ∧ s.Hooked orig id) ∨ s.Bare orig id

/-- What holds where no thread loses its old entry. -/
structure Sound (orig : Nat → UInt64) (s : Hooks) : Prop where
  tidy : s.Tidy orig
  off : s.tracepointRegistered = false → ∀ id, s.Bare orig id
  inside : ∀ tid id, (s.threads tid).inside = some id → s.Hooked orig id
  called : ∀ tid id fn, s.threads tid = .called id fn → fn = .kernel (orig id)
  bug : ∀ tid, s.threads tid ≠ .bug

/-- An entry depends on its row and its filter only. -/
theorem Hooked.congr {t : Hooks} {id : Nat} (h : s.Hooked orig id)
    (hf : t.syscallFilters id = s.syscallFilters id) (ht : t.syscallTable id = s.syscallTable id) :
    t.Hooked orig id :=
  ⟨by rw [hf, h.hooked], by rw [hf, h.old], by rw [ht, h.table]⟩

theorem Bare.congr {t : Hooks} {id : Nat} (h : s.Bare orig id)
    (hf : t.syscallFilters id = s.syscallFilters id) (ht : t.syscallTable id = s.syscallTable id) :
    t.Bare orig id :=
  ⟨by rw [hf, h.unhooked], by rw [ht, h.table]⟩

end Hooks

/-! ### `hook_syscall` -/

section Hook

open Hooks

theorem hookedSyscalls_lt : ∀ id ∈ hookedSyscalls.map Prod.fst, id < syscallTableSize := by
  decide

variable {orig : Nat → UInt64} {s : Hooks} {id : Nat} (filter : FilterFn)

theorem hookSyscall_of_ne {j : Nat} (h : j ≠ id) :
    (hookSyscall id filter s).syscallFilters j = s.syscallFilters j ∧
      (hookSyscall id filter s).syscallTable j = s.syscallTable j := by
  simp only [hookSyscall]
  split
  · exact ⟨rfl, rfl⟩
  · split <;> simp [install, putFilter, putTable, Function.update_of_ne h]

@[simp] theorem hookSyscall_threads : (hookSyscall id filter s).threads = s.threads := by
  simp only [hookSyscall]
  split
  · rfl
  · split <;> rfl

/-- After `hook_syscall` the entry is hooked, whether or not it was before. -/
theorem hookSyscall_hooked (hid : id < syscallTableSize)
    (h : s.Hooked orig id ∨ s.Bare orig id) : (hookSyscall id filter s).Hooked orig id := by
  simp only [hookSyscall, if_neg (Nat.not_le.mpr hid)]
  rcases h with h | h
  · rw [if_pos h.hooked]
    refine ⟨?_, ?_, h.table⟩
    · simp [putFilter, h.hooked]
    · simp [putFilter, h.old]
  · rw [if_neg (by simp [h.unhooked])]
    refine ⟨?_, ?_, ?_⟩
    · simp [putFilter, putTable, install]
    · simp [putFilter, putTable, install, h.table]
    · simp [putFilter, putTable, install]

theorem hookSyscall_tidy (hid : id ∈ hookedSyscalls.map Prod.fst) (h : s.Tidy orig) :
    (hookSyscall id filter s).Tidy orig := by
  intro j
  by_cases hj : j = id
  · subst hj
    exact Or.inl ⟨hid, hookSyscall_hooked filter (hookedSyscalls_lt j hid)
      ((h j).imp_left And.right)⟩
  · obtain ⟨hf, ht⟩ := hookSyscall_of_ne filter hj
    rcases h j with ⟨hm, h⟩ | h
    · exact Or.inl ⟨hm, h.congr hf ht⟩
    · exact Or.inr (h.congr hf ht)

/-- What is hooked stays hooked. -/
theorem Hooks.Hooked.hookSyscall {j : Nat} (h : s.Hooked orig j) :
    (hookSyscall id filter s).Hooked orig j := by
  by_cases hj : j = id
  · subst hj
    by_cases hid : j < syscallTableSize
    · exact hookSyscall_hooked filter hid (Or.inl h)
    · rw [NoDrop.hookSyscall, if_pos (Nat.not_lt.mp hid)]
      exact h
  · obtain ⟨hf, ht⟩ := hookSyscall_of_ne filter hj
    exact h.congr hf ht

end Hook

/-! ### `unhook_syscall` -/

section Unhook

open Hooks

variable {orig : Nat → UInt64} {s : Hooks} {id : Nat}

theorem unhookSyscall_of_ne {j : Nat} (h : j ≠ id) :
    (unhookSyscall id s).syscallFilters j = s.syscallFilters j ∧
      (unhookSyscall id s).syscallTable j = s.syscallTable j := by
  simp only [unhookSyscall]
  split
  · exact ⟨rfl, rfl⟩
  · split
    · simp [putFilter, putTable, Function.update_of_ne h]
    · exact ⟨rfl, rfl⟩

@[simp] theorem unhookSyscall_threads : (unhookSyscall id s).threads = s.threads := by
  simp only [unhookSyscall]
  split
  · rfl
  · split <;> rfl

/-- After `unhook_syscall` the entry is the kernel's. -/
theorem unhookSyscall_bare (hid : id < syscallTableSize)
    (h : s.Hooked orig id ∨ s.Bare orig id) : (unhookSyscall id s).Bare orig id := by
  simp only [unhookSyscall, if_neg (Nat.not_le.mpr hid)]
  rcases h with h | h
  · rw [if_pos h.hooked]
    constructor
    · simp [putFilter]
    · simp [putFilter, putTable, h.old]
  · rw [if_neg (by simp [h.unhooked])]
    exact h

/-- An entry of the kernel's stays so. -/
theorem Hooks.Bare.unhookSyscall {j : Nat} (h : s.Bare orig j) :
    (unhookSyscall id s).Bare orig j := by
  by_cases hj : j = id
  · subst hj
    by_cases hid : j < syscallTableSize
    · exact unhookSyscall_bare hid (Or.inr h)
    · rw [NoDrop.unhookSyscall, if_pos (Nat.not_lt.mp hid)]
      exact h
  · obtain ⟨hf, ht⟩ := unhookSyscall_of_ne hj
    exact h.congr hf ht

/-- The loop of `untrace_syscall` gives every entry it comes to back to the kernel, and
those it has come to stay so. -/
theorem unhookAll_bare {l : List (Nat × FilterFn)}
    (hl : ∀ h ∈ l, h.1 ∈ hookedSyscalls.map Prod.fst) {j : Nat}
    (h : (j ∈ l.map Prod.fst ∧ s.Hooked orig j) ∨ s.Bare orig j) :
    (l.foldl (fun s h => unhookSyscall h.1 s) s).Bare orig j := by
  induction l generalizing s with
  | nil =>
    rcases h with ⟨hm, -⟩ | h
    · cases hm
    · exact h
  | cons x l ih =>
    rw [List.foldl_cons]
    apply ih (fun y hy => hl y (List.mem_cons_of_mem _ hy))
    rcases h with ⟨hm, h⟩ | h
    · by_cases hj : j = x.1
      · subst hj
        exact Or.inr (unhookSyscall_bare (hookedSyscalls_lt _ (hl x List.mem_cons_self)) (Or.inl h))
      · obtain ⟨hf, ht⟩ := unhookSyscall_of_ne (s := s) hj
        rw [List.map_cons, List.mem_cons] at hm
        exact Or.inl ⟨hm.resolve_left hj, h.congr hf ht⟩
    · exact Or.inr h.unhookSyscall

end Unhook

/-! ### `trace_syscall` and `untrace_syscall` -/

section Trace

open Hooks

variable {orig : Nat → UInt64} {s : Hooks}

theorem mem_hookedSyscalls {h : Nat × FilterFn} (hh : h ∈ hookedSyscalls) :
    h.1 ∈ hookedSyscalls.map Prod.fst :=
  List.mem_map_of_mem hh

theorem hookAll_threads :
    (hookedSyscalls.foldl (fun s h => hookSyscall h.1 h.2 s) s).threads = s.threads :=
  List.foldlRecOn (motive := fun t => t.threads = s.threads) hookedSyscalls
    (fun s h => hookSyscall h.1 h.2 s) rfl fun _ ht x _ => (hookSyscall_threads x.2).trans ht

theorem traceSyscall_threads {sysExit procexit : Int} :
    (traceSyscall sysExit procexit s).threads = s.threads := by
  simp only [traceSyscall]
  repeat' split
  · rfl
  · rfl
  · rfl
  · exact hookAll_threads

/-- `trace_syscall` does nothing, or it hooks: what it leaves is tidy, what was hooked is
hooked, and the threads are where they were. -/
theorem traceSyscall_cases (sysExit procexit : Int) (h : s.Tidy orig) :
    traceSyscall sysExit procexit s = s ∨
      ((traceSyscall sysExit procexit s).tracepointRegistered = true ∧
        (traceSyscall sysExit procexit s).Tidy orig ∧
        (∀ id, s.Hooked orig id → (traceSyscall sysExit procexit s).Hooked orig id) ∧
        (traceSyscall sysExit procexit s).threads = s.threads) := by
  simp only [traceSyscall]
  by_cases hr : s.tracepointRegistered = true
  · exact Or.inl (if_pos hr)
  by_cases h1 : sysExit ≠ 0
  · exact Or.inl (by rw [if_neg hr, if_pos h1])
  by_cases h2 : procexit ≠ 0
  · exact Or.inl (by rw [if_neg hr, if_neg h1, if_pos h2])
  rw [if_neg hr, if_neg h1, if_neg h2]
  -- the loop, and after it only `tracepoint_registered`
  let hookAll := fun (s : Hooks) (x : Nat × FilterFn) => hookSyscall x.1 x.2 s
  have htidy : (hookedSyscalls.foldl hookAll s).Tidy orig :=
    List.foldlRecOn hookedSyscalls hookAll h
      fun s hs x hx => hookSyscall_tidy x.2 (mem_hookedSyscalls hx) hs
  have hkeep : ∀ id, s.Hooked orig id → (hookedSyscalls.foldl hookAll s).Hooked orig id :=
    fun id hid => List.foldlRecOn (motive := fun s => s.Hooked orig id) hookedSyscalls hookAll hid
      fun s hs x _ => hs.hookSyscall x.2
  refine Or.inr ⟨rfl, ?_, fun id hid => (hkeep id hid).congr rfl rfl, hookAll_threads⟩
  intro id
  exact (htidy id).imp (fun h => ⟨h.1, h.2.congr rfl rfl⟩) (fun h => h.congr rfl rfl)

/-- `untrace_syscall` gives every entry back. -/
theorem untraceSyscall_bare (h : s.Sound orig) (id : Nat) : (untraceSyscall s).Bare orig id := by
  by_cases hr : s.tracepointRegistered = true
  · simp only [untraceSyscall, if_pos hr]
    exact (unhookAll_bare (fun _ => mem_hookedSyscalls) (h.tidy id)).congr rfl rfl
  · simp only [untraceSyscall, if_neg hr]
    exact h.off (by simpa using hr) id

theorem untraceSyscall_threads : (untraceSyscall s).threads = s.threads := by
  simp only [untraceSyscall]
  split
  · exact List.foldlRecOn (motive := fun t => t.threads = s.threads) hookedSyscalls
      (fun s x => unhookSyscall x.1 s) rfl fun t ht x _ => unhookSyscall_threads.trans ht
  · rfl

end Trace

/-- The thread that takes the step. -/
def HookAct.thread : HookAct → Option Nat
  | .enter tid _ | .check tid _ | .filter tid _ | .call tid | .leave tid => some tid
  | .trace .. | .untrace => none

/-- A thread moves by its own steps only. -/
theorem hookStep_threads {s t : Hooks} {a : HookAct} {tid : Nat} (h : hookStep s a = some t)
    (hother : a.thread ≠ some tid) : t.threads tid = s.threads tid := by
  have hgoto : ∀ {tid' : Nat} {pc : HookPc}, some tid' ≠ some tid →
      (s.goto tid' pc).threads tid = s.threads tid := fun hne =>
    Function.update_of_ne (fun heq => hne (congrArg some heq.symm)) ..
  cases a with
  | trace sysExit procexit =>
    cases h
    exact congrFun traceSyscall_threads tid
  | untrace =>
    cases h
    exact congrFun untraceSyscall_threads tid
  | enter | check | filter | call | leave =>
    simp only [hookStep] at h
    repeat' split at h
    all_goals cases h
    all_goals exact hgoto hother

/-! ## Transparency -/

section Transparency

open Hooks

variable {orig : Nat → UInt64} {s t : Hooks}

/-- What the hooks are to keep: a thread that `hook_general` has let through is in the
original entry, no thread has failed the assertion, and outside a recording the table is
the kernel's. -/
structure Hooks.Transparent (orig : Nat → UInt64) (s : Hooks) : Prop where
  called : ∀ tid id fn, s.threads tid = .called id fn → fn = .kernel (orig id)
  bug : ∀ tid, s.threads tid ≠ .bug
  off : s.tracepointRegistered = false → ∀ id, s.syscallTable id = .kernel (orig id)

/-- The condition on a step: `untrace_syscall` is called while no thread is inside
`hook_general`. -/
def NoneInside (s : Hooks) : HookAct → Prop
  | .untrace => ∀ tid, (s.threads tid).inside = none
  | _ => True

theorem Hooks.Sound.transparent (h : s.Sound orig) : s.Transparent orig :=
  ⟨h.called, h.bug, fun hr id => (h.off hr id).table⟩

theorem Hooks.sound_init : (Hooks.init orig).Sound orig := by
  refine ⟨fun id => Or.inr ⟨rfl, rfl⟩, fun _ id => ⟨rfl, rfl⟩, ?_, ?_, ?_⟩
  · rintro tid id ⟨⟩
  · rintro tid id fn ⟨⟩
  · rintro tid ⟨⟩

/-- A thread may go to any place from which it looks up a hooked entry, and to those from
which it looks up nothing. -/
theorem Hooks.Sound.goto (h : s.Sound orig) {tid : Nat} {pc : HookPc}
    (hinside : ∀ id, pc.inside = some id → s.Hooked orig id)
    (hcalled : ∀ id fn, pc = .called id fn → fn = .kernel (orig id)) (hbug : pc ≠ .bug) :
    (s.goto tid pc).Sound orig := by
  -- the shared variables are as they were, and so are the other threads
  refine ⟨fun id => ?_, fun hr id => (h.off hr id).congr rfl rfl, ?_, ?_, ?_⟩
  · exact (h.tidy id).imp (fun h => ⟨h.1, h.2.congr rfl rfl⟩) (fun h => h.congr rfl rfl)
  · intro tid' id hin
    by_cases htid : tid' = tid
    · subst htid
      exact (hinside id (by simpa [Hooks.goto] using hin)).congr rfl rfl
    · exact (h.inside tid' id (by simpa [Hooks.goto, htid] using hin)).congr rfl rfl
  · intro tid' id fn hc
    by_cases htid : tid' = tid
    · subst htid
      exact hcalled id fn (by simpa [Hooks.goto] using hc)
    · exact h.called tid' id fn (by simpa [Hooks.goto, htid] using hc)
  · intro tid' hb
    by_cases htid : tid' = tid
    · subst htid
      exact hbug (by simpa [Hooks.goto] using hb)
    · exact h.bug tid' (by simpa [Hooks.goto, htid] using hb)

theorem Hooks.Sound.traceSyscall (h : s.Sound orig) (sysExit procexit : Int) :
    (traceSyscall sysExit procexit s).Sound orig := by
  rcases traceSyscall_cases sysExit procexit h.tidy with he | ⟨hon, htidy, hkeep, hthreads⟩
  · rw [he]
    exact h
  · refine ⟨htidy, fun hr => ?_, ?_, ?_, ?_⟩
    · rw [hon] at hr
      cases hr
    · rw [hthreads]
      exact fun tid id hin => hkeep id (h.inside tid id hin)
    · rw [hthreads]
      exact h.called
    · rw [hthreads]
      exact h.bug

theorem Hooks.Sound.untraceSyscall (h : s.Sound orig) (hnone : NoneInside s .untrace) :
    (untraceSyscall s).Sound orig := by
  refine ⟨fun id => Or.inr (untraceSyscall_bare h id), fun _ => untraceSyscall_bare h, ?_, ?_, ?_⟩
  · rw [untraceSyscall_threads]
    intro tid id hin
    rw [hnone tid] at hin
    cases hin
  · rw [untraceSyscall_threads]
    exact h.called
  · rw [untraceSyscall_threads]
    exact h.bug

/-- **Every step keeps the invariant**, `untrace_syscall` if no thread is inside. -/
theorem Hooks.Sound.step {a : HookAct} (h : s.Sound orig) (ha : NoneInside s a)
    (hs : stepOf hookStep s a t) : t.Sound orig := by
  cases a with
  | trace sysExit procexit =>
    cases hs
    exact h.traceSyscall sysExit procexit
  | untrace =>
    cases hs
    exact h.untraceSyscall ha
  | enter tid id =>
    simp only [stepOf, hookStep] at hs
    split at hs
    · rename_i hin
      cases hs
      -- the table leads to `hook_general` from hooked entries only
      have hid : s.Hooked orig id := by
        rcases h.tidy id with ⟨-, hid⟩ | hid
        · exact hid
        · exact absurd (hin.2.symm.trans hid.table) (by simp)
      exact h.goto (fun id' he => by cases he; exact hid) (by rintro _ _ ⟨⟩) (by simp)
    · cases hs
  | check tid observed =>
    simp only [stepOf, hookStep] at hs
    split at hs
    · rename_i id hpc
      have hid : s.Hooked orig id := h.inside tid id (by rw [hpc]; rfl)
      rw [if_pos hid.hooked] at hs
      split at hs
      · cases hs
        exact h.goto (fun id' he => by cases he; exact hid) (by rintro _ _ ⟨⟩) (by simp)
      · cases hs
        exact h.goto (fun id' he => by cases he; exact hid) (by rintro _ _ ⟨⟩) (by simp)
    · cases hs
  | filter tid ret =>
    simp only [stepOf, hookStep] at hs
    split at hs
    · rename_i id hpc
      have hid : s.Hooked orig id := h.inside tid id (by rw [hpc]; rfl)
      split at hs
      · split at hs
        · cases hs
          exact h.goto (fun id' he => by cases he; exact hid) (by rintro _ _ ⟨⟩) (by simp)
        · split at hs
          · cases hs
            exact h.goto (by rintro _ ⟨⟩) (by rintro _ _ ⟨⟩) (by simp)
          · cases hs
      · cases hs
    · cases hs
  | call tid =>
    simp only [stepOf, hookStep] at hs
    split at hs
    · rename_i id hpc
      have hid : s.Hooked orig id := h.inside tid id (by rw [hpc]; rfl)
      cases hs
      exact h.goto (by rintro _ ⟨⟩) (fun id' fn he => by cases he; exact hid.old) (by simp)
    · cases hs
  | leave tid =>
    simp only [stepOf, hookStep] at hs
    split at hs
    · cases hs
      exact h.goto (by rintro _ ⟨⟩) (by rintro _ _ ⟨⟩) (by simp)
    · cases hs
      exact h.goto (by rintro _ ⟨⟩) (by rintro _ _ ⟨⟩) (by simp)
    · cases hs

/-- **The hooks are transparent** in every run in which `untrace_syscall` is not called
while a thread is inside `hook_general`. -/
theorem hooks_transparent {tr : List (Hooks × HookAct)} (h : Run (stepOf hookStep) (.init orig) tr t)
    (hc : Meets NoneInside tr) : t.Transparent orig :=
  (h.invariant (fun h ha hs => h.step ha hs) sound_init hc).transparent

/-- A thread records its exit, and its filter lets it through. -/
def exiting : List HookAct := [.trace 0 0, .enter 0 60, .check 0 true, .filter 0 0]

/-- The recording is stopped when the thread is in the kernel's `exit`. -/
theorem hooks_transparent_exit : ∃ tr t,
    Run (stepOf hookStep) (.init fun _ => 7) tr t ∧ tr.map Prod.snd = exiting ++ [.call 0, .untrace] ∧
      t.threads 0 = .called 60 (.kernel 7) ∧ t.Transparent fun _ => 7 := by
  obtain ⟨s, hs, hpc⟩ : ∃ s, exec hookStep (.init fun _ => 7) (exiting ++ [.call 0]) = some s ∧
      s.threads = Function.update (fun _ => .out) 0 (.called 60 (.kernel 7)) := by
    refine ⟨_, rfl, ?_⟩
    funext tid
    by_cases htid : tid = 0
    · subst htid
      rfl
    · simp [Hooks.goto, htid, traceSyscall, hookedSyscalls, Hooks.init]
  obtain ⟨tr, hacts, hrun⟩ := exists_run_of_exec hs
  have hmeets : Meets NoneInside tr := by
    intro x hx
    have hx2 : x.2 ∈ exiting ++ [.call 0] := hacts ▸ List.mem_map_of_mem hx
    simp only [exiting, List.cons_append, List.nil_append, List.mem_cons, List.not_mem_nil,
      or_false] at hx2
    rcases hx2 with h | h | h | h | h <;> rw [h] <;> trivial
  have hnone : NoneInside s .untrace := by
    intro tid
    rw [hpc]
    by_cases htid : tid = 0
    · subst htid
      rfl
    · rw [Function.update_of_ne htid]
      rfl
  have hrun' := hrun.snoc (show stepOf hookStep s .untrace (untraceSyscall s) from rfl)
  refine ⟨_, _, hrun', ?_, ?_, hooks_transparent hrun' (meets_snoc.mpr ⟨hmeets, hnone⟩)⟩
  · rw [List.map_append, hacts]
    rfl
  · rw [untraceSyscall_threads, hpc]
    rfl

/-- **`untrace_syscall` takes the old entry from a thread inside `hook_general`**, which
then calls address 0. -/
theorem untrace_under_thread : ¬ ∀ (orig : Nat → UInt64) (tr : List (Hooks × HookAct)) (t : Hooks),
    Run (stepOf hookStep) (.init orig) tr t → t.Transparent orig := by
  intro hall
  obtain ⟨s, hs, hpc⟩ : ∃ s, exec hookStep (.init fun _ => 7) (exiting ++ [.untrace, .call 0]) =
      some s ∧ s.threads 0 = .called 60 .null := ⟨_, rfl, rfl⟩
  obtain ⟨tr, -, hrun⟩ := exists_run_of_exec hs
  have hnull := (hall _ tr s hrun).called 0 60 .null hpc
  cases hnull

end Transparency

end NoDrop
