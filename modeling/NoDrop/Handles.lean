import NoDrop.Lib.Runs
import NoDrop.ProcTable

/-! # Device handles

`nod_dev_open` keeps in the open file a pointer to the `nod_proc_info` of the thread that
opens it, and the two `ioctl` commands for leaving the monitor and `nod_dev_mmap` follow
the pointer.  The file lives as long as anyone holds it: threads share their descriptors,
`fork` hands them down, a socket passes them on.  The `nod_proc_info` lives as long as the
thread.

* When the thread has exited, whoever still holds the file follows a pointer to freed
  memory (`mmap_after_exit`); and while it is in the monitor, whoever holds the file may map
  its buffer, since `nod_dev_mmap` does not ask who calls (`mmap_of_other_thread`).
* Where the thread that has opened a file is still there when the pointer is followed, and
  is itself the caller of `mmap` while it is in the monitor, the handles are safe
  (`handles_safe`).
-/
namespace NoDrop

open Runs ProcTable

/-! ## Data -/

/-- A task, and whether it has exited. -/
structure DevTask where
  ids : TaskIds
  exited : Bool

/-- `struct file` of an open `/proc/nodrop`.  Who has opened it is history. -/
structure DevFile where
  privateData : Option Nat
  opener : Nat

/-- The tasks, the process table, the open files and who holds them. -/
structure Devices where
  tasks : Nat → Option DevTask
  table : List ProcEntry
  files : Nat → Option DevFile
  holds : Nat → Nat → Bool

/-- What `nod_dev_mmap` depends on beside the entry: the mapping that is asked for, the
size the buffer's information gives, and what `remap_vmalloc_range` returns. -/
structure MmapArgs where
  pgoff : Nat
  length : Nat
  write : Bool
  bufferSize : Nat
  remap : Int

/-! ## `kmodule/proc.c` -/

/-- What `nod_calc_hash` looks at. -/
def NodStackInfo.hashed (stack : NodStackInfo) : StackInfo :=
  ⟨stack.ioctlFd, stack.pkey, stack.fsbase, stack.hash, stack.buffer, stack.bufferInfo⟩

namespace Devices

/-- `nod_dev_open`. -/
def nodDevOpen (table : List ProcEntry) (tid pid : Nat) : DevFile :=
  ⟨(findProcInfo table pid).map (·.addr), tid⟩

/-- `nod_dev_ioctl` with one of the commands for leaving the monitor, where `p` is what
`private_data` points to: the return value and the entry. -/
def nodDevIoctl (cmd : RestoreCmd) (pid : Nat) (stack : Option NodStackInfo) (p : ProcEntry) :
    Int × ProcEntry :=
  if p.status ≠ .nodIn ∨ p.pid ≠ pid then (-19, p)
  else
    match stack with
    | none => (-14, p)
    | some stack =>
        if stack.hash ≠ nodCalcHash stack.hashed then (-22, p)
        else (0, { ProcTable.nodProcSetStatus p cmd.status stack.ioctlFd.toInt with
          stackInfo := { stack with ioctlFd := -1 } })

/-- `nod_dev_mmap`, where `p` is what `private_data` points to.  Only the status of the
entry is looked at. -/
def nodDevMmap (m : MmapArgs) (p : ProcEntry) : Int :=
  if p.status ≠ .nodIn then -19
  else if m.pgoff ≠ 0 then -5
  else if m.length ≤ pageSize then if m.remap < 0 then m.remap else 0
  else if m.length = m.bufferSize then
    if m.write then -22 else if m.remap < 0 then m.remap else 0
  else -5

/-- `private_data`, followed: no entry, one that is freed, or one in the table. -/
inductive Deref where
  | null
  | freed
  | entry (p : ProcEntry)

/-- Following `private_data`. -/
def deref (s : Devices) (f : DevFile) : Deref :=
  match f.privateData with
  | none => .null
  | some addr =>
      match s.table.find? fun p => p.addr = addr with
      | some p => .entry p
      | none => .freed

end Devices

/-! ## The tasks -/

/-- What happens.  `fork` makes a task that holds what its parent holds; `share` gives a
file to another task, whether by a common descriptor table or by a message.  `dup` changes
nothing about who holds a file. -/
inductive DevAct where
  | firstEvent (tid : Nat) (env : AllocEnv)
  | setStatus (tid : Nat) (status : ProcStatus)
  | fork (tid child pid mm : Nat)
  | exit (tid : Nat)
  | openDev (tid file : Nat)
  | share (tid other file : Nat)
  | close (tid file : Nat)
  | release (file : Nat)
  | ioctl (tid file : Nat) (cmd : RestoreCmd) (stack : Option NodStackInfo)
  | mmap (tid file : Nat) (m : MmapArgs)

namespace Devices

/-- A task that has not exited. -/
def Live (s : Devices) (tid : Nat) (task : DevTask) : Prop :=
  s.tasks tid = some task ∧ task.exited = false

/-- A function of a task's pid and memory, if there is a task. -/
def onTask (s : Devices) (tid : Nat) (f : TaskIds → Devices) : Devices :=
  match s.tasks tid with
  | some task => f task.ids
  | none => s

/-- A function of what a file's `private_data` points to. -/
def onFile (s : Devices) (file : Nat) (f : ProcEntry → Devices) : Devices :=
  match s.files file with
  | some h =>
      match s.deref h with
      | .entry p => f p
      | .null | .freed => s
  | none => s

/-- The state after an action. -/
def next (s : Devices) : DevAct → Devices
  | .firstEvent tid env =>
      s.onTask tid fun ids =>
        { s with table := (ProcTable.nodProcAcquire .nodOut (-1) ids env s.table).2 }
  | .setStatus tid status =>
      s.onTask tid fun ids =>
        match findProcInfo s.table ids.pid with
        | some p => { s with table := putProcInfo s.table { p with status := status } }
        | none => s
  | .fork tid child pid mm =>
      { s with
        tasks := Function.update s.tasks child (some ⟨⟨pid, mm⟩, false⟩)
        holds := Function.update s.holds child (s.holds tid) }
  | .exit tid =>
      s.onTask tid fun ids =>
        { s with
          table := ProcTable.nodProcRelease ids.pid s.table
          tasks := Function.update s.tasks tid (some ⟨ids, true⟩)
          holds := Function.update s.holds tid fun _ => false }
  | .openDev tid file =>
      s.onTask tid fun ids =>
        { s with
          files := Function.update s.files file (some (nodDevOpen s.table tid ids.pid))
          holds := Function.update s.holds tid (Function.update (s.holds tid) file true) }
  | .share _ other file =>
      { s with holds := Function.update s.holds other (Function.update (s.holds other) file true) }
  | .close tid file =>
      { s with holds := Function.update s.holds tid (Function.update (s.holds tid) file false) }
  -- `nod_dev_release`
  | .release file =>
      { s with
        files := Function.update s.files file
          ((s.files file).map fun f => { f with privateData := none }) }
  | .ioctl tid file cmd stack =>
      s.onTask tid fun ids => s.onFile file fun p =>
        { s with table := putProcInfo s.table (nodDevIoctl cmd ids.pid stack p).2 }
  | .mmap _ _ _ => s

/-- What the kernel lets happen: living tasks act on files they hold, and neither pids nor
addresses in use are given out again. -/
def Allowed (s : Devices) : DevAct → Prop
  | .firstEvent tid env => (∃ task, s.Live tid task) ∧ ∀ p ∈ s.table, env.addr ≠ some p.addr
  | .setStatus tid _ | .exit tid => ∃ task, s.Live tid task
  | .fork tid child pid _ =>
      (∃ task, s.Live tid task) ∧ s.tasks child = none ∧
        ∀ t task, s.Live t task → task.ids.pid ≠ pid
  | .openDev tid file => (∃ task, s.Live tid task) ∧ s.files file = none
  | .share tid other file =>
      (∃ task, s.Live tid task) ∧ (∃ task, s.Live other task) ∧ s.holds tid file = true
  | .close tid file => (∃ task, s.Live tid task) ∧ s.holds tid file = true
  | .release file => ∀ tid, s.holds tid file = false
  | .ioctl tid file _ _ | .mmap tid file _ =>
      (∃ task, s.Live tid task) ∧ s.holds tid file = true

end Devices

/-- One step. -/
def devStep (s : Devices) (a : DevAct) (t : Devices) : Prop := s.Allowed a ∧ t = s.next a

/-! ## Safety -/

namespace Devices

variable {s t : Devices}

/-- What is to hold whenever a task follows `private_data`: it does not lead to freed
memory, and the operation succeeds only on the caller's own entry. -/
def Safe (s : Devices) : DevAct → Prop
  | .ioctl tid file cmd stack => ∀ task f, s.tasks tid = some task → s.files file = some f →
      s.deref f ≠ .freed ∧ ∀ p, s.deref f = .entry p →
        (nodDevIoctl cmd task.ids.pid stack p).1 = 0 → findProcInfo s.table task.ids.pid = some p
  | .mmap tid file m => ∀ task f, s.tasks tid = some task → s.files file = some f →
      s.deref f ≠ .freed ∧ ∀ p, s.deref f = .entry p →
        nodDevMmap m p = 0 → findProcInfo s.table task.ids.pid = some p
  | _ => True

/-- The condition on a step: the thread that has opened the file is still there, and maps
the file itself if it is in the monitor. -/
def OpenerThere (s : Devices) : DevAct → Prop
  | .ioctl _ file _ _ => ∀ f, s.files file = some f → f.privateData ≠ none →
      ∃ task, s.Live f.opener task
  | .mmap tid file _ => ∀ f, s.files file = some f → f.privateData ≠ none →
      ∃ task, s.Live f.opener task ∧
        (tid = f.opener ∨ ProcTable.nodEventFrom s.table task.ids.pid ≠ .nodIn)
  | _ => True

/-- Nothing is open and nobody is known when the module is loaded. -/
structure Starts (s : Devices) : Prop where
  table : s.table = []
  files : ∀ file, s.files file = none
  pids : ∀ t u a b, s.Live t a → s.Live u b → a.ids.pid = b.ids.pid → t = u

/-- A file leads to the entry of the thread that has opened it, for as long as that is
there. -/
structure Sound (s : Devices) : Prop where
  keyed : Keyed s.table
  pids : ∀ t u a b, s.Live t a → s.Live u b → a.ids.pid = b.ids.pid → t = u
  known : ∀ file f, s.files file = some f → ∃ task, s.tasks f.opener = some task
  opened : ∀ file f addr task, s.files file = some f → f.privateData = some addr →
    s.Live f.opener task → ∃ p ∈ s.table, p.addr = addr ∧ p.pid = task.ids.pid

theorem Starts.sound (h : s.Starts) : s.Sound := by
  refine ⟨?_, h.pids, ?_, ?_⟩
  · rw [h.table]
    exact .nil
  · intro file f hf
    rw [h.files] at hf
    cases hf
  · intro file f addr task hf
    rw [h.files] at hf
    cases hf

/-- Following `private_data` leads to the opener's entry. -/
theorem Sound.deref_eq (h : s.Sound) {file : Nat} {f : DevFile} {task : DevTask}
    (hf : s.files file = some f) (hp : f.privateData ≠ none) (hl : s.Live f.opener task) :
    ∃ p, s.deref f = .entry p ∧ findProcInfo s.table task.ids.pid = some p := by
  obtain ⟨addr, ha⟩ := Option.ne_none_iff_exists'.mp hp
  obtain ⟨p, hp, hpa, hpid⟩ := h.opened file f addr task hf ha hl
  refine ⟨p, ?_, ?_⟩
  · cases hfind : s.table.find? fun p => p.addr = addr with
    | none =>
      have hne := List.find?_eq_none.mp hfind p hp
      simp [hpa] at hne
    | some q =>
      have hqa : q.addr = addr := by simpa using List.find?_some hfind
      have hqp := h.keyed.eq_of_addr (List.mem_of_find?_eq_some hfind) hp (hqa.trans hpa.symm)
      simp only [deref, ha, hfind, hqp]
  · rw [← hpid]
    exact find_of_mem h.keyed.pids hp

/-- `nod_dev_ioctl` refuses everyone but the thread the entry is about. -/
theorem nodDevIoctl_pid {cmd : RestoreCmd} {pid : Nat} {stack : Option NodStackInfo} {p : ProcEntry}
    (h : (nodDevIoctl cmd pid stack p).1 = 0) : p.pid = pid := by
  by_contra hne
  unfold nodDevIoctl at h
  rw [if_pos (Or.inr hne)] at h
  cases h

/-- `nod_dev_mmap` refuses an entry outside the monitor. -/
theorem nodDevMmap_in {m : MmapArgs} {p : ProcEntry} (h : nodDevMmap m p = 0) :
    p.status = .nodIn := by
  by_contra hne
  rw [nodDevMmap, if_pos hne] at h
  cases h

theorem Sound.safe {a : DevAct} (h : s.Sound) (hc : s.OpenerThere a) (hallow : s.Allowed a) :
    s.Safe a := by
  cases a with
  | ioctl tid file cmd stack =>
    intro task f ht hf
    by_cases hp : f.privateData = none
    · simp [deref, hp]
    obtain ⟨otask, hl⟩ := hc f hf hp
    obtain ⟨p, hd, hfind⟩ := h.deref_eq hf hp hl
    rw [hd]
    refine ⟨by simp, ?_⟩
    rintro _ ⟨⟩ hret
    -- the pid that the `ioctl` has compared is the one the entry is found under
    rw [← nodDevIoctl_pid hret, (find_mem hfind).2]
    exact hfind
  | mmap tid file m =>
    intro task f ht hf
    by_cases hp : f.privateData = none
    · simp [deref, hp]
    obtain ⟨otask, hl, hwho⟩ := hc f hf hp
    obtain ⟨p, hd, hfind⟩ := h.deref_eq hf hp hl
    rw [hd]
    refine ⟨by simp, ?_⟩
    rintro _ ⟨⟩ hret
    rcases hwho with rfl | hwho
    · cases hl.1.symm.trans ht
      exact hfind
    · simp only [ProcTable.nodEventFrom, hfind] at hwho
      exact absurd (nodDevMmap_in hret) hwho
  | _ => trivial

/-- A change of an entry that keeps its pid. -/
theorem Sound.put (h : s.Sound) {p q : ProcEntry} (hq : q ∈ s.table) (ha : q.addr = p.addr)
    (hpid : q.pid = p.pid) : Sound { s with table := putProcInfo s.table p } := by
  refine ⟨h.keyed.put hq ha hpid, h.pids, h.known, ?_⟩
  intro file f addr task hf hd hl
  obtain ⟨r, hr, hra, hrpid⟩ := h.opened file f addr task hf hd hl
  by_cases he : r.addr = p.addr
  · have hrq := h.keyed.eq_of_addr hr hq (he.trans ha.symm)
    refine ⟨p, mem_put.mpr (Or.inl ⟨rfl, r, hr, he⟩), he.symm.trans hra, ?_⟩
    rw [← hpid, ← hrq]
    exact hrpid
  · exact ⟨r, mem_put.mpr (Or.inr ⟨hr, he⟩), hra, hrpid⟩

/-- `nod_proc_acquire`. -/
theorem Sound.acquire (h : s.Sound) {ids : TaskIds} {env : AllocEnv}
    (hfresh : ∀ p ∈ s.table, env.addr ≠ some p.addr) :
    Sound { s with table := (ProcTable.nodProcAcquire .nodOut (-1) ids env s.table).2 } := by
  cases hf : findProcInfo s.table ids.pid with
  | some p =>
    simp only [ProcTable.nodProcAcquire, hf]
    exact h.put (find_mem hf).1 rfl rfl
  | none =>
    cases ha : env.addr with
    | none =>
      simp only [ProcTable.nodProcAcquire, hf, ha]
      exact h
    | some addr =>
      simp only [ProcTable.nodProcAcquire, hf, ha]
      refine ⟨h.keyed.insert hf ?_, h.pids, h.known, ?_⟩
      · exact fun q hq he => hfresh q hq (ha.trans (congrArg some he.symm))
      · intro file f a task hfile hd hl
        obtain ⟨r, hr, hra⟩ := h.opened file f a task hfile hd hl
        exact ⟨r, mem_insert.mpr (Or.inr hr), hra⟩

/-- The tasks other than one that exits keep their entries. -/
theorem Sound.exit (h : s.Sound) {tid : Nat} {task : DevTask} (hl : s.Live tid task)
    (holds : Nat → Nat → Bool) :
    Sound { s with
      table := ProcTable.nodProcRelease task.ids.pid s.table
      tasks := Function.update s.tasks tid (some ⟨task.ids, true⟩)
      holds := holds } := by
  -- who is living afterwards was living, and is another
  have hlive : ∀ {u b}, Function.update s.tasks tid (some ⟨task.ids, true⟩) u = some b →
      b.exited = false → u ≠ tid ∧ s.Live u b := by
    intro u b hu hb
    by_cases he : u = tid
    · subst he
      rw [Function.update_self] at hu
      cases hu
      cases hb
    · rw [Function.update_of_ne he] at hu
      exact ⟨he, hu, hb⟩
  refine ⟨?_, ?_, ?_, ?_⟩
  · simp only [ProcTable.nodProcRelease]
    split
    · exact h.keyed.remove _
    · exact h.keyed
  · rintro t u a b ⟨ht, hta⟩ ⟨hu, hub⟩ hab
    exact h.pids t u a b (hlive ht hta).2 (hlive hu hub).2 hab
  · intro file f hf
    show ∃ b, Function.update s.tasks tid _ f.opener = some b
    by_cases he : f.opener = tid
    · exact ⟨_, by rw [he, Function.update_self]⟩
    · rw [Function.update_of_ne he]
      exact h.known file f hf
  · rintro file f addr b hf hd ⟨ho, hob⟩
    obtain ⟨hne, hlb⟩ := hlive ho hob
    obtain ⟨r, hr, hra, hrpid⟩ := h.opened file f addr b hf hd hlb
    refine ⟨r, ?_, hra, hrpid⟩
    simp only [ProcTable.nodProcRelease]
    split
    · rename_i q hq
      obtain ⟨hqm, hqpid⟩ := find_mem hq
      refine mem_remove.mpr ⟨hr, fun he => hne ?_⟩
      have hrq := h.keyed.eq_of_addr hr hqm he
      exact h.pids _ _ b task hlb hl (hrpid.symm.trans ((congrArg ProcEntry.pid hrq).trans hqpid))
    · exact hr

/-- Files that are opened lead to the opener's entry. -/
theorem Sound.openDev (h : s.Sound) {tid : Nat} {task : DevTask} (hl : s.Live tid task) (file : Nat)
    (holds : Nat → Nat → Bool) :
    Sound { s with
      files := Function.update s.files file (some (nodDevOpen s.table tid task.ids.pid))
      holds := holds } := by
  have hfiles : ∀ {file' f},
      Function.update s.files file (some (nodDevOpen s.table tid task.ids.pid)) file' = some f →
      f = nodDevOpen s.table tid task.ids.pid ∨ s.files file' = some f := by
    intro file' f hf
    by_cases he : file' = file
    · subst he
      rw [Function.update_self] at hf
      exact Or.inl (Option.some.inj hf).symm
    · rw [Function.update_of_ne he] at hf
      exact Or.inr hf
  refine ⟨h.keyed, h.pids, ?_, ?_⟩
  · intro file' f hf
    rcases hfiles hf with rfl | hf
    · exact ⟨task, hl.1⟩
    · exact h.known file' f hf
  · intro file' f addr b hf hd ho
    rcases hfiles hf with rfl | hf
    · obtain ⟨p, hp, hpa⟩ := Option.map_eq_some_iff.mp hd
      obtain ⟨hpm, hpid⟩ := find_mem hp
      cases hl.1.symm.trans ho.1
      exact ⟨p, hpm, hpa, hpid⟩
    · exact h.opened file' f addr b hf hd ho

/-- `nod_dev_release`. -/
theorem Sound.release (h : s.Sound) (file : Nat) : (s.next (.release file)).Sound := by
  -- a file that still leads somewhere is another one, and as it was
  have hfiles : ∀ {file' f}, Function.update s.files file
      ((s.files file).map fun f => { f with privateData := none }) file' = some f →
      ∃ f', s.files file' = some f' ∧ f'.opener = f.opener ∧
        (f.privateData ≠ none → f'.privateData = f.privateData) := by
    intro file' f hf
    by_cases he : file' = file
    · subst he
      rw [Function.update_self] at hf
      obtain ⟨f', hf', rfl⟩ := Option.map_eq_some_iff.mp hf
      exact ⟨f', hf', rfl, fun hp => absurd rfl hp⟩
    · rw [Function.update_of_ne he] at hf
      exact ⟨f, hf, rfl, fun _ => rfl⟩
  refine ⟨h.keyed, h.pids, ?_, ?_⟩
  · intro file' f hf
    obtain ⟨f', hf', hop, -⟩ := hfiles hf
    rw [← hop]
    exact h.known file' f' hf'
  · intro file' f addr b hf hd ho
    obtain ⟨f', hf', hop, hd'⟩ := hfiles hf
    rw [← hop] at ho
    exact h.opened file' f' addr b hf' ((hd' (by rw [hd]; simp)).trans hd) ho

theorem onTask_eq {tid : Nat} {task : DevTask} (h : s.tasks tid = some task)
    (f : TaskIds → Devices) : s.onTask tid f = f task.ids := by
  simp only [onTask, h]

/-- What is followed is in the table. -/
theorem deref_mem {f : DevFile} {p : ProcEntry} (h : s.deref f = .entry p) : p ∈ s.table := by
  simp only [deref] at h
  split at h
  · cases h
  · split at h
    · rename_i q hq
      cases h
      exact List.mem_of_find?_eq_some hq
    · cases h

/-- The `ioctl` changes neither the address nor the pid. -/
theorem nodDevIoctl_key (cmd : RestoreCmd) (pid : Nat) (stack : Option NodStackInfo) (p : ProcEntry) :
    p.addr = (nodDevIoctl cmd pid stack p).2.addr ∧ p.pid = (nodDevIoctl cmd pid stack p).2.pid := by
  unfold nodDevIoctl
  split
  · exact ⟨rfl, rfl⟩
  · split
    · exact ⟨rfl, rfl⟩
    · split
      · exact ⟨rfl, rfl⟩
      · exact ⟨rfl, rfl⟩

/-- **Every step keeps the invariant.** -/
theorem Sound.step {a : DevAct} (h : s.Sound) (hs : devStep s a t) : t.Sound := by
  obtain ⟨hallow, rfl⟩ := hs
  cases a with
  | firstEvent tid env =>
    obtain ⟨⟨task, hl⟩, hfresh⟩ := hallow
    simp only [next, onTask_eq hl.1]
    exact h.acquire hfresh
  | setStatus tid status =>
    obtain ⟨task, hl⟩ := hallow
    simp only [next, onTask_eq hl.1]
    split
    · rename_i p hp
      exact h.put (find_mem hp).1 rfl rfl
    · exact h
  | fork tid child pid mm =>
    obtain ⟨-, hchild, hpid⟩ := hallow
    -- the child is new, and has opened nothing
    have hlive : ∀ {u b}, Function.update s.tasks child (some ⟨⟨pid, mm⟩, false⟩) u = some b →
        b.exited = false → (u = child ∧ b.ids.pid = pid) ∨ s.Live u b := by
      intro u b hu hb
      by_cases he : u = child
      · rw [he, Function.update_self] at hu
        cases hu
        exact Or.inl ⟨he, rfl⟩
      · rw [Function.update_of_ne he] at hu
        exact Or.inr ⟨hu, hb⟩
    refine ⟨h.keyed, ?_, ?_, ?_⟩
    · rintro t u a b ⟨ht, hta⟩ ⟨hu, hub⟩ hab
      rcases hlive ht hta with ⟨rfl, hap⟩ | ha
      · rcases hlive hu hub with ⟨rfl, -⟩ | hb
        · rfl
        · exact absurd (hab.symm.trans hap) (hpid u b hb)
      · rcases hlive hu hub with ⟨-, hbp⟩ | hb
        · exact absurd (hab.trans hbp) (hpid t a ha)
        · exact h.pids t u a b ha hb hab
    · intro file f hf
      obtain ⟨b, hb⟩ := h.known file f hf
      refine ⟨b, ?_⟩
      rw [← hb]
      refine Function.update_of_ne ?_ ..
      intro he
      rw [he, hchild] at hb
      cases hb
    · rintro file f addr b hf hd ⟨ho, hob⟩
      rcases hlive ho hob with ⟨he, -⟩ | hl
      · obtain ⟨c, hc⟩ := h.known file f hf
        rw [he, hchild] at hc
        cases hc
      · exact h.opened file f addr b hf hd hl
  | exit tid =>
    obtain ⟨task, hl⟩ := hallow
    simp only [next, onTask_eq hl.1]
    exact h.exit hl _
  | openDev tid file =>
    obtain ⟨⟨task, hl⟩, -⟩ := hallow
    simp only [next, onTask_eq hl.1]
    exact h.openDev hl file _
  | share tid other file => exact ⟨h.keyed, h.pids, h.known, h.opened⟩
  | close tid file => exact ⟨h.keyed, h.pids, h.known, h.opened⟩
  | release file => exact h.release file
  | ioctl tid file cmd stack =>
    obtain ⟨⟨task, hl⟩, -⟩ := hallow
    simp only [next, onTask_eq hl.1, onFile]
    split
    · split
      · rename_i p hd
        obtain ⟨ha, hpid⟩ := nodDevIoctl_key cmd task.ids.pid stack p
        exact h.put (deref_mem hd) ha hpid
      · exact h
      · exact h
    · exact h
  | mmap tid file m => exact h

end Devices

/-- **The handles are safe** in every run in which `private_data` is followed only while the
thread that has opened the file is there, and a file of a thread in the monitor is mapped
only by this thread. -/
theorem handles_safe {s t : Devices} {tr : List (Devices × DevAct)} (hs : s.Starts)
    (h : Run devStep s tr t) (hc : Meets Devices.OpenerThere tr) : Meets Devices.Safe tr :=
  h.meets (fun h _ hs => h.step hs) (fun h hc hs => h.safe hc hs.1) hs.sound hc

/-! ## Two threads and a file -/

/-- Two threads of a process, before anything is opened. -/
def twoHolders : Devices where
  tasks := Function.update (Function.update (fun _ => none) 0 (some ⟨⟨100, 1⟩, false⟩)) 1
    (some ⟨⟨101, 1⟩, false⟩)
  table := []
  files _ := none
  holds _ _ := false

theorem twoHolders_starts : twoHolders.Starts := by
  refine ⟨rfl, fun _ => rfl, ?_⟩
  have htasks : ∀ {t a}, twoHolders.Live t a →
      (t = 0 ∧ a.ids.pid = 100) ∨ (t = 1 ∧ a.ids.pid = 101) := by
    rintro t a ⟨ha, -⟩
    by_cases h1 : t = 1
    · subst h1
      cases ha
      exact Or.inr ⟨rfl, rfl⟩
    · by_cases h0 : t = 0
      · subst h0
        cases ha
        exact Or.inl ⟨rfl, rfl⟩
      · simp [twoHolders, h0, h1] at ha
  intro t u a b ha hb hab
  rcases htasks ha with ⟨rfl, ha⟩ | ⟨rfl, ha⟩ <;> rcases htasks hb with ⟨rfl, hb⟩ | ⟨rfl, hb⟩ <;>
    simp_all

/-- The first thread is in the monitor and has opened the device; the second shares its
descriptors. -/
def sharedFile : Devices where
  tasks := twoHolders.tasks
  table := [⟨0x5000, 100, 1, -1, 0, 0, 0, .nodIn, { NodStackInfo.zero with pkey := -1 }⟩]
  files := Function.update (fun _ => none) 3 (some ⟨some 0x5000, 0⟩)
  holds := Function.update (Function.update (fun _ _ => false) 0
    (Function.update (fun _ => false) 3 true)) 1 (Function.update (fun _ => false) 3 true)

theorem sharedFile_run : ∃ tr, Run devStep twoHolders tr sharedFile ∧
    Meets Devices.OpenerThere tr := by
  let s₁ := twoHolders.next (.firstEvent 0 ⟨some 0x5000, -1⟩)
  let s₂ := s₁.next (.setStatus 0 .nodIn)
  let s₃ := s₂.next (.openDev 0 3)
  have h₁ : devStep twoHolders (.firstEvent 0 ⟨some 0x5000, -1⟩) s₁ := by
    refine ⟨⟨⟨_, rfl, rfl⟩, ?_⟩, rfl⟩
    rintro p ⟨⟩
  have h₂ : devStep s₁ (.setStatus 0 .nodIn) s₂ := ⟨⟨_, rfl, rfl⟩, rfl⟩
  have h₃ : devStep s₂ (.openDev 0 3) s₃ := ⟨⟨⟨_, rfl, rfl⟩, rfl⟩, rfl⟩
  have h₄ : devStep s₃ (.share 0 1 3) sharedFile := by
    refine ⟨⟨⟨_, rfl, rfl⟩, ⟨_, rfl, rfl⟩, rfl⟩, rfl⟩
  exact ⟨_, (((Run.nil.snoc h₁).snoc h₂).snoc h₃).snoc h₄, meets_snoc.mpr ⟨meets_snoc.mpr
    ⟨meets_snoc.mpr ⟨meets_snoc.mpr ⟨meets_nil, trivial⟩, trivial⟩, trivial⟩, trivial⟩⟩

/-- The mapping of the buffer's information. -/
def mapInfo : MmapArgs := ⟨0, 4096, true, 0, 0⟩

/-- The thread that has opened the file maps it. -/
theorem handles_safe_opener : ∃ p, sharedFile.deref ⟨some 0x5000, 0⟩ = .entry p ∧
    Devices.nodDevMmap mapInfo p = 0 ∧ findProcInfo sharedFile.table 100 = some p := by
  obtain ⟨tr, hrun, hmeets⟩ := sharedFile_run
  have hmap : devStep sharedFile (.mmap 0 3 mapInfo) sharedFile := ⟨⟨⟨_, rfl, rfl⟩, rfl⟩, rfl⟩
  have hthere : sharedFile.OpenerThere (.mmap 0 3 mapInfo) := by
    rintro f ⟨⟩ -
    exact ⟨_, ⟨rfl, rfl⟩, Or.inl rfl⟩
  have hsafe := handles_safe twoHolders_starts (hrun.snoc hmap) (meets_snoc.mpr ⟨hmeets, hthere⟩)
  obtain ⟨-, hown⟩ := (meets_snoc.mp hsafe).2 _ _ rfl rfl
  exact ⟨_, rfl, rfl, hown _ rfl rfl⟩

/-- **A file outlives the entry of the thread that has opened it**: that thread exits, and
the other one's `mmap` reads the status of a freed `nod_proc_info`. -/
theorem mmap_after_exit : ¬ ∀ (s t : Devices) (tr : List (Devices × DevAct)), s.Starts →
    Run devStep s tr t → Meets Devices.Safe tr := by
  intro hall
  obtain ⟨tr, hrun, -⟩ := sharedFile_run
  have hexit : devStep sharedFile (.exit 0) (sharedFile.next (.exit 0)) := ⟨⟨_, rfl, rfl⟩, rfl⟩
  have hmap : devStep (sharedFile.next (.exit 0)) (.mmap 1 3 mapInfo) (sharedFile.next (.exit 0)) :=
    ⟨⟨⟨_, rfl, rfl⟩, rfl⟩, rfl⟩
  have hsafe := hall _ _ _ twoHolders_starts ((hrun.snoc hexit).snoc hmap)
  obtain ⟨hfreed, -⟩ := (meets_snoc.mp hsafe).2 _ _ rfl rfl
  exact hfreed rfl

/-- **A thread maps the buffer of another one**, which is in the monitor. -/
theorem mmap_of_other_thread : ¬sharedFile.Safe (.mmap 1 3 mapInfo) := by
  intro hsafe
  obtain ⟨-, hown⟩ := hsafe _ _ rfl rfl
  cases hown _ rfl rfl

end NoDrop
