import NoDrop.Lib.Runs
import NoDrop.ProcTable

/-! # The process table and the tasks

Who is in the process table, over all tasks of the machine.  Entries are made by
`syscall_exit_probe` and `exit_filter` and removed by `syscall_procexit_probe`; all three
act only on tasks that `NOD_TEST` lets through and only while the recording is on.  The
key of an entry, the pid, is given to another task when its owner is gone, and `execve`
in a thread that is not the leader of its group gives the thread the leader's pid.

* An entry outlives its task if the task exits while the probe is not there or does not
  look at it, and then belongs to the next task with the pid (`stopped_exit_leaves_entry`).
* Where no task with an entry exits or replaces its memory unobserved, and none takes over
  its leader's pid, every entry is that of a living task (`table_accurate`).

The kernel's part is `Allowed`: pids and addresses in use are not given out again, and a
thread that replaces its memory has outlived the others of its group.
-/
namespace NoDrop

open Runs ProcTable

/-! ## Data -/

/-- `struct task_struct`, as far as the probes read it. -/
structure Task where
  pid : Nat
  tgid : Nat
  mm : Nat
  uid : UInt32
  kthread : Bool
  exited : Bool

/-- The key and the memory. -/
def Task.ids (task : Task) : TaskIds := ⟨task.pid, task.mm⟩

/-- The tasks, `tracepoint_registered` and the process table.  For every entry it is noted
which task it was made for. -/
structure TaskSystem where
  registered : Bool
  tasks : Nat → Option Task
  table : List ProcEntry
  owner : Nat → Nat

namespace TaskSystem

/-- What the probes ask of a task before anything else. -/
def observes (s : TaskSystem) (task : Task) : Bool :=
  s.registered && !task.kthread && task.uid == 1000

/-- A task that has not exited. -/
def Live (s : TaskSystem) (tid : Nat) (task : Task) : Prop :=
  s.tasks tid = some task ∧ task.exited = false

/-! ## The probes -/

/-- `nod_proc_acquire` for the current task. -/
def acquire (s : TaskSystem) (tid : Nat) (task : Task) (status : ProcStatus) (env : AllocEnv) :
    TaskSystem :=
  { s with
    table := (ProcTable.nodProcAcquire status (-1) task.ids env s.table).2
    owner :=
      match findProcInfo s.table task.pid, env.addr with
      | none, some addr => Function.update s.owner addr tid
      | _, _ => s.owner }

/-- A change of the current task's entry. -/
def onEntry (s : TaskSystem) (task : Task) (f : ProcEntry → ProcEntry) : TaskSystem :=
  match findProcInfo s.table task.pid with
  | some p => { s with table := putProcInfo s.table (f p) }
  | none => s

/-- `syscall_exit_probe`, up to the recording of the event: `si` is the register from which
the flags of a `clone` are taken. -/
def syscallExitProbe (s : TaskSystem) (tid : Nat) (task : Task) (id : Sysno) (ret si : UInt64)
    (env : AllocEnv) : TaskSystem :=
  if s.observes task = false then s
  else
    match ProcTable.nodEventFrom s.table task.pid with
    | .nodRestoreContext => s.onEntry task fun p => ProcTable.nodProcSetStatus p .nodOut (-1)
    | .nodOut | .nodClone | .nodShare =>
        if id = .clone ∧ ret = 0 then
          s.acquire tid task (if si &&& cloneVm = 0 then .nodClone else .nodShare) env
        else if findProcInfo s.table task.pid = none then
          s.acquire tid task .nodOut env
        else if id = .execve ∨ id = .execveat then
          s.onEntry task (ProcTable.nodInitProcinfo task.ids env.pkey)
        else s
    | .nodRestoreSecurity | .nodUnknown | .nodIn => s

/-- The beginning of `exit_filter`. -/
def exitFilter (s : TaskSystem) (tid : Nat) (task : Task) (env : AllocEnv) : TaskSystem :=
  if s.observes task = true ∧ findProcInfo s.table task.pid = none then
    s.acquire tid task .nodOut env
  else s

/-- `syscall_procexit_probe`. -/
def syscallProcexitProbe (s : TaskSystem) (task : Task) : TaskSystem :=
  if s.observes task = false then s
  else { s with table := ProcTable.nodProcRelease task.pid s.table }

end TaskSystem

/-! ## The tasks -/

/-- What happens.  A `clone` is the creation of a task; the child's return from it is a
`sysExit` like any other.  `execve` is a call together with its return, in a thread of the
group of `leader`; if it succeeds it leaves the thread with new memory.  `setStatus` stands
for all that changes the status of a task's entry: the loader and the two `ioctl`
commands. -/
inductive TaskAct where
  | clone (tid child pid : Nat) (thread vm : Bool) (mm : Nat)
  | sysExit (tid : Nat) (id : Sysno) (ret si : UInt64) (env : AllocEnv)
  | exitFilter (tid : Nat) (env : AllocEnv)
  | execve (tid leader : Nat) (id : Sysno) (mm : Option Nat) (env : AllocEnv)
  | setuid (tid : Nat) (uid : UInt32)
  | setStatus (tid : Nat) (status : ProcStatus)
  | exit (tid : Nat)
  | reap (tid : Nat)
  | startRecording (ok : Bool)
  | stopRecording

namespace TaskSystem

/-- A task's new state. -/
def putTask (s : TaskSystem) (tid : Nat) (task : Option Task) : TaskSystem :=
  { s with tasks := Function.update s.tasks tid task }

@[simp] theorem putTask_self (s : TaskSystem) (tid : Nat) (task : Option Task) :
    (s.putTask tid task).tasks tid = task :=
  Function.update_self ..

theorem putTask_of_ne (s : TaskSystem) {tid t : Nat} (task : Option Task) (h : t ≠ tid) :
    (s.putTask tid task).tasks t = s.tasks t :=
  Function.update_of_ne h ..

/-- The new task of a `clone`. -/
def child (parent : Task) (pid : Nat) (thread vm : Bool) (mm : Nat) : Task :=
  { parent with
    pid := pid
    tgid := if thread then parent.tgid else pid
    mm := if vm then parent.mm else mm }

/-- The thread after a successful `execve`, in which it has become its group's leader. -/
def replaceMemory (s : TaskSystem) (tid leader : Nat) (task : Task) (mm : Nat) : TaskSystem :=
  if tid = leader then s.putTask tid (some { task with mm := mm })
  else (s.putTask leader none).putTask tid (some { task with pid := task.tgid, mm := mm })

/-- A function of a task, if there is one. -/
def onTask (s : TaskSystem) (tid : Nat) (f : Task → TaskSystem) : TaskSystem :=
  match s.tasks tid with
  | some task => f task
  | none => s

/-- The state after an action. -/
def next (s : TaskSystem) : TaskAct → TaskSystem
  | .clone tid child pid thread vm mm =>
      s.onTask tid fun task => s.putTask child (some (TaskSystem.child task pid thread vm mm))
  | .sysExit tid id ret si env =>
      s.onTask tid fun task => s.syscallExitProbe tid task id ret si env
  | .exitFilter tid env => s.onTask tid fun task => s.exitFilter tid task env
  | .execve tid leader id mm env =>
      let s := s.onTask tid fun task => mm.elim s (s.replaceMemory tid leader task)
      s.onTask tid fun task => s.syscallExitProbe tid task id 0 0 env
  | .setuid tid uid => s.onTask tid fun task => s.putTask tid (some { task with uid := uid })
  | .setStatus tid status =>
      s.onTask tid fun task => s.onEntry task fun p => { p with status := status }
  | .exit tid =>
      s.onTask tid fun task =>
        (s.syscallProcexitProbe task).putTask tid (some { task with exited := true })
  | .reap tid => s.putTask tid none
  | .startRecording ok => { s with registered := s.registered || ok }
  | .stopRecording => { s with registered := false }

/-- The address is not in use. -/
def Fresh (s : TaskSystem) (env : AllocEnv) : Prop := ∀ p ∈ s.table, env.addr ≠ some p.addr

/-- What the kernel lets happen. -/
def Allowed (s : TaskSystem) : TaskAct → Prop
  | .clone tid child pid thread vm mm =>
      (∃ task, s.Live tid task) ∧ s.tasks child = none ∧
        (∀ t task, s.tasks t = some task → task.pid ≠ pid) ∧ (thread = true → vm = true) ∧
        (vm = false → ∀ t task, s.Live t task → task.mm ≠ mm)
  | .sysExit tid id _ _ env =>
      (∃ task, s.Live tid task) ∧ id ≠ .execve ∧ id ≠ .execveat ∧ s.Fresh env
  | .exitFilter tid env => (∃ task, s.Live tid task) ∧ s.Fresh env
  | .execve tid leader id mm env =>
      (id = .execve ∨ id = .execveat) ∧ s.Fresh env ∧
        ∃ task l, s.Live tid task ∧ s.tasks leader = some l ∧ l.pid = task.tgid ∧
          l.tgid = task.tgid ∧
          (mm ≠ none → ∀ t u, s.tasks t = some u → u.tgid = task.tgid → t ≠ tid → u.exited = true) ∧
          ∀ t u, s.Live t u → mm ≠ some u.mm
  | .setuid tid _ | .setStatus tid _ | .exit tid => ∃ task, s.Live tid task
  | .reap tid =>
      ∃ task, s.tasks tid = some task ∧ task.exited = true ∧
        ∀ t u, s.tasks t = some u → u.tgid = task.pid → t = tid
  | .startRecording _ | .stopRecording => True

end TaskSystem

/-- One step. -/
def taskStep (s : TaskSystem) (a : TaskAct) (t : TaskSystem) : Prop := s.Allowed a ∧ t = s.next a

/-! ## The invariant -/

namespace TaskSystem

variable {s : TaskSystem} {x : Option Nat} {tid : Nat} {task : Task} {env : AllocEnv}

/-- Every entry is that of a living task which has its pid and, unless it is `x`, its
memory. -/
structure SoundBut (x : Option Nat) (s : TaskSystem) : Prop where
  keyed : Keyed s.table
  pids : ∀ t u a b, s.tasks t = some a → s.tasks u = some b → a.pid = b.pid → t = u
  live : ∀ p ∈ s.table, ∃ task, s.Live (s.owner p.addr) task ∧ task.pid = p.pid ∧
    (x ≠ some (s.owner p.addr) → task.mm = p.mm)

/-- The entry that is found for a living task is its own. -/
theorem SoundBut.owner_eq (h : s.SoundBut x) (hl : s.Live tid task) {p : ProcEntry}
    (hf : findProcInfo s.table task.pid = some p) : s.owner p.addr = tid := by
  obtain ⟨hp, hpid⟩ := find_mem hf
  obtain ⟨u, hu, hupid, -⟩ := h.live p hp
  exact h.pids _ _ u task hu.1 hl.1 (hupid.trans hpid)

/-- Nothing is left to say of a task without an entry. -/
theorem SoundBut.of_find_none (h : s.SoundBut x) (hx : ∀ y, x = some y → y = tid)
    (hl : s.Live tid task) (hf : findProcInfo s.table task.pid = none) : s.SoundBut none := by
  refine ⟨h.keyed, h.pids, ?_⟩
  intro p hp
  obtain ⟨u, hu, hupid, hmm⟩ := h.live p hp
  refine ⟨u, hu, hupid, fun _ => hmm fun he => ?_⟩
  -- the entry would be that of `tid`, and would be found
  have ho : s.owner p.addr = tid := hx _ he
  have hut : u = task := by
    rw [ho] at hu
    exact Option.some.inj (hu.1.symm.trans hl.1)
  exact find_none hf p hp (hupid.symm.trans (congrArg Task.pid hut))

/-- A new entry of the task, or a change of its entry that gives it the task's memory. -/
theorem SoundBut.put (h : s.SoundBut x) (hx : ∀ y, x = some y → y = tid) (hl : s.Live tid task)
    {p q : ProcEntry} (hf : findProcInfo s.table task.pid = some p) (ha : p.addr = q.addr)
    (hpid : p.pid = q.pid) (hmm : task.mm = q.mm) :
    SoundBut none { s with table := putProcInfo s.table q } := by
  obtain ⟨hp, hppid⟩ := find_mem hf
  refine ⟨h.keyed.put hp ha hpid, h.pids, ?_⟩
  intro r hr
  rcases mem_put.mp hr with ⟨rfl, -⟩ | ⟨hr, hne⟩
  · refine ⟨task, ?_, hppid.symm.trans hpid, fun _ => hmm⟩
    show s.Live (s.owner r.addr) task
    rw [← ha, h.owner_eq hl hf]
    exact hl
  · obtain ⟨u, hu, hupid, hmm⟩ := h.live r hr
    refine ⟨u, hu, hupid, fun _ => hmm fun he => hne ?_⟩
    -- the entry would be that of `tid`, but that is the one that has changed
    have ho : s.owner r.addr = tid := hx _ he
    have hut : u = task := by
      rw [ho] at hu
      exact Option.some.inj (hu.1.symm.trans hl.1)
    have hrp : r.pid = p.pid := hupid.symm.trans ((congrArg Task.pid hut).trans hppid.symm)
    rw [h.keyed.eq_of_pid hr hp hrp, ha]

theorem SoundBut.onEntry (h : s.SoundBut x) (hx : ∀ y, x = some y → y = tid)
    (hl : s.Live tid task) {f : ProcEntry → ProcEntry}
    (hf : ∀ p, findProcInfo s.table task.pid = some p →
      p.addr = (f p).addr ∧ p.pid = (f p).pid ∧ task.mm = (f p).mm) :
    (s.onEntry task f).SoundBut none := by
  cases hfind : findProcInfo s.table task.pid with
  | none =>
    simp only [TaskSystem.onEntry, hfind]
    exact h.of_find_none hx hl hfind
  | some p =>
    obtain ⟨ha, hpid, hmm⟩ := hf p hfind
    simp only [TaskSystem.onEntry, hfind]
    exact h.put hx hl hfind ha hpid hmm

/-- The memory of the entry that is found. -/
theorem SoundBut.mm_eq (h : s.SoundBut none) (hl : s.Live tid task) {p : ProcEntry}
    (hf : findProcInfo s.table task.pid = some p) : task.mm = p.mm := by
  obtain ⟨hp, hppid⟩ := find_mem hf
  obtain ⟨u, hu, hupid, hmm⟩ := h.live p hp
  rw [h.owner_eq hl hf] at hu
  have hut : task = u := Option.some.inj (hl.1.symm.trans hu.1)
  rw [hut]
  exact hmm (by simp)

theorem SoundBut.acquire (h : s.SoundBut none) (hl : s.Live tid task) (hfresh : s.Fresh env)
    (status : ProcStatus) : (s.acquire tid task status env).SoundBut none := by
  cases hf : findProcInfo s.table task.pid with
  | some p =>
    have hmm : task.mm = p.mm := h.mm_eq hl hf
    have hs := h.put (q := ProcTable.nodProcSetStatus p status (-1)) (by rintro y ⟨⟩) hl hf rfl rfl
      hmm
    simpa only [TaskSystem.acquire, ProcTable.nodProcAcquire, Task.ids, hf] using hs
  | none =>
    cases ha : env.addr with
    | none => simpa only [TaskSystem.acquire, ProcTable.nodProcAcquire, Task.ids, hf, ha] using h
    | some addr =>
      simp only [TaskSystem.acquire, ProcTable.nodProcAcquire, Task.ids, hf, ha]
      have hnew : ∀ p ∈ s.table, p.addr ≠ addr :=
        fun p hp he => hfresh p hp (ha.trans (congrArg some he.symm))
      refine ⟨h.keyed.insert hf hnew, h.pids, ?_⟩
      intro r hr
      rcases mem_insert.mp hr with rfl | hr
      · refine ⟨task, ?_, rfl, fun _ => rfl⟩
        show s.Live (Function.update s.owner addr tid addr) task
        rw [Function.update_self]
        exact hl
      · obtain ⟨u, hu, hupid, hmm⟩ := h.live r hr
        show ∃ u, s.Live (Function.update s.owner addr tid r.addr) u ∧ _
        rw [Function.update_of_ne (hnew r hr)]
        exact ⟨u, hu, hupid, fun _ => hmm (by simp)⟩

/-- The probe keeps the invariant of a system in which every task has its entry's memory. -/
theorem SoundBut.syscallExitProbe (h : s.SoundBut none) (hl : s.Live tid task)
    (hfresh : s.Fresh env) (id : Sysno) (ret si : UInt64) :
    (s.syscallExitProbe tid task id ret si env).SoundBut none := by
  have hnone : ∀ y, (none : Option Nat) = some y → y = tid := by rintro y ⟨⟩
  simp only [TaskSystem.syscallExitProbe]
  split
  · exact h
  split
  · exact h.onEntry hnone hl fun p hp => ⟨rfl, rfl, (h.mm_eq hl hp : task.mm = p.mm)⟩
  iterate 3
    split
    · exact h.acquire hl hfresh _
    split
    · exact h.acquire hl hfresh _
    split
    · exact h.onEntry hnone hl fun p hp => ⟨rfl, (find_mem hp).2, rfl⟩
    · exact h
  · exact h
  · exact h
  · exact h

/-- At the return of `execve` the probe gives the entry the new memory, if it looks at the
task and finds the entry outside the monitor. -/
theorem SoundBut.execveProbe (h : s.SoundBut (some tid)) (hl : s.Live tid task)
    {p : ProcEntry} (hf : findProcInfo s.table task.pid = some p) (hobs : s.observes task = true)
    (hout : p.status.outside = true) {id : Sysno} (hid : id = .execve ∨ id = .execveat)
    (ret si : UInt64) : (s.syscallExitProbe tid task id ret si env).SoundBut none := by
  have hinit := h.onEntry (by rintro y ⟨⟩; rfl) hl (f := ProcTable.nodInitProcinfo task.ids env.pkey)
    fun p hp => ⟨rfl, (find_mem hp).2, rfl⟩
  have hev : ProcTable.nodEventFrom s.table task.pid = p.status := by
    simp only [ProcTable.nodEventFrom, hf]
  have hclone : ¬(id = .clone ∧ ret = 0) := by
    rintro ⟨rfl, -⟩
    rcases hid with hid | hid <;> cases hid
  have hsome : findProcInfo s.table task.pid ≠ none := by simp [hf]
  rw [TaskSystem.syscallExitProbe, if_neg (by simp [hobs]), hev]
  cases hst : p.status with
  | nodOut | nodClone | nodShare =>
    simp only [if_neg hclone, if_neg hsome, if_pos hid]
    exact hinit
  | nodUnknown | nodIn | nodRestoreContext | nodRestoreSecurity =>
    rw [hst] at hout
    cases hout

/-- A task may change as its entry allows. -/
theorem SoundBut.putTask (h : s.SoundBut none) {new : Option Task}
    (hpids : ∀ b, new = some b → ∀ u a, u ≠ tid → s.tasks u = some a → a.pid ≠ b.pid)
    (hentry : ∀ p ∈ s.table, s.owner p.addr = tid → ∃ b, new = some b ∧ b.exited = false ∧
      b.pid = p.pid ∧ (x ≠ some tid → b.mm = p.mm)) : (s.putTask tid new).SoundBut x := by
  refine ⟨h.keyed, ?_, ?_⟩
  · intro t u a b ha hb hab
    by_cases ht : t = tid
    · by_cases hu : u = tid
      · rw [ht, hu]
      · subst ht
        rw [putTask_self] at ha
        rw [putTask_of_ne s _ hu] at hb
        exact absurd hab.symm (hpids a ha u b hu hb)
    · rw [putTask_of_ne s _ ht] at ha
      by_cases hu : u = tid
      · subst hu
        rw [putTask_self] at hb
        exact absurd hab (hpids b hb t a ht ha)
      · rw [putTask_of_ne s _ hu] at hb
        exact h.pids t u a b ha hb hab
  · intro p hp
    show ∃ task, (Function.update s.tasks tid new (s.owner p.addr) = some task ∧ _) ∧ _
    by_cases ho : s.owner p.addr = tid
    · obtain ⟨b, hb, hlive, hpid, hmm⟩ := hentry p hp ho
      rw [ho, Function.update_self]
      exact ⟨b, ⟨hb, hlive⟩, hpid, fun hx => hmm (by rwa [show (s.putTask tid new).owner p.addr = tid
        from ho] at hx)⟩
    · obtain ⟨u, hu, hupid, hmm⟩ := h.live p hp
      rw [Function.update_of_ne ho]
      exact ⟨u, hu, hupid, fun _ => hmm (by simp)⟩

/-- What is known of the entries of a living task. -/
theorem SoundBut.entry (h : s.SoundBut none) (hl : s.Live tid task) {p : ProcEntry}
    (hp : p ∈ s.table) (ho : s.owner p.addr = tid) : task.pid = p.pid ∧ task.mm = p.mm := by
  obtain ⟨u, hu, hupid, hmm⟩ := h.live p hp
  rw [ho] at hu
  have hut : u = task := Option.some.inj (hu.1.symm.trans hl.1)
  rw [← hut]
  exact ⟨hupid, hmm (by simp)⟩

/-- The other tasks have other pids. -/
theorem SoundBut.pid_ne (h : s.SoundBut x) (hl : s.tasks tid = some task) {u : Nat} {a : Task}
    (hu : u ≠ tid) (ha : s.tasks u = some a) : a.pid ≠ task.pid :=
  fun he => hu (h.pids u tid a task ha hl he)

/-- After `syscall_procexit_probe` the task has no entry, if the probe looks at it. -/
theorem SoundBut.procexit (h : s.SoundBut none)
    (hobs : findProcInfo s.table task.pid ≠ none → s.observes task = true) :
    (s.syscallProcexitProbe task).SoundBut none ∧ (s.syscallProcexitProbe task).tasks = s.tasks ∧
      ∀ p ∈ (s.syscallProcexitProbe task).table, p.pid ≠ task.pid := by
  cases hf : findProcInfo s.table task.pid with
  | none =>
    have hs : s.syscallProcexitProbe task = s := by
      simp only [TaskSystem.syscallProcexitProbe, ProcTable.nodProcRelease, hf, ite_self]
    rw [hs]
    exact ⟨h, rfl, find_none hf⟩
  | some q =>
    have hob := hobs (by simp [hf])
    have hs : s.syscallProcexitProbe task = { s with table := removeProcInfo s.table q } := by
      simp [TaskSystem.syscallProcexitProbe, hob, ProcTable.nodProcRelease, hf]
    obtain ⟨hq, hqpid⟩ := find_mem hf
    rw [hs]
    refine ⟨⟨h.keyed.remove q, h.pids, ?_⟩, rfl, ?_⟩
    · exact fun p hp => h.live p (mem_remove.mp hp).1
    · intro p hp he
      obtain ⟨hp, hne⟩ := mem_remove.mp hp
      exact hne (congrArg ProcEntry.addr (h.keyed.eq_of_pid hp hq (he.trans hqpid.symm)))

/-- A step of the kernel's that changes a task keeps what its entry says. -/
theorem SoundBut.change (h : s.SoundBut none) (hl : s.Live tid task) {b : Task}
    (hpid : b.pid = task.pid) (hmm : b.mm = task.mm) (hb : b.exited = false) :
    (s.putTask tid (some b)).SoundBut none := by
  apply h.putTask
  · rintro _ ⟨⟩ u a hu ha
    rw [hpid]
    exact h.pid_ne hl.1 hu ha
  · intro p hp ho
    obtain ⟨hppid, hpmm⟩ := h.entry hl hp ho
    exact ⟨b, rfl, hb, hpid.trans hppid, fun _ => hmm.trans hpmm⟩

/-- A task that has exited, or is not there, has no entry. -/
theorem SoundBut.no_entry (h : s.SoundBut x) (hd : ∀ task, ¬s.Live tid task) {p : ProcEntry}
    (hp : p ∈ s.table) : s.owner p.addr ≠ tid := by
  rintro rfl
  obtain ⟨u, hu, -⟩ := h.live p hp
  exact hd u hu

/-- The memory of a leader, or of a thread without an entry that becomes one, is replaced. -/
theorem SoundBut.replaceMemory (h : s.SoundBut none) (hl : s.Live tid task) {leader : Nat} {l : Task}
    (hleader : s.tasks leader = some l) (hlpid : l.pid = task.tgid)
    (hdead : tid ≠ leader → l.exited = true)
    (hentry : tid ≠ leader → findProcInfo s.table task.pid = none) (mm : Nat) :
    (s.replaceMemory tid leader task mm).SoundBut (some tid) := by
  by_cases he : tid = leader
  · rw [TaskSystem.replaceMemory, if_pos he]
    apply h.putTask
    · rintro _ ⟨⟩ u a hu ha
      exact h.pid_ne hl.1 hu ha
    · intro p hp ho
      exact ⟨_, rfl, hl.2, (h.entry hl hp ho).1, fun hx => absurd rfl hx⟩
  · rw [TaskSystem.replaceMemory, if_neg he]
    -- the old leader is gone, and its pid with it
    have hgone : ∀ a, ¬s.Live leader a := by
      rintro a ⟨ha, hlive⟩
      cases hleader.symm.trans ha
      rw [hdead he] at hlive
      cases hlive
    have h₁ : (s.putTask leader none).SoundBut none := by
      apply h.putTask
      · rintro _ ⟨⟩
      · exact fun p hp ho => absurd ho (h.no_entry hgone hp)
    apply h₁.putTask
    · rintro _ ⟨⟩ u a hu ha
      by_cases hul : u = leader
      · subst hul
        rw [putTask_self] at ha
        cases ha
      · rw [putTask_of_ne s _ hul] at ha
        show a.pid ≠ task.tgid
        rw [← hlpid]
        exact h.pid_ne hleader hul ha
    · intro p hp ho
      exact absurd (h.entry hl hp ho).1.symm (find_none (hentry he) p hp)

/-! ## Accuracy -/

/-- What the table is to keep: one entry for each pid, each that of a living task with that
pid and that memory, so that a search finds no entry made for another task. -/
structure Accurate (s : TaskSystem) : Prop where
  unique : (s.table.map (·.pid)).Nodup
  live : ∀ p ∈ s.table, ∃ task, s.Live (s.owner p.addr) task ∧ task.pid = p.pid ∧ task.mm = p.mm
  found : ∀ tid task p, s.Live tid task → findProcInfo s.table task.pid = some p →
    s.owner p.addr = tid

/-- The table is empty when the module is loaded; the tasks may be any. -/
structure Starts (s : TaskSystem) : Prop where
  table : s.table = []
  pids : ∀ t u a b, s.tasks t = some a → s.tasks u = some b → a.pid = b.pid → t = u

/-- The condition on a step: a task that has an entry exits only where the probes look at
it, and replaces its memory only where they look at it, outside the monitor and as the
leader of its group. -/
def KeepsEntry (s : TaskSystem) : TaskAct → Prop
  | .exit tid => ∀ task, s.tasks tid = some task → findProcInfo s.table task.pid ≠ none →
      s.observes task = true
  | .execve tid leader _ (some _) _ => ∀ task p, s.tasks tid = some task →
      findProcInfo s.table task.pid = some p →
      tid = leader ∧ s.observes task = true ∧ p.status.outside = true
  | _ => True

theorem SoundBut.accurate (h : s.SoundBut none) : s.Accurate := by
  refine ⟨h.keyed.pids, ?_, fun tid task p hl hf => h.owner_eq hl hf⟩
  intro p hp
  obtain ⟨task, hl, hpid, hmm⟩ := h.live p hp
  exact ⟨task, hl, hpid, hmm (by simp)⟩

theorem Starts.sound (h : s.Starts) : s.SoundBut none := by
  refine ⟨?_, h.pids, ?_⟩
  · rw [h.table]
    exact .nil
  · rw [h.table]
    rintro p ⟨⟩

theorem onTask_eq (h : s.tasks tid = some task) (f : Task → TaskSystem) : s.onTask tid f = f task := by
  simp only [onTask, h]

/-- The thread after a successful `execve`. -/
def replaced (task : Task) (tid leader mm : Nat) : Task :=
  { task with pid := if tid = leader then task.pid else task.tgid, mm := mm }

theorem replaceMemory_live (hl : s.Live tid task) (leader mm : Nat) :
    (s.replaceMemory tid leader task mm).Live tid (replaced task tid leader mm) := by
  by_cases he : tid = leader
  · rw [TaskSystem.replaceMemory, if_pos he, replaced, if_pos he]
    exact ⟨putTask_self .., hl.2⟩
  · rw [TaskSystem.replaceMemory, if_neg he, replaced, if_neg he]
    exact ⟨putTask_self .., hl.2⟩

/-- Only the tasks change. -/
theorem replaceMemory_rest (s : TaskSystem) (tid leader : Nat) (task : Task) (mm : Nat) :
    (s.replaceMemory tid leader task mm).table = s.table ∧
      (s.replaceMemory tid leader task mm).registered = s.registered := by
  rw [TaskSystem.replaceMemory]
  split
  · exact ⟨rfl, rfl⟩
  · exact ⟨rfl, rfl⟩

/-- A successful `execve` and its return. -/
theorem SoundBut.execve (h : s.SoundBut none) (hl : s.Live tid task) {leader : Nat} {l : Task}
    (hleader : s.tasks leader = some l) (hlpid : l.pid = task.tgid)
    (hdead : tid ≠ leader → l.exited = true) (hfresh : s.Fresh env) {id : Sysno}
    (hid : id = .execve ∨ id = .execveat) {mm : Nat}
    (hc : s.KeepsEntry (.execve tid leader id (some mm) env)) :
    ((s.replaceMemory tid leader task mm).syscallExitProbe tid (replaced task tid leader mm) id 0 0
      env).SoundBut none := by
  have hl' := replaceMemory_live hl leader mm
  obtain ⟨htable, hreg⟩ := replaceMemory_rest s tid leader task mm
  have hs' : (s.replaceMemory tid leader task mm).SoundBut (some tid) := by
    apply h.replaceMemory hl hleader hlpid hdead
    intro hne
    by_contra hf
    obtain ⟨p, hf⟩ := Option.ne_none_iff_exists'.mp hf
    exact hne (hc task p hl.1 hf).1
  cases hf : findProcInfo s.table task.pid with
  | some p =>
    obtain ⟨he, hobs, hout⟩ := hc task p hl.1 hf
    apply hs'.execveProbe hl' ?_ ?_ hout hid
    · rw [htable, replaced, if_pos he]
      exact hf
    · rw [observes, hreg]
      exact hobs
  | none =>
    -- neither the thread nor the old leader has an entry
    have hnone : findProcInfo s.table (replaced task tid leader mm).pid = none := by
      by_cases he : tid = leader
      · rw [replaced, if_pos he]
        exact hf
      · rw [replaced, if_neg he]
        by_contra hsome
        obtain ⟨q, hq⟩ := Option.ne_none_iff_exists'.mp hsome
        obtain ⟨hqm, hqpid⟩ := find_mem hq
        obtain ⟨u, hu, hupid, -⟩ := h.live q hqm
        have hul := h.pids _ _ u l hu.1 hleader (hupid.trans (hqpid.trans hlpid.symm))
        rw [hul] at hu
        cases hleader.symm.trans hu.1
        have hlive := hu.2
        rw [hdead he] at hlive
        cases hlive
    have hall : (s.replaceMemory tid leader task mm).SoundBut none :=
      hs'.of_find_none (by rintro y ⟨⟩; rfl) hl' (by rw [htable]; exact hnone)
    apply hall.syscallExitProbe hl'
    rw [Fresh, htable]
    exact hfresh

/-- **Every step keeps the invariant**, if it keeps the entries. -/
theorem SoundBut.step {a : TaskAct} {t : TaskSystem} (h : s.SoundBut none) (hc : s.KeepsEntry a)
    (hs : taskStep s a t) : t.SoundBut none := by
  obtain ⟨hallow, rfl⟩ := hs
  cases a with
  | clone tid child pid thread vm mm =>
    obtain ⟨⟨task, hl⟩, hchild, hpid, -, -⟩ := hallow
    simp only [next, onTask_eq hl.1]
    apply h.putTask
    · rintro _ ⟨⟩ u a hu ha
      exact hpid u a ha
    · intro p hp ho
      refine absurd ho (h.no_entry ?_ hp)
      rintro a ⟨ha, -⟩
      rw [hchild] at ha
      cases ha
  | sysExit tid id ret si env =>
    obtain ⟨⟨task, hl⟩, -, -, hfresh⟩ := hallow
    simp only [next, onTask_eq hl.1]
    exact h.syscallExitProbe hl hfresh id ret si
  | exitFilter tid env =>
    obtain ⟨⟨task, hl⟩, hfresh⟩ := hallow
    simp only [next, onTask_eq hl.1, TaskSystem.exitFilter]
    split
    · exact h.acquire hl hfresh _
    · exact h
  | execve tid leader id mm env =>
    obtain ⟨hid, hfresh, task, l, hl, hleader, hlpid, hltgid, hothers, -⟩ := hallow
    cases mm with
    | none =>
      simp only [next, onTask_eq hl.1, Option.elim_none]
      exact h.syscallExitProbe hl hfresh id 0 0
    | some mm =>
      simp only [next, onTask_eq hl.1, Option.elim_some,
        onTask_eq (replaceMemory_live hl leader mm).1]
      apply h.execve hl hleader hlpid ?_ hfresh hid hc
      exact fun hne => hothers (by simp) leader l hleader hltgid (Ne.symm hne)
  | setuid tid uid =>
    obtain ⟨task, hl⟩ := hallow
    simp only [next, onTask_eq hl.1]
    exact h.change hl rfl rfl hl.2
  | setStatus tid status =>
    obtain ⟨task, hl⟩ := hallow
    simp only [next, onTask_eq hl.1]
    exact h.onEntry (by rintro y ⟨⟩) hl fun p hp => ⟨rfl, rfl, (h.mm_eq hl hp : task.mm = p.mm)⟩
  | exit tid =>
    obtain ⟨task, hl⟩ := hallow
    simp only [next, onTask_eq hl.1]
    obtain ⟨h', htasks, hleft⟩ := h.procexit (hc task hl.1)
    have hl' : (s.syscallProcexitProbe task).Live tid task := ⟨by rw [htasks]; exact hl.1, hl.2⟩
    apply h'.putTask
    · rintro _ ⟨⟩ u a hu ha
      exact h'.pid_ne hl'.1 hu ha
    · intro p hp ho
      exact absurd (h'.entry hl' hp ho).1.symm (hleft p hp)
  | reap tid =>
    obtain ⟨task, htask, hexit, -⟩ := hallow
    apply h.putTask
    · rintro _ ⟨⟩
    · intro p hp ho
      refine absurd ho (h.no_entry ?_ hp)
      rintro a ⟨ha, hlive⟩
      cases htask.symm.trans ha
      rw [hexit] at hlive
      cases hlive
  | startRecording ok => exact ⟨h.keyed, h.pids, h.live⟩
  | stopRecording => exact ⟨h.keyed, h.pids, h.live⟩

end TaskSystem

/-- **The table is accurate** in every run in which no task with an entry exits or replaces
its memory unobserved, or takes over its leader's pid. -/
theorem table_accurate {s t : TaskSystem} {tr : List (TaskSystem × TaskAct)} (hs : s.Starts)
    (h : Run taskStep s tr t) (hc : Meets TaskSystem.KeepsEntry tr) : t.Accurate :=
  (h.invariant (fun h ha hs => h.step ha hs) hs.sound hc).accurate

/-! ## A pid that is used again -/

/-- The shell and its first child, before the recording. -/
def shellTasks : TaskSystem where
  registered := false
  tasks := Function.update (Function.update (fun _ => none) 0
    (some ⟨100, 100, 1, 1000, false, false⟩)) 1 (some ⟨101, 101, 2, 1000, false, false⟩)
  table := []
  owner _ := 0

theorem shellTasks_tasks {t : Nat} {task : Task} (h : shellTasks.tasks t = some task) :
    (t = 0 ∧ task = ⟨100, 100, 1, 1000, false, false⟩) ∨
      (t = 1 ∧ task = ⟨101, 101, 2, 1000, false, false⟩) := by
  by_cases h1 : t = 1
  · subst h1
    exact Or.inr ⟨rfl, (Option.some.inj h).symm⟩
  · by_cases h0 : t = 0
    · subst h0
      exact Or.inl ⟨rfl, (Option.some.inj h).symm⟩
    · simp [shellTasks, h0, h1] at h

theorem shellTasks_starts : shellTasks.Starts := by
  refine ⟨rfl, ?_⟩
  intro t u a b ha hb hab
  rcases shellTasks_tasks ha with ⟨rfl, rfl⟩ | ⟨rfl, rfl⟩ <;>
    rcases shellTasks_tasks hb with ⟨rfl, rfl⟩ | ⟨rfl, rfl⟩ <;> simp_all

/-- The entry the child gets when it is first seen. -/
def childEntry : ProcEntry :=
  ⟨0x5000, 101, 2, -1, 0, 0, 0, .nodOut, { NodStackInfo.zero with pkey := -1 }⟩

/-- The child has been seen. -/
def childSeen : TaskSystem :=
  { shellTasks with
    registered := true
    table := [childEntry]
    owner := Function.update (fun _ => 0) 0x5000 1 }

theorem childSeen_run : ∃ tr, Run taskStep shellTasks tr childSeen ∧
    Meets TaskSystem.KeepsEntry tr := by
  have h₁ : taskStep shellTasks (.startRecording true) { shellTasks with registered := true } :=
    ⟨trivial, rfl⟩
  have h₂ : taskStep { shellTasks with registered := true } (.sysExit 1 (.other 3) 0 0 ⟨some 0x5000, -1⟩)
      childSeen := by
    refine ⟨⟨⟨_, rfl, rfl⟩, by simp, by simp, ?_⟩, rfl⟩
    rintro p ⟨⟩
  exact ⟨_, (Run.nil.snoc h₁).snoc h₂,
    meets_snoc.mpr ⟨meets_snoc.mpr ⟨meets_nil, trivial⟩, trivial⟩⟩

/-- The child replaces its memory under observation, and its entry follows. -/
theorem table_accurate_execve : ∃ tr t, Run taskStep shellTasks tr t ∧
    Meets TaskSystem.KeepsEntry tr ∧ t.table = [{ childEntry with mm := 7 }] ∧ t.Accurate := by
  obtain ⟨tr, hrun, hmeets⟩ := childSeen_run
  have hstep : taskStep childSeen (.execve 1 1 .execve (some 7) ⟨none, -1⟩)
      (childSeen.next (.execve 1 1 .execve (some 7) ⟨none, -1⟩)) := by
    refine ⟨⟨Or.inl rfl, ?_, _, _, ⟨rfl, rfl⟩, rfl, rfl, rfl, ?_, ?_⟩, rfl⟩
    · rintro p - ⟨⟩
    · intro _ t u hu htgid hne
      rcases shellTasks_tasks hu with ⟨rfl, rfl⟩ | ⟨rfl, rfl⟩
      · exact absurd htgid (by decide)
      · exact absurd rfl hne
    · intro t u hu
      rcases shellTasks_tasks hu.1 with ⟨rfl, rfl⟩ | ⟨rfl, rfl⟩ <;> decide
  have hkeeps : childSeen.KeepsEntry (.execve 1 1 .execve (some 7) ⟨none, -1⟩) := by
    rintro task p ⟨⟩ hf
    cases (show some childEntry = some p from hf)
    exact ⟨rfl, rfl, rfl⟩
  have hmeets' := meets_snoc.mpr ⟨hmeets, hkeeps⟩
  exact ⟨_, _, hrun.snoc hstep, hmeets', rfl, table_accurate shellTasks_starts (hrun.snoc hstep) hmeets'⟩

/-- **An exit while the recording is stopped leaves its entry behind**, and the shell's next
child, which gets the same pid, is taken for the one that is gone. -/
theorem stopped_exit_leaves_entry : ¬ ∀ (s t : TaskSystem) (tr : List (TaskSystem × TaskAct)),
    s.Starts → Run taskStep s tr t → t.Accurate := by
  intro hall
  obtain ⟨tr, hrun, -⟩ := childSeen_run
  have hstop : taskStep childSeen .stopRecording { childSeen with registered := false } :=
    ⟨trivial, rfl⟩
  -- the child's exit, after which it is waited for, and a new child with its pid
  let s₁ := { childSeen with registered := false }.next (.exit 1)
  let s₂ := s₁.next (.reap 1)
  let s₃ := s₂.next (.clone 0 2 101 false false 3)
  have hexit : taskStep { childSeen with registered := false } (.exit 1) s₁ := ⟨⟨_, rfl, rfl⟩, rfl⟩
  have hleft : ∀ {t task}, s₁.tasks t = some task → (t = 0 ∧ task.pid = 100 ∧ task.tgid = 100 ∧
      task.mm = 1) ∨ t = 1 := by
    intro t task ht
    by_cases h1 : t = 1
    · exact Or.inr h1
    · have ht' : shellTasks.tasks t = some task := by
        rw [← ht]
        exact (TaskSystem.putTask_of_ne _ _ h1).symm
      rcases shellTasks_tasks ht' with ⟨h0, rfl⟩ | ⟨h1', -⟩
      · exact Or.inl ⟨h0, rfl, rfl, rfl⟩
      · exact absurd h1' h1
  have hreap : taskStep s₁ (.reap 1) s₂ := by
    refine ⟨⟨_, rfl, rfl, ?_⟩, rfl⟩
    intro t u hu htgid
    rcases hleft hu with ⟨-, -, h, -⟩ | h
    · exact absurd (h.symm.trans htgid) (by decide)
    · exact h
  have hgone : ∀ {t task}, s₂.tasks t = some task → task.pid = 100 ∧ task.mm = 1 := by
    intro t task ht
    by_cases h1 : t = 1
    · subst h1
      cases ht
    · have ht' : s₁.tasks t = some task := by
        rw [← ht]
        exact (TaskSystem.putTask_of_ne _ _ h1).symm
      rcases hleft ht' with ⟨-, hpid, -, hmm⟩ | h
      · exact ⟨hpid, hmm⟩
      · exact absurd h h1
  have hclone : taskStep s₂ (.clone 0 2 101 false false 3) s₃ := by
    refine ⟨⟨⟨_, rfl, rfl⟩, rfl, ?_, by simp, ?_⟩, rfl⟩
    · intro t task ht
      rw [(hgone ht).1]
      decide
    · intro _ t task ht
      rw [(hgone ht.1).2]
      decide
  have hacc := hall _ _ _ shellTasks_starts
    ((((hrun.snoc hstop).snoc hexit).snoc hreap).snoc hclone)
  have howner := hacc.found 2 ⟨101, 101, 3, 1000, false, false⟩ childEntry ⟨rfl, rfl⟩ rfl
  exact absurd howner (by decide)

end NoDrop
