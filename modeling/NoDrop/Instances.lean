import NoDrop.Lib.Runs
import NoDrop.ProcTable

/-! # The loaded monitor

Each thread has a monitor of its own: an image in the memory of its process, and a stack.
Four fields of its `nod_proc_info` describe it, and three functions write them, each its
own part: `do_load_monitor` all four, `nod_copy_procinfo` the entry point and the stack's
bounds, `nod_init_procinfo` the same two, at the return of every `execve`.

* `execve` that fails leaves the image where it is and the entry point cleared, and the next
  `nod_load_monitor` loads a second one (`failed_execve_loads_twice`).
* A thread that is taken for a process gets its leader's entry point, and no stack; and so
  on: `Undisturbed` lists what must not happen, and `instances_described` says that
  otherwise the four fields describe the thread's monitor, and that it is loaded once.

What a thread has got is history (`loaded`, `mapped`); `execve` that succeeds takes it away.
-/
namespace NoDrop

open Runs ProcTable

/-! ## Data -/

/-- A loaded monitor: the entry point, the initial stack pointer, where its
`nod_stack_info` lies, and the bounds of its stack. -/
structure MonitorInstance where
  entryAddr : UInt64
  stackAddr : UInt64
  stackInfoAddr : UInt64
  stackStart : UInt64
  stackEnd : UInt64
  entry_ne : entryAddr ≠ 0

/-- How `do_load_monitor` ends: no image is mapped, the image is mapped but
`create_elf_tbls` fails after it has written some of the fields, or there is a monitor. -/
inductive DoLoad where
  | unmapped
  | noTables (stack : Option (UInt64 × UInt64)) (stackInfoAddr stackAddr : Option UInt64)
  | loaded (i : MonitorInstance)

/-- What `nod_load_monitor` depends on beside the table. -/
structure LoadArgs where
  doLoad : DoLoad
  syscallNr : Int32
  exitCode : Int64
  notCopied : Nat

/-- A thread. -/
structure LoadThread where
  ids : TaskIds
  tgid : Nat

/-- The threads, the process table, and for each thread the monitor that has been loaded for
it in its memory, and whether an image has been mapped for it there. -/
structure Loading where
  threads : Nat → Option LoadThread
  table : List ProcEntry
  loaded : Nat → Option MonitorInstance
  mapped : Nat → Bool

/-! ## `kmodule/loader.c` -/

/-- The end of `do_load_monitor`, in the entry. -/
def doLoadMonitor (o : DoLoad) (p : ProcEntry) : ProcEntry :=
  match o with
  | .unmapped => p
  | .noTables stack stackInfoAddr stackAddr =>
      { p with
        stackInfo :=
          { p.stackInfo with
            stackStart := (stack.map Prod.fst).getD p.stackInfo.stackStart
            stackEnd := (stack.map Prod.snd).getD p.stackInfo.stackEnd }
        stackInfoAddr := stackInfoAddr.getD p.stackInfoAddr
        stackAddr := stackAddr.getD p.stackAddr }
  | .loaded i =>
      { p with
        entryAddr := i.entryAddr
        stackAddr := i.stackAddr
        stackInfoAddr := i.stackInfoAddr
        stackInfo := { p.stackInfo with stackStart := i.stackStart, stackEnd := i.stackEnd } }

/-- The switch on the status at the beginning of `nod_load_monitor`. -/
def loadInherit (table : List ProcEntry) (tgid : Nat) (p : ProcEntry) : ProcEntry :=
  match p.status with
  | .nodClone => ProcTable.nodCopyProcinfo table tgid p
  | .nodShare => ProcTable.nodShareProcinfo table tgid p
  | _ => p

/-- The end of `nod_load_monitor`: if there is a monitor now, the thread is sent into it
with `sp` and `ip` from the entry. -/
def loadEnter (a : LoadArgs) (p : ProcEntry) : ProcEntry :=
  if p.entryAddr = 0 then p
  else
    let p := { p with
      stackInfo := { p.stackInfo with syscallNr := a.syscallNr, exitCode := a.exitCode } }
    if 0 < a.notCopied then p else ProcTable.nodProcSetStatus p .nodIn (-1)

/-- `nod_load_monitor` after the switch on the status: the monitor is loaded if there is
none. -/
def loadMonitor (a : LoadArgs) (p : ProcEntry) : ProcEntry :=
  loadEnter a (if p.entryAddr = 0 then doLoadMonitor a.doLoad p else p)

/-! ## The threads -/

/-- What happens.  `clone` is the creation of a thread together with its return from the
call, and `execve` a call together with its return, after which the thread has the pid
`pid`, its own or its leader's.  `leave` is the monitor's return to the application. -/
inductive LoadAct where
  | firstEvent (tid : Nat) (env : AllocEnv)
  | clone (tid child pid : Nat) (thread vm : Bool) (mm : Nat) (si : UInt64) (env : AllocEnv)
  | execve (tid pid mm : Nat) (env : AllocEnv)
  | execveFails (tid : Nat) (env : AllocEnv)
  | load (tid : Nat) (a : LoadArgs)
  | leave (tid : Nat) (stack : NodStackInfo)
  | exit (tid : Nat)

namespace Loading

/-- The return of `execve` in `syscall_exit_probe`, successful or not. -/
def execReturn (table : List ProcEntry) (ids : TaskIds) (env : AllocEnv) : List ProcEntry :=
  match findProcInfo table ids.pid with
  | some p =>
      if p.status.outside then putProcInfo table (ProcTable.nodInitProcinfo ids env.pkey p)
      else table
  | none => (ProcTable.nodProcAcquire .nodOut (-1) ids env table).2

/-- A function of a thread and its entry, if there are any. -/
def onEntry (s : Loading) (tid : Nat) (f : LoadThread → ProcEntry → Loading) : Loading :=
  match s.threads tid with
  | some th =>
      match findProcInfo s.table th.ids.pid with
      | some p => f th p
      | none => s
  | none => s

/-- A function of a thread, if there is one. -/
def onThread (s : Loading) (tid : Nat) (f : LoadThread → Loading) : Loading :=
  match s.threads tid with
  | some th => f th
  | none => s

/-- What a thread has got after a `nod_load_monitor` that had to load. -/
def gets (s : Loading) (tid : Nat) : DoLoad → Option MonitorInstance × Bool
  | .unmapped => (s.loaded tid, s.mapped tid)
  | .noTables .. => (s.loaded tid, true)
  | .loaded i => (some i, true)

/-- The state after an action. -/
def next (s : Loading) : LoadAct → Loading
  | .firstEvent tid env =>
      s.onThread tid fun th =>
        { s with table := (ProcTable.nodProcAcquire .nodOut (-1) th.ids env s.table).2 }
  | .clone tid child pid thread vm mm si env =>
      s.onThread tid fun th =>
        let ids := ⟨pid, if vm then th.ids.mm else mm⟩
        { s with
          threads := Function.update s.threads child
            (some ⟨ids, if thread then th.tgid else pid⟩)
          table := (ProcTable.nodProcAcquire
            (if si &&& cloneVm = 0 then .nodClone else .nodShare) (-1) ids env s.table).2
          loaded := Function.update s.loaded child none
          mapped := Function.update s.mapped child false }
  | .execve tid pid mm env =>
      s.onThread tid fun th =>
        { s with
          threads := Function.update s.threads tid (some ⟨⟨pid, mm⟩, th.tgid⟩)
          table := execReturn s.table ⟨pid, mm⟩ env
          loaded := Function.update s.loaded tid none
          mapped := Function.update s.mapped tid false }
  | .execveFails tid env =>
      s.onThread tid fun th => { s with table := execReturn s.table th.ids env }
  | .load tid a =>
      s.onEntry tid fun th p =>
        let p := loadInherit s.table th.tgid p
        { s with
          table := putProcInfo s.table (loadMonitor a p)
          loaded := if p.entryAddr = 0 then Function.update s.loaded tid (s.gets tid a.doLoad).1
            else s.loaded
          mapped := if p.entryAddr = 0 then Function.update s.mapped tid (s.gets tid a.doLoad).2
            else s.mapped }
  | .leave tid stack =>
      s.onEntry tid fun _ p =>
        { s with
          table := putProcInfo s.table
            { ProcTable.nodProcSetStatus p .nodOut (-1) with stackInfo := stack } }
  | .exit tid =>
      s.onThread tid fun th =>
        { s with
          threads := Function.update s.threads tid none
          table := ProcTable.nodProcRelease th.ids.pid s.table }

/-- The entry of a thread. -/
def Entry (s : Loading) (tid : Nat) (th : LoadThread) (p : ProcEntry) : Prop :=
  s.threads tid = some th ∧ findProcInfo s.table th.ids.pid = some p

/-- What the kernel and the monitor let happen.  The monitor hands back the bounds of the
stack that it has been given. -/
def Allowed (s : Loading) : LoadAct → Prop
  | .firstEvent tid env =>
      (∃ th, s.threads tid = some th ∧ findProcInfo s.table th.ids.pid = none) ∧
        ∀ p ∈ s.table, env.addr ≠ some p.addr
  | .clone tid child pid thread vm _ _ env =>
      (∃ th, s.threads tid = some th) ∧ s.threads child = none ∧
        (∀ t th, s.threads t = some th → th.ids.pid ≠ pid) ∧ (thread = true → vm = true) ∧
        ∀ p ∈ s.table, env.addr ≠ some p.addr
  | .execve tid pid _ env =>
      (∃ th, s.threads tid = some th ∧ (pid = th.ids.pid ∨ pid = th.tgid)) ∧
        (∀ t th, s.threads t = some th → t ≠ tid → th.ids.pid ≠ pid) ∧
        ∀ p ∈ s.table, env.addr ≠ some p.addr
  | .execveFails tid env =>
      (∃ th, s.threads tid = some th) ∧ ∀ p ∈ s.table, env.addr ≠ some p.addr
  | .load tid _ => ∃ th p, s.Entry tid th p ∧ p.status.outside = true
  | .leave tid stack => ∃ th p, s.Entry tid th p ∧ p.status = .nodIn ∧
      stack.stackStart = p.stackInfo.stackStart ∧ stack.stackEnd = p.stackInfo.stackEnd
  | .exit tid => ∃ th, s.threads tid = some th

end Loading

/-- One step. -/
def loadStep (s : Loading) (a : LoadAct) (t : Loading) : Prop := s.Allowed a ∧ t = s.next a

/-! ## What an entry describes -/

/-- The entry describes the monitor, or that there is none. -/
def ProcEntry.Describes (p : ProcEntry) : Option MonitorInstance → Prop
  | none => p.entryAddr = 0
  | some i => p.entryAddr = i.entryAddr ∧ p.stackAddr = i.stackAddr ∧
      p.stackInfoAddr = i.stackInfoAddr ∧ p.stackInfo.stackStart = i.stackStart ∧
      p.stackInfo.stackEnd = i.stackEnd

/-- Two states of an entry that say the same of the monitor. -/
structure ProcEntry.Like (q p : ProcEntry) : Prop where
  addr : q.addr = p.addr
  pid : q.pid = p.pid
  entryAddr : q.entryAddr = p.entryAddr
  stackAddr : q.stackAddr = p.stackAddr
  stackInfoAddr : q.stackInfoAddr = p.stackInfoAddr
  stackStart : q.stackInfo.stackStart = p.stackInfo.stackStart
  stackEnd : q.stackInfo.stackEnd = p.stackInfo.stackEnd

section Describes

variable {p q : ProcEntry} {l : Option MonitorInstance} {table : List ProcEntry} {tgid : Nat}

theorem ProcEntry.Describes.entry_eq_zero (h : p.Describes l) : p.entryAddr = 0 ↔ l = none := by
  cases l with
  | none => exact iff_of_true h rfl
  | some i => exact iff_of_false (h.1.symm ▸ i.entry_ne) (by simp)

theorem ProcEntry.Describes.like (h : p.Describes l) (hq : q.Like p) : q.Describes l := by
  cases l with
  | none => exact hq.entryAddr.trans h
  | some i =>
    obtain ⟨h1, h2, h3, h4, h5⟩ := h
    exact ⟨hq.entryAddr.trans h1, hq.stackAddr.trans h2, hq.stackInfoAddr.trans h3,
      hq.stackStart.trans h4, hq.stackEnd.trans h5⟩

theorem loadEnter_like (a : LoadArgs) (p : ProcEntry) : (loadEnter a p).Like p := by
  unfold loadEnter
  split
  · exact ⟨rfl, rfl, rfl, rfl, rfl, rfl, rfl⟩
  · dsimp only
    split
    · exact ⟨rfl, rfl, rfl, rfl, rfl, rfl, rfl⟩
    · exact ⟨rfl, rfl, rfl, rfl, rfl, rfl, rfl⟩

/-- Inheriting changes nothing for a thread that leads its group, nor where neither the
thread nor its leader has a monitor. -/
theorem ProcEntry.Describes.loadInherit (h : p.Describes l)
    (hc : p.status = .nodClone → ∀ parent, findProcInfo table tgid = some parent →
      parent = p ∨ (parent.entryAddr = 0 ∧ p.entryAddr = 0)) :
    (loadInherit table tgid p).Describes l := by
  cases hst : p.status with
  | nodClone =>
    simp only [NoDrop.loadInherit, hst, ProcTable.nodCopyProcinfo]
    cases hf : findProcInfo table tgid with
    | none => exact h
    | some parent =>
      rcases hc hst parent hf with rfl | ⟨hparent, hp⟩
      · exact h
      · rw [h.entry_eq_zero] at hp
        subst hp
        exact hparent
  | nodShare =>
    simp only [NoDrop.loadInherit, hst, ProcTable.nodShareProcinfo]
    cases hf : findProcInfo table tgid with
    | none => exact h
    | some parent => exact h.like ⟨rfl, rfl, rfl, rfl, rfl, rfl, rfl⟩
  | nodUnknown | nodIn | nodOut | nodRestoreContext | nodRestoreSecurity =>
    simp only [NoDrop.loadInherit, hst]
    exact h

theorem loadInherit_key (table : List ProcEntry) (tgid : Nat) (p : ProcEntry) :
    (loadInherit table tgid p).addr = p.addr ∧ (loadInherit table tgid p).pid = p.pid := by
  unfold loadInherit
  split
  · unfold ProcTable.nodCopyProcinfo
    split <;> exact ⟨rfl, rfl⟩
  · unfold ProcTable.nodShareProcinfo
    split <;> exact ⟨rfl, rfl⟩
  · exact ⟨rfl, rfl⟩

theorem loadMonitor_key (a : LoadArgs) (p : ProcEntry) :
    (loadMonitor a p).addr = p.addr ∧ (loadMonitor a p).pid = p.pid := by
  have hload : ∀ o, (doLoadMonitor o p).addr = p.addr ∧ (doLoadMonitor o p).pid = p.pid := by
    intro o
    cases o <;> exact ⟨rfl, rfl⟩
  have hlike := loadEnter_like a (if p.entryAddr = 0 then doLoadMonitor a.doLoad p else p)
  by_cases h0 : p.entryAddr = 0
  · rw [if_pos h0] at hlike
    rw [loadMonitor, if_pos h0]
    exact ⟨hlike.addr.trans (hload _).1, hlike.pid.trans (hload _).2⟩
  · rw [if_neg h0] at hlike
    rw [loadMonitor, if_neg h0]
    exact ⟨hlike.addr, hlike.pid⟩

/-- With a monitor, `nod_load_monitor` does not load. -/
theorem ProcEntry.Describes.reuse (h : p.Describes l) (h0 : p.entryAddr ≠ 0) (a : LoadArgs) :
    (loadMonitor a p).Describes l := by
  rw [loadMonitor, if_neg h0]
  exact h.like (loadEnter_like a p)

/-- Without one, it loads one, or it fails to map it. -/
theorem ProcEntry.Describes.load (h : p.Describes l) (h0 : p.entryAddr = 0) (a : LoadArgs) :
    (a.doLoad = .unmapped → (loadMonitor a p).Describes l) ∧
      ∀ i, a.doLoad = .loaded i → (loadMonitor a p).Describes (some i) := by
  rw [loadMonitor, if_pos h0]
  constructor
  · intro ho
    rw [ho]
    exact h.like (loadEnter_like a p)
  · intro i ho
    rw [ho]
    have hi : (doLoadMonitor (.loaded i) p).Describes (some i) := ⟨rfl, rfl, rfl, rfl, rfl⟩
    exact hi.like (loadEnter_like a _)

end Describes

/-! ## The invariant -/

namespace Loading

variable {s t : Loading} {tid : Nat} {th : LoadThread} {p : ProcEntry} {env : AllocEnv}

/-- The entries describe the threads' monitors; a thread that has not been seen has none, and
one for which an image has been mapped has one. -/
structure Sound (s : Loading) : Prop where
  keyed : Keyed s.table
  pids : ∀ t u a b, s.threads t = some a → s.threads u = some b → a.ids.pid = b.ids.pid → t = u
  describes : ∀ tid th p, s.Entry tid th p → p.Describes (s.loaded tid)
  unseen : ∀ tid th, s.threads tid = some th → findProcInfo s.table th.ids.pid = none →
    s.loaded tid = none
  mapped : ∀ tid th, s.threads tid = some th → s.mapped tid = true → s.loaded tid ≠ none

/-- A change of what is known of one thread: its entry, and what it has got. -/
structure Touches (s t : Loading) (tid : Nat) (th : LoadThread) : Prop where
  keyed : Keyed t.table
  self : t.threads tid = some th
  threads : ∀ u, u ≠ tid → t.threads u = s.threads u
  table : ∀ pid, pid ≠ th.ids.pid → findProcInfo t.table pid = findProcInfo s.table pid
  loaded : ∀ u, u ≠ tid → t.loaded u = s.loaded u
  mapped : ∀ u, u ≠ tid → t.mapped u = s.mapped u
  pid : ∀ u a, u ≠ tid → s.threads u = some a → a.ids.pid ≠ th.ids.pid
  describes : ∀ p, findProcInfo t.table th.ids.pid = some p → p.Describes (t.loaded tid)
  unseen : findProcInfo t.table th.ids.pid = none → t.loaded tid = none
  image : t.mapped tid = true → t.loaded tid ≠ none

/-- Such a change keeps the invariant. -/
theorem Sound.touch (h : s.Sound) (hst : Touches s t tid th) : t.Sound := by
  have hother : ∀ {u a}, u ≠ tid → t.threads u = some a → s.threads u = some a ∧
      findProcInfo t.table a.ids.pid = findProcInfo s.table a.ids.pid := by
    intro u a hu ha
    rw [hst.threads u hu] at ha
    exact ⟨ha, hst.table _ (hst.pid u a hu ha)⟩
  refine ⟨hst.keyed, ?_, ?_, ?_, ?_⟩
  · intro u v a b ha hb hab
    by_cases hu : u = tid
    · by_cases hv : v = tid
      · rw [hu, hv]
      · rw [hu] at ha
        cases hst.self.symm.trans ha
        exact absurd hab.symm (hst.pid v b hv (hother hv hb).1)
    · by_cases hv : v = tid
      · rw [hv] at hb
        cases hst.self.symm.trans hb
        exact absurd hab (hst.pid u a hu (hother hu ha).1)
      · exact h.pids u v a b (hother hu ha).1 (hother hv hb).1 hab
  · rintro u a q ⟨ha, hq⟩
    by_cases hu : u = tid
    · rw [hu] at ha ⊢
      cases hst.self.symm.trans ha
      exact hst.describes q hq
    · obtain ⟨ha', hf⟩ := hother hu ha
      rw [hst.loaded u hu]
      exact h.describes u a q ⟨ha', hf.symm.trans hq⟩
  · intro u a ha hnone
    by_cases hu : u = tid
    · rw [hu] at ha ⊢
      cases hst.self.symm.trans ha
      exact hst.unseen hnone
    · obtain ⟨ha', hf⟩ := hother hu ha
      rw [hst.loaded u hu]
      exact h.unseen u a ha' (hf.symm.trans hnone)
  · intro u a ha hm
    by_cases hu : u = tid
    · rw [hu] at ha hm ⊢
      exact hst.image hm
    · rw [hst.mapped u hu] at hm
      rw [hst.loaded u hu]
      exact h.mapped u a (hother hu ha).1 hm

/-- A change of a thread's entry. -/
theorem Sound.put (h : s.Sound) (he : s.Entry tid th p) {q : ProcEntry} (ha : q.addr = p.addr)
    (hp : q.pid = p.pid) {loaded : Nat → Option MonitorInstance} {mapped : Nat → Bool}
    (hloaded : ∀ u, u ≠ tid → loaded u = s.loaded u) (hmapped : ∀ u, u ≠ tid → mapped u = s.mapped u)
    (hd : q.Describes (loaded tid)) (himage : mapped tid = true → loaded tid ≠ none) :
    Sound { s with table := putProcInfo s.table q, loaded := loaded, mapped := mapped } := by
  obtain ⟨hmem, hpid⟩ := find_mem he.2
  have hqpid : q.pid = th.ids.pid := hp.trans hpid
  have hfind := h.keyed.find_put hmem ha.symm hp.symm
  have htouch : Touches s { s with table := putProcInfo s.table q, loaded := loaded, mapped := mapped }
      tid th := by
    refine ⟨h.keyed.put hmem ha.symm hp.symm, he.1, fun _ _ => rfl, ?_, hloaded, hmapped, ?_, ?_, ?_,
      himage⟩
    · intro pid hne
      rw [hfind pid, if_neg fun e => hne (e.symm.trans hqpid)]
    · exact fun u a hu ha hab => hu (h.pids u tid a th ha he.1 hab)
    · intro r hr
      rw [hfind, if_pos hqpid] at hr
      cases hr
      exact hd
    · intro hnone
      rw [hfind, if_pos hqpid] at hnone
      cases hnone
  exact h.touch htouch

/-- `nod_proc_acquire` for a thread without an entry. -/
theorem acquire_new {table : List ProcEntry} (hk : Keyed table) (ids : TaskIds)
    (hnone : findProcInfo table ids.pid = none) (hfresh : ∀ p ∈ table, env.addr ≠ some p.addr)
    (status : ProcStatus) :
    Keyed (ProcTable.nodProcAcquire status (-1) ids env table).2 ∧
      (∀ pid, pid ≠ ids.pid → findProcInfo (ProcTable.nodProcAcquire status (-1) ids env table).2 pid =
        findProcInfo table pid) ∧
      ∀ p, findProcInfo (ProcTable.nodProcAcquire status (-1) ids env table).2 ids.pid = some p →
        p.entryAddr = 0 := by
  cases ha : env.addr with
  | none =>
    simp only [ProcTable.nodProcAcquire, hnone, ha]
    refine ⟨hk, fun _ _ => trivial, ?_⟩
    rintro p ⟨⟩
  | some addr =>
    simp only [ProcTable.nodProcAcquire, hnone, ha]
    refine ⟨?_, ?_, ?_⟩
    · exact hk.insert hnone fun q hq he => hfresh q hq (ha.trans (congrArg some he.symm))
    · intro pid hne
      rw [Keyed.find_insert, if_neg fun e => hne e.symm]
    · intro p hp
      simp only [Keyed.find_insert, nodProcSetStatus_pid, nodInitProcinfo_pid, if_true] at hp
      cases hp
      rfl

/-- The return of `execve` for a thread whose entry, if it has one, is outside the monitor:
the entry says that there is no monitor. -/
theorem execReturn_new {table : List ProcEntry} (hk : Keyed table) (ids : TaskIds)
    (hout : ∀ p, findProcInfo table ids.pid = some p → p.status.outside = true)
    (hfresh : ∀ p ∈ table, env.addr ≠ some p.addr) :
    Keyed (execReturn table ids env) ∧
      (∀ pid, pid ≠ ids.pid → findProcInfo (execReturn table ids env) pid = findProcInfo table pid) ∧
      ∀ p, findProcInfo (execReturn table ids env) ids.pid = some p → p.entryAddr = 0 := by
  cases hf : findProcInfo table ids.pid with
  | none =>
    simp only [execReturn, hf]
    exact acquire_new hk ids hf hfresh _
  | some p =>
    obtain ⟨hmem, hpid⟩ := find_mem hf
    have hput := hk.find_put hmem (p := ProcTable.nodInitProcinfo ids env.pkey p) rfl hpid
    simp only [execReturn, hf, hout p hf, if_true]
    refine ⟨hk.put hmem rfl hpid, ?_, ?_⟩
    · intro pid hne
      rw [hput, if_neg fun e => hne e.symm]
    · intro q hq
      simp only [hput, nodInitProcinfo_pid, if_true] at hq
      cases hq
      rfl

/-! ## The fields describe the monitor -/

/-- What is to hold: a thread's entry has an entry point just if a monitor has been loaded
for it in its memory, and then all four fields describe that one. -/
structure Described (s : Loading) : Prop where
  loaded_iff : ∀ tid th p, s.Entry tid th p → (p.entryAddr ≠ 0 ↔ s.loaded tid ≠ none)
  same : ∀ tid th p i, s.Entry tid th p → s.loaded tid = some i →
    p.entryAddr = i.entryAddr ∧ p.stackAddr = i.stackAddr ∧ p.stackInfoAddr = i.stackInfoAddr ∧
      p.stackInfo.stackStart = i.stackStart ∧ p.stackInfo.stackEnd = i.stackEnd

/-- What is to hold of a `nod_load_monitor`: it loads only where no image is mapped for the
thread, and it sends the thread into the monitor that is loaded for it, on its stack. -/
def LoadsOnce (s : Loading) : LoadAct → Prop
  | .load tid a => ∀ th p, s.Entry tid th p →
      ((loadInherit s.table th.tgid p).entryAddr = 0 → s.mapped tid = false) ∧
      ((loadMonitor a (loadInherit s.table th.tgid p)).status = .nodIn →
        ∃ i, (s.next (.load tid a)).loaded tid = some i ∧
          (loadMonitor a (loadInherit s.table th.tgid p)).entryAddr = i.entryAddr ∧
          (loadMonitor a (loadInherit s.table th.tgid p)).stackAddr = i.stackAddr)
  | _ => True

/-- The condition on a step: no entry is left over under the pid of a new thread, or under
the one that `execve` gives a thread; `execve` succeeds outside the monitor, and fails only
there where there is no monitor loaded; a thread marked `NOD_CLONE` leads its group, or
neither it nor its leader has a monitor; and no load fails once the image is mapped. -/
def Undisturbed (s : Loading) : LoadAct → Prop
  | .clone _ _ pid _ _ _ _ _ => findProcInfo s.table pid = none
  | .execve tid pid _ _ => ∀ th p, s.threads tid = some th → findProcInfo s.table pid = some p →
      pid = th.ids.pid ∧ p.status.outside = true
  | .execveFails tid _ => ∀ th p, s.Entry tid th p → p.status.outside = true → p.entryAddr = 0
  | .load tid a => (∀ th p parent, s.Entry tid th p → p.status = .nodClone →
      findProcInfo s.table th.tgid = some parent →
      th.tgid = th.ids.pid ∨ (parent.entryAddr = 0 ∧ p.entryAddr = 0)) ∧
      ∀ stack stackInfoAddr stackAddr, a.doLoad ≠ .noTables stack stackInfoAddr stackAddr
  | _ => True

/-- Nobody is known when the module is loaded. -/
structure Starts (s : Loading) : Prop where
  table : s.table = []
  pids : ∀ t u a b, s.threads t = some a → s.threads u = some b → a.ids.pid = b.ids.pid → t = u
  loaded : ∀ tid, s.loaded tid = none
  mapped : ∀ tid, s.mapped tid = false

theorem Starts.sound (h : s.Starts) : s.Sound := by
  refine ⟨?_, h.pids, ?_, fun tid _ _ _ => h.loaded tid, ?_⟩
  · rw [h.table]
    exact .nil
  · rintro tid th p ⟨-, hp⟩
    rw [h.table] at hp
    cases hp
  · intro tid th _ hm
    rw [h.mapped] at hm
    cases hm

theorem Sound.described (h : s.Sound) : s.Described := by
  constructor
  · intro tid th p he
    exact not_congr (h.describes tid th p he).entry_eq_zero
  · intro tid th p i he hi
    have hd := h.describes tid th p he
    rw [hi] at hd
    exact hd

/-! ## Every step keeps the invariant -/

theorem onThread_eq (h : s.threads tid = some th) (f : LoadThread → Loading) :
    s.onThread tid f = f th := by
  simp only [onThread, h]

theorem onEntry_eq (h : s.Entry tid th p) (f : LoadThread → ProcEntry → Loading) :
    s.onEntry tid f = f th p := by
  simp only [onEntry, h.1, h.2]

theorem Sound.pid_ne (h : s.Sound) (hth : s.threads tid = some th) (u : Nat) (a : LoadThread)
    (hu : u ≠ tid) (ha : s.threads u = some a) : a.ids.pid ≠ th.ids.pid :=
  fun hab => hu (h.pids u tid a th ha hth hab)

/-- A thread without a monitor gets an entry, or a new one, that says so. -/
theorem Sound.putTable (h : s.Sound) (hth : s.threads tid = some th) (hnone : s.loaded tid = none)
    {table : List ProcEntry} (hk : Keyed table)
    (htable : ∀ pid, pid ≠ th.ids.pid → findProcInfo table pid = findProcInfo s.table pid)
    (hzero : ∀ p, findProcInfo table th.ids.pid = some p → p.entryAddr = 0) :
    Sound { s with table := table } := by
  have htouch : Touches s { s with table := table } tid th := by
    refine ⟨hk, hth, fun _ _ => rfl, htable, fun _ _ => rfl, fun _ _ => rfl, h.pid_ne hth, ?_, ?_, ?_⟩
    · intro p hp
      show p.Describes (s.loaded tid)
      rw [hnone]
      exact hzero p hp
    · exact fun _ => hnone
    · exact h.mapped tid th hth
  exact h.touch htouch

/-- A thread begins anew: it is new, or its memory is. -/
theorem Sound.renew (h : s.Sound) {ids : TaskIds} {tgid : Nat} {table : List ProcEntry}
    (hpid : ∀ t th, s.threads t = some th → t ≠ tid → th.ids.pid ≠ ids.pid) (hk : Keyed table)
    (htable : ∀ pid, pid ≠ ids.pid → findProcInfo table pid = findProcInfo s.table pid)
    (hzero : ∀ p, findProcInfo table ids.pid = some p → p.entryAddr = 0) :
    Sound ⟨Function.update s.threads tid (some ⟨ids, tgid⟩), table,
      Function.update s.loaded tid none, Function.update s.mapped tid false⟩ := by
  have htouch : Touches s ⟨Function.update s.threads tid (some ⟨ids, tgid⟩), table,
      Function.update s.loaded tid none, Function.update s.mapped tid false⟩ tid ⟨ids, tgid⟩ := by
    refine ⟨hk, Function.update_self .., fun _ hu => Function.update_of_ne hu .., htable,
      fun _ hu => Function.update_of_ne hu .., fun _ hu => Function.update_of_ne hu ..,
      fun u a hu ha => hpid u a ha hu, ?_, fun _ => Function.update_self .., ?_⟩
    · intro p hp
      show p.Describes (Function.update s.loaded tid none tid)
      rw [Function.update_self]
      exact hzero p hp
    · intro (hm : Function.update s.mapped tid false tid = true)
      rw [Function.update_self] at hm
      cases hm
  exact h.touch htouch

/-- A thread that exits takes its entry with it. -/
theorem Sound.exit (h : s.Sound) (hth : s.threads tid = some th) :
    Sound { s with
      threads := Function.update s.threads tid none
      table := ProcTable.nodProcRelease th.ids.pid s.table } := by
  -- the other threads, and what is found for them
  have hother : ∀ {u a}, Function.update s.threads tid none u = some a →
      u ≠ tid ∧ s.threads u = some a := by
    intro u a ha
    by_cases hu : u = tid
    · rw [hu, Function.update_self] at ha
      cases ha
    · rw [Function.update_of_ne hu] at ha
      exact ⟨hu, ha⟩
  have hfind : ∀ pid, pid ≠ th.ids.pid →
      findProcInfo (ProcTable.nodProcRelease th.ids.pid s.table) pid = findProcInfo s.table pid := by
    intro pid hne
    cases hf : findProcInfo s.table th.ids.pid with
    | none => simp only [ProcTable.nodProcRelease, hf]
    | some q =>
      obtain ⟨hq, hqpid⟩ := find_mem hf
      simp only [ProcTable.nodProcRelease, hf]
      rw [h.keyed.find_remove hq, if_neg fun e => hne (e.symm.trans hqpid)]
  refine ⟨?_, ?_, ?_, ?_, ?_⟩
  · simp only [ProcTable.nodProcRelease]
    split
    · exact h.keyed.remove _
    · exact h.keyed
  · intro u v a b ha hb hab
    exact h.pids u v a b (hother ha).2 (hother hb).2 hab
  · rintro u a q ⟨ha, hq⟩
    obtain ⟨hu, ha⟩ := hother ha
    exact h.describes u a q ⟨ha, (hfind _ (h.pid_ne hth u a hu ha)).symm.trans hq⟩
  · intro u a ha hnone
    obtain ⟨hu, ha⟩ := hother ha
    exact h.unseen u a ha ((hfind _ (h.pid_ne hth u a hu ha)).symm.trans hnone)
  · intro u a ha hm
    exact h.mapped u a (hother ha).2 hm

/-- What a thread inherits describes what it has. -/
theorem Sound.inherits (h : s.Sound) (he : s.Entry tid th p) {a : LoadArgs}
    (hc : s.Undisturbed (.load tid a)) :
    (loadInherit s.table th.tgid p).Describes (s.loaded tid) := by
  refine (h.describes tid th p he).loadInherit ?_
  intro hclone parent hparent
  rcases hc.1 th p parent he hclone hparent with hself | hzero
  · rw [hself] at hparent
    exact Or.inl (Option.some.inj (hparent.symm.trans he.2))
  · exact Or.inr hzero

theorem Sound.load (h : s.Sound) (he : s.Entry tid th p) {a : LoadArgs}
    (hc : s.Undisturbed (.load tid a)) : (s.next (.load tid a)).Sound := by
  have hd := h.inherits he hc
  obtain ⟨ha, hp⟩ := loadInherit_key s.table th.tgid p
  obtain ⟨ha', hp'⟩ := loadMonitor_key a (loadInherit s.table th.tgid p)
  simp only [next, onEntry_eq he]
  by_cases h0 : (loadInherit s.table th.tgid p).entryAddr = 0
  · have hnone : s.loaded tid = none := hd.entry_eq_zero.mp h0
    obtain ⟨hunmapped, hloaded⟩ := hd.load h0 a
    simp only [if_pos h0]
    refine h.put he (ha'.trans ha) (hp'.trans hp) (fun _ hu => Function.update_of_ne hu ..)
      (fun _ hu => Function.update_of_ne hu ..) ?_ ?_
    · rw [Function.update_self]
      cases ho : a.doLoad with
      | unmapped => exact hunmapped ho
      | noTables stack stackInfoAddr stackAddr => exact absurd ho (hc.2 _ _ _)
      | loaded i => exact hloaded i ho
    · rw [Function.update_self, Function.update_self]
      cases ho : a.doLoad with
      | unmapped => exact h.mapped tid th he.1
      | noTables stack stackInfoAddr stackAddr => exact absurd ho (hc.2 _ _ _)
      | loaded i => simp [gets]
  · simp only [if_neg h0]
    exact h.put he (ha'.trans ha) (hp'.trans hp) (fun _ _ => rfl) (fun _ _ => rfl)
      (hd.reuse h0 a) (h.mapped tid th he.1)

/-- **Every step keeps the invariant**, if it is not one of those that disturb it. -/
theorem Sound.step {a : LoadAct} (h : s.Sound) (hc : s.Undisturbed a) (hs : loadStep s a t) :
    t.Sound := by
  obtain ⟨hallow, rfl⟩ := hs
  cases a with
  | firstEvent tid env =>
    obtain ⟨⟨th, hth, hnone⟩, hfresh⟩ := hallow
    obtain ⟨hk, htable, hzero⟩ := acquire_new h.keyed th.ids hnone hfresh .nodOut
    simp only [next, onThread_eq hth]
    exact h.putTable hth (h.unseen tid th hth hnone) hk htable hzero
  | clone tid child pid thread vm mm si env =>
    obtain ⟨⟨th, hth⟩, -, hpid, -, hfresh⟩ := hallow
    simp only [next, onThread_eq hth]
    obtain ⟨hk, htable, hzero⟩ := acquire_new h.keyed ⟨pid, if vm then th.ids.mm else mm⟩ hc
      hfresh (if si &&& cloneVm = 0 then .nodClone else .nodShare)
    exact h.renew (fun u a ha _ => hpid u a ha) hk htable hzero
  | execve tid pid mm env =>
    obtain ⟨⟨th, hth, -⟩, hpid, hfresh⟩ := hallow
    simp only [next, onThread_eq hth]
    obtain ⟨hk, htable, hzero⟩ := execReturn_new h.keyed ⟨pid, mm⟩
      (fun p hp => (hc th p hth hp).2) hfresh
    exact h.renew hpid hk htable hzero
  | execveFails tid env =>
    obtain ⟨⟨th, hth⟩, hfresh⟩ := hallow
    simp only [next, onThread_eq hth]
    cases hf : findProcInfo s.table th.ids.pid with
    | none =>
      obtain ⟨hk, htable, hzero⟩ := execReturn_new h.keyed th.ids
        (fun p hp => by rw [hf] at hp; cases hp) hfresh
      exact h.putTable hth (h.unseen tid th hth hf) hk htable hzero
    | some p =>
      by_cases hout : p.status.outside = true
      · have hnone : s.loaded tid = none :=
          (h.describes tid th p ⟨hth, hf⟩).entry_eq_zero.mp (hc th p ⟨hth, hf⟩ hout)
        obtain ⟨hk, htable, hzero⟩ := execReturn_new h.keyed th.ids
          (fun q hq => by cases hf.symm.trans hq; exact hout) hfresh
        exact h.putTable hth hnone hk htable hzero
      · simp only [execReturn, hf, if_neg hout]
        exact h
  | load tid a =>
    obtain ⟨th, p, he, -⟩ := hallow
    exact h.load he hc
  | leave tid stack =>
    obtain ⟨th, p, he, -, hstart, hend⟩ := hallow
    simp only [next, onEntry_eq he]
    have hlike :
        ProcEntry.Like { ProcTable.nodProcSetStatus p .nodOut (-1) with stackInfo := stack } p :=
      ⟨rfl, rfl, rfl, rfl, rfl, hstart, hend⟩
    exact h.put he hlike.addr hlike.pid (fun _ _ => rfl) (fun _ _ => rfl)
      ((h.describes tid th p he).like hlike) (h.mapped tid th he.1)
  | exit tid =>
    obtain ⟨th, hth⟩ := hallow
    simp only [next, onThread_eq hth]
    exact h.exit hth

/-- A `nod_load_monitor` that sends the thread into the monitor leaves it with an entry
point. -/
theorem loadMonitor_in {a : LoadArgs} (hout : p.status.outside = true)
    (h : (loadMonitor a p).status = .nodIn) : (loadMonitor a p).entryAddr ≠ 0 := by
  intro h0
  have hlike := loadEnter_like a (if p.entryAddr = 0 then doLoadMonitor a.doLoad p else p)
  rw [loadMonitor] at h h0
  have hstatus : (if p.entryAddr = 0 then doLoadMonitor a.doLoad p else p).status = p.status := by
    split
    · cases a.doLoad <;> rfl
    · rfl
  rw [loadEnter, if_pos (hlike.entryAddr.symm.trans h0), hstatus] at h
  rw [h] at hout
  cases hout

theorem loadInherit_status (table : List ProcEntry) (tgid : Nat) (p : ProcEntry) :
    (loadInherit table tgid p).status = p.status := by
  unfold loadInherit
  split
  · unfold ProcTable.nodCopyProcinfo
    split <;> rfl
  · unfold ProcTable.nodShareProcinfo
    split <;> rfl
  · rfl

theorem Sound.loadsOnce {a : LoadAct} (h : s.Sound) (hc : s.Undisturbed a) (hs : loadStep s a t) :
    s.LoadsOnce a := by
  cases a with
  | load tid a =>
    intro th p he
    obtain ⟨⟨th', p', he', hout⟩, -⟩ := hs
    cases he.1.symm.trans he'.1
    cases he.2.symm.trans he'.2
    have hd := h.inherits he hc
    constructor
    · intro h0
      by_contra hm
      exact h.mapped tid th he.1 (by simpa using hm) (hd.entry_eq_zero.mp h0)
    · intro hin
      -- the entry afterwards is that of a thread with a monitor, which it describes
      have hne := loadMonitor_in (by rwa [loadInherit_status]) hin
      have he'' : (s.next (.load tid a)).Entry tid th
          (loadMonitor a (loadInherit s.table th.tgid p)) := by
        obtain ⟨ha, hp⟩ := loadInherit_key s.table th.tgid p
        obtain ⟨ha', hp'⟩ := loadMonitor_key a (loadInherit s.table th.tgid p)
        obtain ⟨hmem, hpid⟩ := find_mem he.2
        simp only [Entry, next, onEntry_eq he]
        refine ⟨he.1, ?_⟩
        rw [h.keyed.find_put hmem (ha'.trans ha).symm (hp'.trans hp).symm,
          if_pos ((hp'.trans hp).trans hpid)]
      have hd' := (h.load he hc).describes tid th _ he''
      obtain ⟨i, hi⟩ := Option.ne_none_iff_exists'.mp (mt hd'.entry_eq_zero.mpr hne)
      rw [hi] at hd'
      exact ⟨i, hi, hd'.1, hd'.2.1⟩
  | _ => trivial

end Loading

/-- A process of one thread. -/
def oneThread : Loading where
  threads := Function.update (fun _ => none) 0 (some ⟨⟨100, 1⟩, 100⟩)
  table := []
  loaded _ := none
  mapped _ := false

theorem oneThread_starts : oneThread.Starts := by
  have hzero : ∀ {t a}, oneThread.threads t = some a → t = 0 := by
    intro t a ha
    by_contra hne
    simp [oneThread, hne] at ha
  refine ⟨rfl, ?_, fun _ => rfl, fun _ => rfl⟩
  intro t u a b ha hb _
  rw [hzero ha, hzero hb]

/-- The monitor it gets. -/
def oneInstance : MonitorInstance := ⟨0x401000, 0x7ff0, 0x7f00, 0x6000, 0x8000, by decide⟩

/-- A load that succeeds. -/
def loadsOne : LoadArgs := ⟨.loaded oneInstance, 3, 0, 0⟩

/-- Its `nod_stack_info` when it leaves the monitor. -/
def oneStack : NodStackInfo := ⟨-1, -1, 3, 0, 0, 0, 0x6000, 0x8000, 0, 0⟩

/-- The thread is seen, gets its monitor and leaves it. -/
def monitored : Loading :=
  ((oneThread.next (.firstEvent 0 ⟨some 0x5000, -1⟩)).next (.load 0 loadsOne)).next
    (.leave 0 oneStack)

theorem monitored_run : ∃ tr, Run loadStep oneThread tr monitored ∧
    Meets Loading.Undisturbed tr := by
  let s₁ := oneThread.next (.firstEvent 0 ⟨some 0x5000, -1⟩)
  let s₂ := s₁.next (.load 0 loadsOne)
  have h₁ : loadStep oneThread (.firstEvent 0 ⟨some 0x5000, -1⟩) s₁ := by
    refine ⟨⟨⟨_, rfl, rfl⟩, ?_⟩, rfl⟩
    rintro p ⟨⟩
  have h₂ : loadStep s₁ (.load 0 loadsOne) s₂ := ⟨⟨_, _, ⟨rfl, rfl⟩, rfl⟩, rfl⟩
  have h₃ : loadStep s₂ (.leave 0 oneStack) monitored :=
    ⟨⟨_, _, ⟨rfl, rfl⟩, rfl, rfl, rfl⟩, rfl⟩
  have hc₂ : s₁.Undisturbed (.load 0 loadsOne) := by
    refine ⟨?_, fun _ _ _ => by simp [loadsOne]⟩
    rintro th p parent ⟨hth, hp⟩ hst
    cases hth
    cases hp
    cases hst
  exact ⟨_, ((Run.nil.snoc h₁).snoc h₂).snoc h₃, meets_snoc.mpr ⟨meets_snoc.mpr ⟨meets_snoc.mpr
    ⟨meets_nil, trivial⟩, hc₂⟩, trivial⟩⟩

end NoDrop
