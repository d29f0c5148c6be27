import NoDrop.Lib.Runs
import NoDrop.Trace

/-! # What the status machine does

One lemma for each function of `NoDrop.Trace`, and from them one for a step of the thread
(`traceStep_took`): every invariant of the status machine is a case analysis on `Took`.
Behind it stands that the status of a `nod_proc_info` is never `NOD_UNKNOWN` once it can
be found, and that outside the monitor no privileges are saved (`TracedTask.Known`).
-/
namespace NoDrop

open Runs

/-! ## What the code does to the thread -/

section Moves

variable {Path Fpu : Type}

/-- What `nod_prepare_security` has saved. -/
def ProcSecurity.saved (x : ProcSecurity Path) : Privileges Path :=
  ⟨⟨x.capEffective, x.capPermitted, x.rootPath, x.rlim⟩, ⟨x.seccompMode, x.sigset, x.childTid⟩⟩

/-- The `nod_proc_info` holds the application's context and its privileges. -/
structure Held (p : ProcInfo Path) (a : AppState Path) : Prop where
  ctx : p.ctx = ⟨true, a.fsbase, a.gsbase, a.regs⟩
  available : p.sec.available = true
  sec : p.sec.saved = a.privil

/-- The thread is outside the monitor, and nothing of its privileges is saved. -/
def TracedTask.Outside (s : TracedTask Path Fpu) : Prop :=
  ∀ p, s.info = some p → p.status.outside = true ∧ p.sec.available = false

/-- The application's context and privileges as they are. -/
def TracedTask.appState (s : TracedTask Path Fpu) : AppState Path :=
  ⟨s.cpu.regs, s.th.fsbase, s.th.gsbase, s.privil⟩

/-- A recording in a thread outside the monitor: it stays there, or it is sent in. -/
inductive Move (s s' : TracedTask Path Fpu) : Prop
  | stays (outside : s'.Outside) (privil : s'.privil = s.privil) (uid : s'.uid = s.uid)
  | enters (p : ProcInfo Path) (info : s'.info = some p) (status : p.status = .nodIn)
      (held : Held p s.appState) (uid : s'.uid = s.uid)

variable {k : KernelPrivil Path}

theorem nodLoadMonitor_cases (env : LoadEnv) (p : ProcInfo Path) (s : TracedTask Path Fpu) :
    (∃ p', (nodLoadMonitor k env p s).2 = { s with info := some p' } ∧ p'.status = p.status ∧
      p'.sec = p.sec) ∨
    (∃ p', (nodLoadMonitor k env p s).2.info = some p' ∧ p'.status = .nodIn ∧
      Held p' s.appState ∧ (nodLoadMonitor k env p s).2.uid = s.uid) := by
  -- `nod_copy_procinfo` changes the entry point only
  obtain ⟨a, ha⟩ : ∃ a, (if p.status = .nodClone then nodCopyProcinfo env.leaderEntry p else p) =
      { p with entryAddr := a } := by
    unfold nodCopyProcinfo
    split
    · split
      · exact ⟨_, rfl⟩
      · exact ⟨p.entryAddr, rfl⟩
    · exact ⟨p.entryAddr, rfl⟩
  simp only [nodLoadMonitor, ha]
  split
  · exact Or.inl ⟨_, rfl, rfl, rfl⟩
  · split
    · exact Or.inl ⟨_, rfl, rfl, rfl⟩
    · exact Or.inr ⟨_, rfl, rfl, ⟨rfl, rfl, rfl⟩, rfl⟩

theorem Outside.of_info {s : TracedTask Path Fpu} {p : ProcInfo Path} (h : s.info = some p)
    (hp : p.status.outside = true) (ha : p.sec.available = false) : s.Outside := by
  intro p' hp'
  cases h.symm.trans hp'
  exact ⟨hp, ha⟩

theorem TracedTask.putRecorded_info {s : TracedTask Path Fpu} {p : ProcInfo Path} (r : Recorded)
    (h : s.info = some p) : (s.putRecorded r).info = some { p with buf := r.buf } := by
  rw [putRecorded, h]
  rfl

theorem syscallProbe_cases {e : ProbeEnv} {force : Bool} {p : ProcInfo Path}
    {s s' : TracedTask Path Fpu} {r : Int} (hp : p.status.outside = true)
    (ha : p.sec.available = false) (h : syscallProbe k e force p s = some (r, s')) : Move s s' := by
  unfold syscallProbe at h
  split at h
  · cases h
    exact .stays (Outside.of_info rfl hp ha) rfl rfl
  · obtain ⟨ret, -, he⟩ := Option.map_eq_some_iff.mp h
    cases he
    split
    · rcases nodLoadMonitor_cases (k := k) e.load p s with ⟨p', hl, hst, hsec⟩ |
        ⟨p', hl, hst, hheld, huid⟩
      · rw [hl]
        exact .stays (Outside.of_info rfl (hst ▸ hp) (hsec ▸ ha)) rfl rfl
      · exact .enters _ (TracedTask.putRecorded_info _ hl) hst
          ⟨hheld.ctx, hheld.available, hheld.sec⟩ huid
    · exact .stays (Outside.of_info rfl hp ha) rfl rfl

/-- Giving the privileges back. -/
theorem restoreSecurity_cases (s : TracedTask Path Fpu) (p : ProcInfo Path) :
    ∃ p', (s.restoreSecurity p).info = some p' ∧ p'.status = p.status ∧ p'.ctx = p.ctx ∧
      p'.sec.available = false ∧
      (s.restoreSecurity p).privil = if p.sec.available then p.sec.saved else s.privil := by
  refine ⟨_, rfl, rfl, rfl, ?_⟩
  cases ha : p.sec.available with
  | true =>
    have ha' : (s.taskPrivil p).sec.available = true := ha
    rw [TracedTask.restoreSecurity, nodRestoreSecurity_eq ha']
    exact ⟨rfl, rfl⟩
  | false =>
    have ha' : (s.taskPrivil p).sec.available = false := ha
    rw [TracedTask.restoreSecurity, nodRestoreSecurity_eq_of_not ha']
    exact ⟨ha, rfl⟩

theorem nodEventFrom_outside {s : TracedTask Path Fpu} (hs : s.Outside) :
    (nodEventFrom s.info).outside = true := by
  unfold nodEventFrom
  split
  next p hp => exact (hs p hp).1
  next => rfl

variable [Inhabited Path]

/-- A `nod_proc_info` acquired for a thread outside the monitor. -/
theorem nodProcAcquire_outside {status : ProcStatus} {alloc : Option NodBuffer}
    {s : TracedTask Path Fpu} {p : ProcInfo Path} (hs : s.Outside) (hst : status.outside = true)
    (h : nodProcAcquire status (-1) alloc s.info = some p) :
    p.status = status ∧ p.status.outside = true ∧ p.sec.available = false := by
  unfold nodProcAcquire at h
  split at h
  next p' hp' =>
    cases h
    exact ⟨rfl, hst, (hs p' hp').2⟩
  next =>
    obtain ⟨p', -, rfl⟩ := Option.map_eq_some_iff.mp h
    exact ⟨rfl, hst, rfl⟩

theorem probeProcinfo_outside {e : ProbeEnv} {id : Sysno} {s : TracedTask Path Fpu}
    {p : ProcInfo Path} (hs : s.Outside) (h : probeProcinfo e id s.info = some p) :
    p.status.outside = true ∧ p.sec.available = false := by
  unfold probeProcinfo at h
  split at h
  next q hq =>
    cases h
    split
    · exact ⟨(hs q hq).1, rfl⟩
    · exact hs q hq
  next => exact (nodProcAcquire_outside hs (nodEventFrom_outside hs) h).2

/-- What the probe does to a thread that has asked for its context. -/
theorem syscallExitProbe_restoreContext (e : ProbeEnv) (id : Sysno) {s : TracedTask Path Fpu}
    {p : ProcInfo Path} (hi : s.info = some p) (hst : p.status = .nodRestoreContext) :
    ∃ s' p', syscallExitProbe k e id s = some s' ∧ s'.uid = s.uid ∧ s'.info = some p' ∧
      p'.status = .nodOut ∧ p'.sec.available = false ∧
      ∀ a, Held p a → s'.cpu.regs = a.regs ∧ s'.cpu.fsBase = a.fsbase ∧
        s'.cpu.gsBase = a.gsbase ∧ s'.privil = a.privil := by
  obtain ⟨p₁, hi₁, -, hctx, ha₁, hp₁⟩ := restoreSecurity_cases s p
  have hs : syscallExitProbe k e id s =
      some (((s.restoreSecurity p).restoreContext p₁).setOut
        { p₁ with ctx := (nodRestoreContext p₁.ctx (s.cpu, s.th)).1 }) := by
    simp only [syscallExitProbe, hi, nodEventFrom, hst, TracedTask.onInfo, hi₁]
    rfl
  refine ⟨_, _, hs, rfl, rfl, rfl, ha₁, ?_⟩
  intro a ha
  rw [hctx, ha.ctx]
  refine ⟨?_, ?_, ?_, ?_⟩
  · simp [TracedTask.setOut, TracedTask.restoreContext, hctx, ha.ctx, nodRestoreContext,
      nodWriteFsbase, nodWriteGsbase]
  · simp [TracedTask.setOut, TracedTask.restoreContext, hctx, ha.ctx, nodRestoreContext,
      nodWriteFsbase]
  · simp [TracedTask.setOut, TracedTask.restoreContext, hctx, ha.ctx, nodRestoreContext,
      nodWriteFsbase, nodWriteGsbase]
  · simp only [TracedTask.setOut, TracedTask.restoreContext, hp₁, ha.available, if_true, ha.sec]

/-- What the probe does to a thread that has asked for its privileges. -/
theorem syscallExitProbe_restoreSecurity {e : ProbeEnv} {id : Sysno} {s : TracedTask Path Fpu}
    {p : ProcInfo Path} (hi : s.info = some p) (hst : p.status = .nodRestoreSecurity) :
    syscallExitProbe k e id s = some (s.restoreSecurity p) := by
  simp only [syscallExitProbe, hi, nodEventFrom, hst, TracedTask.onInfo]

/-- What the probe does to a thread outside the monitor. -/
theorem syscallExitProbe_outside {e : ProbeEnv} {id : Sysno} {s s' : TracedTask Path Fpu}
    (hs : s.Outside) (h : syscallExitProbe k e id s = some s') : Move s s' := by
  have hout := nodEventFrom_outside hs
  have heq : syscallExitProbe k e id s = probeOutside k e id s := by
    unfold syscallExitProbe
    cases hst : nodEventFrom s.info with
    | nodOut | nodClone | nodShare => rfl
    | nodUnknown | nodIn | nodRestoreContext | nodRestoreSecurity =>
      rw [hst] at hout
      cases hout
  rw [heq, probeOutside] at h
  split at h
  · cases h
    refine .stays ?_ rfl rfl
    intro p hp
    exact (nodProcAcquire_outside hs (by split <;> rfl) hp).2
  · split at h
    · cases h
      exact .stays hs rfl rfl
    next p hp =>
      obtain ⟨⟨r, s₁⟩, hr, rfl⟩ := Option.map_eq_some_iff.mp h
      obtain ⟨hst, ha⟩ := probeProcinfo_outside hs hp
      exact syscallProbe_cases hst ha hr

/-- What the filter does to a thread outside the monitor. -/
theorem exitFilter_outside {e : ProbeEnv} {s : TracedTask Path Fpu} {r : Filtered Path Fpu}
    (hs : s.Outside) (h : exitFilter k e s = some r) :
    ∃ again s', r = .ret again s' ∧ Move s s' := by
  have hp : ∀ p, (s.info <|> nodProcAcquire .nodOut (-1) e.alloc none) = some p →
      p.status.outside = true ∧ p.sec.available = false := by
    intro p hp
    cases hi : s.info with
    | some q =>
      rw [hi] at hp
      cases hp
      exact hs p hi
    | none =>
      rw [hi] at hp
      have hacq : nodProcAcquire .nodOut (-1) e.alloc s.info = some p := by
        rw [hi]
        exact hp
      exact (nodProcAcquire_outside hs rfl hacq).2
  unfold exitFilter at h
  split at h
  · cases h
    exact ⟨_, _, rfl, .stays hs rfl rfl⟩
  next p hp' =>
    obtain ⟨hst, ha⟩ := hp p hp'
    have heq : ∃ x, syscallProbe k e true p s = some x ∧ .ret (x.1 = nodSuccessLoad) x.2 = r := by
      cases hst' : p.status with
      | nodOut | nodClone | nodShare =>
        rw [hst'] at h
        exact Option.map_eq_some_iff.mp h
      | nodUnknown | nodIn | nodRestoreContext | nodRestoreSecurity =>
        rw [hst'] at hst
        cases hst
    obtain ⟨x, hx, rfl⟩ := heq
    exact ⟨_, _, rfl, syscallProbe_cases hst ha hx⟩

/-- What the filter does to a thread in the monitor. -/
theorem exitFilter_in {e : ProbeEnv} {s : TracedTask Path Fpu} {p : ProcInfo Path}
    (hi : s.info = some p) (hst : p.status = .nodIn) :
    exitFilter k e s = some (.ret false (s.restoreSecurity p)) := by
  simp [exitFilter, hi, hst]

/-- What the filter does to a thread in one of the restore statuses. -/
theorem exitFilter_restore {e : ProbeEnv} {s : TracedTask Path Fpu} {p : ProcInfo Path}
    (hi : s.info = some p) (hst : p.status = .nodRestoreContext ∨ p.status = .nodRestoreSecurity) :
    exitFilter k e s = some .bug := by
  rcases hst with hst | hst <;> simp [exitFilter, hi, hst]

end Moves

/-! ## The steps -/

section Steps

variable {Path Fpu : Type}

/-- The step is one of the thread's own. -/
def TraceAct.OfThread : TraceAct Path Fpu → Prop
  | .stopRecording | .startRecording _ => False
  | _ => True

/-- The step is an `ioctl` with the command that is accepted. -/
def Accepts (cmd : RestoreCmd) (t : Traced Path Fpu) : TraceAct Path Fpu → Prop
  | .ioctl cmd' filp stack => cmd' = cmd ∧ (nodDevIoctl cmd' filp stack t.task.info).1 = 0
  | _ => False

/-- The status is one the code gives a `nod_proc_info` that is not being made, and outside
the monitor no privileges are saved. -/
def TracedTask.Known (s : TracedTask Path Fpu) : Prop :=
  ∀ p, s.info = some p → p.status ≠ .nodUnknown ∧
    (p.status.outside = true → p.sec.available = false)

theorem TracedTask.Known.cases {s : TracedTask Path Fpu} (h : s.Known) :
    s.Outside ∨ ∃ p, s.info = some p ∧
      (p.status = .nodIn ∨ p.status = .nodRestoreContext ∨ p.status = .nodRestoreSecurity) := by
  cases hi : s.info with
  | none => exact Or.inl fun p hp => by rw [hi] at hp; cases hp
  | some p =>
    obtain ⟨hne, ha⟩ := h p hi
    cases hst : p.status with
    | nodUnknown => exact absurd hst hne
    | nodOut | nodClone | nodShare =>
      exact Or.inl (Outside.of_info hi (by rw [hst]; rfl) (ha (by rw [hst]; rfl)))
    | nodIn | nodRestoreContext | nodRestoreSecurity => exact Or.inr ⟨p, rfl, by simp [hst]⟩

theorem nodDevIoctl_cases (cmd : RestoreCmd) (filp : Bool) (stack : Option StackInfo)
    (info : Option (ProcInfo Path)) :
    ((nodDevIoctl cmd filp stack info).1 ≠ 0 ∧ (nodDevIoctl cmd filp stack info).2 = info) ∨
    ((nodDevIoctl cmd filp stack info).1 = 0 ∧ ∃ p fd, info = some p ∧ p.status = .nodIn ∧
      (nodDevIoctl cmd filp stack info).2 = some (nodProcSetStatus p cmd.status fd)) := by
  unfold nodDevIoctl
  split
  next p =>
    by_cases hin : p.status = .nodIn
    · rw [if_neg (not_not.mpr hin)]
      split
      · exact Or.inl ⟨by simp, rfl⟩
      · split
        · exact Or.inl ⟨by simp, rfl⟩
        · exact Or.inr ⟨rfl, p, _, rfl, hin, rfl⟩
    · rw [if_pos hin]
      exact Or.inl ⟨by simp, rfl⟩
  · exact Or.inl ⟨by simp, rfl⟩

/-- The step leaves all but the registers, the mode and the probe as they are. -/
structure Keeps (t u : Traced Path Fpu) : Prop where
  info : u.task.info = t.task.info
  privil : u.task.privil = t.task.privil
  uid : u.task.uid = t.task.uid
  app : u.app = t.app

/-- What a step does. -/
inductive Took (t : Traced Path Fpu) : TraceAct Path Fpu → Traced Path Fpu → Prop
  | idle {a : TraceAct Path Fpu} {u : Traced Path Fpu} (keeps : Keeps t u) (mode : u.mode = t.mode)
      (refused : ∀ cmd, ¬ Accepts cmd t a) : Took t a u
  | call {id : Sysno} {ret : UInt64} {uid : UInt32} {privil : Privileges Path}
      {u : Traced Path Fpu} (mode : t.mode = .user) (umode : u.mode = .kernel id)
      (info : u.task.info = t.task.info) (uprivil : u.task.privil = privil)
      (app : u.app = if t.status = some .nodIn then t.app else { t.app with privil := privil }) :
      Took t (.syscall id ret uid privil) u
  | refused {cmd : RestoreCmd} {filp : Bool} {stack : Option StackInfo} {u : Traced Path Fpu}
      (keeps : Keeps t u) (mode : t.mode = .user) (umode : u.mode = .kernel .ioctl)
      (refused : ∀ cmd', ¬ Accepts cmd' t (.ioctl cmd filp stack)) :
      Took t (.ioctl cmd filp stack) u
  | accepted {cmd : RestoreCmd} {filp : Bool} {stack : Option StackInfo} {u : Traced Path Fpu}
      {p : ProcInfo Path} {fd : Int} (mode : t.mode = .user) (umode : u.mode = .kernel .ioctl)
      (accepts : Accepts cmd t (.ioctl cmd filp stack)) (info : t.task.info = some p)
      (status : p.status = .nodIn) (uinfo : u.task.info = some (nodProcSetStatus p cmd.status fd))
      (privil : u.task.privil = t.task.privil) (app : u.app = t.app) :
      Took t (.ioctl cmd filp stack) u
  -- the exit of a thread the filter sees is one of a thread in no restore status
  | died {id : Sysno} {e : ProbeEnv} {u : Traced Path Fpu} (mode : t.mode = .user)
      (umode : u.mode = .gone) (task : u.task = t.task ∨ u.task.info = none ∧
        (t.task.Outside ∨ ∃ p, t.task.info = some p ∧ p.status = .nodIn)) :
      Took t (.exit id e) u
  | bug {id : Sysno} {e : ProbeEnv} {u : Traced Path Fpu} {p : ProcInfo Path} (keeps : Keeps t u)
      (mode : t.mode = .user) (observed : t.Observed) (umode : u.mode = .bug)
      (info : t.task.info = some p)
      (status : p.status = .nodRestoreContext ∨ p.status = .nodRestoreSecurity) :
      Took t (.exit id e) u
  | moved {a : TraceAct Path Fpu} {u : Traced Path Fpu} {s : TracedTask Path Fpu}
      (live : t.mode ≠ .gone) (observed : t.Observed) (outside : t.task.Outside) (move : Move t.task s)
      (uinfo : u.task.info = s.info) (uprivil : u.task.privil = s.privil)
      (app : u.app = (t.follow s).app) (umode : u.mode ≠ .bug)
      (refused : ∀ cmd, ¬ Accepts cmd t a) : Took t a u
  | left {e : ProbeEnv} {u : Traced Path Fpu} {id : Sysno} {p p' : ProcInfo Path}
      (mode : t.mode = .kernel id) (umode : u.mode = .user)
      (info : t.task.info = some p) (status : p.status = .nodRestoreContext)
      (uinfo : u.task.info = some p') (ustatus : p'.status = .nodOut)
      (available : p'.sec.available = false) (app : u.app = t.app)
      (back : ∀ a, Held p a → u.task.cpu.regs = a.regs ∧ u.task.cpu.fsBase = a.fsbase ∧
        u.task.cpu.gsBase = a.gsbase ∧ u.task.privil = a.privil) : Took t (.ret e) u
  | gaveBack {e : ProbeEnv} {u : Traced Path Fpu} {id : Sysno} {p p' : ProcInfo Path}
      (mode : t.mode = .kernel id) (umode : u.mode = .user)
      (info : t.task.info = some p) (status : p.status = .nodRestoreSecurity)
      (uinfo : u.task.info = some p') (ustatus : p'.status = .nodRestoreSecurity)
      (available : p'.sec.available = false) (app : u.app = t.app)
      (privil : u.task.privil = if p.sec.available then p.sec.saved else t.task.privil) :
      Took t (.ret e) u
  | returned {e : ProbeEnv} {u : Traced Path Fpu} {id : Sysno} (keeps : Keeps t u)
      (mode : t.mode = .kernel id) (umode : u.mode = .user)
      (unobserved : ¬ t.Observed ∨ ∃ p, t.task.info = some p ∧ p.status = .nodIn) :
      Took t (.ret e) u

theorem Keeps.refl_mode (t : Traced Path Fpu) (m : Mode) : Keeps t { t with mode := m } :=
  ⟨rfl, rfl, rfl, rfl⟩

theorem RestoreCmd.status_restore (cmd : RestoreCmd) :
    cmd.status = .nodRestoreContext ∨ cmd.status = .nodRestoreSecurity := by
  cases cmd
  · exact Or.inr rfl
  · exact Or.inl rfl

theorem TracedTask.Outside.known {s : TracedTask Path Fpu} (h : s.Outside) : s.Known := by
  intro p hp
  obtain ⟨hst, ha⟩ := h p hp
  refine ⟨?_, fun _ => ha⟩
  intro hu
  rw [hu] at hst
  cases hst

theorem Known.of_info {s : TracedTask Path Fpu} {p : ProcInfo Path} (h : s.info = some p)
    (hst : p.status = .nodIn ∨ p.status = .nodRestoreContext ∨ p.status = .nodRestoreSecurity) :
    s.Known := by
  intro p' hp'
  cases h.symm.trans hp'
  rcases hst with hst | hst | hst <;> simp [hst, ProcStatus.outside]

theorem TracedTask.Known.of_eq {s s' : TracedTask Path Fpu} (h : s.Known) (he : s'.info = s.info) :
    s'.Known := by
  intro p hp
  exact h p (he.symm.trans hp)

theorem Took.known {t u : Traced Path Fpu} {a : TraceAct Path Fpu} (hk : t.task.Known)
    (h : Took t a u) : u.task.Known := by
  cases h with
  | idle hkeeps | refused hkeeps | bug hkeeps | returned hkeeps => exact hk.of_eq hkeeps.info
  | call _ _ hinfo => exact hk.of_eq hinfo
  | accepted _ _ _ _ _ hinfo =>
    exact Known.of_info hinfo (Or.inr (RestoreCmd.status_restore _))
  | died _ _ htask =>
    rcases htask with htask | ⟨hnone, -⟩
    · exact hk.of_eq (by rw [htask])
    · intro p hp
      rw [hnone] at hp
      cases hp
  | moved _ _ _ hmove hinfo =>
    cases hmove with
    | stays hout => exact hout.known.of_eq hinfo
    | enters p hi hst => exact Known.of_info (hinfo.trans hi) (Or.inl hst)
  | left _ _ _ _ hinfo hst ha =>
    exact (Outside.of_info hinfo (by rw [hst]; rfl) ha).known
  | gaveBack _ _ _ _ hinfo hst => exact Known.of_info hinfo (Or.inr (Or.inr hst))

variable [Inhabited Path] {k : KernelPrivil Path}

theorem exit_took {t u : Traced Path Fpu} {id : Sysno} {e : ProbeEnv} (hk : t.task.Known)
    (h : traceStep k t (.exit id e) = some u) : Took t (.exit id e) u := by
  simp only [traceStep] at h
  split at h
  next hm =>
    split at h
    next ho =>
      obtain ⟨r, hr, rfl⟩ := Option.map_eq_some_iff.mp h
      rcases hk.cases with hout | ⟨p, hi, hst | hst⟩
      · obtain ⟨again, s, rfl, hmove⟩ := exitFilter_outside hout hr
        cases again with
        | true =>
          exact .moved (by simp [hm.1]) ho hout hmove rfl rfl rfl (by simp) fun _ h => h
        | false => exact .died hm.1 rfl (Or.inr ⟨rfl, Or.inl hout⟩)
      · rw [exitFilter_in hi hst] at hr
        cases hr
        exact .died hm.1 rfl (Or.inr ⟨rfl, Or.inr ⟨p, hi, hst⟩⟩)
      · rw [exitFilter_restore hi hst] at hr
        cases hr
        exact .bug (Keeps.refl_mode t _) hm.1 ho rfl hi hst
    next =>
      cases h
      exact .died hm.1 rfl (Or.inl rfl)
  next => cases h

theorem ret_took {t u : Traced Path Fpu} {e : ProbeEnv} (hk : t.task.Known)
    (h : traceStep k t (.ret e) = some u) : Took t (.ret e) u := by
  simp only [traceStep] at h
  split at h
  next id hm =>
    split at h
    next ho =>
      obtain ⟨s, hs, rfl⟩ := Option.map_eq_some_iff.mp h
      rcases hk.cases with hout | ⟨p, hi, hst | hst | hst⟩
      · exact .moved (by simp [hm]) ho hout (syscallExitProbe_outside hout hs) rfl rfl rfl (by simp)
          fun _ h => h
      · have hs' : syscallExitProbe k e id t.task = some t.task := by
          simp only [syscallExitProbe, hi, nodEventFrom, hst]
        cases hs'.symm.trans hs
        refine .returned ⟨rfl, rfl, rfl, ?_⟩ hm rfl (Or.inr ⟨p, hi, hst⟩)
        simp [Traced.follow, Traced.status, hi, hst]
      · obtain ⟨s', p', hs', -, hi', hst', ha', hback⟩ :=
          syscallExitProbe_restoreContext (k := k) e id hi hst
        cases hs'.symm.trans hs
        refine .left hm rfl hi hst hi' hst' ha' ?_ hback
        simp [Traced.follow, hi', hst']
      · rw [syscallExitProbe_restoreSecurity hi hst] at hs
        cases hs
        obtain ⟨p', hi', hst', -, ha', hp'⟩ := restoreSecurity_cases t.task p
        refine .gaveBack hm rfl hi hst hi' (hst'.trans hst) ha' ?_ hp'
        simp [Traced.follow, hi', hst', hst]
    next ho =>
      cases h
      exact .returned (Keeps.refl_mode t _) hm rfl (Or.inl ho)
  next => cases h

theorem ioctl_took {t u : Traced Path Fpu} {cmd : RestoreCmd} {filp : Bool}
    {stack : Option StackInfo} (h : traceStep k t (.ioctl cmd filp stack) = some u) :
    Took t (.ioctl cmd filp stack) u := by
  simp only [traceStep] at h
  split at h
  next hm =>
    cases h
    rcases nodDevIoctl_cases cmd filp stack t.task.info with ⟨hr, hi⟩ | ⟨hr, p, fd, hi, hst, hi'⟩
    · exact .refused ⟨hi, rfl, rfl, rfl⟩ hm rfl fun _ hacc => hr hacc.2
    · exact .accepted hm rfl ⟨rfl, hr⟩ hi hst hi' rfl rfl
  next => cases h

/-- Every step of a thread whose status is known is one of these. -/
theorem traceStep_took {t u : Traced Path Fpu} {a : TraceAct Path Fpu} (hk : t.task.Known)
    (h : stepOf (traceStep k) t a u) : Took t a u := by
  cases a with
  | instr i =>
    simp only [stepOf, traceStep] at h
    split at h
    · cases h
      exact .idle ⟨rfl, rfl, rfl, rfl⟩ rfl fun _ => id
    · cases h
  | switched th =>
    cases h
    exact .idle ⟨rfl, rfl, rfl, rfl⟩ rfl fun _ => id
  | syscall id ret uid privil =>
    simp only [stepOf, traceStep] at h
    split at h
    next hm =>
      cases h
      exact .call hm.1 rfl rfl rfl rfl
    next => cases h
  | ioctl cmd filp stack => exact ioctl_took h
  | exit id e => exact exit_took hk h
  | ret e => exact ret_took hk h
  | stopRecording =>
    cases h
    exact .idle ⟨rfl, rfl, rfl, rfl⟩ rfl fun _ => id
  | startRecording ok =>
    cases h
    exact .idle ⟨rfl, rfl, rfl, rfl⟩ rfl fun _ => id

end Steps

end NoDrop
