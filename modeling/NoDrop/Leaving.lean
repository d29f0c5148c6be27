import NoDrop.Events
import NoDrop.TraceSteps

/-! # Leaving the monitor

The two restore statuses are meant to be passed through: an `ioctl` sets one, and the
probe at its return acts on it.

* If the probe is not there at the return, since another task has stopped the recording
  meanwhile, the thread goes on in user mode as if nothing had been asked
  (`stop_loses_restore`); where it is there, the thread leaves the monitor with its
  registers and its privileges (`leavesCleanly_of_run`).
* The probe acts on `NOD_RESTORE_SECURITY` but does not change it, and nothing else does.
  A thread that has used this command therefore reaches `BUG()` when it exits
  (`exit_reaches_bug`), and no other does (`exit_expected_iff`).
-/
namespace NoDrop

open Runs

/-! ## Leaving the monitor -/

section Leaving

variable {Path Fpu : Type}

/-- The thread has asked to leave the monitor, and has not left it. -/
def Traced.Asked (t : Traced Path Fpu) : Prop :=
  ∃ p, t.task.info = some p ∧
    (p.status = .nodRestoreContext ∨ p.status = .nodRestoreSecurity) ∧ p.sec.available = true

/-- The condition on a step: when an accepted `ioctl` returns, the probe is there and acts
on the thread. -/
def ReturnsObserved (t : Traced Path Fpu) : TraceAct Path Fpu → Prop
  | .ret _ => t.Asked → t.Observed
  | _ => True

/-- How far the thread is. -/
inductive Stage (t : Traced Path Fpu) : Prop
  | gone (mode : t.mode = .gone)
  | outside (outside : t.task.Outside) (privil : t.task.privil = t.app.privil)
  | inside (p : ProcInfo Path) (info : t.task.info = some p) (status : p.status = .nodIn)
      (held : Held p t.app)
  | asked (p : ProcInfo Path) (info : t.task.info = some p)
      (status : p.status = .nodRestoreContext ∨ p.status = .nodRestoreSecurity)
      (held : Held p t.app) (id : Sysno) (mode : t.mode = .kernel id)
  | given (p : ProcInfo Path) (info : t.task.info = some p)
      (status : p.status = .nodRestoreSecurity) (available : p.sec.available = false)
      (privil : t.task.privil = t.app.privil)

theorem Held.setStatus {p : ProcInfo Path} {a : AppState Path} (h : Held p a) (status : ProcStatus)
    (fd : Int) : Held (nodProcSetStatus p status fd) a :=
  ⟨h.ctx, h.available, h.sec⟩

theorem TracedTask.Outside.status_ne {t : Traced Path Fpu} (h : t.task.Outside) {p : ProcInfo Path}
    (hi : t.task.info = some p) {st : ProcStatus} (hst : st.outside = false) : p.status ≠ st := by
  rintro rfl
  rw [(h p hi).1] at hst
  cases hst

theorem TracedTask.Outside.not_in {t : Traced Path Fpu} (h : t.task.Outside) :
    t.status ≠ some .nodIn := by
  intro hst
  obtain ⟨p, hi, hin⟩ := Option.map_eq_some_iff.mp hst
  exact h.status_ne hi rfl hin

namespace Stage

variable {t u : Traced Path Fpu}

theorem not_asked_of_user (h : Stage t) (hm : t.mode = .user) : ¬ t.Asked := by
  rintro ⟨p, hi, hst, ha⟩
  cases h with
  | gone hg => rw [hm] at hg; cases hg
  | outside hout _ =>
    rcases hst with hst | hst
    · exact hout.status_ne hi rfl hst
    · exact hout.status_ne hi rfl hst
  | inside p' hi' hst' _ =>
    cases hi.symm.trans hi'
    rw [hst'] at hst
    rcases hst with hst | hst <;> cases hst
  | asked _ _ _ _ id hm' => rw [hm] at hm'; cases hm'
  | given p' hi' _ ha' _ =>
    cases hi.symm.trans hi'
    rw [ha] at ha'
    cases ha'

/-- A step that keeps what the stage is about. -/
theorem of_keeps (h : Stage t) (hk : Keeps t u) (hgone : t.mode = .gone → u.mode = .gone)
    (hasked : ∀ id, t.mode = .kernel id → t.Asked → ∃ id', u.mode = .kernel id') : Stage u := by
  cases h with
  | gone hg => exact .gone (hgone hg)
  | outside hout hp =>
    refine .outside ?_ (by rw [hk.privil, hk.app, hp])
    intro p hi
    exact hout p (hk.info ▸ hi)
  | inside p hi hst hh => exact .inside p (hk.info.trans hi) hst (hk.app ▸ hh)
  | asked p hi hst hh id hm =>
    obtain ⟨id', hm'⟩ := hasked id hm ⟨p, hi, hst, hh.available⟩
    exact .asked p (hk.info.trans hi) hst (hk.app ▸ hh) id' hm'
  | given p hi hst ha hp =>
    exact .given p (hk.info.trans hi) hst ha (by rw [hk.privil, hk.app, hp])

/-- In the monitor the application's state is saved. -/
theorem held_of_in (h : Stage t) (hg : t.mode ≠ .gone) {p : ProcInfo Path}
    (hi : t.task.info = some p) (hst : p.status = .nodIn) : Held p t.app := by
  cases h with
  | gone hg' => exact absurd hg' hg
  | outside hout _ => exact absurd hst (hout.status_ne hi rfl)
  | inside p' hi' _ hh =>
    cases hi.symm.trans hi'
    exact hh
  | asked p' hi' hst' =>
    cases hi.symm.trans hi'
    rw [hst] at hst'
    rcases hst' with hst' | hst' <;> cases hst'
  | given p' hi' hst' =>
    cases hi.symm.trans hi'
    rw [hst] at hst'
    cases hst'

/-- So it is when the thread has asked for its context. -/
theorem held_of_restoreContext (h : Stage t) (hg : t.mode ≠ .gone) {p : ProcInfo Path}
    (hi : t.task.info = some p) (hst : p.status = .nodRestoreContext) : Held p t.app := by
  cases h with
  | gone hg' => exact absurd hg' hg
  | outside hout _ => exact absurd hst (hout.status_ne hi rfl)
  | inside p' hi' hst' =>
    cases hi.symm.trans hi'
    rw [hst] at hst'
    cases hst'
  | asked p' hi' _ hh =>
    cases hi.symm.trans hi'
    exact hh
  | given p' hi' hst' =>
    cases hi.symm.trans hi'
    rw [hst] at hst'
    cases hst'

/-- Outside it the application's privileges are those it has. -/
theorem privil_of_outside (h : Stage t) (hg : t.mode ≠ .gone) (hout : t.task.Outside) :
    t.task.privil = t.app.privil := by
  cases h with
  | gone hg' => exact absurd hg' hg
  | outside _ hp => exact hp
  | inside p hi hst => exact absurd hst (hout.status_ne hi rfl)
  | asked p hi hst =>
    rcases hst with hst | hst
    · exact absurd hst (hout.status_ne hi rfl)
    · exact absurd hst (hout.status_ne hi rfl)
  | given p hi hst => exact absurd hst (hout.status_ne hi rfl)

/-- The application's privileges follow a system call it makes, outside the monitor. -/
theorem app_call {privil : Privileges Path} (hnot : t.status ≠ some .nodIn)
    (happ : u.app = if t.status = some .nodIn then t.app else { t.app with privil := privil }) :
    u.app.privil = privil := by
  rw [happ, if_neg hnot]

theorem follow_enters {s : TracedTask Path Fpu} {p : ProcInfo Path} (hout : t.task.Outside)
    (hp : t.task.privil = t.app.privil) (hi : s.info = some p) (hst : p.status = .nodIn) :
    (t.follow s).app = t.task.appState := by
  have hin : s.info.map (·.status) = some .nodIn := by rw [hi, Option.map_some, hst]
  simp only [Traced.follow]
  rw [if_pos ⟨hout.not_in, hin⟩, ← hp]
  rfl

theorem follow_stays {s : TracedTask Path Fpu} (hs : s.Outside) : (t.follow s).app = t.app := by
  have hin : s.info.map (·.status) ≠ some .nodIn := by
    intro hst
    obtain ⟨p, hi, hst⟩ := Option.map_eq_some_iff.mp hst
    have := (hs p hi).1
    rw [hst] at this
    cases this
  simp only [Traced.follow]
  rw [if_neg fun h => hin h.2]

theorem step {a : TraceAct Path Fpu} (h : Stage t) (hc : ReturnsObserved t a) (ht : Took t a u) :
    Stage u := by
  cases ht with
  | idle hkeeps hmode =>
    exact h.of_keeps hkeeps (fun hg => hmode.trans hg) fun id hm _ => ⟨id, hmode.trans hm⟩
  | refused hkeeps hm hum =>
    refine h.of_keeps hkeeps ?_ fun _ _ _ => ⟨_, hum⟩
    intro hg
    rw [hm] at hg
    cases hg
  | bug hkeeps hm =>
    refine h.of_keeps hkeeps ?_ ?_
    · intro hg
      rw [hm] at hg
      cases hg
    · intro id hm'
      rw [hm] at hm'
      cases hm'
  | returned hkeeps hm hum hun =>
    refine h.of_keeps hkeeps ?_ ?_
    · intro hg
      rw [hm] at hg
      cases hg
    · -- an accepted `ioctl` returns with the probe there, which does not leave it at that
      rintro - - hasked
      rcases hun with hun | ⟨p, hi, hst⟩
      · exact absurd (hc hasked) hun
      · obtain ⟨p', hi', hst', -⟩ := hasked
        cases hi.symm.trans hi'
        rw [hst] at hst'
        rcases hst' with hst' | hst' <;> cases hst'
  | call hm hum hi hp happ =>
    cases h with
    | gone hg => rw [hm] at hg; cases hg
    | outside hout _ =>
      refine .outside (fun p hp => hout p (hi ▸ hp)) ?_
      rw [hp, app_call hout.not_in happ]
    | inside p hi' hst hh =>
      have hin : t.status = some .nodIn := by rw [Traced.status, hi', Option.map_some, hst]
      refine .inside p (hi.trans hi') hst ?_
      rw [happ, if_pos hin]
      exact hh
    | asked _ _ _ _ id hm' => rw [hm] at hm'; cases hm'
    | given p hi' hst ha _ =>
      have hin : t.status ≠ some .nodIn := by simp [Traced.status, hi', hst]
      exact .given p (hi.trans hi') hst ha (by rw [hp, app_call hin happ])
  | accepted hm hum _ hi hst hui hp happ =>
    have hh := h.held_of_in (by simp [hm]) hi hst
    exact .asked _ hui (RestoreCmd.status_restore _) (happ ▸ hh.setStatus _ _) _ hum
  | died _ hum => exact .gone hum
  | moved hg ho hout hmove hui hup happ =>
    have hp := h.privil_of_outside hg hout
    cases hmove with
    | stays hs hp' _ =>
      refine .outside (fun p hp => hs p (hui ▸ hp)) ?_
      rw [hup, happ, follow_stays hs, hp', hp]
    | enters p hi hst hh _ =>
      exact .inside p (hui.trans hi) hst (by rwa [happ, follow_enters hout hp hi hst])
  | left hm hum hi hst hui hust ha happ hback =>
    refine .outside (Outside.of_info hui (by rw [hust]; rfl) ha) ?_
    rw [happ]
    exact (hback _ (h.held_of_restoreContext (by simp [hm]) hi hst)).2.2.2
  | gaveBack hm hum hi hst hui hust ha happ hp =>
    refine .given _ hui hust ha ?_
    cases h with
    | gone hg => rw [hm] at hg; cases hg
    | outside hout _ => exact absurd hst (hout.status_ne hi rfl)
    | inside p hi' hst' =>
      cases hi.symm.trans hi'
      rw [hst] at hst'
      cases hst'
    | asked p hi' _ hh =>
      cases hi.symm.trans hi'
      rw [hp, if_pos hh.available, hh.sec, happ]
    | given p hi' _ ha' hp' =>
      cases hi.symm.trans hi'
      rw [hp, if_neg (by simp [ha']), happ, hp']

end Stage

/-- A thread that has no `nod_proc_info`, in user mode or in a system call, such as the
`clone` it was made by. -/
structure Traced.Starts (t : Traced Path Fpu) : Prop where
  info : t.task.info = none
  privil : t.task.privil = t.app.privil
  mode : t.mode = .user ∨ ∃ id, t.mode = .kernel id

theorem Traced.Starts.outside {t : Traced Path Fpu} (h : t.Starts) : t.task.Outside := by
  intro p hp
  rw [h.info] at hp
  cases hp

variable [Inhabited Path] {k : KernelPrivil Path}

/-- What leaving the monitor should be, for a thread that takes the steps `C` lets it
take: in user mode the thread is not in status `NOD_RESTORE_CONTEXT` and has raised
privileges in status `NOD_IN` only, and an accepted `NOD_IOCTL_RESTORE_CONTEXT` returns to
user mode in status `NOD_OUT`, with the registers, the bases and the privileges the
application had. -/
structure LeavesCleanly (k : KernelPrivil Path)
    (C : Traced Path Fpu → TraceAct Path Fpu → Prop) (t : Traced Path Fpu) : Prop where
  status : t.mode = .user → t.status ≠ some .nodRestoreContext
  privil : t.mode = .user → t.status ≠ some .nodIn → t.task.privil = t.app.privil
  returns : ∀ id e, t.mode = .kernel id → t.status = some .nodRestoreContext → C t (.ret e) →
    ∃ u, traceStep k t (.ret e) = some u ∧ u.mode = .user ∧ u.status = some .nodOut ∧
      u.task.cpu.regs = t.app.regs ∧ u.task.cpu.fsBase = t.app.fsbase ∧
      u.task.cpu.gsBase = t.app.gsbase ∧ u.task.privil = t.app.privil

theorem Stage.leavesCleanly {t : Traced Path Fpu} (h : Stage t) :
    LeavesCleanly k ReturnsObserved t := by
  have hasked : t.mode ≠ .gone → t.status = some .nodRestoreContext →
      ∃ p, t.task.info = some p ∧ p.status = .nodRestoreContext ∧ Held p t.app := by
    intro hg hst
    obtain ⟨p, hi, hst⟩ := Option.map_eq_some_iff.mp hst
    exact ⟨p, hi, hst, h.held_of_restoreContext hg hi hst⟩
  refine ⟨?_, ?_, ?_⟩
  · intro hm hst
    obtain ⟨p, hi, hst, hh⟩ := hasked (by simp [hm]) hst
    exact h.not_asked_of_user hm ⟨p, hi, Or.inl hst, hh.available⟩
  · intro hm hst
    cases h with
    | gone hg => rw [hm] at hg; cases hg
    | outside _ hp => exact hp
    | inside p hi hin => exact absurd (by rw [Traced.status, hi, Option.map_some, hin]) hst
    | asked _ _ _ _ id hm' => rw [hm] at hm'; cases hm'
    | given _ _ _ _ hp => exact hp
  · intro id e hm hst hc
    obtain ⟨p, hi, hst, hh⟩ := hasked (by simp [hm]) hst
    have ho : t.Observed := hc ⟨p, hi, Or.inl hst, hh.available⟩
    obtain ⟨s, p', hs, -, hi', hst', -, hback⟩ :=
      syscallExitProbe_restoreContext (k := k) e id hi hst
    obtain ⟨hregs, hfs, hgs, hp⟩ := hback _ hh
    refine ⟨{ t.follow s with mode := .user }, ?_, rfl, ?_, hregs, hfs, hgs, hp⟩
    · simp only [traceStep, hm, if_pos ho, hs, Option.map_some]
    · simp [Traced.status, Traced.follow, hi', hst']

/-- **Leaving the monitor survives starting and stopping the recording**, if whenever an
accepted `ioctl` to leave it returns, the probe is there and acts on the thread. -/
theorem leavesCleanly_of_run {s t : Traced Path Fpu}
    {tr : List (Traced Path Fpu × TraceAct Path Fpu)} (h₀ : s.Starts)
    (hrun : Run (stepOf (traceStep k)) s tr t) (hc : Meets ReturnsObserved tr) :
    LeavesCleanly k ReturnsObserved t := by
  have h := hrun.invariant (I := fun t => t.task.Known ∧ Stage t) (C := ReturnsObserved)
    (fun ⟨hk, h⟩ hc hs => ⟨(traceStep_took hk hs).known hk, h.step hc (traceStep_took hk hs)⟩)
    ⟨h₀.outside.known, .outside h₀.outside h₀.privil⟩ hc
  exact h.2.leavesCleanly

end Leaving

/-! ## Exiting -/

section Exiting

variable {Path Fpu : Type}

/-- An `ioctl` `NOD_IOCTL_RESTORE_SECURITY` was accepted. -/
def SecurityAccepted (tr : List (Traced Path Fpu × TraceAct Path Fpu)) : Prop :=
  ∃ x ∈ tr, Accepts .security x.1 x.2

theorem securityAccepted_snoc {tr : List (Traced Path Fpu × TraceAct Path Fpu)}
    {t : Traced Path Fpu} {a : TraceAct Path Fpu} :
    SecurityAccepted (tr ++ [(t, a)]) ↔ SecurityAccepted tr ∨ Accepts .security t a := by
  simp only [SecurityAccepted, List.mem_append, List.mem_singleton, or_and_right, exists_or,
    exists_eq_left]

/-- The status is one `exit_filter` has a case for. -/
def Traced.ExpectedAtExit (t : Traced Path Fpu) : Prop :=
  ∀ p, t.task.info = some p → p.status.outside = true ∨ p.status = .nodIn

/-- The invariant of the status, in a run in which `NOD_IOCTL_RESTORE_SECURITY` has been
accepted (`acc`) or not. -/
structure StatusKept (acc : Prop) (t : Traced Path Fpu) : Prop where
  registered : t.registered = true
  known : t.task.Known
  context : t.status = some .nodRestoreContext → t.mode = .user → t.task.uid ≠ 1000
  security : t.status = some .nodRestoreSecurity ↔ acc
  bug : t.mode = .bug → acc

theorem Keeps.status {t u : Traced Path Fpu} (h : Keeps t u) : u.status = t.status := by
  rw [Traced.status, h.info, Traced.status]

theorem Traced.status_of_info {t : Traced Path Fpu} {p : ProcInfo Path} (h : t.task.info = some p) :
    t.status = some p.status := by
  rw [status, h, Option.map_some]

theorem TracedTask.Outside.status_ne_some {t : Traced Path Fpu} (h : t.task.Outside)
    {st : ProcStatus} (hst : st.outside = false) : t.status ≠ some st := by
  intro he
  obtain ⟨p, hi, he⟩ := Option.map_eq_some_iff.mp he
  exact h.status_ne hi hst he

namespace StatusKept

variable {acc : Prop} {t u : Traced Path Fpu} {a : TraceAct Path Fpu}

theorem security_of_eq (h : StatusKept acc t) (hst : u.status = t.status)
    (ha : ¬ Accepts .security t a) :
    u.status = some .nodRestoreSecurity ↔ acc ∨ Accepts .security t a := by
  rw [hst, h.security]
  exact (or_iff_left ha).symm

theorem security_of_ne (h : StatusKept acc t) (ht : t.status ≠ some .nodRestoreSecurity)
    (hu : u.status ≠ some .nodRestoreSecurity) (ha : ¬ Accepts .security t a) :
    u.status = some .nodRestoreSecurity ↔ acc ∨ Accepts .security t a := by
  refine iff_of_false hu ?_
  rintro (hacc | hacc)
  · exact ht (h.security.mpr hacc)
  · exact ha hacc

end StatusKept

variable [Inhabited Path] {k : KernelPrivil Path}

theorem registered_of_thread {t u : Traced Path Fpu} {a : TraceAct Path Fpu} (ha : a.OfThread)
    (h : stepOf (traceStep k) t a u) : u.registered = t.registered := by
  cases a with
  | stopRecording | startRecording => exact ha.elim
  | switched th => cases h; rfl
  | instr | syscall | ioctl =>
    simp only [stepOf, traceStep] at h
    split at h
    · cases h; rfl
    · cases h
  | exit id e =>
    simp only [stepOf, traceStep] at h
    split at h
    · split at h
      · obtain ⟨r, -, rfl⟩ := Option.map_eq_some_iff.mp h
        split <;> rfl
      · cases h; rfl
    · cases h
  | ret e =>
    simp only [stepOf, traceStep] at h
    split at h
    · split at h
      · obtain ⟨s, -, rfl⟩ := Option.map_eq_some_iff.mp h
        rfl
      · cases h; rfl
    · cases h

theorem StatusKept.step {acc : Prop} {t u : Traced Path Fpu} {a : TraceAct Path Fpu}
    (h : StatusKept acc t) (ha : a.OfThread) (hs : stepOf (traceStep k) t a u) :
    StatusKept (acc ∨ Accepts .security t a) u := by
  have htook := traceStep_took h.known hs
  have hreg := (registered_of_thread ha hs).trans h.registered
  have hknown := htook.known h.known
  cases htook with
  | idle hkeeps hmode hacc =>
    refine ⟨hreg, hknown, ?_, h.security_of_eq hkeeps.status (hacc _), ?_⟩
    · rw [hkeeps.status, hmode, hkeeps.uid]
      exact h.context
    · rw [hmode]
      exact fun hb => Or.inl (h.bug hb)
  | call hm hum hi =>
    have hst : u.status = t.status := by rw [Traced.status, hi, Traced.status]
    exact ⟨hreg, hknown, by simp [hum], h.security_of_eq hst fun h => h, by simp [hum]⟩
  | refused hkeeps hm hum hacc =>
    exact ⟨hreg, hknown, by simp [hum], h.security_of_eq hkeeps.status (hacc _), by simp [hum]⟩
  | @accepted cmd _ _ _ _ _ hm hum hacc hi hst hui =>
    refine ⟨hreg, hknown, by simp [hum], ?_, by simp [hum]⟩
    have hne : t.status ≠ some .nodRestoreSecurity := by simp [Traced.status_of_info hi, hst]
    cases cmd with
    | security =>
      rw [Traced.status_of_info hui]
      exact ⟨fun _ => Or.inr hacc, fun _ => rfl⟩
    | context =>
      refine h.security_of_ne hne ?_ ?_
      · rw [Traced.status_of_info hui]
        simp [nodProcSetStatus, RestoreCmd.status]
      · rintro ⟨hcmd, -⟩
        cases hcmd
  | died hm hum htask =>
    refine ⟨hreg, hknown, by simp [hum], ?_, by simp [hum]⟩
    rcases htask with htask | ⟨hnone, hout | ⟨p, hi, hst⟩⟩
    · exact h.security_of_eq (by rw [Traced.status, htask, Traced.status]) fun h => h
    · refine h.security_of_ne (hout.status_ne_some rfl) ?_ fun h => h
      simp [Traced.status, hnone]
    · refine h.security_of_ne (by simp [Traced.status_of_info hi, hst]) ?_ fun h => h
      simp [Traced.status, hnone]
  | bug hkeeps hm ho hum hi hst =>
    -- in user mode the probe has seen to `NOD_RESTORE_CONTEXT`
    have hacc : acc := by
      rcases hst with hst | hst
      · have hctx : t.status = some .nodRestoreContext := by rw [Traced.status_of_info hi, hst]
        exact absurd ho.2 (h.context hctx hm)
      · exact h.security.mp (by rw [Traced.status_of_info hi, hst])
    exact ⟨hreg, hknown, by simp [hum], h.security_of_eq hkeeps.status fun h => h,
      fun _ => Or.inl hacc⟩
  | moved hg ho hout hmove hui hup happ hum hacc =>
    have hne : ∀ st, st = .nodRestoreContext ∨ st = .nodRestoreSecurity → u.status ≠ some st := by
      intro st hst
      rw [Traced.status, hui]
      cases hmove with
      | stays hs =>
        intro he
        obtain ⟨p, hi, rfl⟩ := Option.map_eq_some_iff.mp he
        have := (hs p hi).1
        rcases hst with hst | hst <;> rw [hst] at this <;> cases this
      | enters p hi hin =>
        rw [hi, Option.map_some, hin]
        rcases hst with rfl | rfl <;> simp
    refine ⟨hreg, hknown, fun hctx => absurd hctx (hne _ (Or.inl rfl)), ?_, fun hb => absurd hb hum⟩
    exact h.security_of_ne (hout.status_ne_some rfl) (hne _ (Or.inr rfl)) (hacc _)
  | left hm hum hi hst hui hust =>
    have hu : u.status = some .nodOut := by rw [Traced.status_of_info hui, hust]
    refine ⟨hreg, hknown, by simp [hu], ?_, by simp [hum]⟩
    exact h.security_of_ne (by simp [Traced.status_of_info hi, hst]) (by simp [hu]) fun h => h
  | gaveBack hm hum hi hst hui hust =>
    have hu : u.status = some .nodRestoreSecurity := by rw [Traced.status_of_info hui, hust]
    refine ⟨hreg, hknown, by simp [hu], ?_, by simp [hum]⟩
    exact h.security_of_eq (by rw [hu, Traced.status_of_info hi, hst]) fun h => h
  | returned hkeeps hm hum hun =>
    refine ⟨hreg, hknown, ?_, h.security_of_eq hkeeps.status fun h => h, by simp [hum]⟩
    intro hctx _ huid
    rw [hkeeps.status] at hctx
    rcases hun with hun | ⟨p, hi, hst⟩
    · exact hun ⟨h.registered, hkeeps.uid.symm.trans huid⟩
    · rw [Traced.status_of_info hi, hst] at hctx
      cases hctx

theorem StatusKept.of_run {s t : Traced Path Fpu} {tr : List (Traced Path Fpu × TraceAct Path Fpu)}
    (h₀ : s.Starts) (hreg : s.registered = true) (hrun : Run (stepOf (traceStep k)) s tr t)
    (hthread : Meets (fun _ a => a.OfThread) tr) : StatusKept (SecurityAccepted tr) t := by
  induction hrun with
  | nil =>
    have hst : s.status = none := by rw [Traced.status, h₀.info, Option.map_none]
    refine ⟨hreg, h₀.outside.known, by simp [hst], by simp [hst, SecurityAccepted], ?_⟩
    rcases h₀.mode with hm | ⟨id, hm⟩ <;> simp [hm]
  | snoc _ hstep ih =>
    obtain ⟨hthread, ha⟩ := meets_snoc.mp hthread
    have h := (ih hthread).step ha hstep
    rwa [← securityAccepted_snoc] at h

/-- **When an exit is expected.**  A thread under a probe that is not removed reaches
`BUG()` only after an accepted `NOD_IOCTL_RESTORE_SECURITY`, and the exits that
`exit_filter` sees find one of the statuses it has a case for exactly if there was none. -/
theorem exit_expected_iff {s t : Traced Path Fpu}
    {tr : List (Traced Path Fpu × TraceAct Path Fpu)} (h₀ : s.Starts) (hreg : s.registered = true)
    (hrun : Run (stepOf (traceStep k)) s tr t) (hthread : Meets (fun _ a => a.OfThread) tr) :
    (t.mode = .bug → SecurityAccepted tr) ∧
      (t.mode = .user → t.Observed → (t.ExpectedAtExit ↔ ¬ SecurityAccepted tr)) := by
  have h := StatusKept.of_run h₀ hreg hrun hthread
  refine ⟨h.bug, ?_⟩
  intro hm ho
  rw [← h.security]
  rcases h.known.cases with hout | ⟨p, hi, hst⟩
  · refine iff_of_true (fun p hi => Or.inl (hout p hi).1) (hout.status_ne_some rfl)
  · have hexp : t.ExpectedAtExit ↔ p.status.outside = true ∨ p.status = .nodIn :=
      ⟨fun h => h p hi, fun h p' hi' => by cases hi.symm.trans hi'; exact h⟩
    rw [hexp, Traced.status_of_info hi]
    rcases hst with hst | hst | hst
    · simp [hst]
    · have hctx : t.status = some .nodRestoreContext := by rw [Traced.status_of_info hi, hst]
      exact absurd ho.2 (h.context hctx hm)
    · simp [hst, ProcStatus.outside]

end Exiting

/-! ## A thread that closes a descriptor -/

section Close

variable {Path Fpu : Type} [Inhabited Path] {k : KernelPrivil Path}

/-- An `ioctl` of a thread in the monitor with valid arguments. -/
theorem ioctl_accepts {t : Traced Path Fpu} {p : ProcInfo Path} (cmd : RestoreCmd)
    (stack : StackInfo) (hm : t.mode = .user) (hi : t.task.info = some p) (hst : p.status = .nodIn)
    (hh : stack.hash = nodCalcHash stack) :
    ∃ u p', stepOf (traceStep k) t (.ioctl cmd true (some stack)) u ∧ u.mode = .kernel .ioctl ∧
      u.registered = t.registered ∧ u.task.uid = t.task.uid ∧ u.task.info = some p' ∧
      p'.status = cmd.status := by
  have hio : nodDevIoctl cmd true (some stack) t.task.info =
      (0, some (nodProcSetStatus p cmd.status stack.ioctlFd.toInt)) := by
    simp [nodDevIoctl, hi, hst, hh]
  refine ⟨{ t with
    mode := .kernel .ioctl
    task := { t.task with
      info := some (nodProcSetStatus p cmd.status stack.ioctlFd.toInt) }.setAx
        (Int64.ofInt 0).toUInt64 }, _, ?_, rfl, rfl, rfl, rfl, rfl⟩
  simp only [stepOf, traceStep, hm, if_true, hio]

/-- A thread that returns from its first system call. -/
def firstCall : Traced Nat Nat where
  registered := true
  mode := .kernel (.other 3)
  task :=
    { uid := 1000, cpu := flatCpu, th := ⟨0, 0, 0, 0, 0, 0⟩
      privil := ⟨twoThreads.shared, ⟨.disabled, 0, 0⟩⟩, info := none, stat := ⟨0, 0, 0⟩ }
  app := ⟨fun _ => 0, 0, 0, ⟨twoThreads.shared, ⟨.disabled, 0, 0⟩⟩⟩

theorem firstCall_starts : firstCall.Starts := ⟨rfl, rfl, Or.inr ⟨_, rfl⟩⟩

/-- The call is `close(0)`, and the monitor can be loaded. -/
def firstEnv : ProbeEnv where
  alloc := some smallBuffer
  event := some closeEvent
  fuel := 1
  load := ⟨none, .ok (0x1000, 0x7000), 0⟩

/-- The `nod_proc_info` it gets. -/
def firstInfo : ProcInfo Nat := ⟨.nodOut, -1, 0, 0, .zero, .zero, smallBuffer⟩

/-- Its recording. -/
def firstRecorded : Recorded := doRecordOneEvent 1 0 nodSuccessLoad closeEvent smallBuffer ⟨0, 0, 0⟩

/-- The thread in the monitor, which it has never seen before. -/
def firstEntered : Traced Nat Nat :=
  { firstCall.follow ((nodLoadMonitor twoKernel firstEnv.load firstInfo firstCall.task).2.putRecorded
      firstRecorded) with mode := .user }

theorem firstEntered_step : stepOf (traceStep twoKernel) firstCall (.ret firstEnv) firstEntered := by
  obtain ⟨hroom, hs, -⟩ := filledTo_zero.fits (by decide)
  obtain ⟨hforced, hret⟩ : firstRecorded.forced = true ∧ firstRecorded.ret = some nodSuccessLoad :=
    record_fits_forced 0 nodSuccessLoad ⟨0, 0, 0⟩ filledTo_zero.filled hroom hs (Or.inr rfl)
  have hstep : traceStep twoKernel firstCall (.ret firstEnv) =
      ((firstRecorded.ret.map fun ret => (ret, (if firstRecorded.forced then
          (nodLoadMonitor twoKernel firstEnv.load firstInfo firstCall.task).2
        else { firstCall.task with info := some firstInfo }).putRecorded firstRecorded)).map
          Prod.snd).map fun s => { firstCall.follow s with mode := .user } := rfl
  rw [stepOf, hstep, hret, hforced]
  rfl

theorem firstEntered_in : ∃ p, firstEntered.task.info = some p ∧ p.status = .nodIn :=
  ⟨_, rfl, rfl⟩

/-- A stack that passes the check. -/
def firstStack : StackInfo := ⟨3, -1, 0, nodCalcHash ⟨3, -1, 0, 0, 0, 0⟩, 0, 0⟩

/-- The recording is stopped and started while the thread is in the monitor. -/
theorem leavesCleanly_restarted : ∃ t u : Traced Nat Nat, t.status = some .nodRestoreContext ∧
    traceStep twoKernel t (.ret firstEnv) = some u ∧ u.mode = .user ∧ u.status = some .nodOut ∧
    u.task.privil = t.app.privil := by
  obtain ⟨p, hi, hst⟩ := firstEntered_in
  have hstop : stepOf (traceStep twoKernel) firstEntered .stopRecording
      { firstEntered with registered := false } := rfl
  have hstart : stepOf (traceStep twoKernel) { firstEntered with registered := false }
      (.startRecording true) firstEntered := rfl
  obtain ⟨t, p', ht, hm, hreg, huid, hi', hst'⟩ := ioctl_accepts (k := twoKernel) .context
    firstStack (t := firstEntered) rfl hi hst rfl
  have hrun := (((Run.nil.snoc firstEntered_step).snoc hstop).snoc hstart).snoc ht
  have hleaves := leavesCleanly_of_run firstCall_starts hrun
    (meets_snoc.mpr ⟨meets_snoc.mpr ⟨meets_snoc.mpr ⟨meets_snoc.mpr
      ⟨meets_nil, fun _ => ⟨rfl, rfl⟩⟩, trivial⟩, trivial⟩, trivial⟩)
  have hstatus : t.status = some .nodRestoreContext := by rw [Traced.status_of_info hi', hst']; rfl
  obtain ⟨u, hu, hum, hust, -, -, -, hp⟩ := hleaves.returns _ firstEnv hm hstatus
    fun _ => ⟨hreg, huid⟩
  exact ⟨t, u, hstatus, hu, hum, hust, hp⟩

/-- **Stopping the recording loses a restore**: between the entry and the return of the
`ioctl` another task stops the recording, and the thread goes on in user mode, in status
`NOD_RESTORE_CONTEXT` and with the monitor's privileges. -/
theorem stop_loses_restore : ¬ ∀ (s t : Traced Nat Nat)
    (tr : List (Traced Nat Nat × TraceAct Nat Nat)), s.Starts →
    Run (stepOf (traceStep twoKernel)) s tr t → LeavesCleanly twoKernel (fun _ _ => True) t := by
  intro hall
  obtain ⟨p, hi, hst⟩ := firstEntered_in
  obtain ⟨t, p', ht, hm, hreg, huid, hi', hst'⟩ := ioctl_accepts (k := twoKernel) .context
    firstStack (t := firstEntered) rfl hi hst rfl
  have hstop : stepOf (traceStep twoKernel) t .stopRecording { t with registered := false } := rfl
  have hret : stepOf (traceStep twoKernel) { t with registered := false } (.ret firstEnv)
      { t with registered := false, mode := .user } := by
    simp [stepOf, traceStep, hm, Traced.Observed]
  have hrun := (((Run.nil.snoc firstEntered_step).snoc ht).snoc hstop).snoc hret
  have hstatus : t.status = some .nodRestoreContext := by rw [Traced.status_of_info hi', hst']; rfl
  exact (hall _ _ _ firstCall_starts hrun).status rfl hstatus

/-- In the monitor an exit is expected. -/
theorem exit_expected_in : firstEntered.Observed ∧ firstEntered.ExpectedAtExit := by
  have hrun := Run.nil.snoc firstEntered_step
  refine ⟨⟨rfl, rfl⟩, ((exit_expected_iff firstCall_starts rfl hrun
    (meets_snoc.mpr ⟨meets_nil, trivial⟩)).2 rfl ⟨rfl, rfl⟩).mpr ?_⟩
  rintro ⟨x, hx, hacc⟩
  simp only [List.nil_append, List.mem_singleton] at hx
  subst hx
  exact hacc

/-- **An exit reaches `BUG()`**: the thread asks for its privileges, gets them, and exits
in status `NOD_RESTORE_SECURITY`. -/
theorem exit_reaches_bug : ¬ ∀ (s t : Traced Nat Nat)
    (tr : List (Traced Nat Nat × TraceAct Nat Nat)), s.Starts → s.registered = true →
    Run (stepOf (traceStep twoKernel)) s tr t → Meets (fun _ a => a.OfThread) tr →
    t.mode ≠ .bug ∧ (t.mode = .user → t.Observed → t.ExpectedAtExit) := by
  intro hall
  obtain ⟨p, hi, hst⟩ := firstEntered_in
  obtain ⟨t, p', ht, hm, hreg, huid, hi', hst'⟩ := ioctl_accepts (k := twoKernel) .security
    firstStack (t := firstEntered) rfl hi hst rfl
  have ho : t.Observed := ⟨hreg, huid⟩
  -- the probe gives the privileges back and leaves the status
  obtain ⟨p₁, hi₁, hst₁, -⟩ := restoreSecurity_cases t.task p'
  have hret : stepOf (traceStep twoKernel) t (.ret firstEnv)
      { t.follow (t.task.restoreSecurity p') with mode := .user } := by
    simp only [stepOf, traceStep, hm, if_pos ho, Option.map_some,
      syscallExitProbe_restoreSecurity hi' hst']
  have hexit : stepOf (traceStep twoKernel)
      { t.follow (t.task.restoreSecurity p') with mode := .user } (.exit .exit firstEnv)
      { t.follow (t.task.restoreSecurity p') with mode := .bug } := by
    have hbug : exitFilter twoKernel firstEnv (t.task.restoreSecurity p') = some .bug :=
      exitFilter_restore hi₁ (Or.inr (hst₁.trans hst'))
    have ho' : Traced.Observed { t.follow (t.task.restoreSecurity p') with mode := .user } := ho
    simp only [stepOf, traceStep, Sysno.isExit, and_self, if_true, if_pos ho']
    simp only [Traced.follow, hbug, Option.map_some]
  have hrun := (((Run.nil.snoc firstEntered_step).snoc ht).snoc hret).snoc hexit
  refine (hall _ _ _ firstCall_starts rfl hrun ?_).1 rfl
  exact meets_snoc.mpr ⟨meets_snoc.mpr ⟨meets_snoc.mpr ⟨meets_snoc.mpr ⟨meets_nil, trivial⟩,
    trivial⟩, trivial⟩, trivial⟩

end Close

end NoDrop
