import Mathlib.Logic.Function.Basic
import NoDrop.Lib.Runs

/-! # Raising privileges and giving them back

`nod_prepare_security` and `nod_restore_security` of `kmodule/privil.c`.  A thread that
enters the monitor saves its privileges in its own `nod_proc_security` and raises them;
when it leaves it puts back what it saved.

What is saved is of two kinds.  The seccomp mode, the signal mask and `clear_child_tid`
are the thread's own, and every interleaving of the threads of a group gives them back
(`own_given_back`).  The capabilities, the root and the resource limits are shared by
threads made with `CLONE_THREAD | CLONE_FS`, and each thread saves and puts them back as
if they were its own.  A thread that enters while another is inside saves raised
privileges; if it is the last to leave, raised they stay (`privileges_stay_raised`).
They are given back in the runs in which the last thread to leave had found them
unraised (`privileges_given_back`).
-/
namespace NoDrop

open Runs

/-! ## Data -/

/-- `struct rlimit`. -/
structure Rlimit where
  cur : UInt64
  max : UInt64
deriving DecidableEq, Repr

/-- `RLIM_INFINITY`. -/
def rlimInfinity : UInt64 := 0xffffffffffffffff

/-- `signal->rlim`, of `RLIM_NLIMITS` entries. -/
abbrev Rlim := Fin 16 → Rlimit

/-- The modes of seccomp, which are those `nod_enable_seccomp` accepts. -/
inductive SeccompMode where
  | disabled | strict | filter
deriving DecidableEq, Repr

/-- What the threads of a group share: the capabilities of their `cred`, the root of their
`fs` and the limits of their `signal`. -/
structure SharedPrivil (Path : Type) where
  capEffective : UInt64
  capPermitted : UInt64
  root : Path
  rlim : Rlim

/-- `struct nod_proc_security`. -/
structure ProcSecurity (Path : Type) where
  available : Bool
  childTid : UInt64
  seccompMode : SeccompMode
  sigset : UInt64
  capPermitted : UInt64
  capEffective : UInt64
  rootPath : Path
  rlim : Rlim

/-- A thread's own part of what is switched, and its `nod_proc_info`. -/
structure TaskPrivil (Path : Type) where
  seccomp : SeccompMode
  blocked : UInt64
  clearChildTid : UInt64
  ioctlFd : Int
  sec : ProcSecurity Path

/-- What the kernel provides: `CAP_FULL_SET` and the root of `init_task`. -/
structure KernelPrivil (Path : Type) where
  capFullSet : UInt64
  initRoot : Path

/-! ## The code -/

section Code

variable {Path : Type}

/-- `nod_disable_rlim`: `RLIMIT_CPU`, `RLIMIT_FSIZE` and `RLIMIT_NOFILE`. -/
def nodDisableRlim (rlim : Rlim) : Rlim := fun i =>
  if i = 1 ∨ i = 0 then ⟨rlimInfinity, rlimInfinity⟩
  else if i = 7 then ⟨1024 * 1024, 1024 * 1024⟩
  else rlim i

/-- All signals but `SIGKILL`, which is bit 8, and `SIGSTOP`, which is bit 18. -/
def allButKillStop : UInt64 := 0xfffffffffffbfeff

/-- `nod_prepare_security`. -/
def nodPrepareSecurity (k : KernelPrivil Path) (sh : SharedPrivil Path) (p : TaskPrivil Path) :
    SharedPrivil Path × TaskPrivil Path :=
  (⟨k.capFullSet, k.capFullSet, k.initRoot, nodDisableRlim sh.rlim⟩,
    { p with
      seccomp := .disabled
      blocked := allButKillStop
      sec :=
        { available := true
          childTid := p.clearChildTid
          seccompMode := p.seccomp
          sigset := p.blocked
          capPermitted := sh.capPermitted
          capEffective := sh.capEffective
          rootPath := sh.root
          rlim := sh.rlim } })

/-- `__restore_security`. -/
def restoreSecurity (sh : SharedPrivil Path) (p : TaskPrivil Path) :
    SharedPrivil Path × TaskPrivil Path :=
  if p.sec.available = false then (sh, p)
  else
    (⟨p.sec.capEffective, p.sec.capPermitted, p.sec.rootPath, p.sec.rlim⟩,
      { p with
        seccomp := p.sec.seccompMode
        blocked := p.sec.sigset
        clearChildTid := p.sec.childTid
        sec := { p.sec with available := false } })

/-- `nod_restore_security`, which first closes the descriptor of the `ioctl`. -/
def nodRestoreSecurity (sh : SharedPrivil Path) (p : TaskPrivil Path) :
    SharedPrivil Path × TaskPrivil Path :=
  restoreSecurity sh (if 0 ≤ p.ioctlFd then { p with ioctlFd := -1 } else p)

end Code

/-! ## A group of threads -/

/-- The threads `ι` of a group, with what they share. -/
structure ThreadGroup (ι Path : Type) where
  shared : SharedPrivil Path
  task : ι → TaskPrivil Path

/-- What a thread does, as one atomic step. -/
inductive PrivilAct (ι : Type) where
  | prepare (t : ι)
  | restore (t : ι)

section Threads

variable {ι Path : Type} [DecidableEq ι] (k : KernelPrivil Path)

/-- The thread is inside the monitor. -/
def ThreadGroup.Inside (g : ThreadGroup ι Path) (t : ι) : Prop := (g.task t).sec.available = true

instance (g : ThreadGroup ι Path) (t : ι) : Decidable (g.Inside t) :=
  inferInstanceAs (Decidable (_ = true))

/-- The result of a step of thread `t`. -/
def ThreadGroup.put (g : ThreadGroup ι Path) (t : ι) (r : SharedPrivil Path × TaskPrivil Path) :
    ThreadGroup ι Path :=
  ⟨r.1, Function.update g.task t r.2⟩

/-- One step; every thread alternates the two. -/
def privilStep (g : ThreadGroup ι Path) : PrivilAct ι → Option (ThreadGroup ι Path)
  | .prepare t =>
      if (g.task t).sec.available then none
      else some (g.put t (nodPrepareSecurity k g.shared (g.task t)))
  | .restore t =>
      if (g.task t).sec.available then some (g.put t (nodRestoreSecurity g.shared (g.task t)))
      else none

variable {k}

/-- What a step does. -/
theorem privilStep_cases {g g' : ThreadGroup ι Path} {a : PrivilAct ι}
    (h : stepOf (privilStep k) g a g') :
    (∃ t, a = .prepare t ∧ ¬ g.Inside t ∧
      g' = g.put t (nodPrepareSecurity k g.shared (g.task t))) ∨
    (∃ t, a = .restore t ∧ g.Inside t ∧
      g' = g.put t (nodRestoreSecurity g.shared (g.task t))) := by
  cases a with
  | prepare t =>
    simp only [stepOf, privilStep] at h
    split at h
    · cases h
    · cases h
      exact Or.inl ⟨t, rfl, ‹_›, rfl⟩
  | restore t =>
    simp only [stepOf, privilStep] at h
    split at h
    · cases h
      exact Or.inr ⟨t, rfl, ‹_›, rfl⟩
    · cases h

@[simp] theorem ThreadGroup.put_task_self (g : ThreadGroup ι Path) (t : ι)
    (r : SharedPrivil Path × TaskPrivil Path) : (g.put t r).task t = r.2 :=
  Function.update_self ..

theorem ThreadGroup.put_task_of_ne (g : ThreadGroup ι Path) {t u : ι}
    (r : SharedPrivil Path × TaskPrivil Path) (h : u ≠ t) : (g.put t r).task u = g.task u :=
  Function.update_of_ne h ..

/-- What leaving the monitor puts back. -/
theorem nodRestoreSecurity_eq {sh : SharedPrivil Path} {p : TaskPrivil Path}
    (h : p.sec.available = true) :
    nodRestoreSecurity sh p =
      (⟨p.sec.capEffective, p.sec.capPermitted, p.sec.rootPath, p.sec.rlim⟩,
        { seccomp := p.sec.seccompMode
          blocked := p.sec.sigset
          clearChildTid := p.sec.childTid
          ioctlFd := if 0 ≤ p.ioctlFd then -1 else p.ioctlFd
          sec := { p.sec with available := false } }) := by
  unfold nodRestoreSecurity
  split <;> simp [restoreSecurity, h]

theorem nodRestoreSecurity_eq_of_not {sh : SharedPrivil Path} {p : TaskPrivil Path}
    (h : p.sec.available = false) :
    nodRestoreSecurity sh p = (sh, { p with ioctlFd := if 0 ≤ p.ioctlFd then -1 else p.ioctlFd }) := by
  unfold nodRestoreSecurity
  split <;> simp [restoreSecurity, h]

/-! ## The thread's own part -/

/-- Thread `t` has its own part as it was in `g₀`, or holds it saved. -/
def OwnKept (g₀ g : ThreadGroup ι Path) (t : ι) : Prop :=
  if (g.task t).sec.available then
    (g.task t).sec.seccompMode = (g₀.task t).seccomp ∧
      (g.task t).sec.sigset = (g₀.task t).blocked ∧
      (g.task t).sec.childTid = (g₀.task t).clearChildTid
  else
    (g.task t).seccomp = (g₀.task t).seccomp ∧ (g.task t).blocked = (g₀.task t).blocked ∧
      (g.task t).clearChildTid = (g₀.task t).clearChildTid

theorem OwnKept.step {g₀ g g' : ThreadGroup ι Path} {a : PrivilAct ι} {u : ι} (h : OwnKept g₀ g u)
    (hs : stepOf (privilStep k) g a g') : OwnKept g₀ g' u := by
  rcases privilStep_cases hs with ⟨t, -, hout, rfl⟩ | ⟨t, -, hin, rfl⟩
  · by_cases hu : u = t
    · subst hu
      simp only [OwnKept, ThreadGroup.Inside] at h hout
      rw [if_neg hout] at h
      simpa [OwnKept, nodPrepareSecurity] using h
    · simpa only [OwnKept, ThreadGroup.put_task_of_ne _ _ hu] using h
  · by_cases hu : u = t
    · subst hu
      simp only [OwnKept, ThreadGroup.Inside] at h hin
      rw [if_pos hin] at h
      simpa [OwnKept, nodRestoreSecurity_eq hin] using h
    · simpa only [OwnKept, ThreadGroup.put_task_of_ne _ _ hu] using h

/-- **Every interleaving gives back what is the thread's own**: outside the monitor its
seccomp mode, signal mask and `clear_child_tid` are what they were at the start. -/
theorem own_given_back {g₀ g : ThreadGroup ι Path} {tr : List (ThreadGroup ι Path × PrivilAct ι)}
    (hrun : Run (stepOf (privilStep k)) g₀ tr g) {t : ι} (h₀ : ¬ g₀.Inside t)
    (hout : ¬ g.Inside t) :
    (g.task t).seccomp = (g₀.task t).seccomp ∧ (g.task t).blocked = (g₀.task t).blocked ∧
      (g.task t).clearChildTid = (g₀.task t).clearChildTid := by
  simp only [ThreadGroup.Inside] at h₀ hout
  have hstart : OwnKept g₀ g₀ t := by
    rw [OwnKept, if_neg h₀]
    exact ⟨rfl, rfl, rfl⟩
  have h := hrun.invariant (I := fun g => OwnKept g₀ g t) (C := fun _ _ => True)
    (fun h _ hs => OwnKept.step h hs) hstart (fun _ _ => trivial)
  rwa [OwnKept, if_neg hout] at h

/-! ## The shared part -/

/-- Who found what: whether the shared privileges are raised, and whether each thread
found them raised when it last entered. -/
structure PrivilHistory (ι : Type) where
  raised : Bool
  foundRaised : ι → Bool

/-- Entering raises them; leaving makes them what the thread had found. -/
def PrivilHistory.after (h : PrivilHistory ι) : PrivilAct ι → PrivilHistory ι
  | .prepare t => ⟨true, Function.update h.foundRaised t h.raised⟩
  | .restore t => ⟨h.foundRaised t, h.foundRaised⟩

/-- The history of a run that starts unraised. -/
def privilHistory (acts : List (PrivilAct ι)) : PrivilHistory ι :=
  acts.foldl PrivilHistory.after ⟨false, fun _ => false⟩

/-- Whenever a thread is the last to leave the monitor, it had found the shared privileges
unraised when it entered. -/
def LastOutFoundUnraised (tr : List (ThreadGroup ι Path × PrivilAct ι)) : Prop :=
  ∀ pre g t post, tr = pre ++ (g, PrivilAct.restore t) :: post →
    (∀ u, u ≠ t → ¬ g.Inside u) → (privilHistory (pre.map Prod.snd)).foundRaised t = false

/-- The invariant of such a run. -/
structure SharedKept (sh₀ : SharedPrivil Path) (h : PrivilHistory ι) (g : ThreadGroup ι Path) : Prop where
  unraised : h.raised = false → g.shared = sh₀
  saved : ∀ t, g.Inside t → h.foundRaised t = false →
    (⟨(g.task t).sec.capEffective, (g.task t).sec.capPermitted, (g.task t).sec.rootPath,
      (g.task t).sec.rlim⟩ : SharedPrivil Path) = sh₀
  empty : (∀ t, ¬ g.Inside t) → h.raised = false

theorem SharedKept.step {sh₀ : SharedPrivil Path} {h : PrivilHistory ι} {g g' : ThreadGroup ι Path}
    {a : PrivilAct ι} (hk : SharedKept sh₀ h g) (hs : stepOf (privilStep k) g a g')
    (hlast : ∀ t, a = .restore t → (∀ u, u ≠ t → ¬ g.Inside u) → h.foundRaised t = false) :
    SharedKept sh₀ (h.after a) g' := by
  rcases privilStep_cases hs with ⟨t, rfl, hout, rfl⟩ | ⟨t, rfl, hin, rfl⟩
  · refine ⟨?_, ?_, ?_⟩
    · intro hr
      cases hr
    · intro u hu hfound
      by_cases hut : u = t
      · subst hut
        simp only [PrivilHistory.after, Function.update_self] at hfound
        simpa [nodPrepareSecurity] using hk.unraised hfound
      · simp only [PrivilHistory.after, Function.update_of_ne hut] at hfound
        simp only [ThreadGroup.Inside, ThreadGroup.put_task_of_ne _ _ hut] at hu ⊢
        exact hk.saved u hu hfound
    · intro hnone
      exact absurd (by simp [ThreadGroup.Inside, nodPrepareSecurity]) (hnone t)
  · have hput : ∀ u, u ≠ t → ((g.put t (nodRestoreSecurity g.shared (g.task t))).Inside u ↔
        g.Inside u) := by
      intro u hut
      simp only [ThreadGroup.Inside, ThreadGroup.put_task_of_ne _ _ hut]
    have hgone : ¬ (g.put t (nodRestoreSecurity g.shared (g.task t))).Inside t := by
      simp [ThreadGroup.Inside, nodRestoreSecurity_eq hin]
    refine ⟨?_, ?_, ?_⟩
    · intro hfound
      have := hk.saved t hin hfound
      rw [← this, ThreadGroup.put, nodRestoreSecurity_eq hin]
    · intro u hu hfound
      have hut : u ≠ t := by
        rintro rfl
        exact hgone hu
      simp only [ThreadGroup.put_task_of_ne _ _ hut]
      exact hk.saved u ((hput u hut).mp hu) hfound
    · intro hnone
      exact hlast t rfl fun u hut hu => hnone u ((hput u hut).mpr hu)

theorem privilHistory_snoc (tr : List (ThreadGroup ι Path × PrivilAct ι)) (g : ThreadGroup ι Path)
    (a : PrivilAct ι) :
    privilHistory ((tr ++ [(g, a)]).map Prod.snd) = (privilHistory (tr.map Prod.snd)).after a := by
  simp [privilHistory]

theorem LastOutFoundUnraised.init {tr : List (ThreadGroup ι Path × PrivilAct ι)}
    {x : ThreadGroup ι Path × PrivilAct ι} (h : LastOutFoundUnraised (tr ++ [x])) :
    LastOutFoundUnraised tr := by
  intro pre g t post he
  exact h pre g t (post ++ [x]) (by rw [he]; simp)

theorem SharedKept.of_run {g₀ g : ThreadGroup ι Path} {tr : List (ThreadGroup ι Path × PrivilAct ι)}
    (h₀ : ∀ t, ¬ g₀.Inside t) (hrun : Run (stepOf (privilStep k)) g₀ tr g)
    (hc : LastOutFoundUnraised tr) :
    SharedKept g₀.shared (privilHistory (tr.map Prod.snd)) g := by
  induction hrun with
  | nil => exact ⟨fun _ => rfl, fun t ht => absurd ht (h₀ t), fun _ => rfl⟩
  | snoc _ hstep ih =>
    rw [privilHistory_snoc]
    refine (ih hc.init).step hstep ?_
    rintro t rfl hempty
    exact hc _ _ t [] rfl hempty

/-- **The shared privileges are given back**, in every interleaving in which the last
thread to leave the monitor had found them unraised: whenever no thread is inside, the
capabilities, the root and the limits are what they were at the start. -/
theorem privileges_given_back {g₀ g : ThreadGroup ι Path} {tr : List (ThreadGroup ι Path × PrivilAct ι)}
    (h₀ : ∀ t, ¬ g₀.Inside t) (hrun : Run (stepOf (privilStep k)) g₀ tr g)
    (hc : LastOutFoundUnraised tr) (hout : ∀ t, ¬ g.Inside t) : g.shared = g₀.shared := by
  have h := SharedKept.of_run h₀ hrun hc
  exact h.unraised (h.empty hout)

end Threads

/-! ## Two threads -/

/-- A kernel, with the root at 0. -/
def twoKernel : KernelPrivil Nat := ⟨0x1ffffffffff, 0⟩

/-- Two unprivileged threads in a `chroot`, outside the monitor. -/
def twoThreads : ThreadGroup Bool Nat where
  shared := ⟨0, 0, 1, fun _ => ⟨1024, 4096⟩⟩
  task _ :=
    { seccomp := .disabled, blocked := 0, clearChildTid := 0, ioctlFd := -1
      sec := ⟨false, 0, .disabled, 0, 0, 0, 0, fun _ => ⟨0, 0⟩⟩ }

theorem twoThreads_outside (t : Bool) : ¬ twoThreads.Inside t := by
  simp [ThreadGroup.Inside, twoThreads]

/-- Thread `t` enters. -/
def ThreadGroup.enter (g : ThreadGroup Bool Nat) (t : Bool) : ThreadGroup Bool Nat :=
  g.put t (nodPrepareSecurity twoKernel g.shared (g.task t))

/-- Thread `t` leaves. -/
def ThreadGroup.leave (g : ThreadGroup Bool Nat) (t : Bool) : ThreadGroup Bool Nat :=
  g.put t (nodRestoreSecurity g.shared (g.task t))

/-- The second thread enters and leaves while the first is inside. -/
theorem privileges_given_back_nested :
    ((((twoThreads.enter false).enter true).leave true).leave false).shared = twoThreads.shared := by
  have hrun : Run (stepOf (privilStep twoKernel)) twoThreads
      [(twoThreads, .prepare false), (twoThreads.enter false, .prepare true),
        ((twoThreads.enter false).enter true, .restore true),
        (((twoThreads.enter false).enter true).leave true, .restore false)]
      ((((twoThreads.enter false).enter true).leave true).leave false) :=
    (((Run.nil.snoc rfl).snoc rfl).snoc rfl).snoc rfl
  refine privileges_given_back twoThreads_outside hrun ?_ ?_
  · rintro pre g t post he hempty
    rcases pre with _ | ⟨x, _ | ⟨y, _ | ⟨z, _ | ⟨w, pre⟩⟩⟩⟩
    · cases he
    · cases he
    · cases he
      exact absurd rfl (hempty false (by decide))
    · cases he
      rfl
    · simp at he
  · intro t
    cases t <;> decide

/-- **The shared privileges may stay raised**: the first thread leaves before the second,
which entered while it was inside and puts back what it found, the raised privileges. -/
theorem privileges_stay_raised : ¬ ∀ (g₀ g : ThreadGroup Bool Nat)
    (tr : List (ThreadGroup Bool Nat × PrivilAct Bool)), (∀ t, ¬ g₀.Inside t) →
    Run (stepOf (privilStep twoKernel)) g₀ tr g → (∀ t, ¬ g.Inside t) →
    g.shared = g₀.shared := by
  intro hall
  have hrun : Run (stepOf (privilStep twoKernel)) twoThreads
      [(twoThreads, .prepare false), (twoThreads.enter false, .prepare true),
        ((twoThreads.enter false).enter true, .restore false),
        (((twoThreads.enter false).enter true).leave false, .restore true)]
      ((((twoThreads.enter false).enter true).leave false).leave true) :=
    (((Run.nil.snoc rfl).snoc rfl).snoc rfl).snoc rfl
  have hout : ∀ t, ¬ ((((twoThreads.enter false).enter true).leave false).leave true).Inside t := by
    intro t
    cases t <;> decide
  have hcap := congrArg SharedPrivil.capEffective (hall _ _ _ twoThreads_outside hrun hout)
  exact absurd hcap (by decide)

end NoDrop
