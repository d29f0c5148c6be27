import NoDrop.Privil

/-! # The references to the roots

Entering the monitor changes the root of the thread to that of `init_task`, and leaving it
changes it back.  This module counts the references: `get_fs_root` and `path_get` take one,
`path_put` gives one back, and `nod_set_fs_root` takes one on the new root and gives back
the one that `fs` held on the old.

So the two calls of `nod_set_fs_root` are balanced among themselves.  The two references
that `nod_prepare_security` takes with `get_fs_root`, one for `sec->root_path` and one for
its local `real_path`, are given back nowhere: every visit to the monitor leaves a
reference behind on each of the two roots (`rounds_refs`).
-/
namespace NoDrop

section Code

variable {Path : Type} [DecidableEq Path]

/-- The number of references held on each path. -/
abbrev PathRefs (Path : Type) := Path → Int

/-- `path_get`. -/
def pathGet (path : Path) (refs : PathRefs Path) : PathRefs Path :=
  Function.update refs path (refs path + 1)

/-- `path_put`. -/
def pathPut (path : Path) (refs : PathRefs Path) : PathRefs Path :=
  Function.update refs path (refs path - 1)

/-- `get_fs_root`: the root, with a reference. -/
def getFsRoot (root : Path) (refs : PathRefs Path) : Path × PathRefs Path :=
  (root, pathGet root refs)

/-- `nod_set_fs_root`, on the root of `fs`.  `dentry` tells the paths that have one. -/
def nodSetFsRoot (dentry : Path → Bool) (root path : Path) (refs : PathRefs Path) :
    Path × PathRefs Path :=
  let refs := pathGet path refs
  let oldRoot := root
  (path, if dentry oldRoot then pathPut oldRoot refs else refs)

/-- A thread alone with its privileges, and the references. -/
structure Rooted (Path : Type) where
  refs : PathRefs Path
  shared : SharedPrivil Path
  task : TaskPrivil Path

/-- `nod_prepare_security`, with the references that changing the root takes. -/
def Rooted.prepare (k : KernelPrivil Path) (dentry : Path → Bool) (s : Rooted Path) :
    Rooted Path :=
  let (rootPath, refs) := getFsRoot s.shared.root s.refs
  let (realPath, refs) := getFsRoot k.initRoot refs
  let (root, refs) := nodSetFsRoot dentry s.shared.root realPath refs
  let (shared, task) := nodPrepareSecurity k s.shared s.task
  ⟨refs, { shared with root := root }, { task with sec.rootPath := rootPath }⟩

/-- `nod_restore_security`, with the references that changing the root back takes. -/
def Rooted.restore (dentry : Path → Bool) (s : Rooted Path) : Rooted Path :=
  let (shared, task) := nodRestoreSecurity s.shared s.task
  if s.task.sec.available = false then ⟨s.refs, shared, task⟩
  else
    let (root, refs) := nodSetFsRoot dentry s.shared.root s.task.sec.rootPath s.refs
    ⟨refs, { shared with root := root }, task⟩

/-- One visit to the monitor. -/
def Rooted.round (k : KernelPrivil Path) (dentry : Path → Bool) (s : Rooted Path) : Rooted Path :=
  (s.prepare k dentry).restore dentry

/-- Visits to the monitor, one after another. -/
def Rooted.rounds (k : KernelPrivil Path) (dentry : Path → Bool) : Nat → Rooted Path → Rooted Path
  | 0, s => s
  | n + 1, s => (s.round k dentry).rounds k dentry n

end Code

section Balance

variable {Path : Type} [DecidableEq Path] (k : KernelPrivil Path) (dentry : Path → Bool)

/-- How many more references a round takes on the root `root` than it gives back. -/
def leaked (dentry : Path → Bool) (root : Path) : Int := if dentry root then 1 else 2

omit [DecidableEq Path] in
theorem leaked_pos (root : Path) : 0 < leaked dentry root := by
  unfold leaked
  split <;> decide

theorem pathGet_apply (path q : Path) (refs : PathRefs Path) :
    pathGet path refs q = refs q + if q = path then 1 else 0 := by
  by_cases h : q = path
  · rw [h, pathGet, Function.update_self, if_pos rfl]
  · rw [pathGet, Function.update_of_ne h, if_neg h, Int.add_zero]

theorem pathPut_apply (path q : Path) (refs : PathRefs Path) :
    pathPut path refs q = refs q - if q = path then 1 else 0 := by
  by_cases h : q = path
  · rw [h, pathPut, Function.update_self, if_pos rfl]
  · rw [pathPut, Function.update_of_ne h, if_neg h, Int.sub_zero]

/-- A change of the root moves the reference that `fs` holds. -/
theorem nodSetFsRoot_refs (root path q : Path) (refs : PathRefs Path) :
    (nodSetFsRoot dentry root path refs).2 q = refs q + (if q = path then 1 else 0) -
      (if q = root then 2 - leaked dentry root else 0) := by
  unfold nodSetFsRoot leaked
  dsimp only
  cases dentry root with
  | true => rw [if_pos rfl, if_pos rfl, pathPut_apply, pathGet_apply]; rfl
  | false => rw [if_neg Bool.false_ne_true, if_neg Bool.false_ne_true, pathGet_apply]; simp

/-- **A round puts the root back and leaves references behind**, on the root of the
application and on that of `init_task`. -/
theorem round_spec (s : Rooted Path) :
    (s.round k dentry).shared = s.shared ∧ ∀ q, (s.round k dentry).refs q = s.refs q +
      (if q = s.shared.root then leaked dentry s.shared.root else 0) +
      (if q = k.initRoot then leaked dentry k.initRoot else 0) := by
  have hin : (s.prepare k dentry).task.sec.available = true := rfl
  have hround : s.round k dentry = ⟨(nodSetFsRoot dentry k.initRoot s.shared.root
      (nodSetFsRoot dentry s.shared.root k.initRoot
        (pathGet k.initRoot (pathGet s.shared.root s.refs))).2).2, s.shared,
      (nodRestoreSecurity (s.prepare k dentry).shared (s.prepare k dentry).task).2⟩ := by
    have hnot : ¬(s.prepare k dentry).task.sec.available = false := Bool.noConfusion
    unfold Rooted.round Rooted.restore
    rw [nodRestoreSecurity_eq hin]
    dsimp only
    rw [if_neg hnot]
    rfl
  refine ⟨by rw [hround], fun q => ?_⟩
  rw [hround]
  show (nodSetFsRoot dentry k.initRoot s.shared.root _).2 q = _
  rw [nodSetFsRoot_refs, nodSetFsRoot_refs, pathGet_apply, pathGet_apply]
  by_cases hroot : q = s.shared.root
  · by_cases hinit : q = k.initRoot
    · simp only [if_pos hroot, if_pos hinit]
      omega
    · simp only [if_pos hroot, if_neg hinit]
      omega
  · by_cases hinit : q = k.initRoot
    · simp only [if_neg hroot, if_pos hinit]
      omega
    · simp only [if_neg hroot, if_neg hinit]
      omega

/-- The references after `n` rounds. -/
theorem rounds_refs (n : Nat) (s : Rooted Path) :
    (s.rounds k dentry n).shared = s.shared ∧ ∀ q, (s.rounds k dentry n).refs q = s.refs q +
      n * ((if q = s.shared.root then leaked dentry s.shared.root else 0) +
        (if q = k.initRoot then leaked dentry k.initRoot else 0)) := by
  induction n generalizing s with
  | zero =>
    refine ⟨rfl, fun q => ?_⟩
    show s.refs q = _
    simp
  | succ n ih =>
    obtain ⟨hshared, hrefs⟩ := round_spec k dentry s
    obtain ⟨ihshared, ihrefs⟩ := ih (s.round k dentry)
    refine ⟨ihshared.trans hshared, fun q => (ihrefs q).trans ?_⟩
    rw [hrefs, hshared, Int.natCast_succ, Int.add_mul]
    omega

/-- After the rounds the root is the original one and both roots have the references they
had before. -/
def RootsBalanced (n : Nat) (s : Rooted Path) : Prop :=
  (s.rounds k dentry n).shared.root = s.shared.root ∧
    (s.rounds k dentry n).refs s.shared.root = s.refs s.shared.root ∧
    (s.rounds k dentry n).refs k.initRoot = s.refs k.initRoot

/-- **The references to the roots balance only if the thread never enters the monitor.** -/
theorem rootsBalanced_iff (n : Nat) (s : Rooted Path) : RootsBalanced k dentry n s ↔ n = 0 := by
  constructor
  · rintro ⟨-, -, hinit⟩
    rw [(rounds_refs k dentry n s).2, if_pos rfl] at hinit
    have hpos := leaked_pos dentry k.initRoot
    have happ : 0 ≤ if k.initRoot = s.shared.root then leaked dentry s.shared.root else 0 := by
      split
      · exact Int.le_of_lt (leaked_pos dentry _)
      · exact Int.le_refl 0
    by_contra hn
    have hn : (0 : Int) < n := by omega
    have hleak := Int.mul_pos hn (Int.add_pos_of_nonneg_of_pos happ hpos)
    omega
  · rintro rfl
    exact ⟨rfl, rfl, rfl⟩

end Balance

/-- A thread of an application in a `chroot`, before it enters the monitor; both roots have
one reference. -/
def jailed : Rooted Nat := ⟨fun _ => 1, twoThreads.shared, twoThreads.task false⟩

/-- After one visit to the monitor each root has a reference too many. -/
theorem rootsBalanced_fails_once :
    ¬ ∀ (n : Nat) (s : Rooted Nat), RootsBalanced twoKernel (fun _ => true) n s := by
  intro h
  have hinit := (h 1 jailed).2.2
  exact absurd hinit (by decide)

end NoDrop
