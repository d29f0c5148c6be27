import Mathlib.Data.Finset.Card
import Mathlib.Data.Int.Basic
import NoDrop.Lib.Runs
import NoDrop.ProcTable

/-! # The protection keys

The monitor's memory is protected by a key of the address space (`stack_info.pkey`), of
which an address space has fifteen.  `kmodule/procinfo.c` allocates one for every entry of
the process table, in `nod_init_procinfo`.  From then on the entry is the only place where
the key is kept, and a thread that loads the monitor in status `NOD_SHARE` takes over the
key of the leader of its group, so that several entries may keep the same.

A key is lost when the last entry that keeps it goes without freeing it:

* `nod_proc_release` frees the entry only;
* `nod_init_procinfo` after `execve` frees the key in the new address space;
* `nod_copy_procinfo` overwrites it.

And it is taken from an entry that still keeps it when another one frees it, which
`nod_init_procinfo` does after an `execve` that has failed.  `KeepsKeys` says of each step
that it does none of this; in a run of such steps the keys are sound (`keys_sound`).
-/
namespace NoDrop

open Runs ProcTable

/-! ## Data -/

/-- `struct task_struct`, as far as it matters here: the group and the address space. -/
structure PkeyTask where
  tgid : Nat
  mm : Nat

/-- The keys of an address space: the bitmap of those allocated, and which of them this
module has allocated. -/
structure PkeyMap where
  allocated : Nat → Bool
  byModule : Nat → Bool

/-- The tasks by their pids, the process table and the keys of the address spaces.
`stolen` notes that a key was freed which another entry of the address space had. -/
structure PkeySystem where
  tasks : Nat → Option PkeyTask
  table : List ProcEntry
  maps : Nat → PkeyMap
  stolen : Bool

/-- The key of an entry. -/
def ProcEntry.key (p : ProcEntry) : Int := p.stackInfo.pkey.toInt

/-- A key of an address space is allocated by this module, or freed. -/
def setKey (maps : Nat → PkeyMap) (mm k : Nat) (v : Bool) : Nat → PkeyMap :=
  Function.update maps mm
    ⟨Function.update (maps mm).allocated k v, Function.update (maps mm).byModule k v⟩

/-! ## The code -/

namespace PkeySystem

/-- `arch_max_pkey()`, which depends on the processor. -/
def archMaxPkey (ospke : Bool) : Nat := if ospke then 16 else 1

/-- The keys of an address space become those of `map`. -/
def putMap (s : PkeySystem) (mm : Nat) (map : PkeyMap) : PkeySystem :=
  { s with maps := Function.update s.maps mm map }

/-- A task's new state. -/
def putTask (s : PkeySystem) (pid : Nat) (task : Option PkeyTask) : PkeySystem :=
  { s with tasks := Function.update s.tasks pid task }

/-- A change of an entry. -/
def putEntry (s : PkeySystem) (p : ProcEntry) : PkeySystem :=
  { s with table := putProcInfo s.table p }

/-- `mm_pkey_alloc`: the first key that is not allocated, or -1. -/
def mmPkeyAlloc (ospke : Bool) (s : PkeySystem) (mm : Nat) : Int32 × PkeySystem :=
  match (List.range (archMaxPkey ospke)).find? fun k => !(s.maps mm).allocated k with
  | none => (-1, s)
  | some k =>
    (Int32.ofNat k, { s with maps := setKey s.maps mm k true })

/-- Another entry than that at `addr` has the key. -/
def otherHas (s : PkeySystem) (addr mm : Nat) (key : Int) : Bool :=
  s.table.any fun q => q.addr ≠ addr && q.mm == mm && q.key == key

/-- `mm_pkey_free` on behalf of the entry at `addr`, of a positive key. -/
def mmPkeyFree (s : PkeySystem) (addr mm : Nat) (key : Int) : PkeySystem :=
  if (s.maps mm).allocated key.toNat = false then s
  else
    { s with
      maps := setKey s.maps mm key.toNat false
      stolen := s.stolen || s.otherHas addr mm key }

/-- `nod_init_procinfo`: the old key is freed in the address space the task has now. -/
def nodInitProcinfo (ospke : Bool) (s : PkeySystem) (task : TaskIds) (p : ProcEntry) :
    ProcEntry × PkeySystem :=
  let s := if 0 < p.key then s.mmPkeyFree p.addr task.mm p.key else s
  let (pkey, s) := s.mmPkeyAlloc ospke task.mm
  (ProcTable.nodInitProcinfo task pkey p, s)

/-- `nod_proc_acquire`. -/
def nodProcAcquire (ospke : Bool) (s : PkeySystem) (status : ProcStatus) (task : TaskIds)
    (addr : Option Nat) : PkeySystem :=
  match findProcInfo s.table task.pid, addr with
  | some p, _ => s.putEntry (ProcTable.nodProcSetStatus p status (-1))
  | none, some addr =>
    let (p, s) := s.nodInitProcinfo ospke task (ProcTable.nodAllocProcinfo addr)
    { s with table := insertProcInfo s.table (ProcTable.nodProcSetStatus p status (-1)) }
  | none, none => s

/-- `nod_copy_procinfo`. -/
def nodCopyProcinfo (s : PkeySystem) (tgid : Nat) (p : ProcEntry) : PkeySystem :=
  s.putEntry (ProcTable.nodCopyProcinfo s.table tgid p)

/-- `nod_share_procinfo`. -/
def nodShareProcinfo (s : PkeySystem) (tgid : Nat) (p : ProcEntry) : PkeySystem :=
  match findProcInfo s.table tgid with
  | none => s
  | some parent =>
    if p.stackInfo.pkey ≠ parent.stackInfo.pkey then
      let s := if 0 < p.key then s.mmPkeyFree p.addr p.mm p.key else s
      s.putEntry (ProcTable.nodShareProcinfo s.table tgid p)
    else s

/-- What `nod_load_monitor` does with the entry: it takes over what the status says, and if
the load succeeds the thread comes back from the monitor in status `NOD_OUT`. -/
def nodLoadMonitor (s : PkeySystem) (tgid : Nat) (p : ProcEntry) (ok : Bool) : PkeySystem :=
  let s := match p.status with
    | .nodClone => s.nodCopyProcinfo tgid p
    | .nodShare => s.nodShareProcinfo tgid p
    | _ => s
  match ok, findProcInfo s.table p.pid with
  | true, some p => s.putEntry (ProcTable.nodProcSetStatus p .nodOut (-1))
  | _, _ => s

/-- `syscall_exit_probe` when `execve` returns. -/
def execveProbe (ospke : Bool) (s : PkeySystem) (task : TaskIds) (addr : Option Nat) :
    PkeySystem :=
  match findProcInfo s.table task.pid with
  | none => s.nodProcAcquire ospke .nodOut task addr
  | some p =>
    if p.status.outside then
      let (p, s) := s.nodInitProcinfo ospke task p
      s.putEntry p
    else s

end PkeySystem

/-! ## The tasks -/

/-- What happens.  `last` tells whether the task was the last one with its address space;
`execve` is a call together with its return, and leaves the thread with a new address
space if it succeeds. -/
inductive PkeyAct where
  | clone (pid child : Nat) (thread vm : Bool) (mm : Nat)
  | firstEvent (pid : Nat) (status : ProcStatus) (addr : Option Nat)
  | load (pid : Nat) (ok : Bool)
  | execve (pid mm : Nat) (last : Bool) (addr : Option Nat)
  | execveFails (pid : Nat) (addr : Option Nat)
  | exit (pid : Nat) (last : Bool)

namespace PkeySystem

/-- A function of a task, if there is one. -/
def onTask (s : PkeySystem) (pid : Nat) (f : PkeyTask → PkeySystem) : PkeySystem :=
  match s.tasks pid with
  | some task => f task
  | none => s

/-- An address space is left, and goes with its keys if nobody else has it. -/
def leaveMm (s : PkeySystem) (mm : Nat) (last : Bool) : PkeySystem :=
  if last then s.putMap mm ⟨fun _ => false, fun _ => false⟩ else s

/-- A thread after a successful `execve`, before the probe: it leads its group now, under the
pid of the group, and has a new address space. -/
def replaceMemory (s : PkeySystem) (pid : Nat) (task : PkeyTask) (mm : Nat) (last : Bool) :
    PkeySystem :=
  let s := (s.leaveMm task.mm last).putMap mm ⟨fun k => k == 0, fun _ => false⟩
  (s.putTask pid none).putTask task.tgid (some ⟨task.tgid, mm⟩)

/-- The state after an action. -/
def next (ospke : Bool) (s : PkeySystem) : PkeyAct → PkeySystem
  | .clone pid child thread vm mm =>
    s.onTask pid fun task =>
      -- `arch_dup_pkeys`
      let s := if vm then s else s.putMap mm ⟨(s.maps task.mm).allocated, fun _ => false⟩
      s.putTask child (some ⟨if thread then task.tgid else child, if vm then task.mm else mm⟩)
  | .firstEvent pid status addr =>
    s.onTask pid fun task => s.nodProcAcquire ospke status ⟨pid, task.mm⟩ addr
  | .load pid ok =>
    s.onTask pid fun task =>
      match findProcInfo s.table pid with
      | some p => s.nodLoadMonitor task.tgid p ok
      | none => s
  | .execve pid mm last addr =>
    s.onTask pid fun task =>
      (s.replaceMemory pid task mm last).execveProbe ospke ⟨task.tgid, mm⟩ addr
  | .execveFails pid addr =>
    s.onTask pid fun task => s.execveProbe ospke ⟨pid, task.mm⟩ addr
  | .exit pid last =>
    s.onTask pid fun task =>
      { (s.leaveMm task.mm last).putTask pid none with table := ProcTable.nodProcRelease pid s.table }

/-- Nobody else has the task's address space. -/
def LastUser (s : PkeySystem) (pid : Nat) (task : PkeyTask) : Prop :=
  ∀ q u, s.tasks q = some u → u.mm = task.mm → q = pid

/-- The address is not in use. -/
def Fresh (s : PkeySystem) (addr : Option Nat) : Prop := ∀ p ∈ s.table, addr ≠ some p.addr

/-- What the kernel lets happen.  A pid is not given out while it names a task or a group,
and a thread that replaces its memory has outlived the others of its group. -/
def Allowed (s : PkeySystem) : PkeyAct → Prop
  | .clone pid child thread vm mm =>
    s.tasks pid ≠ none ∧ s.tasks child = none ∧ (thread = true → vm = true) ∧
      ∀ q u, s.tasks q = some u → u.tgid ≠ child ∧ (vm = false → u.mm ≠ mm)
  | .firstEvent pid status addr =>
    s.tasks pid ≠ none ∧ status.outside = true ∧ s.Fresh addr
  | .load pid _ => s.tasks pid ≠ none
  | .execve pid mm last addr =>
    s.Fresh addr ∧ ∃ task, s.tasks pid = some task ∧ (last = true ↔ s.LastUser pid task) ∧
      ∀ q u, s.tasks q = some u → u.mm ≠ mm ∧ (u.tgid = task.tgid → q = pid)
  | .execveFails pid addr => s.tasks pid ≠ none ∧ s.Fresh addr
  | .exit pid last => ∃ task, s.tasks pid = some task ∧ (last = true ↔ s.LastUser pid task)

end PkeySystem

/-- One step. -/
def pkeyStep (ospke : Bool) (s : PkeySystem) (a : PkeyAct) (t : PkeySystem) : Prop :=
  s.Allowed a ∧ t = s.next ospke a

/-! ## What is promised -/

namespace PkeySystem

/-- How many keys of the address space this module has allocated. -/
def keyCount (s : PkeySystem) (mm : Nat) : Nat :=
  ((List.range 16).filter fun k => (s.maps mm).byModule k).length

/-- How many entries the address space has. -/
def entryCount (s : PkeySystem) (mm : Nat) : Nat :=
  (s.table.filter fun p => p.mm = mm).length

/-- The keys are sound: there are not more of them than entries, every entry's key is
allocated in its address space, and none was freed that another entry had. -/
structure KeysSound (s : PkeySystem) : Prop where
  count : ∀ mm, s.keyCount mm ≤ s.entryCount mm
  allocated : ∀ p ∈ s.table, 0 < p.key → (s.maps p.mm).allocated p.key.toNat = true
  unstolen : s.stolen = false

/-- The step neither loses a key nor takes one from an entry that has it. -/
def KeepsKeys (s : PkeySystem) : PkeyAct → Prop
  | .clone .. | .firstEvent .. => True
  | .load pid _ => ∀ task p parent, s.tasks pid = some task → findProcInfo s.table pid = some p →
      findProcInfo s.table task.tgid = some parent → p.key ≠ parent.key →
      (p.status = .nodShare → (0 < p.key → s.otherHas p.addr p.mm p.key = false) ∧
        (0 < parent.key → parent.mm = p.mm)) ∧
      (p.status = .nodClone → (0 < p.key → s.otherHas p.addr p.mm p.key = true) ∧
        (0 < parent.key → parent.mm = p.mm))
  | .execve pid .. => ∀ task p, s.tasks pid = some task → findProcInfo s.table pid = some p →
      0 < p.key → task.tgid = pid ∧
        (s.otherHas p.addr p.mm p.key = true ∨ s.LastUser pid task)
  | .execveFails pid _ => ∀ p, findProcInfo s.table pid = some p → 0 < p.key →
      s.otherHas p.addr p.mm p.key = false
  | .exit pid _ => ∀ task p, s.tasks pid = some task → findProcInfo s.table pid = some p →
      0 < p.key → s.otherHas p.addr p.mm p.key = true ∨ s.LastUser pid task

end PkeySystem

/-! ## Who keeps which key -/

theorem setKey_byModule (maps : Nat → PkeyMap) (mm k m j : Nat) (v : Bool) :
    (setKey maps mm k v m).byModule j = if m = mm ∧ j = k then v else (maps m).byModule j := by
  unfold setKey
  by_cases hm : m = mm
  · subst hm
    by_cases hj : j = k <;> simp [hj]
  · simp [hm]

theorem setKey_allocated (maps : Nat → PkeyMap) (mm k m j : Nat) (v : Bool) :
    (setKey maps mm k v m).allocated j = if m = mm ∧ j = k then v else (maps m).allocated j := by
  unfold setKey
  by_cases hm : m = mm
  · subst hm
    by_cases hj : j = k <;> simp [hj]
  · simp [hm]

/-- The keys that this module has allocated are those that the entries `E` have. -/
structure KeysOf (E : ProcEntry → Prop) (maps : Nat → PkeyMap) : Prop where
  held : ∀ mm k, (maps mm).byModule k = true → 0 < k ∧ ∃ p, E p ∧ p.mm = mm ∧ p.key = k
  has : ∀ p, E p → 0 < p.key → (maps p.mm).byModule p.key.toNat = true
  sub : ∀ mm k, (maps mm).byModule k = true → (maps mm).allocated k = true

namespace KeysOf

variable {E E' : ProcEntry → Prop} {maps : Nat → PkeyMap} {p : ProcEntry}

theorem congr (h : KeysOf E maps) (hE : ∀ q, E' q ↔ E q) : KeysOf E' maps where
  held mm k hk := by
    obtain ⟨hpos, q, hq, hqk⟩ := h.held mm k hk
    exact ⟨hpos, q, (hE q).mpr hq, hqk⟩
  has q hq := h.has q ((hE q).mp hq)
  sub := h.sub

/-- An entry goes whose key, if it has one, another entry has too. -/
theorem drop (h : KeysOf E maps) (huniq : ∀ q, E q → q.addr = p.addr → q = p)
    (hother : 0 < p.key → ∃ q, E q ∧ q.addr ≠ p.addr ∧ q.mm = p.mm ∧ q.key = p.key) :
    KeysOf (fun q => E q ∧ q.addr ≠ p.addr) maps where
  held mm k hk := by
    obtain ⟨hpos, q, hq, hmm, hkey⟩ := h.held mm k hk
    refine ⟨hpos, ?_⟩
    by_cases hqp : q.addr = p.addr
    · obtain rfl := huniq q hq hqp
      obtain ⟨r, hr, hne, hrmm, hrkey⟩ := hother (by omega)
      exact ⟨r, ⟨hr, hne⟩, hrmm.trans hmm, hrkey.trans hkey⟩
    · exact ⟨q, ⟨hq, hqp⟩, hmm, hkey⟩
  has q hq := h.has q hq.1
  sub := h.sub

/-- The entries change, and those with a key stay. -/
theorem add (h : KeysOf E maps) (hp : 0 < p.key → (maps p.mm).byModule p.key.toNat = true) :
    KeysOf (fun q => q = p ∨ E q) maps where
  held mm k hk := by
    obtain ⟨hpos, q, hq, hqk⟩ := h.held mm k hk
    exact ⟨hpos, q, .inr hq, hqk⟩
  has q hq := by
    rcases hq with rfl | hq
    · exact hp
    · exact h.has q hq
  sub := h.sub

/-- An address space gets new keys, and the entries that had some in it are gone. -/
theorem replace (h : KeysOf E maps) {mm : Nat} (allocated : Nat → Bool) (hsub : ∀ q, E' q → E q)
    (hstay : ∀ q, E q → q.mm ≠ mm → 0 < q.key → E' q) (hnone : ∀ q, E' q → q.mm = mm → ¬0 < q.key) :
    KeysOf E' (Function.update maps mm ⟨allocated, fun _ => false⟩) where
  held m k hk := by
    by_cases hm : m = mm
    · rw [hm, Function.update_self] at hk
      cases hk
    · rw [Function.update_of_ne hm] at hk
      obtain ⟨hpos, q, hq, hqm, hqk⟩ := h.held m k hk
      exact ⟨hpos, q, hstay q hq (hqm ▸ hm) (by omega), hqm, hqk⟩
  has q hq hpos := by
    have hm : q.mm ≠ mm := fun hm => hnone q hq hm hpos
    rw [Function.update_of_ne hm]
    exact h.has q (hsub q hq) hpos
  sub m k hk := by
    by_cases hm : m = mm
    · rw [hm, Function.update_self] at hk
      cases hk
    · rw [Function.update_of_ne hm] at hk ⊢
      exact h.sub m k hk

/-- A key is allocated for a new entry. -/
theorem alloc (h : KeysOf E maps) {k : Nat} (hk : 0 < k) (hp : p.key = k) :
    KeysOf (fun q => q = p ∨ E q) (setKey maps p.mm k true) where
  held m j hj := by
    rw [setKey_byModule] at hj
    split at hj
    · rename_i hjk
      exact ⟨hjk.2 ▸ hk, p, .inl rfl, hjk.1.symm, by rw [hp, hjk.2]⟩
    · obtain ⟨hpos, q, hq, hqk⟩ := h.held m j hj
      exact ⟨hpos, q, .inr hq, hqk⟩
  has q hq hpos := by
    rw [setKey_byModule]
    split
    · rfl
    · rename_i hne
      rcases hq with rfl | hq
      · exact absurd ⟨rfl, by omega⟩ hne
      · exact h.has q hq hpos
  sub m j hj := by
    rw [setKey_byModule] at hj
    rw [setKey_allocated]
    split at hj
    · rename_i hjk
      rw [if_pos hjk]
    · rename_i hne
      rw [if_neg hne]
      exact h.sub m j hj

/-- An entry goes and its key is freed, which no other entry has. -/
theorem free (h : KeysOf E maps) (huniq : ∀ q, E q → q.addr = p.addr → q = p)
    (hpos : 0 < p.key) (hother : ∀ q, E q → q.mm = p.mm → q.key = p.key → q.addr = p.addr) :
    KeysOf (fun q => E q ∧ q.addr ≠ p.addr) (setKey maps p.mm p.key.toNat false) where
  held m j hj := by
    rw [setKey_byModule] at hj
    split at hj
    · cases hj
    · rename_i hne
      obtain ⟨hjpos, q, hq, hmm, hkey⟩ := h.held m j hj
      refine ⟨hjpos, q, ⟨hq, fun haddr => hne ?_⟩, hmm, hkey⟩
      obtain rfl := huniq q hq haddr
      exact ⟨hmm.symm, by omega⟩
  has q hq hqpos := by
    rw [setKey_byModule]
    split
    · rename_i he
      exact absurd (hother q hq.1 he.1 (by omega)) hq.2
    · exact h.has q hq.1 hqpos
  sub m j hj := by
    rw [setKey_byModule] at hj
    rw [setKey_allocated]
    split at hj
    · cases hj
    · rename_i hne
      rw [if_neg hne]
      exact h.sub m j hj

end KeysOf

/-! ## The invariant -/

namespace PkeySystem

variable {s t u : PkeySystem} {p p' : ProcEntry} {ospke : Bool}

/-- The invariant of a run that keeps the keys.  An entry with a key is that of a living
task, and records its address space. -/
structure KeysInv (s : PkeySystem) : Prop where
  keyed : Keyed s.table
  outside : ∀ p ∈ s.table, p.status.outside = true
  owned : ∀ p ∈ s.table, 0 < p.key → ∃ task, s.tasks p.pid = some task ∧ task.mm = p.mm
  group : ∀ a b x y, s.tasks a = some x → s.tasks b = some y → x.tgid = y.tgid → x.mm = y.mm
  leader : ∀ a x l, s.tasks a = some x → s.tasks x.tgid = some l → l.tgid = x.tgid
  zero : ∀ a x, s.tasks a = some x → (s.maps x.mm).allocated 0 = true
  keys : KeysOf (fun p => p ∈ s.table) s.maps
  unstolen : s.stolen = false

/-- Distinct keys are kept by distinct entries. -/
theorem KeysInv.sound (I : KeysInv s) : s.KeysSound where
  count mm := by
    have hnodup : (((List.range 16).filter fun k => (s.maps mm).byModule k).map
        (Int.ofNat)).Nodup :=
      (List.nodup_range.filter _).map Int.ofNat_injective
    have hsub : ((List.range 16).filter fun k => (s.maps mm).byModule k).map Int.ofNat ⊆
        (s.table.filter fun p => p.mm = mm).map ProcEntry.key := by
      intro x hx
      obtain ⟨k, hk, rfl⟩ := List.mem_map.mp hx
      obtain ⟨-, p, hp, hmm, hkey⟩ := I.keys.held mm k (List.mem_filter.mp hk).2
      exact List.mem_map.mpr ⟨p, List.mem_filter.mpr ⟨hp, decide_eq_true hmm⟩, hkey⟩
    have hle := (List.subperm_of_subset hnodup hsub).length_le
    rwa [List.length_map, List.length_map] at hle
  allocated p hp hpos := I.keys.sub _ _ (I.keys.has p hp hpos)
  unstolen := I.unstolen

theorem otherHas_iff {addr mm : Nat} {key : Int} : s.otherHas addr mm key = true ↔
    ∃ q ∈ s.table, q.addr ≠ addr ∧ q.mm = mm ∧ q.key = key := by
  simp [otherHas, and_assoc]

/-- What `mm_pkey_alloc` does for an entry that gets the key. -/
theorem mmPkeyAlloc_spec {E : ProcEntry → Prop} (h : KeysOf E s.maps) {mm : Nat}
    (hz : (s.maps mm).allocated 0 = true) (hmm : p.mm = mm)
    (hp : p.stackInfo.pkey = (s.mmPkeyAlloc ospke mm).1) :
    KeysOf (fun q => q = p ∨ E q) (s.mmPkeyAlloc ospke mm).2.maps ∧
      (s.mmPkeyAlloc ospke mm).2 = { s with maps := (s.mmPkeyAlloc ospke mm).2.maps } ∧
      ∀ m, (s.maps m).allocated 0 = true →
        ((s.mmPkeyAlloc ospke mm).2.maps m).allocated 0 = true := by
  subst hmm
  unfold mmPkeyAlloc at hp ⊢
  cases hf : (List.range (archMaxPkey ospke)).find? fun k => !(s.maps p.mm).allocated k with
  | none =>
    simp only [hf] at hp ⊢
    refine ⟨h.add fun hpos => ?_, trivial, fun mm hmm => hmm⟩
    rw [ProcEntry.key, hp] at hpos
    exact absurd hpos (by decide)
  | some k =>
    simp only [hf] at hp ⊢
    have hfree : (s.maps p.mm).allocated k = false := by simpa using List.find?_some hf
    have hk : 0 < k := by
      refine Nat.pos_of_ne_zero ?_
      rintro rfl
      rw [hz] at hfree
      cases hfree
    have hlt : k < 16 := by
      have hmem := List.mem_range.mp (List.mem_of_find?_eq_some hf)
      unfold archMaxPkey at hmem
      split at hmem <;> omega
    have hkey : p.key = k := by
      have hall : ∀ k < 16, (Int32.ofNat k).toInt = k := by decide
      rw [ProcEntry.key, hp, hall k hlt]
    refine ⟨h.alloc hk hkey, trivial, fun mm hmm => ?_⟩
    rw [setKey_allocated, if_neg (fun h => hk.ne h.2)]
    exact hmm

/-! ## Entries go and come -/

/-- The system without an entry. -/
def without (s : PkeySystem) (p : ProcEntry) : PkeySystem :=
  { s with table := removeProcInfo s.table p }

theorem KeysInv.shrink (I : KeysInv s) (hp : p ∈ s.table)
    (hother : 0 < p.key → s.otherHas p.addr p.mm p.key = true) : KeysInv (s.without p) where
  keyed := I.keyed.remove p
  outside q hq := I.outside q (mem_remove.mp hq).1
  owned q hq := I.owned q (mem_remove.mp hq).1
  group := I.group
  leader := I.leader
  zero := I.zero
  keys := by
    refine (I.keys.drop (fun q hq ha => I.keyed.eq_of_addr hq hp ha) ?_).congr fun q => mem_remove
    exact fun hpos => otherHas_iff.mp (hother hpos)
  unstolen := I.unstolen

/-- An entry goes after its key, which no other entry has, has been freed. -/
theorem KeysInv.shrinkFree (I : KeysInv s) (hp : p ∈ s.table) (hpos : 0 < p.key)
    (hother : s.otherHas p.addr p.mm p.key = false) :
    KeysInv ((s.mmPkeyFree p.addr p.mm p.key).without p) := by
  have hbit : ¬(s.maps p.mm).allocated p.key.toNat = false := by
    rw [I.keys.sub _ _ (I.keys.has p hp hpos)]
    exact Bool.noConfusion
  have hfree : s.mmPkeyFree p.addr p.mm p.key =
      { s with maps := setKey s.maps p.mm p.key.toNat false, stolen := false } := by
    rw [mmPkeyFree, if_neg hbit, hother, I.unstolen]
    rfl
  rw [hfree]
  refine ⟨I.keyed.remove p, ?_, ?_, I.group, I.leader, ?_, ?_, rfl⟩
  · exact fun q hq => I.outside q (mem_remove.mp hq).1
  · exact fun q hq => I.owned q (mem_remove.mp hq).1
  · intro a x hx
    show (setKey s.maps p.mm p.key.toNat false x.mm).allocated 0 = true
    rw [setKey_allocated, if_neg (fun h => absurd h.2 (by omega))]
    exact I.zero a x hx
  · refine (I.keys.free (fun q hq ha => I.keyed.eq_of_addr hq hp ha) hpos ?_).congr
      fun q => mem_remove
    intro q hq hmm hkey
    by_contra hne
    have htrue := otherHas_iff.mpr ⟨q, hq, hne, hmm, hkey⟩
    rw [hother] at htrue
    cases htrue

/-- An entry comes. -/
theorem KeysInv.grow (I : KeysInv u) (hmem : ∀ q, q ∈ t.table ↔ q = p' ∨ q ∈ u.table)
    (hkeyed : Keyed t.table) (hout : p'.status.outside = true)
    (hown : 0 < p'.key → ∃ task, u.tasks p'.pid = some task ∧ task.mm = p'.mm)
    (htasks : t.tasks = u.tasks)
    (hzero : ∀ mm, (u.maps mm).allocated 0 = true → (t.maps mm).allocated 0 = true)
    (hkeys : KeysOf (fun q => q = p' ∨ q ∈ u.table) t.maps) (hstolen : t.stolen = false) :
    KeysInv t where
  keyed := hkeyed
  outside q hq := by
    rcases (hmem q).mp hq with rfl | hq
    · exact hout
    · exact I.outside q hq
  owned q hq hpos := by
    rw [htasks]
    rcases (hmem q).mp hq with rfl | hq
    · exact hown hpos
    · exact I.owned q hq hpos
  group := by
    rw [htasks]
    exact I.group
  leader := by
    rw [htasks]
    exact I.leader
  zero a x hx := hzero _ (I.zero a x (htasks ▸ hx))
  keys := hkeys.congr hmem
  unstolen := hstolen

/-- An entry is replaced, once it is gone, by one that has a key of another entry or none. -/
theorem KeysInv.putEntry (I : KeysInv (u.without p)) (hk : Keyed u.table) (hp : p ∈ u.table)
    (ha : p'.addr = p.addr) (hpid : p'.pid = p.pid) (hout : p'.status.outside = true)
    (hown : 0 < p'.key → ∃ task, u.tasks p'.pid = some task ∧ task.mm = p'.mm)
    (hhas : 0 < p'.key → (u.maps p'.mm).byModule p'.key.toNat = true) : KeysInv (u.putEntry p') := by
  refine I.grow ?_ (hk.put hp ha.symm hpid.symm) hout hown rfl (fun _ h => h) (I.keys.add hhas)
    I.unstolen
  intro q
  refine mem_put.trans (or_congr ⟨fun h => h.1, fun h => ⟨h, p, hp, ha.symm⟩⟩ ?_)
  rw [ha]
  exact mem_remove.symm

/-- An entry changes in other fields than those that matter here. -/
theorem KeysInv.rewrite (I : KeysInv s) (hp : p ∈ s.table) (ha : p'.addr = p.addr)
    (hpid : p'.pid = p.pid) (hmm : p'.mm = p.mm) (hkey : p'.key = p.key)
    (hout : p'.status.outside = true) : KeysInv (s.putEntry p') := by
  have hmem : ∀ q, q ∈ putProcInfo s.table p' ↔ q = p' ∨ q ∈ s.table ∧ q.addr ≠ p.addr := by
    intro q
    refine mem_put.trans (or_congr ⟨fun h => h.1, fun h => ⟨h, p, hp, ha.symm⟩⟩ ?_)
    rw [ha]
  refine ⟨I.keyed.put hp ha.symm hpid.symm, ?_, ?_, I.group, I.leader, I.zero, ?_, I.unstolen⟩
  · intro q hq
    rcases (hmem q).mp hq with rfl | ⟨hq, -⟩
    · exact hout
    · exact I.outside q hq
  · intro q hq
    rcases (hmem q).mp hq with rfl | ⟨hq, -⟩
    · rw [hkey, hpid, hmm]
      exact I.owned p hp
    · exact I.owned q hq
  · refine ⟨?_, ?_, I.keys.sub⟩
    · intro mm k hk
      obtain ⟨hpos, q, hq, hqmm, hqk⟩ := I.keys.held mm k hk
      by_cases hqp : q.addr = p.addr
      · obtain rfl := I.keyed.eq_of_addr hq hp hqp
        exact ⟨hpos, p', (hmem p').mpr (.inl rfl), hmm.trans hqmm, hkey.trans hqk⟩
      · exact ⟨hpos, q, (hmem q).mpr (.inr ⟨hq, hqp⟩), hqmm, hqk⟩
    · intro q hq
      rcases (hmem q).mp hq with rfl | ⟨hq, -⟩
      · rw [hkey, hmm]
        exact I.keys.has p hp
      · exact I.keys.has q hq

/-! ## The steps -/

/-- The entry gets a new key, once it is gone with its old one. -/
theorem KeysInv.init (I : KeysInv (u.without p)) (hk : Keyed u.table) (hp : p ∈ u.table)
    (hout : p.status.outside = true) {task : TaskIds} {x : PkeyTask} (hpid : task.pid = p.pid)
    (htask : u.tasks task.pid = some x) (hmm : x.mm = task.mm) :
    KeysInv ((u.mmPkeyAlloc ospke task.mm).2.putEntry
      (ProcTable.nodInitProcinfo task (u.mmPkeyAlloc ospke task.mm).1 p)) := by
  have hz : (u.maps task.mm).allocated 0 = true := hmm ▸ I.zero _ x htask
  have hp' : (ProcTable.nodInitProcinfo task (u.mmPkeyAlloc ospke task.mm).1 p).mm = task.mm := rfl
  have hgone : KeysOf (fun q => q ∈ (u.without p).table) u.maps := I.keys
  obtain ⟨hkeys, hsame, hzero⟩ := mmPkeyAlloc_spec hgone hz hp' rfl
  have hout' : (ProcTable.nodInitProcinfo task (u.mmPkeyAlloc ospke task.mm).1 p).status.outside =
      true := hout
  rw [hsame]
  refine I.grow ?_ (hk.put hp rfl hpid.symm) hout' (fun _ => ⟨x, htask, hmm⟩) rfl hzero hkeys
    I.unstolen
  intro q
  exact mem_put.trans (or_congr ⟨fun h => h.1, fun h => ⟨h, p, hp, rfl⟩⟩ mem_remove.symm)

/-- `nod_proc_acquire`. -/
theorem KeysInv.acquire (I : KeysInv s) {status : ProcStatus} (hout : status.outside = true)
    {task : TaskIds} {x : PkeyTask} (htask : s.tasks task.pid = some x) (hmm : x.mm = task.mm)
    {addr : Option Nat} (hfresh : s.Fresh addr) :
    KeysInv (s.nodProcAcquire ospke status task addr) := by
  unfold nodProcAcquire
  cases hf : findProcInfo s.table task.pid with
  | some p => exact I.rewrite (find_mem hf).1 rfl rfl rfl rfl hout
  | none =>
    cases addr with
    | none => exact I
    | some addr =>
      have hz : (s.maps task.mm).allocated 0 = true := hmm ▸ I.zero _ x htask
      have hp' : (ProcTable.nodProcSetStatus (ProcTable.nodInitProcinfo task
        (s.mmPkeyAlloc ospke task.mm).1 (ProcTable.nodAllocProcinfo addr)) status (-1)).mm =
          task.mm := rfl
      obtain ⟨hkeys, hsame, hzero⟩ := mmPkeyAlloc_spec I.keys hz hp' rfl
      have hkey : ¬0 < (ProcTable.nodAllocProcinfo addr).key := by
        show ¬(0 : Int) < (0 : Int32).toInt
        decide
      simp only [nodInitProcinfo, if_neg hkey]
      rw [hsame]
      refine I.grow (fun q => mem_insert) (I.keyed.insert hf ?_) hout
        (fun _ => ⟨x, htask, hmm⟩) rfl hzero hkeys I.unstolen
      intro q hq ha
      exact hfresh q hq (congrArg some ha.symm)

/-- The probe after an `execve` that has left the task what it was. -/
theorem KeysInv.execveProbe (I : KeysInv s) {task : TaskIds} {x : PkeyTask}
    (htask : s.tasks task.pid = some x) (hmm : x.mm = task.mm) {addr : Option Nat}
    (hfresh : s.Fresh addr)
    (hkeep : ∀ p, findProcInfo s.table task.pid = some p → 0 < p.key →
      s.otherHas p.addr p.mm p.key = false) :
    KeysInv (s.execveProbe ospke task addr) := by
  unfold PkeySystem.execveProbe
  cases hf : findProcInfo s.table task.pid with
  | none => exact I.acquire (by decide) htask hmm hfresh
  | some p =>
    obtain ⟨hp, hpid⟩ := find_mem hf
    have hout := I.outside p hp
    simp only [if_pos hout, nodInitProcinfo]
    by_cases hpos : 0 < p.key
    · have hpmm : task.mm = p.mm := by
        obtain ⟨y, hy, hymm⟩ := I.owned p hp hpos
        rw [hpid, htask] at hy
        rw [← hmm, Option.some.inj hy, hymm]
      rw [if_pos hpos, hpmm]
      have I' := I.shrinkFree hp hpos (hkeep p hf hpos)
      have hsame : (s.mmPkeyFree p.addr p.mm p.key).table = s.table ∧
          (s.mmPkeyFree p.addr p.mm p.key).tasks = s.tasks := by
        unfold mmPkeyFree
        split <;> exact ⟨rfl, rfl⟩
      rw [← hpmm] at I' hsame ⊢
      refine I'.init ?_ ?_ hout hpid.symm ?_ hmm
      · rw [hsame.1]
        exact I.keyed
      · rw [hsame.1]
        exact hp
      · rw [hsame.2]
        exact htask
    · rw [if_neg hpos]
      exact (I.shrink hp (fun h => absurd h hpos)).init I.keyed hp hout hpid.symm htask hmm

/-- An entry takes over the key of another one in the same address space, once it is gone
with its own. -/
theorem KeysInv.takeOver (I : KeysInv s) {x : PkeyTask} {parent : ProcEntry}
    (I' : KeysInv (u.without p)) (htable : u.table = s.table) (htasks : u.tasks = s.tasks)
    (hp : p ∈ s.table) (hx : s.tasks p.pid = some x) (hparent : parent ∈ s.table)
    (hpid : parent.pid = x.tgid) (hne : p.key ≠ parent.key) (hmm : 0 < parent.key → parent.mm = p.mm)
    (ha : p'.addr = p.addr) (hpid' : p'.pid = p.pid) (hmm' : p'.mm = p.mm)
    (hkey : p'.key = parent.key) (hout : p'.status.outside = true) : KeysInv (u.putEntry p') := by
  have haddr : parent.addr ≠ p.addr := fun he =>
    hne (congrArg ProcEntry.key (I.keyed.eq_of_addr hparent hp he)).symm
  refine I'.putEntry (htable ▸ I.keyed) (htable ▸ hp) ha hpid' hout ?_ ?_
  · rw [hkey, hpid', hmm', htasks]
    intro hpos
    obtain ⟨l, hl, hlmm⟩ := I.owned parent hparent hpos
    rw [hpid] at hl
    refine ⟨x, hx, ?_⟩
    rw [I.group _ _ x l hx hl (I.leader _ x l hx hl).symm, hlmm, hmm hpos]
  · rw [hkey, hmm']
    intro hpos
    have hmem : parent ∈ (u.without p).table := mem_remove.mpr ⟨htable ▸ hparent, haddr⟩
    rw [← hmm hpos]
    exact I'.keys.has parent hmem hpos

/-- The state after the switch on the status in `nod_load_monitor`. -/
theorem KeysInv.switch (I : KeysInv s) {pid : Nat} {ok : Bool} {x : PkeyTask}
    (hx : s.tasks pid = some x) (hf : findProcInfo s.table pid = some p)
    (hkeep : s.KeepsKeys (.load pid ok)) :
    KeysInv (match p.status with
      | .nodClone => s.nodCopyProcinfo x.tgid p
      | .nodShare => s.nodShareProcinfo x.tgid p
      | _ => s) := by
  obtain ⟨hp, hpid⟩ := find_mem hf
  have hout := I.outside p hp
  have hxp : s.tasks p.pid = some x := hpid ▸ hx
  split
  · rename_i hstatus
    unfold nodCopyProcinfo ProcTable.nodCopyProcinfo
    cases hparent : findProcInfo s.table x.tgid with
    | none => exact I.rewrite hp rfl rfl rfl rfl hout
    | some parent =>
      obtain ⟨hmem, hppid⟩ := find_mem hparent
      by_cases hkey : p.key = parent.key
      · exact I.rewrite hp rfl rfl rfl hkey.symm hout
      · obtain ⟨hother, hmm⟩ := (hkeep x p parent hx hf hparent hkey).2 hstatus
        exact I.takeOver (I.shrink hp hother) rfl rfl hp hxp hmem hppid hkey hmm rfl rfl rfl rfl hout
  · rename_i hstatus
    unfold nodShareProcinfo
    cases hparent : findProcInfo s.table x.tgid with
    | none => exact I
    | some parent =>
      obtain ⟨hmem, hppid⟩ := find_mem hparent
      dsimp only
      split
      · rename_i hpkey
        have hkey : p.key ≠ parent.key := fun he => hpkey (Int32.toInt_inj.mp he)
        obtain ⟨hother, hmm⟩ := (hkeep x p parent hx hf hparent hkey).1 hstatus
        have hnew : ProcTable.nodShareProcinfo s.table x.tgid p =
            { p with stackInfo := { p.stackInfo with pkey := parent.stackInfo.pkey } } := by
          rw [ProcTable.nodShareProcinfo, hparent]
        split
        · rename_i hpos
          have hsame : (s.mmPkeyFree p.addr p.mm p.key).table = s.table ∧
              (s.mmPkeyFree p.addr p.mm p.key).tasks = s.tasks := by
            unfold mmPkeyFree
            split <;> exact ⟨rfl, rfl⟩
          rw [hsame.1, hnew]
          exact I.takeOver (I.shrinkFree hp hpos (hother hpos)) hsame.1 hsame.2 hp hxp hmem hppid
            hkey hmm rfl rfl rfl rfl hout
        · rename_i hpos
          rw [hnew]
          exact I.takeOver (I.shrink hp fun h => absurd h hpos) rfl rfl hp hxp hmem hppid
            hkey hmm rfl rfl rfl rfl hout
      · exact I
  · exact I

theorem KeysInv.load (I : KeysInv s) {pid : Nat} {ok : Bool} {x : PkeyTask}
    (hx : s.tasks pid = some x) (hf : findProcInfo s.table pid = some p)
    (hkeep : s.KeepsKeys (.load pid ok)) : KeysInv (s.nodLoadMonitor x.tgid p ok) := by
  have I' := I.switch hx hf hkeep
  unfold nodLoadMonitor
  dsimp only
  split
  · rename_i hf'
    have hout : ProcStatus.nodOut.outside = true := rfl
    exact I'.rewrite (find_mem hf').1 rfl rfl rfl rfl hout
  · exact I'

/-- A task leaves its address space.  Of the entries `tb` remain, which are all that have
a key but the task's own; unless the address space goes, another entry has the task's
key. -/
theorem KeysInv.leave (I : KeysInv s) {pid : Nat} {x : PkeyTask} (hx : s.tasks pid = some x)
    {last : Bool} (hlast : last = true ↔ s.LastUser pid x) {tb : List ProcEntry}
    (hsub : ∀ q ∈ tb, q ∈ s.table) (hgone : ∀ q ∈ tb, 0 < q.key → q.pid ≠ pid)
    (hstay : ∀ q ∈ s.table, 0 < q.key → q.pid ≠ pid → q ∈ tb)
    (hloss : last = false → ∀ q ∈ s.table, 0 < q.key → q.pid = pid →
      s.otherHas q.addr q.mm q.key = true) :
    KeysOf (fun q => q ∈ tb) (s.leaveMm x.mm last).maps := by
  cases last with
  | true =>
    refine I.keys.replace _ hsub ?_ ?_
    · intro q hq hmm hpos
      refine hstay q hq hpos fun hpid => hmm ?_
      obtain ⟨y, hy, hymm⟩ := I.owned q hq hpos
      rw [hpid, hx] at hy
      rw [← hymm, Option.some.inj hy]
    · intro q hq hmm hpos
      obtain ⟨y, hy, hymm⟩ := I.owned q (hsub q hq) hpos
      exact hgone q hq hpos (hlast.mp rfl q.pid y hy (hymm.trans hmm))
  | false =>
    refine ⟨?_, fun q hq => I.keys.has q (hsub q hq), I.keys.sub⟩
    intro mm k hk
    obtain ⟨hpos, q, hq, hmm, hkey⟩ := I.keys.held mm k hk
    have hqpos : 0 < q.key := by omega
    by_cases hpid : q.pid = pid
    · obtain ⟨r, hr, hne, hrmm, hrkey⟩ := otherHas_iff.mp (hloss rfl q hq hqpos hpid)
      have hrpid : r.pid ≠ pid := fun h =>
        hne (congrArg ProcEntry.addr (I.keyed.eq_of_pid hr hq (h.trans hpid.symm)))
      exact ⟨hpos, r, hstay r hr (by omega) hrpid, hrmm.trans hmm, hrkey.trans hkey⟩
    · exact ⟨hpos, q, hstay q hq hqpos hpid, hmm, hkey⟩

/-- The map of an address space that others have is not touched when a task leaves its own. -/
theorem leaveMm_zero (I : KeysInv s) {pid q : Nat} {x y : PkeyTask} {last : Bool}
    (hlast : last = true ↔ s.LastUser pid x) (hy : s.tasks q = some y) (hne : q ≠ pid) :
    ((s.leaveMm x.mm last).maps y.mm).allocated 0 = true := by
  have hz := I.zero q y hy
  cases last with
  | false => exact hz
  | true =>
    have hmm : y.mm ≠ x.mm := fun h => hne (hlast.mp rfl q y hy h)
    show (Function.update s.maps x.mm _ y.mm).allocated 0 = true
    rwa [Function.update_of_ne hmm]

theorem mem_release {table : List ProcEntry} (hk : Keyed table) {pid : Nat} {q : ProcEntry} :
    q ∈ ProcTable.nodProcRelease pid table ↔ q ∈ table ∧ q.pid ≠ pid := by
  unfold ProcTable.nodProcRelease
  cases hf : findProcInfo table pid with
  | none => exact ⟨fun h => ⟨h, find_none hf q h⟩, fun h => h.1⟩
  | some p =>
    obtain ⟨hp, hpid⟩ := find_mem hf
    refine mem_remove.trans (and_congr_right fun hq => not_congr ⟨?_, ?_⟩)
    · intro ha
      rw [hk.eq_of_addr hq hp ha, hpid]
    · intro h
      rw [hk.eq_of_pid hq hp (h.trans hpid.symm)]

theorem KeysInv.exit (I : KeysInv s) {pid : Nat} {x : PkeyTask} (hx : s.tasks pid = some x)
    {last : Bool} (hlast : last = true ↔ s.LastUser pid x)
    (hkeep : s.KeepsKeys (.exit pid last)) :
    KeysInv { (s.leaveMm x.mm last).putTask pid none with
      table := ProcTable.nodProcRelease pid s.table } := by
  have hmem : ∀ q, q ∈ ProcTable.nodProcRelease pid s.table ↔ q ∈ s.table ∧ q.pid ≠ pid :=
    fun q => mem_release I.keyed
  have htask : ∀ a y, Function.update s.tasks pid none a = some y → a ≠ pid ∧ s.tasks a = some y := by
    intro a y ha
    by_cases hap : a = pid
    · rw [hap, Function.update_self] at ha
      cases ha
    · rw [Function.update_of_ne hap] at ha
      exact ⟨hap, ha⟩
  have htasks : (s.leaveMm x.mm last).tasks = s.tasks := by cases last <;> rfl
  refine ⟨?_, ?_, ?_, ?_, ?_, ?_, ?_, ?_⟩
  · show Keyed (ProcTable.nodProcRelease pid s.table)
    unfold ProcTable.nodProcRelease
    split
    · exact I.keyed.remove _
    · exact I.keyed
  · exact fun q hq => I.outside q ((hmem q).mp hq).1
  · intro q hq hpos
    obtain ⟨hq, hqpid⟩ := (hmem q).mp hq
    show ∃ y, Function.update (s.leaveMm x.mm last).tasks pid none q.pid = some y ∧ _
    rw [htasks, Function.update_of_ne hqpid]
    exact I.owned q hq hpos
  · intro a b y z hy hz
    simp only [putTask, htasks] at hy hz
    exact I.group a b y z (htask a y hy).2 (htask b z hz).2
  · intro a y l hy hl
    simp only [putTask, htasks] at hy hl
    exact I.leader a y l (htask a y hy).2 (htask _ l hl).2
  · intro a y hy
    simp only [putTask, htasks] at hy
    exact leaveMm_zero I hlast (htask a y hy).2 (htask a y hy).1
  · refine I.leave hx hlast (fun q hq => ((hmem q).mp hq).1) (fun q hq _ => ((hmem q).mp hq).2)
      (fun q hq _ hne => (hmem q).mpr ⟨hq, hne⟩) ?_
    rintro rfl q hq hpos hpid
    rcases hkeep x q hx (hpid ▸ find_of_mem I.keyed.pids hq) hpos with h | h
    · exact h
    · cases hlast.mpr h
  · show (s.leaveMm x.mm last).stolen = false
    cases last <;> exact I.unstolen

theorem KeysInv.replaceMemory (I : KeysInv s) {pid mm : Nat} {x : PkeyTask}
    (hx : s.tasks pid = some x) {last : Bool} (hlast : last = true ↔ s.LastUser pid x)
    (hothers : ∀ q y, s.tasks q = some y → y.mm ≠ mm ∧ (y.tgid = x.tgid → q = pid))
    {tb : List ProcEntry} (hkeyed : Keyed tb) (hsub : ∀ q ∈ tb, q ∈ s.table)
    (hgone : ∀ q ∈ tb, 0 < q.key → q.pid ≠ pid)
    (hstay : ∀ q ∈ s.table, 0 < q.key → q.pid ≠ pid → q ∈ tb)
    (hloss : last = false → ∀ q ∈ s.table, 0 < q.key → q.pid = pid →
      s.otherHas q.addr q.mm q.key = true) :
    KeysInv { s.replaceMemory pid x mm last with table := tb } := by
  have htasks : (s.replaceMemory pid x mm last).tasks =
      Function.update (Function.update s.tasks pid none) x.tgid (some ⟨x.tgid, mm⟩) := by
    cases last <;> rfl
  -- the group has no other task, so that the tasks are the thread and those of other groups
  have htask : ∀ a y, (s.replaceMemory pid x mm last).tasks a = some y →
      (a = x.tgid ∧ y = ⟨x.tgid, mm⟩) ∨ (a ≠ pid ∧ y.tgid ≠ x.tgid ∧ s.tasks a = some y) := by
    intro a y ha
    rw [htasks] at ha
    by_cases hat : a = x.tgid
    · subst hat
      rw [Function.update_self] at ha
      exact .inl ⟨rfl, (Option.some.inj ha).symm⟩
    · rw [Function.update_of_ne hat] at ha
      by_cases hap : a = pid
      · rw [hap, Function.update_self] at ha
        cases ha
      · rw [Function.update_of_ne hap] at ha
        exact .inr ⟨hap, fun h => hap ((hothers a y ha).2 h), ha⟩
  refine ⟨hkeyed, fun q hq => I.outside q (hsub q hq), ?_, ?_, ?_, ?_, ?_, ?_⟩
  · intro q hq hpos
    obtain ⟨y, hy, hymm⟩ := I.owned q (hsub q hq) hpos
    have hne := hgone q hq hpos
    refine ⟨y, ?_, hymm⟩
    show (s.replaceMemory pid x mm last).tasks q.pid = some y
    have hqt : q.pid ≠ x.tgid := by
      intro h
      rw [h] at hy hne
      exact hne ((hothers _ y hy).2 (I.leader pid x y hx hy))
    rw [htasks, Function.update_of_ne hqt, Function.update_of_ne hne]
    exact hy
  · intro a b y z hy hz htgid
    rcases htask a y hy with ⟨-, rfl⟩ | ⟨-, hya, hy⟩ <;>
      rcases htask b z hz with ⟨-, rfl⟩ | ⟨-, hzb, hz⟩
    · rfl
    · exact absurd htgid.symm hzb
    · exact absurd htgid hya
    · exact I.group a b y z hy hz htgid
  · intro a y l hy hl
    rcases htask a y hy with ⟨-, rfl⟩ | ⟨-, hya, hy⟩
    · rcases htask _ l hl with ⟨-, rfl⟩ | ⟨-, -, hl⟩
      · rfl
      · exact I.leader pid x l hx hl
    · rcases htask _ l hl with ⟨h, -⟩ | ⟨-, -, hl⟩
      · exact absurd h hya
      · exact I.leader a y l hy hl
  · intro a y hy
    show (Function.update (s.leaveMm x.mm last).maps mm _ y.mm).allocated 0 = true
    rcases htask a y hy with ⟨-, rfl⟩ | ⟨hap, -, hy⟩
    · rw [Function.update_self]
      rfl
    · rw [Function.update_of_ne (hothers a y hy).1]
      exact leaveMm_zero I hlast hy hap
  · refine (I.leave hx hlast hsub hgone hstay hloss).replace _ (fun q hq => hq)
      (fun q hq _ _ => hq) ?_
    intro q hq hmm hpos
    obtain ⟨y, hy, hymm⟩ := I.owned q (hsub q hq) hpos
    exact (hothers _ y hy).1 (hymm.trans hmm)
  · show (s.leaveMm x.mm last).stolen = false
    cases last <;> exact I.unstolen

theorem KeysInv.execve (I : KeysInv s) {pid mm : Nat} {x : PkeyTask} (hx : s.tasks pid = some x)
    {last : Bool} (hlast : last = true ↔ s.LastUser pid x)
    (hothers : ∀ q y, s.tasks q = some y → y.mm ≠ mm ∧ (y.tgid = x.tgid → q = pid))
    {addr : Option Nat} (hfresh : s.Fresh addr) (hkeep : s.KeepsKeys (.execve pid mm last addr)) :
    KeysInv ((s.replaceMemory pid x mm last).execveProbe ospke ⟨x.tgid, mm⟩ addr) := by
  have htable : (s.replaceMemory pid x mm last).table = s.table := by cases last <;> rfl
  have hself : (s.replaceMemory pid x mm last).tasks x.tgid = some ⟨x.tgid, mm⟩ :=
    Function.update_self ..
  have hfound : ∀ q ∈ s.table, q.pid = pid → findProcInfo s.table pid = some q := by
    rintro q hq rfl
    exact find_of_mem I.keyed.pids hq
  have hloss : last = false → ∀ q ∈ s.table, 0 < q.key → q.pid = pid →
      s.otherHas q.addr q.mm q.key = true := by
    rintro rfl q hq hpos hpid
    rcases (hkeep x q hx (hfound q hq hpid) hpos).2 with h | h
    · exact h
    · cases hlast.mpr h
  by_cases hown : ∃ p ∈ s.table, p.pid = pid ∧ 0 < p.key
  · -- the leader's own key stays behind, and the entry gets one in the new address space
    obtain ⟨p, hp, hpid, hpos⟩ := hown
    obtain ⟨htgid, -⟩ := hkeep x p hx (hfound p hp hpid) hpos
    have hsub : ∀ q ∈ removeProcInfo s.table p, q ∈ s.table := fun q hq => (mem_remove.mp hq).1
    have hgone : ∀ q ∈ removeProcInfo s.table p, q.pid ≠ pid := by
      intro q hq h
      obtain ⟨hq, hne⟩ := mem_remove.mp hq
      exact hne (congrArg ProcEntry.addr (I.keyed.eq_of_pid hq hp (h.trans hpid.symm)))
    have hstay : ∀ q ∈ s.table, 0 < q.key → q.pid ≠ pid → q ∈ removeProcInfo s.table p := by
      intro q hq _ hne
      refine mem_remove.mpr ⟨hq, fun h => hne ?_⟩
      rw [I.keyed.eq_of_addr hq hp h, hpid]
    have I' := I.replaceMemory hx hlast hothers (I.keyed.remove p) hsub (fun q hq _ => hgone q hq)
      hstay hloss
    have hout := I.outside p hp
    have hnot : ((s.replaceMemory pid x mm last).maps mm).allocated p.key.toNat = false := by
      have hmap : (s.replaceMemory pid x mm last).maps mm = ⟨fun k => k == 0, fun _ => false⟩ :=
        Function.update_self ..
      rw [hmap]
      have hne : p.key.toNat ≠ 0 := by omega
      simpa using hne
    have hfree : (s.replaceMemory pid x mm last).mmPkeyFree p.addr mm p.key =
        s.replaceMemory pid x mm last := by
      rw [mmPkeyFree, if_pos hnot]
    unfold PkeySystem.execveProbe
    rw [htable, htgid, hfound p hp hpid]
    simp only [if_pos hout, nodInitProcinfo, if_pos hpos, hfree]
    have Iwo : KeysInv ((s.replaceMemory pid x mm last).without p) := by
      rw [without, htable]
      exact I'
    rw [htgid] at hself
    have hids : (⟨pid, mm⟩ : TaskIds).pid = p.pid := hpid.symm
    exact Iwo.init (htable ▸ I.keyed) (htable ▸ hp) hout hids hself rfl
  · -- the thread has no key to leave behind
    have hnone : ∀ q ∈ s.table, 0 < q.key → q.pid ≠ pid := fun q hq hpos hpid =>
      hown ⟨q, hq, hpid, hpos⟩
    have I' := I.replaceMemory hx hlast hothers I.keyed (fun q hq => hq) hnone
      (fun q hq _ _ => hq) hloss
    rw [← htable] at I'
    refine I'.execveProbe hself rfl (by rw [Fresh, htable]; exact hfresh) ?_
    intro p hf hpos
    rw [htable] at hf
    obtain ⟨hp, hppid⟩ := find_mem hf
    -- an entry with the pid of the leader, who is gone, has no key
    obtain ⟨y, hy, -⟩ := I.owned p hp hpos
    rw [hppid] at hy
    have hpid := (hothers _ y hy).2 (I.leader pid x y hx hy)
    exact absurd (hppid.trans hpid) (hnone p hp hpos)

theorem KeysInv.clone (I : KeysInv s) {pid child mm : Nat} {thread vm : Bool} {x : PkeyTask}
    (hx : s.tasks pid = some x) (hchild : s.tasks child = none) (hthread : thread = true → vm = true)
    (hothers : ∀ q y, s.tasks q = some y → y.tgid ≠ child ∧ (vm = false → y.mm ≠ mm)) :
    KeysInv ((if vm then s else s.putMap mm ⟨(s.maps x.mm).allocated, fun _ => false⟩).putTask
      child (some ⟨if thread then x.tgid else child, if vm then x.mm else mm⟩)) := by
  have htasks : (if vm then s else s.putMap mm ⟨(s.maps x.mm).allocated, fun _ => false⟩).tasks =
      s.tasks := by cases vm <;> rfl
  have htask : ∀ a y, Function.update s.tasks child
      (some ⟨if thread then x.tgid else child, if vm then x.mm else mm⟩) a = some y →
      (a = child ∧ y = ⟨if thread then x.tgid else child, if vm then x.mm else mm⟩) ∨
        (a ≠ child ∧ s.tasks a = some y) := by
    intro a y ha
    by_cases hac : a = child
    · rw [hac, Function.update_self] at ha
      exact .inl ⟨hac, (Option.some.inj ha).symm⟩
    · rw [Function.update_of_ne hac] at ha
      exact .inr ⟨hac, ha⟩
  refine ⟨?_, ?_, ?_, ?_, ?_, ?_, ?_, ?_⟩
  · cases vm <;> exact I.keyed
  · cases vm <;> exact I.outside
  · intro p hp hpos
    have hp : p ∈ s.table := by cases vm <;> exact hp
    obtain ⟨y, hy, hymm⟩ := I.owned p hp hpos
    have hne : p.pid ≠ child := fun h => by
      rw [h, hchild] at hy
      cases hy
    refine ⟨y, ?_, hymm⟩
    rw [putTask, htasks]
    show Function.update s.tasks child _ p.pid = some y
    rw [Function.update_of_ne hne]
    exact hy
  · intro a b y z hy hz htgid
    rw [putTask, htasks] at hy hz
    rcases htask a y hy with ⟨-, rfl⟩ | ⟨-, hya⟩ <;> rcases htask b z hz with ⟨-, rfl⟩ | ⟨-, hzb⟩
    · rfl
    · cases thread with
      | true =>
        rw [hthread rfl]
        exact I.group pid b x z hx hzb htgid
      | false => exact absurd htgid.symm (hothers b z hzb).1
    · cases thread with
      | true =>
        rw [hthread rfl]
        exact I.group a pid y x hya hx htgid
      | false => exact absurd htgid (hothers a y hya).1
    · exact I.group a b y z hya hzb htgid
  · intro a y l hy hl
    rw [putTask, htasks] at hy hl
    rcases htask a y hy with ⟨-, rfl⟩ | ⟨-, hya⟩ <;> rcases htask _ l hl with ⟨h, rfl⟩ | ⟨h, hla⟩
    · rfl
    · cases thread with
      | true => exact I.leader pid x l hx hla
      | false => exact absurd rfl h
    · exact absurd h (hothers a y hya).1
    · exact I.leader a y l hya hla
  · intro a y hy
    rw [putTask, htasks] at hy
    cases vm with
    | true =>
      rcases htask a y hy with ⟨-, rfl⟩ | ⟨-, hya⟩
      · exact I.zero pid x hx
      · exact I.zero a y hya
    | false =>
      show (Function.update s.maps mm _ y.mm).allocated 0 = true
      rcases htask a y hy with ⟨-, rfl⟩ | ⟨-, hya⟩
      · have hmap := I.zero pid x hx
        simpa using hmap
      · rw [Function.update_of_ne ((hothers a y hya).2 rfl)]
        exact I.zero a y hya
  · cases vm with
    | true => exact I.keys
    | false =>
      refine I.keys.replace _ (fun q hq => hq) (fun q hq _ _ => hq) ?_
      intro q hq hmm hpos
      obtain ⟨y, hy, hymm⟩ := I.owned q hq hpos
      exact (hothers _ y hy).2 rfl (hymm.trans hmm)
  · cases vm <;> exact I.unstolen

theorem onTask_eq {pid : Nat} {x : PkeyTask} (h : s.tasks pid = some x)
    (f : PkeyTask → PkeySystem) : s.onTask pid f = f x := by
  rw [onTask, h]

/-- **Every step that keeps the keys keeps the invariant.** -/
theorem KeysInv.step {a : PkeyAct} (I : KeysInv s) (hkeep : s.KeepsKeys a)
    (h : pkeyStep ospke s a t) : KeysInv t := by
  obtain ⟨hallowed, rfl⟩ := h
  cases a with
  | clone pid child thread vm mm =>
    obtain ⟨htask, hchild, hthread, hothers⟩ := hallowed
    obtain ⟨x, hx⟩ := Option.ne_none_iff_exists'.mp htask
    rw [next, onTask_eq hx]
    exact I.clone hx hchild hthread hothers
  | firstEvent pid status addr =>
    obtain ⟨htask, hout, hfresh⟩ := hallowed
    obtain ⟨x, hx⟩ := Option.ne_none_iff_exists'.mp htask
    rw [next, onTask_eq hx]
    exact I.acquire hout hx rfl hfresh
  | load pid ok =>
    obtain ⟨x, hx⟩ := Option.ne_none_iff_exists'.mp hallowed
    rw [next, onTask_eq hx]
    cases hf : findProcInfo s.table pid with
    | none => exact I
    | some p => exact I.load hx hf hkeep
  | execve pid mm last addr =>
    obtain ⟨hfresh, x, hx, hlast, hothers⟩ := hallowed
    rw [next, onTask_eq hx]
    exact I.execve hx hlast hothers hfresh hkeep
  | execveFails pid addr =>
    obtain ⟨htask, hfresh⟩ := hallowed
    obtain ⟨x, hx⟩ := Option.ne_none_iff_exists'.mp htask
    rw [next, onTask_eq hx]
    exact I.execveProbe hx rfl hfresh hkeep
  | exit pid last =>
    obtain ⟨x, hx, hlast⟩ := hallowed
    rw [next, onTask_eq hx]
    exact I.exit hx hlast hkeep

/-! ## Runs -/

/-- The module is loaded: it has neither entries nor keys.  The threads of a group have one
address space, and key 0 is in use in each. -/
structure Starts (s : PkeySystem) : Prop where
  table : s.table = []
  keys : ∀ mm k, (s.maps mm).byModule k = false
  group : ∀ a b x y, s.tasks a = some x → s.tasks b = some y → x.tgid = y.tgid → x.mm = y.mm
  leader : ∀ a x l, s.tasks a = some x → s.tasks x.tgid = some l → l.tgid = x.tgid
  zero : ∀ a x, s.tasks a = some x → (s.maps x.mm).allocated 0 = true
  unstolen : s.stolen = false

theorem Starts.keysInv (h : s.Starts) : KeysInv s := by
  have hnone : ∀ p, p ∉ s.table := fun p hp => by
    rw [h.table] at hp
    cases hp
  refine ⟨by rw [h.table]; exact Keyed.nil, fun p hp => absurd hp (hnone p),
    fun p hp => absurd hp (hnone p), h.group, h.leader, h.zero, ⟨?_, ?_, ?_⟩, h.unstolen⟩
  · intro mm k hk
    rw [h.keys] at hk
    cases hk
  · exact fun p hp => absurd hp (hnone p)
  · intro mm k hk
    rw [h.keys] at hk
    cases hk

/-- **The keys are sound in every run whose steps neither lose a key nor take one from an
entry that has it.** -/
theorem keys_sound {tr : List (PkeySystem × PkeyAct)} (hs : s.Starts)
    (hrun : Run (pkeyStep ospke) s tr t) (hkeep : Meets KeepsKeys tr) : t.KeysSound :=
  (hrun.invariant (fun I hk hstep => KeysInv.step I hk hstep) hs.keysInv hkeep).sound

end PkeySystem

/-! ## Two threads -/

namespace PkeySystem

/-- A process with two threads, 1 and 2, when the module is loaded. -/
def twoThreads : PkeySystem where
  tasks pid := if pid = 1 ∨ pid = 2 then some ⟨1, 7⟩ else none
  table := []
  maps _ := ⟨fun k => k == 0, fun _ => false⟩
  stolen := false

theorem twoThreads_tasks {pid : Nat} {x : PkeyTask} (h : twoThreads.tasks pid = some x) :
    x = ⟨1, 7⟩ := by
  simp only [twoThreads] at h
  split at h
  · exact (Option.some.inj h).symm
  · cases h

theorem twoThreads_starts : twoThreads.Starts where
  table := rfl
  keys _ _ := rfl
  group a b x y hx hy _ := by rw [twoThreads_tasks hx, twoThreads_tasks hy]
  leader a x l hx hl := by rw [twoThreads_tasks hx, twoThreads_tasks hl]
  zero _ _ _ := rfl
  unstolen := rfl

/-- Both threads have been seen, and each has a key. -/
def bothSeen : PkeySystem :=
  (twoThreads.next true (.firstEvent 1 .nodOut (some 100))).next true
    (.firstEvent 2 .nodShare (some 200))

theorem bothSeen_run : Run (pkeyStep true) twoThreads
    [(twoThreads, .firstEvent 1 .nodOut (some 100)),
      (twoThreads.next true (.firstEvent 1 .nodOut (some 100)),
        .firstEvent 2 .nodShare (some 200))] bothSeen := by
  have hfirst : twoThreads.Allowed (.firstEvent 1 .nodOut (some 100)) := by
    refine ⟨by decide, rfl, ?_⟩
    intro p hp
    cases hp
  have hsecond : (twoThreads.next true (.firstEvent 1 .nodOut (some 100))).Allowed
      (.firstEvent 2 .nodShare (some 200)) := by
    refine ⟨by decide, rfl, ?_⟩
    intro p hp
    obtain rfl := List.mem_singleton.mp hp
    decide
  exact (Run.nil.snoc ⟨hfirst, rfl⟩).snoc ⟨hsecond, rfl⟩

theorem bothSeen_not_last : ¬bothSeen.LastUser 2 ⟨1, 7⟩ := fun h =>
  absurd (h 1 ⟨1, 7⟩ rfl rfl) (by decide)

/-- A thread that has loaded the monitor in status `NOD_SHARE` exits without losing a key:
it has its leader's. -/
theorem keys_sound_shared : ∃ tr t, Run (pkeyStep true) twoThreads tr t ∧
    t.entryCount 7 = 1 ∧ t.KeysSound := by
  have hload : pkeyStep true bothSeen (.load 2 true) (bothSeen.next true (.load 2 true)) :=
    ⟨Option.some_ne_none _, rfl⟩
  have hexit : pkeyStep true (bothSeen.next true (.load 2 true)) (.exit 2 false)
      ((bothSeen.next true (.load 2 true)).next true (.exit 2 false)) := by
    refine ⟨⟨⟨1, 7⟩, rfl, Bool.false_ne_true.elim, fun h => ?_⟩, rfl⟩
    exact absurd (h 1 ⟨1, 7⟩ rfl rfl) (by decide)
  have hrun := (bothSeen_run.snoc hload).snoc hexit
  refine ⟨_, _, hrun, by decide, keys_sound twoThreads_starts hrun ?_⟩
  refine meets_snoc.mpr ⟨meets_snoc.mpr ⟨?_, ?_⟩, ?_⟩
  · intro y hy
    simp only [List.mem_cons, List.not_mem_nil, or_false] at hy
    rcases hy with rfl | rfl <;> trivial
  · intro x p parent hx hp hparent _
    cases hx
    cases hp
    cases hparent
    exact ⟨fun _ => ⟨fun _ => by decide, fun _ => rfl⟩, fun h => by cases h⟩
  · intro x p hx hp _
    cases hx
    cases hp
    exact .inl (by decide)

/-- **A thread that exits loses its key**: two keys are allocated, and one entry is left. -/
theorem exit_loses_key : ¬ ∀ (s t : PkeySystem) (tr : List (PkeySystem × PkeyAct)), s.Starts →
    Run (pkeyStep true) s tr t → t.KeysSound := by
  intro h
  have hexit : pkeyStep true bothSeen (.exit 2 false) (bothSeen.next true (.exit 2 false)) := by
    refine ⟨⟨⟨1, 7⟩, rfl, Bool.false_ne_true.elim, fun hl => ?_⟩, rfl⟩
    exact absurd hl bothSeen_not_last
  have hsound := h _ _ _ twoThreads_starts (bothSeen_run.snoc hexit)
  exact absurd (hsound.count 7) (by decide)

end PkeySystem

end NoDrop
