import NoDrop.Hooks
import NoDrop.Lib.Ledger
import NoDrop.LoaderBooks
import NoDrop.ProcTable

/-! # Loading and unloading the module

`nodrop_init` and `nodrop_exit` of `kmodule/nod_main.c` set up four things one after the other, and give
them back in the opposite order, at the end or where one of them fails: the loader's files and tables,
the cache for the `nod_proc_info`s, the hooks, and the file in `/proc`.  In between there are threads
that come and go, each with its buffers, and recordings that are started and stopped.

What the kernel holds for the module is written down in a `Ledger`, which the module does not see; what
the module's variables point to is another list.  `nothing_left` says that the two agree at all times,
over any number of loads, but for one thing: `loader_init` never frees the names of the sections when it
succeeds, so that each load leaves them behind.
-/
namespace NoDrop

open ProcTable Runs

/-! ## Data -/

/-- The parts of a `struct nod_buffer` that are allocated. -/
inductive BufferArea where
  | strStorage | overflow | info | buffer
deriving DecidableEq, Repr

/-- The tracepoints the module has probes at. -/
inductive Tracepoint where
  | sysExit | schedProcessExit
deriving DecidableEq, Repr

/-- What the kernel may hold for the module.  A `nod_proc_info` is known by its address. -/
inductive Resource where
  | monitorFile | interpFile
  | table (site : LoaderSite)
  | cache
  | procInfo (addr : Nat)
  | area (addr : Nat) (a : BufferArea)
  | probe (tp : Tracepoint)
  | procFile
deriving DecidableEq, Repr

/-- The module's variables, what the kernel holds for it, and the hooked system calls.  Of a
`nod_proc_info` it is noted which pointers of its buffer are set.  The loader's own part of the books is
in `loader`. -/
structure NodModule where
  loader : InitState
  procInfoCachep : Bool
  procTable : List ProcEntry
  areas : Nat → BufferArea → Bool
  tpSysExit : Bool
  tpSchedProcessExit : Bool
  ent : Bool
  hooks : Hooks
  books : Ledger Resource

/-- What the calls of `nodrop_init` return. -/
structure ModuleEnv where
  loader : LoaderEnv
  /-- `kmem_cache_create`. -/
  cache : Bool
  /-- `sys_call_table` is among the kernel's symbols. -/
  symbol : Bool
  /-- The names of the kernel's tracepoints. -/
  tracepoints : List String
  /-- `proc_create`. -/
  procCreate : Bool

/-- What `nod_alloc_procinfo` gets: an address, the areas, and whether the buffer's size is right. -/
structure ProcInfoEnv where
  addr : Option Nat
  aligned : Bool
  areas : BufferArea → Bool

namespace NodModule

/-! ## `kmodule/events.c` and `kmodule/procinfo.c` -/

/-- `init_buffer` allocates the areas in this order. -/
def initOrder : List BufferArea := [.strStorage, .overflow, .info, .buffer]

/-- `free_buffer` frees them in this one. -/
def freeOrder : List BufferArea := [.info, .buffer, .overflow, .strStorage]

/-- The pointer to an area. -/
def setArea (m : NodModule) (addr : Nat) (a : BufferArea) (p : Bool) : NodModule :=
  { m with areas := Function.update m.areas addr (Function.update (m.areas addr) a p) }

/-- `free_buffer`: each area is freed if there is one. -/
def freeAreas (addr : Nat) : List BufferArea → NodModule → NodModule
  | [], m => m
  | a :: as, m =>
      if m.areas addr a then
        freeAreas addr as { m.setArea addr a false with books := m.books.give (.area addr a) }
      else freeAreas addr as m

def freeBuffer (addr : Nat) (m : NodModule) : NodModule := freeAreas addr freeOrder m

/-- The allocations of `init_buffer`, up to the first that fails. -/
def allocAreas (addr : Nat) (ok : BufferArea → Bool) : List BufferArea → NodModule → Bool × NodModule
  | [], m => (true, m)
  | a :: as, m =>
      if ok a then
        allocAreas addr ok as { m.setArea addr a true with books := m.books.take (.area addr a) }
      else (false, m)

/-- `init_buffer`. -/
def initBuffer (addr : Nat) (env : ProcInfoEnv) (m : NodModule) : Bool × NodModule :=
  if env.aligned = false then (false, m.freeBuffer addr)
  else
    let (ok, m) := allocAreas addr env.areas initOrder m
    if ok then (true, m) else (false, m.freeBuffer addr)

/-- `nod_alloc_procinfo`: the address. -/
def nodAllocProcinfo (env : ProcInfoEnv) (m : NodModule) : Option Nat × NodModule :=
  match env.addr with
  | none => (none, m)
  | some addr =>
      let m := { m with
        books := m.books.take (.procInfo addr)
        areas := Function.update m.areas addr fun _ => false }
      let (ok, m) := m.initBuffer addr env
      if ok then (some addr, m)
      else (none, { m with books := m.books.give (.procInfo addr) })

/-- `nod_free_procinfo`. -/
def nodFreeProcinfo (m : NodModule) (addr : Nat) : NodModule :=
  let m := m.freeBuffer addr
  { m with books := m.books.give (.procInfo addr) }

/-- `nod_proc_acquire`. -/
def nodProcAcquire (status : ProcStatus) (fd : Int) (task : TaskIds) (pkey : Int32)
    (env : ProcInfoEnv) (m : NodModule) : NodModule :=
  match findProcInfo m.procTable task.pid with
  | some p => { m with procTable := putProcInfo m.procTable (ProcTable.nodProcSetStatus p status fd) }
  | none =>
      let (addr, m) := m.nodAllocProcinfo env
      { m with procTable := (ProcTable.nodProcAcquire status fd task ⟨addr, pkey⟩ m.procTable).2 }

/-- `nod_proc_release`. -/
def nodProcRelease (pid : Nat) (m : NodModule) : NodModule :=
  match findProcInfo m.procTable pid with
  | some p => nodFreeProcinfo { m with procTable := removeProcInfo m.procTable p } p.addr
  | none => m

/-- `procinfo_init`. -/
def procinfoInit (ok : Bool) (m : NodModule) : Int × NodModule :=
  if ok then (0, { m with procInfoCachep := true, books := m.books.take .cache })
  else (errNomem, { m with procInfoCachep := false })

/-- `procinfo_destroy`, once it no longer waits for any thread.  What is freed stays in the table. -/
def procinfoDestroy (m : NodModule) : NodModule :=
  if m.procInfoCachep then
    let m := (m.procTable.map (·.addr)).foldl nodFreeProcinfo m
    { m with books := m.books.give .cache }
  else m

/-! ## `kmodule/trace.c` and `kmodule/proc.c` -/

/-- `visit_tracepoint`. -/
def visitTracepoint (m : NodModule) (name : String) : NodModule :=
  if name = "sys_exit" then { m with tpSysExit := true }
  else if name = "sched_process_exit" then { m with tpSchedProcessExit := true }
  else m

/-- `get_tracepoint_handles`; `ENOENT` is `2`. -/
def getTracepointHandles (names : List String) (m : NodModule) : Int × NodModule :=
  let m := names.foldl visitTracepoint m
  if m.tpSysExit = false then (-2, m) else (0, m)

/-- `tracepoint_init`. -/
def tracepointInit (symbol : Bool) (names : List String) (m : NodModule) : Int × NodModule :=
  let m := { m with hooks := { m.hooks with tracepointRegistered := false } }
  if symbol = false then (errInval, m) else m.getTracepointHandles names

/-- `trace_syscall`, given what the registrations return: the probe that is already there is taken back
if there is no other. -/
def traceSyscall (sysExit procexit : Int) (m : NodModule) : NodModule :=
  let books :=
    if m.hooks.tracepointRegistered then m.books
    else if sysExit ≠ 0 then m.books
    else if procexit ≠ 0 then (m.books.take (.probe .sysExit)).give (.probe .sysExit)
    else (m.books.take (.probe .sysExit)).take (.probe .schedProcessExit)
  { m with hooks := NoDrop.traceSyscall sysExit procexit m.hooks, books := books }

/-- `untrace_syscall`, which is all that `tracepoint_destory` does. -/
def untraceSyscall (m : NodModule) : NodModule :=
  { m with
    hooks := NoDrop.untraceSyscall m.hooks
    books :=
      if m.hooks.tracepointRegistered then
        (m.books.give (.probe .sysExit)).give (.probe .schedProcessExit)
      else m.books }

def tracepointDestory (m : NodModule) : NodModule := m.untraceSyscall

/-- `proc_init`; `EFAULT` is `14`. -/
def procInit (ok : Bool) (m : NodModule) : Int × NodModule :=
  if ok then (0, { m with ent := true, books := m.books.take .procFile })
  else (-14, { m with ent := false })

/-- `proc_destroy`. -/
def procDestroy (m : NodModule) : NodModule :=
  if m.ent then { m with books := m.books.give .procFile } else m

/-! ## `kmodule/nod_main.c` -/

/-- The labels of `nodrop_init`, from the last to the first. -/
def outLoader (m : NodModule) : NodModule := { m with loader := m.loader.loaderDestory }

def outProcinfo (m : NodModule) : NodModule := m.procinfoDestroy.outLoader

def outTrace (m : NodModule) : NodModule := m.tracepointDestory.outProcinfo

def outProc (m : NodModule) : NodModule := m.procDestroy.outTrace

/-- `nodrop_init`. -/
def nodropInit (env : ModuleEnv) (m : NodModule) : Int × NodModule :=
  let (err, s) := loaderInit env.loader
  let m := { m with loader := s }
  if err ≠ 0 then (err, m.outLoader)
  else
    let (err, m) := m.procinfoInit env.cache
    if err ≠ 0 then (err, m.outProcinfo)
    else
      let (err, m) := m.tracepointInit env.symbol env.tracepoints
      if err ≠ 0 then (err, m.outTrace)
      else
        let (err, m) := m.procInit env.procCreate
        if err ≠ 0 then (err, m.outProc) else (0, m)

/-- `nodrop_exit`. -/
def nodropExit (m : NodModule) : NodModule :=
  outLoader (procinfoDestroy (tracepointDestory (procDestroy m)))

/-! ## The books -/

/-- What the kernel holds for a `nod_proc_info`. -/
def heldAt (m : NodModule) (addr : Nat) : List Resource :=
  (initOrder.filter (m.areas addr)).map (.area addr) ++ [.procInfo addr]

/-- And for all in the table. -/
def heldFor (m : NodModule) (table : List ProcEntry) : List Resource :=
  (table.map (·.addr)).flatMap m.heldAt

/-- What the module's variables point to, in the order in which it is given back. -/
def owned (m : NodModule) : List Resource :=
  (if m.ent then [.procFile] else []) ++
    ((if m.hooks.tracepointRegistered then [.probe .sysExit, .probe .schedProcessExit] else []) ++
      (m.heldFor m.procTable ++ if m.procInfoCachep then [.cache] else []))

variable {m : NodModule} {rest : List Resource}

/-! ### Buffers -/

/-- Only the buffer at the address and the books have changed. -/
structure Touches (addr : Nat) (m m' : NodModule) : Prop where
  fields : m' = { m with areas := m'.areas, books := m'.books }
  areas : ∀ x, x ≠ addr → m'.areas x = m.areas x

theorem Touches.refl (addr : Nat) (m : NodModule) : Touches addr m m := ⟨rfl, fun _ _ => rfl⟩

theorem Touches.trans {addr : Nat} {m m' m'' : NodModule} (h : Touches addr m m')
    (h' : Touches addr m' m'') : Touches addr m m'' := by
  refine ⟨?_, fun x hx => (h'.areas x hx).trans (h.areas x hx)⟩
  rw [h'.fields, h.fields]

theorem Touches.setArea (addr : Nat) (a : BufferArea) (p : Bool) (m : NodModule)
    (books : Ledger Resource) : Touches addr m { m.setArea addr a p with books := books } :=
  ⟨rfl, fun _ hx => Function.update_of_ne hx _ _⟩

theorem freeAreas_touches (addr : Nat) (as : List BufferArea) (m : NodModule) :
    Touches addr m (freeAreas addr as m) := by
  induction as generalizing m with
  | nil => exact Touches.refl addr m
  | cons a as ih =>
    rw [freeAreas]
    split
    · exact (Touches.setArea addr a false m _).trans (ih _)
    · exact ih m

theorem allocAreas_touches (addr : Nat) (ok : BufferArea → Bool) (as : List BufferArea)
    (m : NodModule) : Touches addr m (allocAreas addr ok as m).2 := by
  induction as generalizing m with
  | nil => exact Touches.refl addr m
  | cons a as ih =>
    rw [allocAreas]
    split
    · exact (Touches.setArea addr a true m _).trans (ih _)
    · exact Touches.refl addr m

/-- What is there is given back. -/
theorem freeAreas_shows {addr : Nat} {as : List BufferArea} (hn : as.Nodup)
    (h : m.books.Shows ((as.filter (m.areas addr)).map (.area addr) ++ rest)) :
    (freeAreas addr as m).books.Shows rest := by
  induction as generalizing m with
  | nil => exact h
  | cons a as ih =>
    obtain ⟨ha, hn⟩ := List.nodup_cons.mp hn
    rw [freeAreas]
    split
    · rename_i hset
      rw [List.filter_cons_of_pos hset, List.map_cons, List.cons_append] at h
      refine ih hn ?_
      -- the pointers of the other areas are as they were
      have hfilter : as.filter ((m.setArea addr a false).areas addr) = as.filter (m.areas addr) := by
        apply List.filter_congr
        intro b hb
        have hne : b ≠ a := fun heq => ha (heq ▸ hb)
        simp [setArea, hne]
      show (m.books.give (.area addr a)).Shows
        ((as.filter ((m.setArea addr a false).areas addr)).map (.area addr) ++ rest)
      rw [hfilter]
      exact h.give
    · rename_i hset
      rw [List.filter_cons_of_neg hset] at h
      exact ih hn h

/-- What is allocated is there. -/
theorem allocAreas_shows {addr : Nat} (ok : BufferArea → Bool) {as : List BufferArea}
    (hn : as.Nodup) (hnull : ∀ a ∈ as, m.areas addr a = false) (h : m.books.Shows rest) :
    (allocAreas addr ok as m).2.books.Shows
        ((as.filter ((allocAreas addr ok as m).2.areas addr)).map (.area addr) ++ rest) ∧
      ∀ a, a ∉ as → (allocAreas addr ok as m).2.areas addr a = m.areas addr a := by
  induction as generalizing m rest with
  | nil => exact ⟨h, fun a _ => rfl⟩
  | cons a as ih =>
    obtain ⟨ha, hn⟩ := List.nodup_cons.mp hn
    rw [allocAreas]
    split
    · have hother : ∀ b ∈ as, (m.setArea addr a true).areas addr b = false := by
        intro b hb
        have hne : b ≠ a := fun heq => ha (heq ▸ hb)
        have hb' := hnull b (List.mem_cons_of_mem _ hb)
        simpa [setArea, hne] using hb'
      obtain ⟨hshows, hkeep⟩ := ih (m := { m.setArea addr a true with
        books := m.books.take (.area addr a) }) hn hother (h.take (.area addr a))
      have hset := (hkeep a ha).trans (show (m.setArea addr a true).areas addr a = true by
        simp [setArea])
      refine ⟨?_, fun b hb => ?_⟩
      · rw [List.filter_cons_of_pos hset, List.map_cons, List.cons_append]
        exact hshows.congr List.perm_middle
      · rw [List.mem_cons, not_or] at hb
        refine (hkeep b hb.2).trans ?_
        simp [setArea, hb.1]
    · refine ⟨?_, fun b _ => rfl⟩
      have hnone : (a :: as).filter (m.areas addr) = [] :=
        List.filter_eq_nil_iff.mpr fun b hb => by simp [hnull b hb]
      show m.books.Shows (((a :: as).filter (m.areas addr)).map (.area addr) ++ rest)
      rw [hnone]
      exact h

theorem freeOrder_perm : freeOrder.Perm initOrder := by decide

/-- `free_buffer` gives back the areas of the buffer. -/
theorem freeBuffer_shows {addr : Nat}
    (h : m.books.Shows ((initOrder.filter (m.areas addr)).map (.area addr) ++ rest)) :
    (m.freeBuffer addr).books.Shows rest :=
  freeAreas_shows (by decide) (h.congr
    (((freeOrder_perm.filter (m.areas addr)).map _).symm.append_right _))

theorem initBuffer_touches (addr : Nat) (env : ProcInfoEnv) (m : NodModule) :
    Touches addr m (m.initBuffer addr env).2 := by
  have halloc := allocAreas_touches addr env.areas initOrder m
  unfold initBuffer
  split
  · exact freeAreas_touches addr _ m
  · dsimp only
    split
    · exact halloc
    · exact halloc.trans (freeAreas_touches addr _ _)

/-- `init_buffer` for a cleared `nod_proc_info`: all or nothing. -/
theorem initBuffer_shows {addr : Nat} (env : ProcInfoEnv) (hnull : ∀ a, m.areas addr a = false)
    (h : m.books.Shows rest) :
    Touches addr m (m.initBuffer addr env).2 ∧
      ((m.initBuffer addr env).1 = true → (m.initBuffer addr env).2.books.Shows
        ((initOrder.filter ((m.initBuffer addr env).2.areas addr)).map (.area addr) ++ rest)) ∧
      ((m.initBuffer addr env).1 = false → (m.initBuffer addr env).2.books.Shows rest) := by
  refine ⟨initBuffer_touches addr env m, ?_⟩
  unfold initBuffer
  split
  · refine ⟨fun h => Bool.noConfusion h, fun _ => freeBuffer_shows ?_⟩
    have hnone : initOrder.filter (m.areas addr) = [] :=
      List.filter_eq_nil_iff.mpr fun b _ => by simp [hnull b]
    rw [hnone]
    exact h
  · obtain ⟨hshows, -⟩ := allocAreas_shows env.areas (by decide : initOrder.Nodup)
      (fun a _ => hnull a) h
    generalize allocAreas addr env.areas initOrder m = r at hshows ⊢
    obtain ⟨ok, m'⟩ := r
    dsimp only at hshows ⊢
    split
    · exact ⟨fun _ => hshows, fun h => Bool.noConfusion h⟩
    · exact ⟨fun h => Bool.noConfusion h, fun _ => freeBuffer_shows hshows⟩

/-- `nod_alloc_procinfo`: what the new `nod_proc_info` needs, or nothing. -/
theorem nodAllocProcinfo_shows (env : ProcInfoEnv) (h : m.books.Shows rest) :
    (∃ addr, env.addr = some addr ∧ (m.nodAllocProcinfo env).1 = some addr ∧
      Touches addr m (m.nodAllocProcinfo env).2 ∧
      (m.nodAllocProcinfo env).2.books.Shows
        ((m.nodAllocProcinfo env).2.heldAt addr ++ rest)) ∨
    ((m.nodAllocProcinfo env).1 = none ∧
      (∀ x, env.addr ≠ some x → (m.nodAllocProcinfo env).2.areas x = m.areas x) ∧
      (m.nodAllocProcinfo env).2 = { m with
        areas := (m.nodAllocProcinfo env).2.areas, books := (m.nodAllocProcinfo env).2.books } ∧
      (m.nodAllocProcinfo env).2.books.Shows rest) := by
  unfold nodAllocProcinfo
  cases haddr : env.addr with
  | none => exact .inr ⟨rfl, fun _ _ => rfl, rfl, h⟩
  | some addr =>
    dsimp only
    generalize hm₁ : ({ m with
      books := m.books.take (.procInfo addr)
      areas := Function.update m.areas addr fun _ => false } : NodModule) = m₁
    have htouch₁ : Touches addr m m₁ := by
      rw [← hm₁]
      exact ⟨rfl, fun x hx => Function.update_of_ne hx _ _⟩
    have hbooks : m₁.books.Shows (.procInfo addr :: rest) := by
      rw [← hm₁]
      exact h.take _
    have hnull : ∀ a, m₁.areas addr a = false := by
      intro a
      rw [← hm₁]
      simp
    obtain ⟨htouch, hok, hfail⟩ := initBuffer_shows env hnull hbooks
    generalize m₁.initBuffer addr env = r at htouch hok hfail ⊢
    obtain ⟨ok, m₂⟩ := r
    dsimp only at htouch hok hfail ⊢
    cases ok with
    | true =>
      refine .inl ⟨addr, rfl, rfl, htouch₁.trans htouch, ?_⟩
      rw [heldAt, List.append_assoc]
      exact hok rfl
    | false =>
      refine .inr ⟨rfl, fun x hx => ?_, ?_, (hfail rfl).give⟩
      · have hne : x ≠ addr := fun heq => hx (congrArg some heq.symm)
        exact (htouch₁.trans htouch).areas x hne
      · have hfields := (htouch₁.trans htouch).fields
        rw [if_neg Bool.false_ne_true]
        dsimp only
        rw [hfields]

/-- `nod_free_procinfo` gives all that back. -/
theorem nodFreeProcinfo_shows {addr : Nat} (h : m.books.Shows (m.heldAt addr ++ rest)) :
    (m.nodFreeProcinfo addr).books.Shows rest := by
  rw [heldAt, List.append_assoc] at h
  exact (freeBuffer_shows h).give

theorem nodFreeProcinfo_touches (m : NodModule) (addr : Nat) :
    Touches addr m (m.nodFreeProcinfo addr) := by
  have h := freeAreas_touches addr freeOrder m
  refine ⟨?_, h.areas⟩
  show { m.freeBuffer addr with books := (m.freeBuffer addr).books.give (.procInfo addr) } = _
  unfold freeBuffer
  rw [h.fields]
  rfl

/-! ### The table -/

theorem heldFor_congr {m m' : NodModule} {table : List ProcEntry}
    (h : ∀ p ∈ table, m'.areas p.addr = m.areas p.addr) : m'.heldFor table = m.heldFor table := by
  unfold heldFor heldAt
  rw [List.flatMap_map, List.flatMap_map]
  apply List.flatMap_congr
  intro p hp
  rw [h p hp]

theorem map_addr_put (table : List ProcEntry) (p : ProcEntry) :
    (putProcInfo table p).map (·.addr) = table.map (·.addr) := by
  rw [putProcInfo, List.map_map]
  apply List.map_congr_left
  intro q _
  show (if q.addr = p.addr then p else q).addr = q.addr
  split
  · rename_i heq
    exact heq.symm
  · rfl

/-- An entry is removed. -/
theorem map_addr_remove {table : List ProcEntry} (hk : Keyed table) {p : ProcEntry}
    (hp : p ∈ table) :
    (table.map (·.addr)).Perm (p.addr :: (removeProcInfo table p).map (·.addr)) := by
  have hmem : p.addr ∈ table.map (·.addr) := List.mem_map_of_mem hp
  have hremove : (removeProcInfo table p).map (·.addr) = (table.map (·.addr)).erase p.addr := by
    rw [hk.addrs.erase_eq_filter, List.filter_map]
    congr 1
    apply List.filter_congr
    intro q _
    by_cases heq : q.addr = p.addr <;> simp [heq]
  rw [hremove]
  exact List.perm_cons_erase hmem

/-! ### What is torn down -/

/-- The rest, where the table is given back. -/
theorem procinfoDestroy_shows (hcache : m.procInfoCachep = false → m.procTable = [])
    (hk : Keyed m.procTable)
    (h : m.books.Shows (m.heldFor m.procTable ++ (if m.procInfoCachep then [.cache] else []) ++
      rest)) :
    m.procinfoDestroy.books.Shows rest ∧ m.procinfoDestroy.loader = m.loader ∧
      m.procinfoDestroy.hooks = m.hooks := by
  -- one after the other, with the others as they were
  have hloop : ∀ (addrs : List Nat) (m : NodModule) (rest : List Resource), addrs.Nodup →
      m.books.Shows (addrs.flatMap m.heldAt ++ rest) →
      (addrs.foldl nodFreeProcinfo m).books.Shows rest ∧
        (addrs.foldl nodFreeProcinfo m).loader = m.loader ∧
        (addrs.foldl nodFreeProcinfo m).hooks = m.hooks := by
    intro addrs
    induction addrs with
    | nil => exact fun m rest _ h => ⟨h, rfl, rfl⟩
    | cons addr addrs ih =>
      intro m rest hn h
      obtain ⟨hnew, hn⟩ := List.nodup_cons.mp hn
      have htouch := nodFreeProcinfo_touches m addr
      have hsame : addrs.flatMap (m.nodFreeProcinfo addr).heldAt = addrs.flatMap m.heldAt := by
        apply List.flatMap_congr
        intro x hx
        unfold heldAt
        rw [htouch.areas x fun heq => hnew (heq ▸ hx)]
      rw [List.flatMap_cons, List.append_assoc] at h
      have hfreed := nodFreeProcinfo_shows h
      rw [← hsame] at hfreed
      obtain ⟨hshows, hloader, hhooks⟩ := ih _ rest hn hfreed
      refine ⟨hshows, hloader.trans ?_, hhooks.trans ?_⟩
      · rw [htouch.fields]
      · rw [htouch.fields]
  unfold procinfoDestroy
  split
  · rename_i hc
    rw [if_pos hc, List.append_assoc] at h
    obtain ⟨hshows, hloader, hhooks⟩ := hloop _ m _ hk.addrs h
    exact ⟨hshows.give, hloader, hhooks⟩
  · rename_i hc
    rw [if_neg hc, hcache (by simpa using hc), List.append_nil] at h
    exact ⟨h, rfl, rfl⟩

theorem untraceSyscall_shows
    (h : m.books.Shows ((if m.hooks.tracepointRegistered then
      [.probe .sysExit, .probe .schedProcessExit] else []) ++ rest)) :
    m.untraceSyscall.books.Shows rest := by
  unfold untraceSyscall
  dsimp only
  split
  · rename_i hr
    rw [if_pos hr] at h
    exact h.give.give
  · rename_i hr
    rw [if_neg hr] at h
    exact h

theorem procDestroy_shows (h : m.books.Shows ((if m.ent then [.procFile] else []) ++ rest)) :
    m.procDestroy.books.Shows rest ∧
      m.procDestroy = { m with books := m.procDestroy.books } := by
  unfold procDestroy
  split
  · rename_i he
    rw [if_pos he] at h
    exact ⟨h.give, rfl⟩
  · rename_i he
    rw [if_neg he] at h
    exact ⟨h, rfl⟩

/-- What `nodrop_exit` and the labels leave. -/
structure TornDown (m m' : NodModule) (hooks : Hooks) (rest : List Resource) : Prop where
  books : m'.books.Shows rest
  loader : m'.loader = m.loader.loaderDestory
  hooks : m'.hooks = hooks

theorem outProcinfo_tornDown (hcache : m.procInfoCachep = false → m.procTable = [])
    (hk : Keyed m.procTable)
    (h : m.books.Shows (m.heldFor m.procTable ++ (if m.procInfoCachep then [.cache] else []) ++
      rest)) : TornDown m m.outProcinfo m.hooks rest := by
  obtain ⟨hshows, hloader, hhooks⟩ := procinfoDestroy_shows hcache hk h
  exact ⟨hshows, congrArg InitState.loaderDestory hloader, hhooks⟩

theorem outTrace_tornDown (hcache : m.procInfoCachep = false → m.procTable = [])
    (hk : Keyed m.procTable)
    (h : m.books.Shows ((if m.hooks.tracepointRegistered then
        [.probe .sysExit, .probe .schedProcessExit] else []) ++
      (m.heldFor m.procTable ++ (if m.procInfoCachep then [.cache] else []) ++ rest))) :
    TornDown m m.outTrace (NoDrop.untraceSyscall m.hooks) rest := by
  have hdown := outProcinfo_tornDown (m := m.untraceSyscall) hcache hk (untraceSyscall_shows h)
  exact ⟨hdown.books, hdown.loader, hdown.hooks⟩

theorem outProc_tornDown (hcache : m.procInfoCachep = false → m.procTable = [])
    (hk : Keyed m.procTable) (h : m.books.Shows (m.owned ++ rest)) :
    TornDown m m.outProc (NoDrop.untraceSyscall m.hooks) rest := by
  rw [owned, List.append_assoc, List.append_assoc] at h
  obtain ⟨hshows, hfields⟩ := procDestroy_shows h
  have hdown := outTrace_tornDown (m := { m with books := m.procDestroy.books }) hcache hk hshows
  rw [← hfields] at hdown
  refine ⟨hdown.books, hdown.loader.trans ?_, hdown.hooks.trans ?_⟩
  · rw [hfields]
  · rw [hfields]

/-- **`nodrop_exit` does what the labels do.** -/
theorem nodropExit_eq (m : NodModule) : m.nodropExit = m.outProc := rfl

end NodModule

/-! ## The machine -/

namespace InitState

/-- What the kernel holds for the loader. -/
def holds (s : InitState) : List Resource :=
  (if s.filpMonitor then [.monitorFile] else []) ++ (if s.filpInterpreter then [.interpFile] else []) ++
    s.live.map .table

/-- What the loader has freed that was no memory, or was freed more than once. -/
def strayFrees (s : InitState) : List KPtr :=
  s.freed.filter fun p => p = .uninit ∨ (p ≠ .null ∧ 1 < s.freed.count p)

end InitState

/-- The module, if it is loaded.  Of all loads together it is noted how often memory with the names of the
sections was left behind, and what the loader has freed wrongly. -/
structure Machine where
  nodrop : NodModule
  loaded : Bool
  names : Nat
  strays : List KPtr

/-- What happens.  The probes of a recording may be refused; `hook` is a step of a thread on its way
through `hook_general`. -/
inductive LifeAct where
  | insmod (env : ModuleEnv)
  | rmmod
  | acquire (status : ProcStatus) (fd : Int) (task : TaskIds) (pkey : Int32) (env : ProcInfoEnv)
  | release (pid : Nat)
  | setStatus (pid : Nat) (status : ProcStatus) (fd : Int)
  | start (sysExit procexit : Int)
  | stop
  | hook (a : HookAct)

namespace Machine

/-- The variables of a module that is being loaded; the rest is the kernel's. -/
def fresh (m : NodModule) : NodModule where
  loader := .start
  procInfoCachep := false
  procTable := []
  areas _ _ := false
  tpSysExit := false
  tpSchedProcessExit := false
  ent := false
  hooks := { m.hooks with
    tracepointRegistered := false
    syscallFilters := fun _ => ⟨false, none, .null⟩ }
  books := m.books

/-- The module's memory goes, with its variables; what the loader has not given back is left. -/
def unload (m : Machine) (nodrop : NodModule) : Machine where
  nodrop := { nodrop with
    loader := .start
    books := nodrop.books.takeAll nodrop.loader.holds }
  loaded := false
  names := m.names + if nodrop.loader.elfShstrtab = .null then 0 else 1
  strays := m.strays ++ nodrop.loader.strayFrees

/-- With the kernel's system call table. -/
def start (orig : Nat → UInt64) : Machine where
  nodrop :=
    { loader := .start
      procInfoCachep := false
      procTable := []
      areas := fun _ _ => false
      tpSysExit := false
      tpSchedProcessExit := false
      ent := false
      hooks := .init orig
      books := .empty }
  loaded := false
  names := 0
  strays := []

end Machine

/-- One step.  `procinfo_destroy` waits until no thread is in the monitor, and a tracepoint that was not
found can not be registered with. -/
def lifeStep (m : Machine) : LifeAct → Option Machine
  | .insmod env =>
      if m.loaded then none
      else
        let (ret, nodrop) := (Machine.fresh m.nodrop).nodropInit env
        if ret = 0 then some { m with nodrop := nodrop, loaded := true }
        else some (m.unload nodrop)
  | .rmmod =>
      if m.loaded ∧ ∀ p ∈ m.nodrop.procTable, p.status ≠ .nodIn then
        some (m.unload m.nodrop.nodropExit)
      else none
  | .acquire status fd task pkey env =>
      if m.loaded then
        some { m with nodrop := m.nodrop.nodProcAcquire status fd task pkey env }
      else none
  | .release pid =>
      if m.loaded then some { m with nodrop := m.nodrop.nodProcRelease pid } else none
  | .setStatus pid status fd =>
      match findProcInfo m.nodrop.procTable pid with
      | some p =>
          if m.loaded then
            some { m with nodrop := { m.nodrop with
              procTable := putProcInfo m.nodrop.procTable (ProcTable.nodProcSetStatus p status fd) } }
          else none
      | none => none
  | .start sysExit procexit =>
      if m.loaded ∧ m.nodrop.tpSysExit ∧ m.nodrop.tpSchedProcessExit then
        some { m with nodrop := m.nodrop.traceSyscall sysExit procexit }
      else none
  | .stop => if m.loaded then some { m with nodrop := m.nodrop.untraceSyscall } else none
  | .hook (.trace ..) | .hook .untrace => none
  | .hook a =>
      if m.loaded then
        (hookStep m.nodrop.hooks a).map fun hooks => { m with nodrop := { m.nodrop with hooks := hooks } }
      else none

/-- The condition on a step: the files' tables fit, a new `nod_proc_info` is not where one is, and no
thread is inside a hook that is taken away. -/
def InOrder (m : Machine) : LifeAct → Prop
  | .insmod env => TablesFit env.loader
  | .rmmod => ∀ tid, m.nodrop.hooks.threads tid = .out
  | .acquire _ _ _ _ env => ∀ p ∈ m.nodrop.procTable, env.addr ≠ some p.addr
  | .stop => ∀ tid, (m.nodrop.hooks.threads tid).inside = none
  | _ => True

/-- The books are right. -/
structure Accounts (orig : Nat → UInt64) (m : Machine) : Prop where
  books : m.nodrop.books.Shows ((if m.loaded then m.nodrop.owned else []) ++
    List.replicate m.names (.table .shstrtab))
  strays : m.strays = []
  loader : m.loaded = true → m.nodrop.loader.Booked ∧ m.nodrop.loader.elfInterpreter = .null
  keyed : m.loaded = true → Keyed m.nodrop.procTable
  cache : m.loaded = true → m.nodrop.procInfoCachep = true
  sound : m.nodrop.hooks.Sound orig
  away : m.loaded = false →
    m.nodrop.hooks.tracepointRegistered = false ∧ ∀ tid, m.nodrop.hooks.threads tid = .out

section Accounts

variable {orig : Nat → UInt64} {m m' : Machine}

theorem Booked.strayFrees {s : InitState} (h : s.Booked) : s.strayFrees = [] := by
  refine List.filter_eq_nil_iff.mpr fun p hp => ?_
  rw [decide_eq_true_eq]
  rintro (rfl | ⟨hnull, hcount⟩)
  · exact h.freed hp
  · cases p with
    | null => exact hnull rfl
    | uninit => exact h.freed hp
    | block site =>
      have := h.once site
      omega

/-- What `loader_destory` leaves are the names, if there are any. -/
theorem holds_loaderDestory {s : InitState} (h : s.Booked) (hpath : s.elfInterpreter = .null) :
    s.loaderDestory.holds =
        List.replicate (if s.loaderDestory.elfShstrtab = .null then 0 else 1) (.table .shstrtab) ∧
      s.loaderDestory.strayFrees = [] := by
  obtain ⟨hb, hmon, hint, hvar⟩ := h.loaderDestory
  refine ⟨?_, Booked.strayFrees hb⟩
  have hlive : ∀ x, x ∈ s.loaderDestory.live → x = .shstrtab := by
    intro x hx
    have hx := (hb.live x).mp hx
    rw [hvar] at hx
    cases x <;> first | rfl | (rw [hpath] at hx; cases hx)
  have hall := List.eq_replicate_of_mem hlive
  have hcount := congrArg (List.count LoaderSite.shstrtab) hall
  rw [List.count_replicate_self] at hcount
  have honce := hb.once .shstrtab
  have hlength : s.loaderDestory.live.length =
      if s.loaderDestory.elfShstrtab = .null then 0 else 1 := by
    split
    · rename_i hnull
      refine Nat.eq_zero_of_not_pos fun hpos => ?_
      have hblock := (hb.live .shstrtab).mp (List.count_pos_iff.mp (by omega))
      exact KPtr.noConfusion (hnull.symm.trans hblock)
    · rename_i hne
      have hmem := (hb.live .shstrtab).mpr ((hb.var .shstrtab).resolve_left hne)
      have hpos := List.count_pos_iff.mpr hmem
      omega
  rw [InitState.holds, hmon, hint, if_neg Bool.false_ne_true, if_neg Bool.false_ne_true, hall,
    List.map_replicate, hlength]
  rfl

/-- The module's memory goes after everything was torn down. -/
theorem accounts_unload {before after : NodModule} {hooks : Hooks} (hstrays : m.strays = [])
    (hdown : before.TornDown after hooks (List.replicate m.names (.table .shstrtab)))
    (hb : before.loader.Booked) (hpath : before.loader.elfInterpreter = .null)
    (hsound : hooks.Sound orig) (hreg : hooks.tracepointRegistered = false)
    (hout : ∀ tid, hooks.threads tid = .out) : Accounts orig (m.unload after) := by
  obtain ⟨hholds, hfrees⟩ := holds_loaderDestory hb hpath
  rw [← hdown.loader] at hholds hfrees
  refine ⟨?_, ?_, fun h => Bool.noConfusion h, fun h => Bool.noConfusion h,
    fun h => Bool.noConfusion h, ?_, fun _ => ?_⟩
  · refine (hdown.books.takeAll after.loader.holds).congr ?_
    rw [hholds]
    show List.Perm _ ([] ++ List.replicate (m.names + _) _)
    rw [List.replicate_add, List.nil_append]
    exact List.perm_append_comm
  · show m.strays ++ after.loader.strayFrees = []
    rw [hstrays, hfrees]
    rfl
  · show after.hooks.Sound orig
    rw [hdown.hooks]
    exact hsound
  · show after.hooks.tracepointRegistered = false ∧ ∀ tid, after.hooks.threads tid = .out
    rw [hdown.hooks]
    exact ⟨hreg, hout⟩

theorem untraceSyscall_registered (s : Hooks) :
    (NoDrop.untraceSyscall s).tracepointRegistered = false := by
  unfold NoDrop.untraceSyscall
  split
  · rfl
  · rename_i h
    simpa using h

theorem traceSyscall_registered (sysExit procexit : Int) (s : Hooks) :
    (NoDrop.traceSyscall sysExit procexit s).tracepointRegistered =
      if s.tracepointRegistered then true
      else if sysExit ≠ 0 then false else if procexit ≠ 0 then false else true := by
  unfold NoDrop.traceSyscall
  split
  · rename_i hr
    exact hr
  · rename_i hr
    have hr : s.tracepointRegistered = false := by simpa using hr
    split
    · exact hr
    · split
      · exact hr
      · rfl

theorem visitTracepoints_fields (names : List String) (m : NodModule) :
    names.foldl NodModule.visitTracepoint m = { m with
      tpSysExit := (names.foldl NodModule.visitTracepoint m).tpSysExit
      tpSchedProcessExit := (names.foldl NodModule.visitTracepoint m).tpSchedProcessExit } := by
  induction names generalizing m with
  | nil => rfl
  | cons name names ih =>
    rw [List.foldl_cons, ih]
    unfold NodModule.visitTracepoint
    split
    · rfl
    · split <;> rfl

/-- `tracepoint_init` sets nothing but its two pointers, where no recording is on. -/
theorem tracepointInit_fields {m : NodModule} (hreg : m.hooks.tracepointRegistered = false)
    (symbol : Bool) (names : List String) : ∃ p q, (m.tracepointInit symbol names).2 =
      { m with tpSysExit := p, tpSchedProcessExit := q } := by
  have hooks : { m.hooks with tracepointRegistered := false } = m.hooks := by
    rw [← hreg]
  unfold NodModule.tracepointInit
  rw [hooks]
  dsimp only
  split
  · exact ⟨_, _, rfl⟩
  · unfold NodModule.getTracepointHandles
    dsimp only
    split
    · exact ⟨_, _, visitTracepoints_fields names m⟩
    · exact ⟨_, _, visitTracepoints_fields names m⟩

/-- **`nodrop_init`**: everything is set up, or torn down again. -/
theorem nodropInit_cases {n : NodModule} {rest : List Resource} (htable : n.procTable = [])
    (hreg : n.hooks.tracepointRegistered = false) (hbooks : n.books.Shows rest) {env : ModuleEnv}
    (hfit : TablesFit env.loader) :
    ((n.nodropInit env).1 = 0 ∧ (n.nodropInit env).2.books.Shows ((n.nodropInit env).2.owned ++ rest) ∧
      (n.nodropInit env).2.loader.Booked ∧ (n.nodropInit env).2.loader.elfInterpreter = .null ∧
      (n.nodropInit env).2.procTable = [] ∧ (n.nodropInit env).2.procInfoCachep = true ∧
      (n.nodropInit env).2.hooks = n.hooks ∧
      (n.nodropInit env).2.loader = (loaderInit env.loader).2) ∨
    ((n.nodropInit env).1 ≠ 0 ∧ ∃ before : NodModule, before.loader.Booked ∧
      before.loader.elfInterpreter = .null ∧ before.TornDown (n.nodropInit env).2 n.hooks rest ∧
      before.loader = (loaderInit env.loader).2) := by
  have huntrace : NoDrop.untraceSyscall n.hooks = n.hooks := by
    rw [NoDrop.untraceSyscall, hreg, if_neg Bool.false_ne_true]
  obtain ⟨hok, hfail⟩ := loaderInit_booked hfit
  unfold NodModule.nodropInit
  generalize loaderInit env.loader = r at hok hfail ⊢
  obtain ⟨err, s⟩ := r
  dsimp only at hok hfail ⊢
  by_cases herr : err = 0
  case neg =>
    rw [if_pos herr]
    exact .inr ⟨herr, { n with loader := s }, (hfail herr).booked, (hfail herr).path,
      ⟨hbooks, rfl, rfl⟩, rfl⟩
  rw [if_neg (not_not.mpr herr)]
  obtain ⟨hb, hpath⟩ := hok herr
  unfold NodModule.procinfoInit
  cases env.cache with
  | false =>
    rw [if_neg Bool.false_ne_true]
    dsimp only
    rw [if_pos (by decide)]
    refine .inr ⟨?_, _, hb, hpath, NodModule.outProcinfo_tornDown
      (m := { n with loader := s, procInfoCachep := false }) (fun _ => htable) ?_ ?_, rfl⟩
    · show errNomem ≠ 0
      decide
    · show Keyed n.procTable
      rw [htable]
      exact Keyed.nil
    · show n.books.Shows (NodModule.heldFor _ n.procTable ++ [] ++ rest)
      rw [htable]
      exact hbooks
  | true =>
    rw [if_pos rfl]
    dsimp only
    rw [if_neg (by decide)]
    generalize hm₂ : ({ n with
      loader := s
      procInfoCachep := true
      books := n.books.take .cache } : NodModule) = m₂
    have hbooks₂ : m₂.books.Shows (.cache :: rest) := by
      rw [← hm₂]
      exact hbooks.take _
    have hcache₂ : m₂.procInfoCachep = true := by rw [← hm₂]
    have htable₂ : m₂.procTable = [] := by rw [← hm₂, ← htable]
    have hhooks₂ : m₂.hooks = n.hooks := by rw [← hm₂]
    have hloader₂ : m₂.loader = s := by rw [← hm₂]
    obtain ⟨p, q, hfields⟩ := tracepointInit_fields (m := m₂) (by rw [hhooks₂, hreg]) env.symbol
      env.tracepoints
    generalize m₂.tracepointInit env.symbol env.tracepoints = r at hfields ⊢
    obtain ⟨err₃, m₃⟩ := r
    dsimp only at hfields ⊢
    subst hfields
    -- what is given back on the two labels that are left
    have hdown : ∀ (m₃ : NodModule), m₃.procTable = [] → m₃.procInfoCachep = true →
        m₃.hooks = n.hooks → m₃.books.Shows (.cache :: rest) →
        m₃.TornDown m₃.outTrace n.hooks rest := by
      intro m₃ ht hc hh hbk
      have hdown : m₃.TornDown m₃.outTrace (NoDrop.untraceSyscall m₃.hooks) rest := by
        refine NodModule.outTrace_tornDown (fun _ => ht) (ht ▸ Keyed.nil) ?_
        rw [hh, hreg, ht, hc]
        exact hbk
      rwa [hh, huntrace] at hdown
    by_cases herr₃ : err₃ = 0
    case neg =>
      rw [if_pos herr₃]
      exact .inr ⟨herr₃, _, by rwa [hloader₂], by rwa [hloader₂],
        hdown { m₂ with tpSysExit := p, tpSchedProcessExit := q } htable₂ hcache₂ hhooks₂ hbooks₂,
        hloader₂⟩
    rw [if_neg (not_not.mpr herr₃)]
    unfold NodModule.procInit
    cases env.procCreate with
    | false =>
      rw [if_neg Bool.false_ne_true]
      dsimp only
      rw [if_pos (by decide)]
      refine .inr ⟨?_, _, ?_, ?_,
        hdown { m₂ with tpSysExit := p, tpSchedProcessExit := q, ent := false } htable₂ hcache₂
          hhooks₂ hbooks₂, hloader₂⟩
      · show (-14 : Int) ≠ 0
        decide
      · show m₂.loader.Booked
        rwa [hloader₂]
      · show m₂.loader.elfInterpreter = .null
        rwa [hloader₂]
    | true =>
      rw [if_pos rfl]
      dsimp only
      rw [if_neg (by decide)]
      refine .inl ⟨rfl, ?_, ?_, ?_, htable₂, hcache₂, hhooks₂, hloader₂⟩
      · simp only [NodModule.owned, htable₂, hcache₂, hhooks₂, hreg]
        exact hbooks₂.take _
      · show m₂.loader.Booked
        rwa [hloader₂]
      · show m₂.loader.elfInterpreter = .null
        rwa [hloader₂]

/-! ### Every step -/

/-- The filters of a module that is being loaded, where the table is the kernel's. -/
theorem sound_fresh (h : Accounts orig m) (hl : m.loaded = false) :
    (Machine.fresh m.nodrop).hooks.Sound orig := by
  obtain ⟨hreg, hout⟩ := h.away hl
  have hbare : ∀ id, (Machine.fresh m.nodrop).hooks.Bare orig id :=
    fun id => ⟨rfl, (h.sound.off hreg id).table⟩
  refine ⟨fun id => .inr (hbare id), fun _ => hbare, fun tid id hin => ?_, fun tid id fn hc => ?_,
    fun tid hb => ?_⟩
  · rw [show (Machine.fresh m.nodrop).hooks.threads tid = .out from hout tid] at hin
    cases hin
  · rw [show (Machine.fresh m.nodrop).hooks.threads tid = .out from hout tid] at hc
    cases hc
  · rw [show (Machine.fresh m.nodrop).hooks.threads tid = .out from hout tid] at hb
    cases hb

theorem Accounts.insmod {env : ModuleEnv} (h : Accounts orig m) (hfit : TablesFit env.loader)
    (hs : lifeStep m (.insmod env) = some m') : Accounts orig m' := by
  simp only [lifeStep] at hs
  split at hs
  · cases hs
  rename_i hl
  have hl : m.loaded = false := by simpa using hl
  have hbooks := h.books
  rw [hl, if_neg Bool.false_ne_true, List.nil_append] at hbooks
  have hsound := sound_fresh h hl
  rcases nodropInit_cases (n := Machine.fresh m.nodrop) rfl rfl hbooks hfit with
    ⟨hret, hshows, hb, hpath, htable, hcache, hhooks, -⟩ | ⟨hret, before, hb, hpath, hdown, -⟩
  · rw [if_pos hret] at hs
    obtain rfl := Option.some.inj hs
    refine ⟨hshows, h.strays, fun _ => ⟨hb, hpath⟩, fun _ => ?_, fun _ => hcache, ?_,
      fun hl => Bool.noConfusion hl⟩
    · show Keyed ((Machine.fresh m.nodrop).nodropInit env).2.procTable
      rw [htable]
      exact Keyed.nil
    · show ((Machine.fresh m.nodrop).nodropInit env).2.hooks.Sound orig
      rw [hhooks]
      exact hsound
  · rw [if_neg hret] at hs
    obtain rfl := Option.some.inj hs
    exact accounts_unload h.strays hdown hb hpath hsound rfl (h.away hl).2

theorem Accounts.rmmod (h : Accounts orig m) (hout : ∀ tid, m.nodrop.hooks.threads tid = .out)
    (hs : lifeStep m .rmmod = some m') : Accounts orig m' := by
  simp only [lifeStep] at hs
  split at hs
  case isFalse => cases hs
  rename_i hl
  obtain rfl := Option.some.inj hs
  have hbooks := h.books
  rw [if_pos hl.1] at hbooks
  obtain ⟨hb, hpath⟩ := h.loader hl.1
  have hdown := NodModule.outProc_tornDown (fun hc => absurd (h.cache hl.1) (by simp [hc]))
    (h.keyed hl.1) hbooks
  rw [NodModule.nodropExit_eq]
  refine accounts_unload h.strays hdown hb hpath (h.sound.untraceSyscall fun tid => ?_)
    (untraceSyscall_registered _) fun tid => ?_
  · rw [hout tid]
    rfl
  · rw [untraceSyscall_threads]
    exact hout tid

/-- A step that changes only the entries of the table. -/
theorem Accounts.put (h : Accounts orig m) (hl : m.loaded = true) {p q : ProcEntry}
    (hp : p ∈ m.nodrop.procTable) (haddr : p.addr = q.addr) (hpid : p.pid = q.pid) :
    Accounts orig { m with nodrop := { m.nodrop with
      procTable := putProcInfo m.nodrop.procTable q } } := by
  have hbooks := h.books
  rw [if_pos hl] at hbooks
  refine ⟨?_, h.strays, h.loader, fun _ => (h.keyed hl).put hp haddr hpid, h.cache, h.sound, h.away⟩
  rw [if_pos hl]
  have howned : NodModule.owned { m.nodrop with procTable := putProcInfo m.nodrop.procTable q } =
      m.nodrop.owned := by
    unfold NodModule.owned NodModule.heldFor
    rw [NodModule.map_addr_put]
    rfl
  rw [howned]
  exact hbooks

/-- What does not change with the buffers and the books. -/
theorem sameButBuffers {n n' : NodModule}
    (h : n' = { n with areas := n'.areas, books := n'.books }) :
    n'.procTable = n.procTable ∧ n'.loader = n.loader ∧ n'.procInfoCachep = n.procInfoCachep ∧
      n'.hooks = n.hooks ∧ n'.ent = n.ent := by
  rw [h]
  exact ⟨rfl, rfl, rfl, rfl, rfl⟩

theorem Accounts.acquire {status : ProcStatus} {fd : Int} {task : TaskIds} {pkey : Int32}
    {env : ProcInfoEnv} (h : Accounts orig m)
    (hfresh : ∀ p ∈ m.nodrop.procTable, env.addr ≠ some p.addr)
    (hs : lifeStep m (.acquire status fd task pkey env) = some m') : Accounts orig m' := by
  simp only [lifeStep] at hs
  split at hs
  case isFalse => cases hs
  rename_i hl
  obtain rfl := Option.some.inj hs
  unfold NodModule.nodProcAcquire
  cases hfind : findProcInfo m.nodrop.procTable task.pid with
  | some p => exact h.put hl (find_mem hfind).1 rfl rfl
  | none =>
    have hbooks := h.books
    rw [if_pos hl] at hbooks
    dsimp only
    have hcases := NodModule.nodAllocProcinfo_shows env hbooks
    generalize m.nodrop.nodAllocProcinfo env = r at hcases ⊢
    obtain ⟨a, n⟩ := r
    dsimp only at hcases ⊢
    rcases hcases with ⟨addr, haddr, rfl, htouch, hshows⟩ | ⟨rfl, hareas, hfields, hshows⟩
    · obtain ⟨htable, hloader, hcache, hhooks, hent⟩ := sameButBuffers htouch.fields
      obtain ⟨p, hinsert, hpaddr, hpid⟩ : ∃ p : ProcEntry,
          (ProcTable.nodProcAcquire status fd task ⟨some addr, pkey⟩ n.procTable).2 =
            insertProcInfo m.nodrop.procTable p ∧ p.addr = addr ∧ p.pid = task.pid := by
        rw [ProcTable.nodProcAcquire, htable, hfind]
        exact ⟨_, rfl, rfl, rfl⟩
      have hnew : ∀ p ∈ m.nodrop.procTable, p.addr ≠ addr := fun p hp heq =>
        hfresh p hp (by rw [haddr, heq])
      rw [hinsert]
      have hkeyed := (h.keyed hl).insert (hpid ▸ hfind) (hpaddr ▸ hnew)
      refine ⟨?_, h.strays, fun _ => ?_, fun _ => hkeyed, fun _ => ?_, ?_,
        fun hl' => absurd hl (by simpa using hl')⟩
      · refine hshows.congr ?_
        rw [if_pos hl]
        have hrest : n.heldFor m.nodrop.procTable = m.nodrop.heldFor m.nodrop.procTable :=
          NodModule.heldFor_congr fun p hp => htouch.areas p.addr (hnew p hp)
        have hcons : n.heldFor (insertProcInfo m.nodrop.procTable p) =
            n.heldAt addr ++ m.nodrop.heldFor m.nodrop.procTable := by
          rw [← hrest, ← hpaddr]
          rfl
        show (n.heldAt addr ++ _).Perm ((_ ++ (_ ++ (NodModule.heldFor n _ ++ _))) ++ _)
        rw [hcons, hent, hhooks, hcache]
        refine List.perm_iff_count.mpr fun x => ?_
        simp only [NodModule.owned, List.count_append]
        omega
      · show n.loader.Booked ∧ n.loader.elfInterpreter = .null
        rw [hloader]
        exact h.loader hl
      · exact hcache.trans (h.cache hl)
      · show n.hooks.Sound orig
        rw [hhooks]
        exact h.sound
    · obtain ⟨htable, hloader, hcache, hhooks, hent⟩ := sameButBuffers hfields
      have hsame : (ProcTable.nodProcAcquire status fd task ⟨none, pkey⟩ n.procTable).2 =
          m.nodrop.procTable := by
        rw [ProcTable.nodProcAcquire, htable, hfind]
      rw [hsame]
      refine ⟨?_, h.strays, fun _ => ?_, fun _ => h.keyed hl, fun _ => ?_, ?_,
        fun hl' => absurd hl (by simpa using hl')⟩
      · rw [if_pos hl]
        have hrest : n.heldFor m.nodrop.procTable = m.nodrop.heldFor m.nodrop.procTable :=
          NodModule.heldFor_congr fun p hp => hareas p.addr (hfresh p hp)
        have howned : NodModule.owned { n with procTable := m.nodrop.procTable } =
            m.nodrop.owned := by
          show _ ++ (_ ++ (NodModule.heldFor n m.nodrop.procTable ++ _)) = _
          rw [hrest, hent, hhooks, hcache]
          rfl
        rw [howned]
        exact hshows
      · show n.loader.Booked ∧ n.loader.elfInterpreter = .null
        rw [hloader]
        exact h.loader hl
      · exact hcache.trans (h.cache hl)
      · show n.hooks.Sound orig
        rw [hhooks]
        exact h.sound

theorem Accounts.release {pid : Nat} (h : Accounts orig m)
    (hs : lifeStep m (.release pid) = some m') : Accounts orig m' := by
  simp only [lifeStep] at hs
  split at hs
  case isFalse => cases hs
  rename_i hl
  obtain rfl := Option.some.inj hs
  unfold NodModule.nodProcRelease
  cases hfind : findProcInfo m.nodrop.procTable pid with
  | none => exact h
  | some p =>
    obtain ⟨hp, -⟩ := find_mem hfind
    have hbooks := h.books
    rw [if_pos hl] at hbooks
    dsimp only
    generalize hn : ({ m.nodrop with
      procTable := removeProcInfo m.nodrop.procTable p } : NodModule) = n
    have hheld : (m.nodrop.heldFor m.nodrop.procTable).Perm
        (n.heldAt p.addr ++ n.heldFor n.procTable) := by
      rw [← hn]
      exact (NodModule.map_addr_remove (h.keyed hl) hp).flatMap_right _
    have hshows : (n.nodFreeProcinfo p.addr).books.Shows
        (n.owned ++ List.replicate m.names (.table .shstrtab)) := by
      refine NodModule.nodFreeProcinfo_shows ?_
      rw [show n.books = m.nodrop.books by rw [← hn]]
      refine hbooks.congr ?_
      have hent : n.ent = m.nodrop.ent := by rw [← hn]
      have hhooks : n.hooks = m.nodrop.hooks := by rw [← hn]
      have hcache : n.procInfoCachep = m.nodrop.procInfoCachep := by rw [← hn]
      refine List.perm_iff_count.mpr fun x => ?_
      have hcount := hheld.count_eq x
      simp only [NodModule.owned, List.count_append, hent, hhooks, hcache] at hcount ⊢
      omega
    have htouch := NodModule.nodFreeProcinfo_touches n p.addr
    obtain ⟨htable, hloader, hcache, hhooks, hent⟩ := sameButBuffers htouch.fields
    have howned : (n.nodFreeProcinfo p.addr).owned = n.owned := by
      have hheld : (n.nodFreeProcinfo p.addr).heldFor n.procTable = n.heldFor n.procTable := by
        refine NodModule.heldFor_congr fun q hq => htouch.areas q.addr ?_
        rw [← hn] at hq
        exact (mem_remove.mp hq).2
      rw [NodModule.owned, hent, hhooks, htable, hheld, hcache]
      rfl
    refine ⟨?_, h.strays, fun _ => ?_, fun _ => ?_, fun _ => ?_, ?_,
      fun hl' => absurd hl (by simpa using hl')⟩
    · rw [if_pos hl]
      show (n.nodFreeProcinfo p.addr).books.Shows ((n.nodFreeProcinfo p.addr).owned ++ _)
      rw [howned]
      exact hshows
    · show (n.nodFreeProcinfo p.addr).loader.Booked ∧ _
      rw [hloader, ← hn]
      exact h.loader hl
    · show Keyed (n.nodFreeProcinfo p.addr).procTable
      rw [htable, ← hn]
      exact (h.keyed hl).remove p
    · show (n.nodFreeProcinfo p.addr).procInfoCachep = true
      rw [hcache, ← hn]
      exact h.cache hl
    · show (n.nodFreeProcinfo p.addr).hooks.Sound orig
      rw [hhooks, ← hn]
      exact h.sound

theorem owned_setHooks (n : NodModule) (hooks : Hooks) :
    NodModule.owned { n with hooks := hooks } = (if n.ent then [.procFile] else []) ++
      ((if hooks.tracepointRegistered then [.probe .sysExit, .probe .schedProcessExit] else []) ++
        (n.heldFor n.procTable ++ if n.procInfoCachep then [.cache] else [])) := rfl

/-- A step of the hooks, with the books as they are to be afterwards. -/
theorem Accounts.setHooks {hooks : Hooks} {books : Ledger Resource} (h : Accounts orig m)
    (hl : m.loaded = true) (hsound : hooks.Sound orig)
    (hbooks : books.Shows (NodModule.owned { m.nodrop with hooks := hooks } ++
      List.replicate m.names (.table .shstrtab))) :
    Accounts orig { m with nodrop := { m.nodrop with hooks := hooks, books := books } } := by
  refine ⟨?_, h.strays, h.loader, h.keyed, h.cache, hsound, fun hl' => absurd hl (by simpa using hl')⟩
  rw [if_pos hl]
  exact hbooks

theorem Accounts.start {sysExit procexit : Int} (h : Accounts orig m)
    (hs : lifeStep m (.start sysExit procexit) = some m') : Accounts orig m' := by
  simp only [lifeStep] at hs
  split at hs
  case isFalse => cases hs
  rename_i hl
  obtain rfl := Option.some.inj hs
  have hbooks := h.books
  rw [if_pos hl.1] at hbooks
  refine h.setHooks hl.1 (h.sound.traceSyscall sysExit procexit) ?_
  rw [owned_setHooks m.nodrop (NoDrop.traceSyscall sysExit procexit m.nodrop.hooks),
    traceSyscall_registered]
  rw [NodModule.owned] at hbooks
  by_cases hr : m.nodrop.hooks.tracepointRegistered = true
  · rw [if_pos hr, if_pos hr]
    rw [if_pos hr] at hbooks
    exact hbooks
  rw [if_neg hr, if_neg hr]
  rw [if_neg hr] at hbooks
  by_cases h1 : sysExit ≠ 0
  · rw [if_pos h1, if_pos h1]
    exact hbooks
  rw [if_neg h1, if_neg h1]
  by_cases h2 : procexit ≠ 0
  · rw [if_pos h2, if_pos h2]
    exact (hbooks.take _).give
  rw [if_neg h2, if_neg h2, if_pos rfl]
  refine ((hbooks.take _).take _).congr (List.perm_iff_count.mpr fun x => ?_)
  simp only [List.count_append, List.count_cons, List.count_nil]
  omega

theorem Accounts.stop (h : Accounts orig m)
    (hin : ∀ tid, (m.nodrop.hooks.threads tid).inside = none)
    (hs : lifeStep m .stop = some m') : Accounts orig m' := by
  simp only [lifeStep] at hs
  split at hs
  case isFalse => cases hs
  rename_i hl
  obtain rfl := Option.some.inj hs
  have hbooks := h.books
  rw [if_pos hl] at hbooks
  refine h.setHooks hl (h.sound.untraceSyscall hin) ?_
  refine NodModule.untraceSyscall_shows (hbooks.congr (List.perm_iff_count.mpr fun x => ?_))
  rw [owned_setHooks m.nodrop (NoDrop.untraceSyscall m.nodrop.hooks), NodModule.owned,
    untraceSyscall_registered, if_neg Bool.false_ne_true]
  simp only [List.count_append, List.count_nil]
  omega

/-- A thread on its way through `hook_general` starts and stops no recording. -/
theorem hookStep_registered {s t : Hooks} {a : HookAct} (htrace : ∀ p q, a ≠ .trace p q)
    (huntrace : a ≠ .untrace) (hs : hookStep s a = some t) :
    t.tracepointRegistered = s.tracepointRegistered := by
  cases a with
  | trace p q => exact absurd rfl (htrace p q)
  | untrace => exact absurd rfl huntrace
  | enter tid id =>
    simp only [hookStep] at hs
    split at hs
    · cases hs
      rfl
    · cases hs
  | check tid observed =>
    simp only [hookStep] at hs
    repeat' split at hs
    all_goals first | (cases hs; rfl) | cases hs
  | filter tid ret =>
    simp only [hookStep] at hs
    repeat' split at hs
    all_goals first | (cases hs; rfl) | cases hs
  | call tid =>
    simp only [hookStep] at hs
    repeat' split at hs
    all_goals first | (cases hs; rfl) | cases hs
  | leave tid =>
    simp only [hookStep] at hs
    repeat' split at hs
    all_goals first | (cases hs; rfl) | cases hs

theorem Accounts.hook {a : HookAct} (h : Accounts orig m)
    (hs : lifeStep m (.hook a) = some m') : Accounts orig m' := by
  have hstep : (∀ p q, a ≠ .trace p q) → a ≠ .untrace →
      (if m.loaded then (hookStep m.nodrop.hooks a).map fun hooks =>
        { m with nodrop := { m.nodrop with hooks := hooks } } else none) = some m' →
      Accounts orig m' := by
    intro htrace huntrace hs
    split at hs
    case isFalse => cases hs
    rename_i hl
    obtain ⟨hooks, hhooks, rfl⟩ := Option.map_eq_some_iff.mp hs
    have hbooks := h.books
    rw [if_pos hl] at hbooks
    refine h.setHooks hl (h.sound.step ?_ hhooks) ?_
    · cases a <;> trivial
    · rw [owned_setHooks m.nodrop hooks, hookStep_registered htrace huntrace hhooks]
      exact hbooks
  cases a with
  | trace p q => cases hs
  | untrace => cases hs
  | enter tid id => exact hstep (fun _ _ => HookAct.noConfusion) HookAct.noConfusion hs
  | check tid observed => exact hstep (fun _ _ => HookAct.noConfusion) HookAct.noConfusion hs
  | filter tid ret => exact hstep (fun _ _ => HookAct.noConfusion) HookAct.noConfusion hs
  | call tid => exact hstep (fun _ _ => HookAct.noConfusion) HookAct.noConfusion hs
  | leave tid => exact hstep (fun _ _ => HookAct.noConfusion) HookAct.noConfusion hs

theorem Accounts.setStatus {pid : Nat} {status : ProcStatus} {fd : Int} (h : Accounts orig m)
    (hs : lifeStep m (.setStatus pid status fd) = some m') : Accounts orig m' := by
  simp only [lifeStep] at hs
  split at hs
  case h_2 => cases hs
  rename_i p hfind
  split at hs
  case isFalse => cases hs
  rename_i hl
  obtain rfl := Option.some.inj hs
  exact h.put hl (find_mem hfind).1 rfl rfl

/-- **Every step keeps the books.** -/
theorem Accounts.step {a : LifeAct} (h : Accounts orig m) (ha : InOrder m a)
    (hs : stepOf lifeStep m a m') : Accounts orig m' := by
  cases a with
  | insmod env => exact h.insmod ha hs
  | rmmod => exact h.rmmod ha hs
  | acquire status fd task pkey env => exact h.acquire ha hs
  | release pid => exact h.release hs
  | setStatus pid status fd => exact h.setStatus hs
  | start sysExit procexit => exact h.start hs
  | stop => exact h.stop ha hs
  | hook a => exact h.hook hs

theorem accounts_start (orig : Nat → UInt64) : Accounts orig (Machine.start orig) :=
  ⟨Ledger.shows_empty, rfl, fun h => Bool.noConfusion h, fun h => Bool.noConfusion h,
    fun h => Bool.noConfusion h, Hooks.sound_init, fun _ => ⟨rfl, fun _ => rfl⟩⟩

end Accounts

/-! ## Nothing is left -/

namespace Machine

/-- All that the kernel holds for the module. -/
def held (m : Machine) : List Resource :=
  m.nodrop.books.held ++ if m.loaded then m.nodrop.loader.holds else []

/-- All that the module can still reach: what its variables point to, and what the loader's do. -/
def reached (m : Machine) : List Resource :=
  if m.loaded then m.nodrop.owned ++
    ((if m.nodrop.loader.filpMonitor then [.monitorFile] else []) ++
      (if m.nodrop.loader.filpInterpreter then [.interpFile] else []) ++
      ([LoaderSite.monitorPhdrs, .monitorShdrs, .interpPhdrs].filter fun x =>
        m.nodrop.loader.var x ≠ .null).map .table)
  else []

/-- How often the names were left behind. -/
def lost (m : Machine) : Nat :=
  m.names + if m.loaded ∧ m.nodrop.loader.elfShstrtab ≠ .null then 1 else 0

end Machine

section Left

variable {orig : Nat → UInt64} {m m' : Machine}

/-- The loader's memory is what its variables point to. -/
theorem live_perm {s : InitState} (h : s.Booked) (hpath : s.elfInterpreter = .null) :
    s.live.Perm (([LoaderSite.monitorPhdrs, .monitorShdrs, .interpPhdrs].filter fun x =>
      s.var x ≠ .null) ++ if s.elfShstrtab ≠ .null then [.shstrtab] else []) := by
  have hlive : s.live.Nodup := List.nodup_iff_count_le_one.mpr fun x => by
    have := h.once x
    omega
  have hset : ∀ x, x ∈ s.live ↔ s.var x ≠ .null := by
    intro x
    rw [h.live]
    rcases h.var x with hx | hx
    · simp [hx]
    · simp [hx]
  refine (List.perm_ext_iff_of_nodup hlive ?_).mpr fun x => ?_
  · refine List.Nodup.append (List.Nodup.filter _ (by decide)) ?_ ?_
    · split
      · exact List.nodup_singleton _
      · exact List.nodup_nil
    · intro x hx hx'
      split at hx'
      · rw [List.mem_singleton.mp hx'] at hx
        simp at hx
      · cases hx'
  · rw [hset, List.mem_append, List.mem_filter]
    have hnames : s.var .shstrtab = s.elfShstrtab := rfl
    have hpath : s.var .interpPath = .null := hpath
    cases x with
    | monitorHdr => simp [InitState.var]
    | interpHdr => simp [InitState.var]
    | interpPath => simp [hpath]
    | monitorPhdrs => simp
    | monitorShdrs => simp
    | interpPhdrs => simp
    | shstrtab =>
      rw [hnames]
      simp

/-- The books and the variables, together with the loader's. -/
theorem Accounts.held_perm (h : Accounts orig m) :
    m.held.Perm (m.reached ++ List.replicate m.lost (.table .shstrtab)) := by
  have hbooks := h.books.held
  unfold Machine.held Machine.reached Machine.lost
  cases hl : m.loaded with
  | false =>
    rw [hl] at hbooks
    simpa using hbooks
  | true =>
    rw [hl, if_pos rfl] at hbooks
    obtain ⟨hb, hpath⟩ := h.loader hl
    have hlive := (live_perm hb hpath).map Resource.table
    have hnames : List.replicate (m.names + if m.nodrop.loader.elfShstrtab ≠ .null then 1 else 0)
        (Resource.table .shstrtab) = List.replicate m.names (.table .shstrtab) ++
          (if m.nodrop.loader.elfShstrtab ≠ .null then [.shstrtab] else []).map .table := by
      rw [List.replicate_add]
      split <;> rfl
    simp only [true_and, if_true]
    rw [hnames]
    refine List.perm_iff_count.mpr fun x => ?_
    have h1 := hbooks.count_eq x
    have h2 := hlive.count_eq x
    simp only [InitState.holds, List.count_append, List.map_append] at h1 h2 ⊢
    omega

/-! ### How often the names are lost -/

/-- A load that gets through `loader_init` without going to a label. -/
def LifeAct.loads : LifeAct → Bool
  | .insmod env =>
      match (loaderBody env.loader .start).1 with
      | .ok _ => true
      | .error _ => false
  | _ => false

theorem loads_insmod {env : ModuleEnv} (hfit : TablesFit env.loader) :
    (LifeAct.insmod env).loads = true ↔ (loaderInit env.loader).2.elfShstrtab ≠ .null := by
  rw [loaderInit_names hfit, LifeAct.loads]
  cases (loaderBody env.loader .start).1 with
  | ok u => exact iff_of_true rfl ⟨u, rfl⟩
  | error err =>
    refine iff_of_false Bool.false_ne_true fun h => ?_
    obtain ⟨u, hu⟩ := h
    cases hu

theorem loaderDestory_shstrtab {s : InitState} (h : s.Booked) :
    s.loaderDestory.elfShstrtab = s.elfShstrtab := by
  obtain ⟨-, -, -, hvar⟩ := h.loaderDestory
  exact hvar .shstrtab

/-- Between loading and unloading the variables of the loader do not change. -/
theorem lifeStep_loader {a : LifeAct} (h : Accounts orig m) (hload : ∀ env, a ≠ .insmod env)
    (hunload : a ≠ .rmmod) (hs : lifeStep m a = some m') :
    m'.nodrop.loader = m.nodrop.loader ∧ m'.loaded = m.loaded ∧ m'.names = m.names := by
  cases a with
  | insmod env => exact absurd rfl (hload env)
  | rmmod => exact absurd rfl hunload
  | acquire status fd task pkey env =>
    simp only [lifeStep] at hs
    split at hs
    case isFalse => cases hs
    obtain rfl := Option.some.inj hs
    refine ⟨?_, rfl, rfl⟩
    unfold NodModule.nodProcAcquire
    split
    · rfl
    · rcases NodModule.nodAllocProcinfo_shows env h.books with
        ⟨addr, -, -, htouch, -⟩ | ⟨-, -, hfields, -⟩
      · exact (sameButBuffers htouch.fields).2.1
      · exact (sameButBuffers hfields).2.1
  | release pid =>
    simp only [lifeStep] at hs
    split at hs
    case isFalse => cases hs
    obtain rfl := Option.some.inj hs
    refine ⟨?_, rfl, rfl⟩
    unfold NodModule.nodProcRelease
    split
    · exact (sameButBuffers (NodModule.nodFreeProcinfo_touches _ _).fields).2.1
    · rfl
  | setStatus pid status fd =>
    simp only [lifeStep] at hs
    split at hs
    case h_2 => cases hs
    split at hs
    case isFalse => cases hs
    obtain rfl := Option.some.inj hs
    exact ⟨rfl, rfl, rfl⟩
  | start sysExit procexit =>
    simp only [lifeStep] at hs
    split at hs
    case isFalse => cases hs
    obtain rfl := Option.some.inj hs
    exact ⟨rfl, rfl, rfl⟩
  | stop =>
    simp only [lifeStep] at hs
    split at hs
    case isFalse => cases hs
    obtain rfl := Option.some.inj hs
    exact ⟨rfl, rfl, rfl⟩
  | hook a =>
    have hstep : (if m.loaded then (hookStep m.nodrop.hooks a).map fun hooks =>
        { m with nodrop := { m.nodrop with hooks := hooks } } else none) = some m' := by
      cases a <;> first | exact hs | cases hs
    split at hstep
    case isFalse => cases hstep
    obtain ⟨hooks, -, rfl⟩ := Option.map_eq_some_iff.mp hstep
    exact ⟨rfl, rfl, rfl⟩

/-- **One step** loses the names at most once, and exactly if it loads them. -/
theorem Accounts.lost_step {a : LifeAct} (h : Accounts orig m) (ha : InOrder m a)
    (hs : stepOf lifeStep m a m') : m'.lost = m.lost + if a.loads then 1 else 0 := by
  have hother : (∀ env, a ≠ .insmod env) → a ≠ .rmmod → a.loads = false →
      m'.lost = m.lost + if a.loads then 1 else 0 := by
    intro hload hunload hnot
    obtain ⟨hloader, hloaded, hnames⟩ := lifeStep_loader h hload hunload hs
    rw [hnot, Machine.lost, Machine.lost, hloader, hloaded, hnames]
    rfl
  cases a with
  | insmod env =>
    have hfit : TablesFit env.loader := ha
    simp only [stepOf, lifeStep] at hs
    split at hs
    · cases hs
    rename_i hl
    have hl : m.loaded = false := by simpa using hl
    have hbooks := h.books
    rw [hl, if_neg Bool.false_ne_true, List.nil_append] at hbooks
    have hlost : m.lost = m.names := by
      rw [Machine.lost, hl]
      rfl
    rw [hlost, if_congr (loads_insmod hfit) rfl rfl]
    rcases nodropInit_cases (n := Machine.fresh m.nodrop) rfl rfl hbooks hfit with
      ⟨hret, -, -, -, -, -, -, hloader⟩ | ⟨hret, before, hb, -, hdown, hloader⟩
    · rw [if_pos hret] at hs
      obtain rfl := Option.some.inj hs
      rw [Machine.lost, hloader]
      simp only [true_and]
    · rw [if_neg hret] at hs
      obtain rfl := Option.some.inj hs
      have hnames : ((Machine.fresh m.nodrop).nodropInit env).2.loader.elfShstrtab =
          (loaderInit env.loader).2.elfShstrtab := by
        rw [hdown.loader, loaderDestory_shstrtab hb, hloader]
      show (m.names + if _ then 0 else 1) + (if false = true ∧ _ then 1 else 0) = _
      rw [hnames]
      by_cases hnull : (loaderInit env.loader).2.elfShstrtab = .null <;> simp [hnull]
  | rmmod =>
    simp only [stepOf, lifeStep] at hs
    split at hs
    case isFalse => cases hs
    rename_i hl
    obtain rfl := Option.some.inj hs
    obtain ⟨hb, -⟩ := h.loader hl.1
    have hbooks := h.books
    rw [if_pos hl.1] at hbooks
    have hdown := NodModule.outProc_tornDown (fun hc => absurd (h.cache hl.1) (by simp [hc]))
      (h.keyed hl.1) hbooks
    have hnames : m.nodrop.nodropExit.loader.elfShstrtab = m.nodrop.loader.elfShstrtab := by
      rw [NodModule.nodropExit_eq, hdown.loader, loaderDestory_shstrtab hb]
    show (m.names + if _ then 0 else 1) + (if false = true ∧ _ then 1 else 0) = _
    rw [hnames, Machine.lost, hl.1]
    by_cases hnull : m.nodrop.loader.elfShstrtab = .null <;> simp [hnull, LifeAct.loads]
  | acquire status fd task pkey env =>
    exact hother (fun _ => LifeAct.noConfusion) LifeAct.noConfusion rfl
  | release pid => exact hother (fun _ => LifeAct.noConfusion) LifeAct.noConfusion rfl
  | setStatus pid status fd => exact hother (fun _ => LifeAct.noConfusion) LifeAct.noConfusion rfl
  | start sysExit procexit => exact hother (fun _ => LifeAct.noConfusion) LifeAct.noConfusion rfl
  | stop => exact hother (fun _ => LifeAct.noConfusion) LifeAct.noConfusion rfl
  | hook a => exact hother (fun _ => LifeAct.noConfusion) LifeAct.noConfusion rfl

theorem lost_of_run {tr : List (Machine × LifeAct)} (hrun : Run (stepOf lifeStep) (.start orig) tr m)
    (hin : Meets InOrder tr) : Accounts orig m ∧ m.lost = tr.countP fun x => x.2.loads := by
  induction hrun with
  | nil => exact ⟨accounts_start orig, rfl⟩
  | snoc hprev hlast ih =>
    obtain ⟨hin, ha⟩ := meets_snoc.mp hin
    obtain ⟨hacc, hlost⟩ := ih hin
    refine ⟨hacc.step ha hlast, ?_⟩
    rw [hacc.lost_step ha hlast, hlost, List.countP_append, List.countP_singleton]

/-- A monitor with one program header, and a section with the right name beside the names themselves. -/
def soundHeader : List UInt8 :=
  elfMag ++ List.replicate 12 0 ++ [3, 0, 62, 0] ++ List.replicate 12 0 ++ [64, 0, 0, 0, 0, 0, 0, 0] ++
    [120, 0, 0, 0, 0, 0, 0, 0] ++ List.replicate 6 0 ++ [56, 0, 1, 0, 64, 0, 2, 0, 1, 0]

/-- The sections: one at `0x1000`, and the names, which are 14 bytes long. -/
def soundSections : List UInt8 :=
  List.replicate 17 0 ++ [0x10] ++ List.replicate 46 0 ++ List.replicate 32 0 ++ [14] ++
    List.replicate 31 0

/-- What is read of it. -/
def soundRead (site : LoaderSite) (_ : UInt64) (size : Nat) : Except Int (List UInt8) :=
  if site = .monitorHdr ∧ size = elfhdrSize then .ok soundHeader
  else if site = .monitorPhdrs ∧ size = elfPhdrSize then .ok (List.replicate 56 0)
  else if site = .monitorShdrs ∧ size = 128 then .ok soundSections
  else if site = .shstrtab ∧ size = 14 then .ok nodSectionName
  else .error errIo

theorem soundRead_neg (site : LoaderSite) (pos : UInt64) (size : Nat) (err : Int)
    (h : soundRead site pos size = .error err) : err < 0 := by
  unfold soundRead at h
  repeat' split at h
  all_goals cases h
  decide

theorem soundRead_le (site : LoaderSite) (pos : UInt64) (size : Nat) (bs : List UInt8)
    (h : soundRead site pos size = .ok bs) : bs.length ≤ size := by
  unfold soundRead at h
  repeat' split at h
  all_goals cases h
  all_goals
    rename_i hsize
    rw [hsize.2]
    decide

/-- A kernel in which all goes well. -/
def soundModule : ModuleEnv where
  loader := { oddEnv with kernelRead := soundRead, read_neg := soundRead_neg, read_le := soundRead_le }
  cache := true
  symbol := true
  tracepoints := ["sys_enter", "sys_exit", "sched_process_exit"]
  procCreate := true

theorem tablesFit_sound : TablesFit soundModule.loader := by
  refine ⟨fun hdr hread _ => ?_, fun hdr hread => ?_⟩
  · have hhdr : soundRead .monitorHdr 0 elfhdrSize = .ok soundHeader := rfl
    obtain rfl := Except.ok.inj (hhdr.symm.trans hread)
    decide
  · have hhdr : soundRead .interpHdr 0 elfhdrSize = .error errIo := rfl
    exact absurd (hhdr.symm.trans hread) (fun h => by cases h)

/-! ### A life of the module -/

namespace NodModule

theorem procinfoDestroy_hooks (m : NodModule) : m.procinfoDestroy.hooks = m.hooks := by
  have hloop : ∀ (addrs : List Nat) (m : NodModule),
      (addrs.foldl nodFreeProcinfo m).hooks = m.hooks := by
    intro addrs
    induction addrs with
    | nil => exact fun m => rfl
    | cons addr addrs ih =>
      exact fun m => (ih _).trans (sameButBuffers (nodFreeProcinfo_touches m addr).fields).2.2.2.1
  unfold procinfoDestroy
  split
  · exact hloop _ m
  · rfl

theorem nodAllocProcinfo_hooks (env : ProcInfoEnv) (m : NodModule) :
    (m.nodAllocProcinfo env).2.hooks = m.hooks := by
  have hinit := fun addr (m : NodModule) =>
    (sameButBuffers (initBuffer_touches addr env m).fields).2.2.2.1
  unfold nodAllocProcinfo
  split
  · rfl
  · dsimp only
    split
    · exact hinit _ _
    · exact hinit _ _

theorem outTrace_threads (m : NodModule) : m.outTrace.hooks.threads = m.hooks.threads :=
  (congrArg Hooks.threads (procinfoDestroy_hooks m.tracepointDestory)).trans untraceSyscall_threads

theorem outProc_threads (m : NodModule) : m.outProc.hooks.threads = m.hooks.threads := by
  rw [outProc, outTrace_threads, procDestroy]
  split <;> rfl

/-- No thread is moved by loading the module. -/
theorem nodropInit_threads (env : ModuleEnv) (m : NodModule) :
    (m.nodropInit env).2.hooks.threads = m.hooks.threads := by
  have hcache : ∀ m : NodModule, (m.procinfoInit env.cache).2.hooks = m.hooks := by
    intro m
    unfold procinfoInit
    split <;> rfl
  have htrace : ∀ m : NodModule,
      (m.tracepointInit env.symbol env.tracepoints).2.hooks.threads = m.hooks.threads := by
    intro m
    unfold tracepointInit getTracepointHandles
    dsimp only
    rw [visitTracepoints_fields]
    split
    · rfl
    · split <;> rfl
  have hproc : ∀ m : NodModule, (m.procInit env.procCreate).2.hooks = m.hooks := by
    intro m
    unfold procInit
    split <;> rfl
  unfold nodropInit
  dsimp only
  split
  · rfl
  split
  · rw [outProcinfo, show ∀ n : NodModule, n.outLoader.hooks = n.hooks from fun _ => rfl,
      procinfoDestroy_hooks, hcache]
  split
  · rw [outTrace_threads, htrace, hcache]
  split
  · rw [outProc_threads, hproc, htrace, hcache]
  · rw [hproc, htrace, hcache]

end NodModule

/-- The thread that takes the step, on its way through `hook_general`. -/
def LifeAct.thread : LifeAct → Option Nat
  | .hook a => a.thread
  | _ => none

/-- A thread moves by its own steps only. -/
theorem lifeStep_threads {m m' : Machine} {a : LifeAct} {tid : Nat} (h : lifeStep m a = some m')
    (hother : a.thread ≠ some tid) : m'.nodrop.hooks.threads tid = m.nodrop.hooks.threads tid := by
  cases a with
  | insmod env =>
    simp only [lifeStep] at h
    split at h
    · cases h
    have hthreads := congrFun (NodModule.nodropInit_threads env (Machine.fresh m.nodrop)) tid
    split at h
    · rw [← Option.some.inj h]
      exact hthreads
    · rw [← Option.some.inj h]
      exact hthreads
  | rmmod =>
    simp only [lifeStep] at h
    split at h
    · rw [← Option.some.inj h]
      exact congrFun (NodModule.outProc_threads m.nodrop) tid
    · cases h
  | acquire status fd task pkey env =>
    simp only [lifeStep] at h
    split at h
    · rw [← Option.some.inj h]
      simp only [NodModule.nodProcAcquire]
      split
      · rfl
      · simp only [NodModule.nodAllocProcinfo_hooks]
    · cases h
  | release pid =>
    simp only [lifeStep] at h
    split at h
    · rw [← Option.some.inj h]
      simp only [NodModule.nodProcRelease]
      split
      · rw [(sameButBuffers (NodModule.nodFreeProcinfo_touches _ _).fields).2.2.2.1]
      · rfl
    · cases h
  | setStatus pid status fd =>
    simp only [lifeStep] at h
    repeat' split at h
    all_goals cases h
    rfl
  | start sysExit procexit =>
    simp only [lifeStep] at h
    split at h
    · rw [← Option.some.inj h]
      exact congrFun traceSyscall_threads tid
    · cases h
  | stop =>
    simp only [lifeStep] at h
    split at h
    · rw [← Option.some.inj h]
      exact congrFun untraceSyscall_threads tid
    · cases h
  | hook b =>
    have hstep : (if m.loaded = true then (hookStep m.nodrop.hooks b).map fun hooks =>
        { m with nodrop := { m.nodrop with hooks := hooks } } else none) = some m' := by
      cases b with
      | trace | untrace => cases h
      | enter | check | filter | call | leave => exact h
    split at hstep
    · obtain ⟨hooks, hhooks, rfl⟩ := Option.map_eq_some_iff.mp hstep
      exact hookStep_threads hhooks hother
    · cases hstep

/-- A thread that takes no step is outside all the time. -/
theorem out_of_run {tr : List (Machine × LifeAct)} {tid : Nat}
    (hrun : Run (stepOf lifeStep) (.start orig) tr m)
    (hother : ∀ x ∈ tr, x.2.thread ≠ some tid) :
    m.nodrop.hooks.threads tid = .out ∧ ∀ x ∈ tr, x.1.nodrop.hooks.threads tid = .out := by
  induction hrun with
  | nil => exact ⟨rfl, fun x hx => by cases hx⟩
  | snoc hprev hlast ih =>
    obtain ⟨hout, hall⟩ := ih fun x hx => hother x (List.mem_append_left _ hx)
    refine ⟨?_, fun x hx => ?_⟩
    · rw [lifeStep_threads hlast (hother _ (List.mem_append_right _ (List.mem_singleton.mpr rfl))), hout]
    · rcases List.mem_append.mp hx with hx | hx
      · exact hall x hx
      · rw [List.mem_singleton.mp hx]
        exact hout

/-- The address a step may take. -/
def LifeAct.addr : LifeAct → Option Nat
  | .acquire _ _ _ _ env => env.addr
  | _ => none

/-- What is looked at before a step in a run in which only thread 1 makes system calls. -/
def OneThread (m : Machine) (a : LifeAct) : Prop :=
  (m.nodrop.hooks.threads 1 = .out ∨ a.thread = some 1) ∧
    ∀ p ∈ m.nodrop.procTable, a.addr ≠ some p.addr

instance (m : Machine) (a : LifeAct) : Decidable (OneThread m a) :=
  inferInstanceAs (Decidable (_ ∧ _))

theorem inOrder_of_oneThread {tr : List (Machine × LifeAct)}
    (hrun : Run (stepOf lifeStep) (.start orig) tr m) (hone : Meets OneThread tr)
    (hfit : ∀ x ∈ tr, ∀ env, x.2 = .insmod env → TablesFit env.loader)
    (hthread : ∀ x ∈ tr, x.2.thread = none ∨ x.2.thread = some 1) : Meets InOrder tr := by
  intro x hx
  have hout : x.2.thread = none → ∀ tid, x.1.nodrop.hooks.threads tid = .out := by
    intro hnone tid
    by_cases htid : tid = 1
    · subst htid
      exact (hone x hx).1.resolve_right (by rw [hnone]; decide)
    · refine (out_of_run hrun fun y hy => ?_).2 x hx
      rcases hthread y hy with h | h <;> rw [h]
      · exact fun h => by cases h
      · exact fun h => htid (Option.some.inj h).symm
  obtain ⟨m, a⟩ := x
  cases a with
  | insmod env => exact hfit _ hx env rfl
  | rmmod => exact hout rfl
  | acquire status fd task pkey env => exact (hone _ hx).2
  | stop => exact fun tid => by rw [hout rfl tid]; rfl
  | release | setStatus | start | hook => trivial

/-- The same kernel, without room for the file in `/proc`. -/
def refusedModule : ModuleEnv := { soundModule with procCreate := false }

/-- A thread's buffers, at `addr`. -/
def threadAreas (addr : Nat) : ProcInfoEnv := ⟨some addr, true, fun _ => true⟩

/-- The first load fails at the end.  After the second one thread enters a recorded `munmap`, is
released while the recording is still on, and another one is there until the module goes. -/
def twoLoads : List LifeAct :=
  [.insmod refusedModule, .insmod soundModule, .start 0 0, .acquire .nodOut 3 ⟨1, 7⟩ 0 (threadAreas 4096),
    .hook (.enter 1 11), .hook (.check 1 true), .hook (.filter 1 0), .hook (.call 1),
    .hook (.leave 1), .release 1, .acquire .nodOut 3 ⟨2, 8⟩ 0 (threadAreas 8192), .stop, .rmmod]

end Left

end NoDrop
