import NoDrop.LoaderInit

/-! # The books of the loader

What `loader_init` of `kmodule/loader.c` has allocated, and which of its variables point to it.  At every
step the two agree (`Booked`), so that where it gives up the labels free what only a local variable points
to (`Booked.cleanup`), and `loader_destory` the rest (`Booked.loaderDestory`).

That is so as long as the tables fit that the files' headers describe: `elf_load_phdrs` and the others free
a pointer that was never set where they refuse a table.
-/
namespace NoDrop

open Fallible InitStep

namespace InitState

/-- The variable that points to the memory of a site. -/
def var (s : InitState) : LoaderSite → KPtr
  | .monitorPhdrs => s.monitorElfPhdata
  | .monitorShdrs => s.monitorElfShdata
  | .interpPhdrs => s.interpElfPhdata
  | .shstrtab => s.elfShstrtab
  | .interpPath => s.elfInterpreter
  | .monitorHdr | .interpHdr => .null

/-- `if (p) { vfree(p); p = NULL; }`, where `f` is the assignment. -/
def release (f : InitState → InitState) (p : KPtr) (s : InitState) : InitState :=
  if p ≠ .null then f (s.vfree p) else s

def freeMonitorPhdata (s : InitState) : InitState :=
  release (fun s => { s with monitorElfPhdata := .null }) s.monitorElfPhdata s

def freeMonitorShdata (s : InitState) : InitState :=
  release (fun s => { s with monitorElfShdata := .null }) s.monitorElfShdata s

def freeInterpPhdata (s : InitState) : InitState :=
  release (fun s => { s with interpElfPhdata := .null }) s.interpElfPhdata s

/-- `loader_destory`. -/
def loaderDestory (s : InitState) : InitState :=
  let s := s.putInterpreter
  let s := if s.filpMonitor then { s with filpMonitor := false } else s
  s.freeMonitorPhdata.freeMonitorShdata.freeInterpPhdata

/-- The books of the loader are right: memory is live exactly if its variable points to it, none was
freed twice, and nothing was freed that was no memory. -/
structure Booked (s : InitState) : Prop where
  var : ∀ site, s.var site = .null ∨ s.var site = .block site
  live : ∀ site, site ∈ s.live ↔ s.var site = .block site
  once : ∀ site, s.freed.count (.block site) + s.live.count site ≤ 1
  freed : KPtr.uninit ∉ s.freed

/-- Nothing was allocated at the site so far. -/
def Untouched (s : InitState) (site : LoaderSite) : Prop :=
  KPtr.block site ∉ s.freed ∧ site ∉ s.live

/-- An assignment of a pointer to the variable of a site. -/
structure Sets (site : LoaderSite) (p : KPtr) (f : InitState → InitState) : Prop where
  var : ∀ s x, (f s).var x = if x = site then p else s.var x
  live : ∀ s, (f s).live = s.live
  freed : ∀ s, (f s).freed = s.freed
  monitor : ∀ s, (f s).filpMonitor = s.filpMonitor
  interpreter : ∀ s, (f s).filpInterpreter = s.filpInterpreter

variable {s t : InitState} {site : LoaderSite} {f : InitState → InitState}

/-- The books depend on the variables and on what was allocated and freed. -/
theorem Booked.congr (h : s.Booked) (hvar : ∀ x, t.var x = s.var x) (hlive : t.live = s.live)
    (hfreed : t.freed = s.freed) : t.Booked := by
  refine ⟨fun x => ?_, fun x => ?_, ?_, ?_⟩
  · rw [hvar]
    exact h.var x
  · rw [hvar, hlive]
    exact h.live x
  · rw [hlive, hfreed]
    exact h.once
  · rw [hfreed]
    exact h.freed

theorem Booked.var_of_untouched (h : s.Booked) (hu : s.Untouched site) : s.var site = .null :=
  (h.var site).resolve_right fun hb => hu.2 ((h.live site).mpr hb)

/-- New memory, once its variable points to it. -/
theorem Booked.hold (h : s.Booked) (hu : s.Untouched site) (hf : Sets site (.block site) f) :
    (f (s.alloc site)).Booked ∧ ∀ x, x ≠ site → s.Untouched x → (f (s.alloc site)).Untouched x := by
  have hlive : (f (s.alloc site)).live = site :: s.live := hf.live _
  have hfreed : (f (s.alloc site)).freed = s.freed := hf.freed _
  have hvar : ∀ x, (f (s.alloc site)).var x = if x = site then .block site else s.var x :=
    fun x => hf.var _ x
  refine ⟨⟨fun x => ?_, fun x => ?_, fun x => ?_, ?_⟩, fun x hx hux => ?_⟩
  · rw [hvar]
    split
    · rename_i heq
      rw [heq]
      exact .inr rfl
    · exact h.var x
  · rw [hvar, hlive, List.mem_cons]
    split
    · rename_i heq
      rw [heq]
      exact iff_of_true (.inl rfl) rfl
    · rename_i hne
      rw [or_iff_right hne]
      exact h.live x
  · rw [hlive, hfreed]
    by_cases hx : x = site
    · subst hx
      rw [List.count_eq_zero_of_not_mem hu.1, List.count_cons_self,
        List.count_eq_zero_of_not_mem hu.2]
    · rw [List.count_cons_of_ne (Ne.symm hx)]
      exact h.once x
  · rw [hfreed]
    exact h.freed
  · refine ⟨by rw [hfreed]; exact hux.1, ?_⟩
    rw [hlive, List.mem_cons, not_or]
    exact ⟨hx, hux.2⟩

/-- Memory that is freed before its variable is set. -/
theorem Booked.vfree_alloc (h : s.Booked) (hu : s.Untouched site) :
    ((s.alloc site).vfree (.block site)).Booked ∧
      ∀ x, x ≠ site → s.Untouched x → ((s.alloc site).vfree (.block site)).Untouched x := by
  have hlive : ((s.alloc site).vfree (.block site)).live = s.live := List.erase_cons_head ..
  have hfreed : ((s.alloc site).vfree (.block site)).freed = s.freed ++ [.block site] := rfl
  refine ⟨⟨h.var, fun x => ?_, fun x => ?_, ?_⟩, fun x hx hux => ?_⟩
  · rw [hlive]
    exact h.live x
  · rw [hlive, hfreed, List.count_append]
    by_cases hx : x = site
    · subst hx
      rw [List.count_eq_zero_of_not_mem hu.1, List.count_eq_zero_of_not_mem hu.2,
        List.count_singleton_self]
    · have hne : KPtr.block x ≠ KPtr.block site := fun heq => hx (KPtr.block.inj heq)
      rw [List.count_singleton, if_neg (by simpa using hne.symm)]
      exact h.once x
  · rw [hfreed, List.mem_append, not_or]
    exact ⟨h.freed, by simp⟩
  · refine ⟨?_, by rw [hlive]; exact hux.2⟩
    rw [hfreed, List.mem_append, not_or]
    exact ⟨hux.1, by simpa using hx⟩

/-- `vfree(NULL)`. -/
theorem Booked.vfree_null (h : s.Booked) :
    (s.vfree .null).Booked ∧ ∀ x, s.Untouched x → (s.vfree .null).Untouched x := by
  have hfreed : (s.vfree .null).freed = s.freed ++ [.null] := rfl
  refine ⟨⟨h.var, h.live, fun x => ?_, ?_⟩, fun x hux => ⟨?_, hux.2⟩⟩
  · rw [hfreed, List.count_append, List.count_singleton, if_neg (by simp)]
    exact h.once x
  · rw [hfreed, List.mem_append, not_or]
    exact ⟨h.freed, by simp⟩
  · rw [hfreed, List.mem_append, not_or]
    exact ⟨hux.1, by simp⟩

/-- What is freed where its variable points to it, and the variable is cleared. -/
theorem Booked.release (h : s.Booked) (hf : Sets site .null f) :
    (release f (s.var site) s).Booked ∧
      (∀ x, (release f (s.var site) s).var x = if x = site then .null else s.var x) ∧
      (release f (s.var site) s).filpMonitor = s.filpMonitor ∧
      (release f (s.var site) s).filpInterpreter = s.filpInterpreter := by
  unfold InitState.release
  rcases h.var site with hnull | hblock
  · rw [hnull, if_neg (by simp)]
    refine ⟨h, fun x => ?_, rfl, rfl⟩
    split
    · rename_i heq
      rw [heq, hnull]
    · rfl
  · rw [hblock, if_pos (by simp)]
    have hvar : ∀ x, (f (s.vfree (.block site))).var x = if x = site then .null else s.var x :=
      fun x => hf.var _ x
    have hlive : (f (s.vfree (.block site))).live = s.live.erase site := hf.live _
    have hfreed : (f (s.vfree (.block site))).freed = s.freed ++ [.block site] := hf.freed _
    have hmem : site ∈ s.live := (h.live site).mpr hblock
    have hcount := h.once site
    have hone : 0 < s.live.count site := List.count_pos_iff.mpr hmem
    refine ⟨⟨fun x => ?_, fun x => ?_, fun x => ?_, ?_⟩, hvar, hf.monitor _, hf.interpreter _⟩
    · rw [hvar]
      split
      · exact .inl rfl
      · exact h.var x
    · rw [hvar, hlive]
      split
      · rename_i heq
        subst heq
        refine iff_of_false (fun hx => ?_) KPtr.noConfusion
        have hpos := List.count_pos_iff.mpr hx
        rw [List.count_erase_self] at hpos
        omega
      · rename_i hne
        rw [List.mem_erase_of_ne hne]
        exact h.live x
    · rw [hlive, hfreed, List.count_append]
      by_cases hx : x = site
      · subst hx
        rw [List.count_erase_self, List.count_singleton_self]
        omega
      · have hne : KPtr.block x ≠ KPtr.block site := fun heq => hx (KPtr.block.inj heq)
        rw [List.count_erase_of_ne hx, List.count_singleton, if_neg (by simpa using hne.symm)]
        exact h.once x
    · rw [hfreed, List.mem_append, not_or]
      exact ⟨h.freed, by simp⟩

/-! ## What the labels leave -/

/-- What still needs giving back where the code goes to a label. -/
def Leaves (s : InitState) : InitExit → Prop
  | .out => s.filpMonitor = false ∧ s.filpInterpreter = false ∧ s.elfShstrtab = .null ∧
      s.elfInterpreter = .null
  | .freeMonitor => s.filpInterpreter = false ∧ s.elfInterpreter = .null
  | .freeInterp => s.filpInterpreter = false
  | .freeDentry => True

theorem sets_interpreter (p : KPtr) :
    Sets .interpPath p fun s => { s with elfInterpreter := p } :=
  ⟨fun s x => by cases x <;> rfl, fun _ => rfl, fun _ => rfl, fun _ => rfl, fun _ => rfl⟩

theorem sets_shstrtab (p : KPtr) : Sets .shstrtab p fun s => { s with elfShstrtab := p } :=
  ⟨fun s x => by cases x <;> rfl, fun _ => rfl, fun _ => rfl, fun _ => rfl, fun _ => rfl⟩

theorem sets_monitorPhdata (p : KPtr) :
    Sets .monitorPhdrs p fun s => { s with monitorElfPhdata := p } :=
  ⟨fun s x => by cases x <;> rfl, fun _ => rfl, fun _ => rfl, fun _ => rfl, fun _ => rfl⟩

theorem sets_monitorShdata (p : KPtr) :
    Sets .monitorShdrs p fun s => { s with monitorElfShdata := p } :=
  ⟨fun s x => by cases x <;> rfl, fun _ => rfl, fun _ => rfl, fun _ => rfl, fun _ => rfl⟩

theorem sets_interpPhdata (p : KPtr) :
    Sets .interpPhdrs p fun s => { s with interpElfPhdata := p } :=
  ⟨fun s x => by cases x <;> rfl, fun _ => rfl, fun _ => rfl, fun _ => rfl, fun _ => rfl⟩

theorem sets_monitorPhdrs (p : KPtr) (bs : List UInt8) :
    Sets .monitorPhdrs p fun s => { s with monitorElfPhdata := p, phdrs := bs } :=
  ⟨fun s x => by cases x <;> rfl, fun _ => rfl, fun _ => rfl, fun _ => rfl, fun _ => rfl⟩

theorem sets_monitorShdrs (p : KPtr) (bs : List UInt8) :
    Sets .monitorShdrs p fun s => { s with monitorElfShdata := p, shdrs := bs } :=
  ⟨fun s x => by cases x <;> rfl, fun _ => rfl, fun _ => rfl, fun _ => rfl, fun _ => rfl⟩

theorem sets_shstrtab_read (p : KPtr) (bs : List UInt8) :
    Sets .shstrtab p fun s => { s with elfShstrtab := p, strtab := bs } :=
  ⟨fun s x => by cases x <;> rfl, fun _ => rfl, fun _ => rfl, fun _ => rfl, fun _ => rfl⟩

theorem putInterpreter_eq (s : InitState) :
    s.putInterpreter = { s with filpInterpreter := false } := by
  unfold putInterpreter
  split
  · rfl
  · rename_i hf
    rw [Bool.not_eq_true] at hf
    rw [← hf]

theorem closeMonitor_eq (s : InitState) :
    (if s.filpMonitor then { s with filpMonitor := false } else s) =
      { s with filpMonitor := false } := by
  split
  · rfl
  · rename_i hf
    rw [Bool.not_eq_true] at hf
    rw [← hf]

/-- The files are closed, and the memory that no static variable points to is freed. -/
structure Cleaned (s : InitState) : Prop where
  booked : s.Booked
  monitor : s.filpMonitor = false
  interpreter : s.filpInterpreter = false
  shstrtab : s.elfShstrtab = .null
  path : s.elfInterpreter = .null

/-- A site keeps untouched when another one's memory is freed. -/
theorem untouched_vfree {x : LoaderSite} {p : KPtr} (hu : s.Untouched x) (hp : p ≠ .block x) :
    (s.vfree p).Untouched x := by
  refine ⟨fun hmem => ?_, fun hmem => hu.2 ?_⟩
  · rcases mem_vfree_freed.mp hmem with hmem | heq
    · exact hu.1 hmem
    · exact hp heq.symm
  · cases p with
    | null => exact hmem
    | uninit => exact hmem
    | block y => exact List.mem_of_mem_erase hmem

/-- The path of the interpreter is freed as it is. -/
theorem Booked.vfreePath (h : s.Booked) :
    InitState.Booked { s.vfree s.elfInterpreter with elfInterpreter := .null } := by
  rcases h.var .interpPath with hnull | hblock
  · have hnull : s.elfInterpreter = .null := hnull
    rw [hnull]
    refine h.vfree_null.1.congr (fun x => ?_) rfl rfl
    cases x <;> first | rfl | exact hnull.symm
  · have hrel := (h.release (sets_interpreter .null)).1
    rwa [InitState.release, if_pos (by rw [hblock]; simp)] at hrel

theorem Booked.freePath (h : s.Booked) : s.freePath.Booked ∧ s.freePath.elfInterpreter = .null ∧
    s.freePath.filpInterpreter = s.filpInterpreter := by
  obtain ⟨hb, hvar, -, hint⟩ := h.release (sets_interpreter .null)
  exact ⟨hb, hvar .interpPath, hint⟩

theorem Booked.putMonitor (h : s.Booked) (hint : s.filpInterpreter = false)
    (hpath : s.elfInterpreter = .null) : s.putMonitor.Cleaned := by
  have hclosed : InitState.Booked { s with filpMonitor := false } :=
    h.congr (fun x => by cases x <;> rfl) rfl rfl
  obtain ⟨hb, hvar, hmon, hint'⟩ := hclosed.release (sets_shstrtab .null)
  have heq : s.putMonitor = InitState.release (fun s => { s with elfShstrtab := .null })
      s.elfShstrtab { s with filpMonitor := false } := by
    simp only [InitState.putMonitor, closeMonitor_eq, InitState.release]
  rw [heq]
  exact ⟨hb, hmon, hint'.trans hint, hvar .shstrtab, (hvar .interpPath).trans hpath⟩

theorem Booked.cleanup (h : s.Booked) {label : InitExit} (hl : s.Leaves label) :
    (s.cleanup label).Cleaned := by
  cases label with
  | out => exact ⟨h, hl.1, hl.2.1, hl.2.2.1, hl.2.2.2⟩
  | freeMonitor => exact h.putMonitor hl.1 hl.2
  | freeInterp =>
    obtain ⟨hb, hpath, hint⟩ := h.freePath
    exact hb.putMonitor (hint.trans hl) hpath
  | freeDentry =>
    have hclosed : s.putInterpreter.Booked := by
      rw [putInterpreter_eq]
      exact h.congr (fun x => by cases x <;> rfl) rfl rfl
    obtain ⟨hb, hpath, hint⟩ := hclosed.freePath
    refine hb.putMonitor (hint.trans ?_) hpath
    rw [putInterpreter_eq]

/-- **`loader_destory` gives everything back** but what only a local variable pointed to. -/
theorem Booked.loaderDestory (h : s.Booked) : s.loaderDestory.Booked ∧
    s.loaderDestory.filpMonitor = false ∧ s.loaderDestory.filpInterpreter = false ∧
    ∀ x, s.loaderDestory.var x = match x with
      | .shstrtab => s.elfShstrtab
      | .interpPath => s.elfInterpreter
      | _ => .null := by
  obtain ⟨s₁, hs₁⟩ : ∃ t, t = { s with filpMonitor := false, filpInterpreter := false } := ⟨_, rfl⟩
  have hvar₁ : ∀ x, s₁.var x = s.var x := fun x => by rw [hs₁]; cases x <;> rfl
  have h₁ : s₁.Booked := h.congr hvar₁ (by rw [hs₁]) (by rw [hs₁])
  have heq : s.loaderDestory = s₁.freeMonitorPhdata.freeMonitorShdata.freeInterpPhdata := by
    unfold InitState.loaderDestory
    rw [putInterpreter_eq, hs₁]
    exact congrArg (fun t : InitState => t.freeMonitorPhdata.freeMonitorShdata.freeInterpPhdata)
      (closeMonitor_eq { s with filpInterpreter := false })
  obtain ⟨h₂, hvar₂, hmon₂, hint₂⟩ := h₁.release (sets_monitorPhdata .null)
  obtain ⟨h₃, hvar₃, hmon₃, hint₃⟩ := h₂.release (sets_monitorShdata .null)
  obtain ⟨h₄, hvar₄, hmon₄, hint₄⟩ := h₃.release (sets_interpPhdata .null)
  rw [heq]
  refine ⟨h₄, ?_, ?_, fun x => ?_⟩
  · exact hmon₄.trans (hmon₃.trans (hmon₂.trans (by rw [hs₁])))
  · exact hint₄.trans (hint₃.trans (hint₂.trans (by rw [hs₁])))
  · refine (hvar₄ x).trans ?_
    rw [hvar₃, hvar₂, hvar₁]
    cases x <;> rfl

end InitState

/-! ## `loader_init` -/

section LoaderInit

open InitState

/-- The tables that the headers describe fit, where they are looked at. -/
def TablesFit (e : LoaderEnv) : Prop :=
  (∀ hdr, e.kernelRead .monitorHdr 0 elfhdrSize = .ok hdr → IsElf hdr →
    PhdrsFit hdr ∧ ShdrsFit hdr ∧ StrtabFits hdr) ∧
  ∀ hdr, e.kernelRead .interpHdr 0 elfhdrSize = .ok hdr → IsElf hdr → PhdrsFit hdr

/-- How far `loader_init` has come: nothing has been allocated at the sites to come, and which files are
open. -/
structure LoaderStage (todo : List LoaderSite) (monitor interp : Bool) (s : InitState) : Prop where
  booked : s.Booked
  untouched : ∀ x ∈ todo, s.Untouched x
  monitor : s.filpMonitor = monitor
  interp : s.filpInterpreter = interp

/-- What holds where `loader_init` goes to a label. -/
def LeavesAt (err : Int × InitExit) (s : InitState) : Prop := s.Booked ∧ s.Leaves err.2

variable {e : LoaderEnv} {s : InitState} {P : InitState → Prop} {todo : List LoaderSite} {monitor interp : Bool}

theorem LoaderStage.leaves (h : LoaderStage todo monitor false s) (hpath : .interpPath ∈ todo) (ret : Int) :
    LeavesAt (ret, .freeMonitor) s :=
  ⟨h.booked, h.interp, h.booked.var_of_untouched (h.untouched _ hpath)⟩

theorem triple_set {f : InitState → InitState} {Q : InitState → Prop} (h : ∀ s, P s → Q (f s)) :
    Triple P (InitStep.set f) (fun _ => Q) LeavesAt := Triple.lift h

theorem triple_gotoIf {cond : Prop} [Decidable cond] {ret : Int} {label : InitExit}
    (h : ∀ s, P s → LeavesAt (ret, label) s) :
    Triple P (gotoIf cond ret label) (fun _ s => ¬cond ∧ P s) LeavesAt := by
  unfold gotoIf
  split
  · exact Triple.fail h
  · rename_i hc
    exact Triple.pure fun s hs => ⟨hc, hs⟩

theorem triple_openExec {outcome : Except Int Unit} {label : InitExit}
    (h : ∀ ret s, P s → LeavesAt (ret, label) s) :
    Triple P (openExec outcome label) (fun _ => P) LeavesAt := by
  unfold openExec
  split
  · exact Triple.fail (h _)
  · exact Triple.pure fun _ hs => hs

theorem triple_kernelRead {site : LoaderSite} {pos : UInt64} {size : Nat} {label : InitExit}
    (h : ∀ ret s, P s → LeavesAt (ret, label) s) :
    Triple P (InitStep.kernelRead e site pos size label)
      (fun bs s => e.kernelRead site pos size = .ok bs ∧ P s) LeavesAt := by
  unfold InitStep.kernelRead
  split
  · exact Triple.fail (h _)
  · rename_i bs hbs
    split
    · exact Triple.fail (h _)
    · exact Triple.pure fun _ hs => ⟨hbs, hs⟩

/-- A table has been read, or not, and its variable is about to be set. -/
def Fetched (site : LoaderSite) (todo : List LoaderSite) (monitor interp : Bool)
    (r : Int × KPtr × List UInt8) (t : InitState) : Prop :=
  ∀ g, Sets site r.2.1 g → LoaderStage todo monitor interp (g t)

theorem fetched_elfLoadTable {site : LoaderSite} {fits : Prop} [Decidable fits] (hfits : fits)
    (size : Nat) (pos : UInt64) (h : LoaderStage (site :: todo) monitor interp s) (hnew : site ∉ todo) :
    Fetched site todo monitor interp (elfLoadTable e site fits size pos s).1
      (elfLoadTable e site fits size pos s).2 := by
  have hu : s.Untouched site := h.untouched site List.mem_cons_self
  have hrest : ∀ x ∈ todo, x ≠ site ∧ s.Untouched x := fun x hx =>
    ⟨fun heq => hnew (heq ▸ hx), h.untouched x (List.mem_cons_of_mem _ hx)⟩
  -- where nothing was read, the variable is set to what it is
  have hfail : ∀ t : InitState, t.Booked → (∀ x ∈ todo, t.Untouched x) → t.var site = .null →
      t.filpMonitor = monitor → t.filpInterpreter = interp → ∀ g, Sets site .null g →
        LoaderStage todo monitor interp (g t) := by
    intro t hb ht hvar hmon hint g hg
    refine ⟨hb.congr (fun x => ?_) (hg.live t) (hg.freed t), fun x hx => ?_, ?_, ?_⟩
    · rw [hg.var]
      split
      · rename_i heq
        rw [heq, hvar]
      · rfl
    · unfold InitState.Untouched
      rw [hg.live, hg.freed]
      exact ht x hx
    · rw [hg.monitor, hmon]
    · rw [hg.interpreter, hint]
  have hfreed : ∀ g, Sets site .null g →
      LoaderStage todo monitor interp (g ((s.alloc site).vfree (.block site))) := by
    obtain ⟨hb, ht⟩ := h.booked.vfree_alloc hu
    exact hfail _ hb (fun x hx => ht x (hrest x hx).1 (hrest x hx).2)
      (h.booked.var_of_untouched hu) h.monitor h.interp
  unfold elfLoadTable
  rw [if_neg (not_not.mpr hfits)]
  by_cases hv : e.vmalloc site size = false
  · rw [if_pos hv]
    obtain ⟨hb, ht⟩ := h.booked.vfree_null
    exact hfail _ hb (fun x hx => ht x (hrest x hx).2) (h.booked.var_of_untouched hu) h.monitor
      h.interp
  · rw [if_neg hv]
    dsimp only
    cases e.kernelRead site pos size with
    | error err => exact hfreed
    | ok bs =>
      dsimp only
      split
      · exact hfreed
      · intro g hg
        obtain ⟨hb, ht⟩ := h.booked.hold hu hg
        refine ⟨hb, fun x hx => ht x (hrest x hx).1 (hrest x hx).2, ?_, ?_⟩
        · exact (hg.monitor _).trans h.monitor
        · exact (hg.interpreter _).trans h.interp

theorem elfLoadTable_interpreter (site : LoaderSite) (fits : Prop) [Decidable fits] (size : Nat)
    (pos : UInt64) (s : InitState) :
    (elfLoadTable e site fits size pos s).2.elfInterpreter = s.elfInterpreter := by
  unfold elfLoadTable
  dsimp only
  repeat' split
  all_goals rfl

/-- The step that reads a table. -/
theorem triple_table {site : LoaderSite} {fits : Prop} [Decidable fits] (hfits : fits) (size : Nat)
    (pos : UInt64) (hnew : site ∉ todo) :
    Triple (LoaderStage (site :: todo) monitor interp) (.lift (elfLoadTable e site fits size pos))
      (Fetched site todo monitor interp) LeavesAt :=
  Triple.lift fun _ hs => fetched_elfLoadTable hfits size pos hs hnew

theorem stage_opened :
    LoaderStage [.monitorPhdrs, .monitorShdrs, .shstrtab, .interpPath, .interpPhdrs] true false
      { InitState.start with filpMonitor := true } := by
  refine ⟨⟨fun x => ?_, fun x => ?_, fun x => ?_, ?_⟩, fun x _ => ⟨?_, ?_⟩, rfl, rfl⟩
  · cases x <;> exact .inl rfl
  · cases x <;> exact iff_of_false (fun h => nomatch h) KPtr.noConfusion
  · exact Nat.zero_le 1
  · exact fun h => nomatch h
  · exact fun h => nomatch h
  · exact fun h => nomatch h

/-- The monitor's tables have been read. -/
theorem triple_loadTables (hfit : TablesFit e) :
    Triple (· = InitState.start) (loadTables e)
      (fun _ => LoaderStage [.interpPath, .interpPhdrs] true false) LeavesAt := by
  have hout : ∀ ret s, s = InitState.start → LeavesAt (ret, .out) s := by
    rintro ret s rfl
    refine ⟨stage_opened.booked.congr (fun x => by cases x <;> rfl) rfl rfl, rfl, rfl, rfl, rfl⟩
  have hleave : ∀ {todo : List LoaderSite}, LoaderSite.interpPath ∈ todo →
      ∀ ret s, LoaderStage todo true false s → LeavesAt (ret, .freeMonitor) s :=
    fun hpath ret s hs => hs.leaves hpath ret
  refine Triple.bind (triple_openExec hout) fun _ => ?_
  refine Triple.bind (triple_set (Q := LoaderStage [.monitorPhdrs, .monitorShdrs, .shstrtab, .interpPath,
    .interpPhdrs] true false) fun s hs => hs ▸ stage_opened) fun _ => ?_
  refine Triple.bind (triple_kernelRead (hleave (by decide))) fun hdr => Triple.known fun hread => ?_
  refine Triple.bind (triple_gotoIf (hleave (by decide) _)) fun _ => Triple.known fun helf => ?_
  refine Triple.bind (triple_gotoIf (hleave (by decide) _)) fun _ => Triple.known fun _ => ?_
  refine Triple.bind (triple_gotoIf (hleave (by decide) _)) fun _ => Triple.known fun _ => ?_
  refine Triple.bind (triple_gotoIf (hleave (by decide) _)) fun _ => Triple.known fun _ => ?_
  obtain ⟨hph, hsh, hstr⟩ := hfit.1 hdr hread (not_not.mp helf)
  refine Triple.bind (triple_table hph _ _ (by decide)) fun ⟨err, phdata, phdrs⟩ => ?_
  refine Triple.bind (triple_set fun s hs => hs _ (sets_monitorPhdrs phdata phdrs)) fun _ => ?_
  refine Triple.bind (triple_gotoIf (hleave (by decide) _)) fun _ => Triple.known fun _ => ?_
  refine Triple.bind (triple_table hsh _ _ (by decide)) fun ⟨err, shdata, shdrs⟩ => ?_
  refine Triple.bind (triple_set fun s hs => hs _ (sets_monitorShdrs shdata shdrs)) fun _ => ?_
  refine Triple.bind (triple_gotoIf (hleave (by decide) _)) fun _ => Triple.known fun _ => ?_
  refine Triple.bind (triple_table hstr _ _ (by decide)) fun ⟨err, shstrtab, strtab⟩ => ?_
  refine Triple.bind (triple_set fun s hs => hs _ (sets_shstrtab_read shstrtab strtab)) fun _ => ?_
  refine Triple.bind (triple_gotoIf (hleave (by decide) _)) fun _ => Triple.known fun _ => ?_
  exact Triple.pure fun s hs => hs

/-- The interpreter has been opened and read. -/
theorem triple_loadInterp (hfit : TablesFit e) (ph : ElfPhdr) :
    Triple (LoaderStage [.interpPath, .interpPhdrs] true false) (loadInterp e ph)
      (fun _ s => s.Booked ∧ s.elfInterpreter = .null) LeavesAt := by
  have hpathless : ∀ ret s, LoaderStage [.interpPhdrs] true false s → LeavesAt (ret, .freeInterp) s :=
    fun ret s hs => ⟨hs.booked, hs.interp⟩
  have hdentry : ∀ ret s, LoaderStage [.interpPhdrs] true true s → LeavesAt (ret, .freeDentry) s :=
    fun ret s hs => ⟨hs.booked, trivial⟩
  have hfreed : ∀ ret s, LoaderStage [.interpPhdrs] true true s ∧ s.elfInterpreter = .null →
      LeavesAt (ret, .freeDentry) s := fun ret s hs => hdentry ret s hs.1
  refine Triple.bind (triple_gotoIf fun s hs => hs.leaves (by decide) _) fun _ =>
    Triple.known fun _ => ?_
  refine Triple.bind (triple_gotoIf fun s hs => hs.leaves (by decide) _) fun _ =>
    Triple.known fun _ => ?_
  refine Triple.bind (triple_set (Q := LoaderStage [.interpPhdrs] true false) fun s hs => ?_) fun _ => ?_
  · obtain ⟨hb, ht⟩ := hs.booked.hold (hs.untouched .interpPath (by decide))
      (sets_interpreter (.block .interpPath))
    refine ⟨hb, fun x hx => ht x ?_ (hs.untouched x (List.mem_cons_of_mem _ hx)), hs.monitor,
      hs.interp⟩
    rw [List.mem_singleton.mp hx]
    decide
  refine Triple.bind (triple_kernelRead hpathless) fun path => Triple.known fun _ => ?_
  refine Triple.bind (triple_gotoIf (hpathless _)) fun _ => Triple.known fun _ => ?_
  refine Triple.bind (triple_openExec hpathless) fun _ => ?_
  refine Triple.bind (triple_set (Q := LoaderStage [.interpPhdrs] true true) fun s hs => ?_) fun _ => ?_
  · exact ⟨hs.booked.congr (fun x => by cases x <;> rfl) rfl rfl, hs.untouched, hs.monitor, rfl⟩
  refine Triple.bind (triple_kernelRead hdentry) fun hdr => Triple.known fun hread => ?_
  refine Triple.bind (triple_set (Q := fun s => s.elfInterpreter = .null ∧
    LoaderStage [.interpPhdrs] true true s) fun s hs => ⟨rfl, hs.booked.vfreePath, fun x hx => ?_,
      hs.monitor, hs.interp⟩) fun _ => ?_
  · refine untouched_vfree (hs.untouched x hx) fun heq => ?_
    rw [List.mem_singleton.mp hx] at heq
    rcases hs.booked.var .interpPath with hnull | hblock
    · exact KPtr.noConfusion (hnull.symm.trans heq)
    · exact LoaderSite.noConfusion (KPtr.block.inj (hblock.symm.trans heq))
  refine Triple.bind (triple_gotoIf fun s hs => hdentry _ s hs.2) fun _ => Triple.known fun helf => ?_
  refine Triple.bind (triple_gotoIf fun s hs => hdentry _ s hs.2) fun _ => Triple.known fun _ => ?_
  have hph : PhdrsFit hdr := hfit.2 hdr hread (not_not.mp helf)
  refine Triple.bind (Triple.lift (Q := fun r t => t.elfInterpreter = .null ∧
    Fetched .interpPhdrs [] true true r t) fun s hs =>
      ⟨(elfLoadTable_interpreter ..).trans hs.1, fetched_elfLoadTable hph _ _ hs.2 (by decide)⟩)
    fun ⟨err, phdata, phdrs⟩ => ?_
  refine Triple.bind (triple_set (Q := fun s => s.elfInterpreter = .null ∧ LoaderStage [] true true s)
    fun s hs => ⟨hs.1, hs.2 _ (sets_interpPhdata phdata)⟩) fun _ => ?_
  refine (triple_gotoIf fun s hs => ⟨hs.2.booked, ?_⟩).post fun _ s hs =>
    ⟨hs.2.2.booked, hs.2.1⟩
  trivial

/-- `loader_init` up to its labels. -/
theorem triple_loaderBody (hfit : TablesFit e) :
    Triple (· = InitState.start) (loaderBody e)
      (fun _ s => s.Booked ∧ s.elfInterpreter = .null) LeavesAt := by
  refine Triple.bind (triple_loadTables hfit) fun hdr => ?_
  refine Triple.bind (Q := fun _ => LoaderStage [.interpPath, .interpPhdrs] true false) ?_ fun _ => ?_
  · refine Triple.bind (Triple.lift (Q := fun _ => LoaderStage [.interpPath, .interpPhdrs] true false)
      fun s hs => ?_) fun off => ?_
    · exact ⟨hs.booked.congr (fun x => by cases x <;> rfl) rfl rfl, hs.untouched, hs.monitor,
        hs.interp⟩
    · exact (triple_gotoIf fun s hs => hs.leaves (by decide) _).post fun _ s hs => hs.2
  · refine Triple.bind (Triple.lift (Q := fun _ => LoaderStage [.interpPath, .interpPhdrs] true false)
      fun s hs => hs) fun interp => ?_
    cases interp with
    | none =>
      exact Triple.pure fun s hs => ⟨hs.booked, hs.booked.var_of_untouched
        (hs.untouched .interpPath (by decide))⟩
    | some ph => exact triple_loadInterp hfit ph

/-- **`loader_init` keeps its books**: the memory it has allocated is where its variables say, and where
it fails only the static variables still point to some. -/
theorem loaderInit_booked (hfit : TablesFit e) :
    ((loaderInit e).1 = 0 → (loaderInit e).2.Booked ∧ (loaderInit e).2.elfInterpreter = .null) ∧
      ((loaderInit e).1 ≠ 0 → (loaderInit e).2.Cleaned) := by
  obtain ⟨hok, herr⟩ := triple_loaderBody hfit InitState.start rfl
  unfold loaderInit
  rcases hbody : loaderBody e InitState.start with ⟨r, s⟩
  cases r with
  | ok a => exact ⟨fun _ => hok a s hbody, fun h => absurd rfl h⟩
  | error err =>
    obtain ⟨hb, hl⟩ := herr err s hbody
    have hclean := hb.cleanup hl
    exact ⟨fun _ => ⟨hclean.booked, hclean.path⟩, fun _ => hclean⟩

/-! ## The names of the sections -/

/-- The names of the sections are where they were. -/
def SameNames (s t : InitState) : Prop := t.elfShstrtab = s.elfShstrtab

theorem SameNames.refl (s : InitState) : SameNames s s := rfl

theorem SameNames.trans {s t u : InitState} (h : SameNames s t) (h' : SameNames t u) :
    SameNames s u := Eq.trans h' h

/-- A step that leaves them there. -/
def KeepsNames {α : Type} (m : InitStep α) : Prop := Within SameNames (fun _ => True) m

theorem KeepsNames.bind {α β : Type} {m : InitStep α} {f : α → InitStep β} (hm : KeepsNames m)
    (hf : ∀ a, KeepsNames (f a)) : KeepsNames (m >>= f) :=
  Within.bind (R := SameNames) SameNames.trans hm hf

theorem keepsNames_fail {α : Type} (err : Int × InitExit) :
    KeepsNames (Fallible.fail err : InitStep α) := Within.fail SameNames.refl trivial

theorem keepsNames_pure {α : Type} (a : α) : KeepsNames (pure a : InitStep α) :=
  Within.pure SameNames.refl a

theorem keepsNames_set {f : InitState → InitState} (hf : ∀ s, SameNames s (f s)) :
    KeepsNames (InitStep.set f) := Within.lift hf

theorem keepsNames_gotoIf (cond : Prop) [Decidable cond] (ret : Int) (label : InitExit) :
    KeepsNames (gotoIf cond ret label) := by
  unfold gotoIf
  split
  · exact keepsNames_fail _
  · exact keepsNames_pure ()

theorem keepsNames_openExec (outcome : Except Int Unit) (label : InitExit) :
    KeepsNames (openExec outcome label) := by
  unfold openExec
  split
  · exact keepsNames_fail _
  · exact keepsNames_pure ()

theorem keepsNames_kernelRead (site : LoaderSite) (pos : UInt64) (size : Nat) (label : InitExit) :
    KeepsNames (InitStep.kernelRead e site pos size label) := by
  unfold InitStep.kernelRead
  split
  · exact keepsNames_fail _
  · split
    · exact keepsNames_fail _
    · exact keepsNames_pure _

theorem keepsNames_table (site : LoaderSite) (fits : Prop) [Decidable fits] (size : Nat)
    (pos : UInt64) : KeepsNames (.lift (elfLoadTable e site fits size pos)) := by
  refine Within.lift fun s => ?_
  unfold elfLoadTable
  dsimp only
  repeat' split
  all_goals rfl

theorem keepsNames_loadInterp (ph : ElfPhdr) : KeepsNames (loadInterp e ph) := by
  unfold loadInterp
  refine (keepsNames_gotoIf _ _ _).bind fun _ => (keepsNames_gotoIf _ _ _).bind fun _ => ?_
  refine (keepsNames_set fun s => ?_).bind fun _ => ?_
  · rfl
  refine (keepsNames_kernelRead _ _ _ _).bind fun path => (keepsNames_gotoIf _ _ _).bind fun _ => ?_
  refine (keepsNames_openExec _ _).bind fun _ => (keepsNames_set fun s => ?_).bind fun _ => ?_
  · rfl
  refine (keepsNames_kernelRead _ _ _ _).bind fun hdr => (keepsNames_set fun s => ?_).bind fun _ => ?_
  · rfl
  refine (keepsNames_gotoIf _ _ _).bind fun _ => (keepsNames_gotoIf _ _ _).bind fun _ => ?_
  refine (keepsNames_table _ _ _ _).bind fun r => (keepsNames_set fun s => ?_).bind fun _ => ?_
  · rfl
  exact keepsNames_gotoIf _ _ _

/-- What a step leaves alone still holds after it. -/
theorem KeepsNames.triple {α : Type} {m : InitStep α} (h : KeepsNames m) :
    Triple (fun s => s.elfShstrtab ≠ .null) m (fun _ s => s.elfShstrtab ≠ .null)
      (fun _ _ => True) := by
  refine fun s hs => ⟨fun a t ht => ?_, fun _ _ _ => trivial⟩
  have hsame : (m s).2.elfShstrtab = s.elfShstrtab := h.state s
  rw [ht] at hsame
  show t.elfShstrtab ≠ .null
  rwa [hsame]

theorem elfLoadTable_block {site : LoaderSite} {fits : Prop} [Decidable fits] {size : Nat}
    {pos : UInt64} (h : (elfLoadTable e site fits size pos s).1.1 = 0)
    (hread : ∀ err, e.kernelRead site pos size = .error err → err < 0) :
    (elfLoadTable e site fits size pos s).1.2.1 = .block site := by
  have herr : ∀ err : Int, err < 0 → ∀ p : KPtr, err = 0 → p = .block site :=
    fun err hneg p h => absurd h hneg.ne
  revert h
  unfold elfLoadTable
  split
  · exact herr (-1) (by decide) _
  split
  · exact herr (-1) (by decide) _
  dsimp only
  cases hk : e.kernelRead site pos size with
  | error err => exact herr err (hread err hk) _
  | ok bs =>
    dsimp only
    split
    · exact herr errIo (by decide) _
    · exact fun _ => rfl

/-- Once the monitor's tables have been read, the names are there. -/
theorem triple_names : Triple (fun _ => True) (loadTables e) (fun _ s => s.elfShstrtab ≠ .null)
    (fun _ _ => True) := by
  have hany : ∀ {α : Type} (m : InitStep α),
      Triple (fun _ => True) m (fun _ _ => True) (fun _ _ => True) :=
    fun m s _ => ⟨fun _ _ _ => trivial, fun _ _ _ => trivial⟩
  unfold loadTables
  refine Triple.bind (hany _) fun _ => Triple.bind (hany _) fun _ => Triple.bind (hany _) fun hdr => ?_
  refine Triple.bind (hany _) fun _ => Triple.bind (hany _) fun _ => Triple.bind (hany _) fun _ => ?_
  refine Triple.bind (hany _) fun _ => Triple.bind (hany _) fun ⟨err, phdata, phdrs⟩ => ?_
  refine Triple.bind (hany _) fun _ => Triple.bind (hany _) fun _ => ?_
  refine Triple.bind (hany _) fun ⟨err, shdata, shdrs⟩ => ?_
  refine Triple.bind (hany _) fun _ => Triple.bind (hany _) fun _ => ?_
  refine Triple.bind (Triple.lift (Q := fun r _ => r.1 = 0 → r.2.1 = .block .shstrtab)
    fun s _ h => elfLoadTable_block h fun err => e.read_neg _ _ _ err) fun ⟨err, shstrtab, strtab⟩ => ?_
  refine Triple.bind (Triple.lift (Q := fun _ s => err = 0 → s.elfShstrtab = .block .shstrtab)
    fun s hs h => hs h) fun _ => ?_
  refine Triple.bind (Q := fun _ s => s.elfShstrtab ≠ .null) ?_ fun _ => Triple.pure fun s hs => hs
  unfold gotoIf
  split
  · exact Triple.fail fun _ _ => trivial
  · rename_i herr
    refine Triple.pure fun s hs => ?_
    rw [hs (not_not.mp herr)]
    exact KPtr.noConfusion

/-- **The names of the sections are left** exactly if `loader_init` gets through without going to a
label. -/
theorem loaderInit_names (hfit : TablesFit e) :
    (loaderInit e).2.elfShstrtab ≠ .null ↔ ∃ u, (loaderBody e InitState.start).1 = .ok u := by
  have hbody : Triple (fun _ => True) (loaderBody e) (fun _ s => s.elfShstrtab ≠ .null)
      (fun _ _ => True) := by
    unfold loaderBody
    refine Triple.bind triple_names fun hdr => ?_
    refine Triple.bind (KeepsNames.triple ?_) fun _ => ?_
    · unfold findSection
      refine KeepsNames.bind (Within.lift fun s => ?_) fun off => keepsNames_gotoIf _ _ _
      rfl
    refine Triple.bind (KeepsNames.triple (Within.lift SameNames.refl)) fun interp => ?_
    cases interp with
    | none => exact (keepsNames_pure ()).triple
    | some ph => exact (keepsNames_loadInterp ph).triple
  have hnames := (hbody InitState.start trivial).1
  obtain ⟨-, herr⟩ := triple_loaderBody hfit InitState.start rfl
  unfold loaderInit
  rcases hrun : loaderBody e InitState.start with ⟨r, s⟩
  cases r with
  | ok u => exact iff_of_true (hnames u s hrun) ⟨u, rfl⟩
  | error err =>
    obtain ⟨hb, hl⟩ := herr err s hrun
    exact iff_of_false (not_not.mpr (hb.cleanup hl).shstrtab) fun h => by
      obtain ⟨u, hu⟩ := h
      cases hu

end LoaderInit

end NoDrop
