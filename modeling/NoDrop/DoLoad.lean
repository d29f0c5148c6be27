import NoDrop.ElfLog
import NoDrop.LoaderStack

/-! # What a failed load leaves behind

`do_load_monitor` maps two images and a stack one after the other and gives up at the first
failure, without giving anything back.  What is mapped stays mapped (`Retains`),
so that a failed load leaves nothing behind only if it failed at the very first mapping
(`doLoadMonitor_of_refused`, `doLoadMonitor_leaves`).

For images as a linker makes them it fails exactly if the kernel refuses one of its calls
(`doLoadMonitor_answered`).
-/
namespace NoDrop

open Areas Bytes

/-- The image that is mapped first. -/
def LoadFiles.first {File : Type} (files : LoadFiles File) : ElfImage File :=
  files.interp.getD files.monitor

namespace Loader

/-! ## What is mapped stays mapped -/

section Orderly

variable {File α β : Type} {k : Kern File}

/-- The areas stay in order, and what is mapped stays mapped. -/
def Retains (s s' : Sys File) : Prop :=
  Sorted s.space.mmap → Sorted s'.space.mmap ∧
    ∀ x, lookup s.space.mmap x ≠ none → lookup s'.space.mmap x ≠ none

theorem Retains.of_mmap {s s' : Sys File} (h : s'.space.mmap = s.space.mmap) : Retains s s' := by
  intro hs
  rw [h]
  exact ⟨hs, fun _ hx => hx⟩

theorem Retains.trans {s s' s'' : Sys File} (h : Retains s s') (h' : Retains s' s'') :
    Retains s s'' := by
  intro hs
  obtain ⟨hs', hx⟩ := h hs
  obtain ⟨hs'', hx'⟩ := h' hs'
  exact ⟨hs'', fun x hne => hx' x (hx x hne)⟩

/-- A relation on address spaces that only depends on their areas, and that sequences have if
their steps do. -/
structure OnAreas (R : Sys File → Sys File → Prop) : Prop where
  of_mmap : ∀ {s s' : Sys File}, s'.space.mmap = s.space.mmap → R s s'
  trans : ∀ {s s' s'' : Sys File}, R s s' → R s' s'' → R s s''

/-- The states before and after a step are so related, and its errors are as `E` says. -/
def Through (R : Sys File → Sys File → Prop) (E : Int → Prop) (m : LoadStep File α) : Prop :=
  Fallible.Within (fun t t' => R t.sys t'.sys) E m

namespace Through

variable {R : Sys File → Sys File → Prop} {E : Int → Prop}

theorem pure (hR : OnAreas R) (a : α) : Through R E (Pure.pure a : LoadStep File α) := by
  refine Fallible.Within.pure (fun _ => ?_) a
  exact hR.of_mmap rfl

theorem bind (hR : OnAreas R) {m : LoadStep File α} {f : α → LoadStep File β}
    (hm : Through R E m) (hf : ∀ a, Through R E (f a)) : Through R E (m >>= f) := by
  refine Fallible.Within.bind (fun h h' => ?_) hm hf
  exact hR.trans h h'

theorem call {f : Sys File → α × Sys File} (hf : ∀ s, R s (f s).2) :
    Through R E (LoadStep.call f) :=
  Fallible.Within.lift fun t => hf t.sys

theorem assign (hR : OnAreas R) (f : ProcEntry → ProcEntry) :
    Through R E (LoadStep.assign f : LoadStep File Unit) :=
  Fallible.Within.lift fun _ => hR.of_mmap rfl

theorem gotoIf (hR : OnAreas R) (cond : Prop) [Decidable cond] {err : Int} (herr : E err) :
    Through R E (LoadStep.gotoIf cond err : LoadStep File Unit) := by
  unfold LoadStep.gotoIf
  split
  · refine Fallible.Within.fail (fun _ => ?_) herr
    exact hR.of_mmap rfl
  · exact pure hR ()

/-- A call that may be refused. -/
theorem check (hR : OnAreas R) {f : Sys File → UInt64 × Sys File} {bad : UInt64 → Prop}
    [DecidablePred bad] {err : UInt64 → Int} {g : UInt64 → LoadStep File β}
    (hf : ∀ s, R s (f s).2) (herr : ∀ ret, E (err ret)) (hg : ∀ ret, Through R E (g ret)) :
    Through R E (do
      let ret ← LoadStep.call f
      LoadStep.gotoIf (bad ret) (err ret)
      g ret) :=
  bind hR (call hf) fun ret => bind hR (gotoIf hR _ (herr ret)) fun _ => hg ret

/-- Of the steps of `create_elf_tbls` only the one that makes the stack changes the areas. -/
theorem steps (hR : OnAreas R) (hE : E LoadStep.efault)
    (hstack : ∀ addr size s, R s (createStackWithRedZone k addr size s).2) :
    Steps k fun _ m => Through R E m where
  pure _ a := pure hR a
  bind _ _ _ _ hm hf := bind hR hm hf
  assign := assign hR
  peek _ f := Fallible.Within.lift fun _ => hR.of_mmap rfl
  copyToUser addr data := bind hR (call fun _ => hR.of_mmap rfl) fun _ => gotoIf hR _ hE
  putUser addr v := by
    refine bind hR (call fun s => hR.of_mmap ?_) fun _ => gotoIf hR _ hE
    unfold Sys.putUser
    dsimp only
    split <;> rfl
  traverseEnvEnt start :=
    check hR (fun _ => hR.of_mmap rfl) (fun _ => hE) fun len => pure hR len
  stack _ addr size _ hg := check hR (hstack addr size) (fun _ => hE) hg
  vmalloc _ size _ hg := check hR (fun _ => hR.of_mmap rfl) (fun _ => hE) fun _ => hg

theorem of_eq {m : LoadStep File α} (h : Through R E m) {t t' : LoadState File}
    {r : Except Int α} (heq : m t = (r, t')) : R t.sys t'.sys := by
  have hstate := h.state t
  rw [heq] at hstate
  exact hstate

end Through

theorem Retains.onAreas : @OnAreas File Retains := ⟨Retains.of_mmap, Retains.trans⟩

/-- A step that retains what is mapped, and whose errors are negative. -/
def Orderly (m : LoadStep File α) : Prop := Through Retains (· < 0) m

namespace Orderly

theorem bind {m : LoadStep File α} {f : α → LoadStep File β} (hm : Orderly m)
    (hf : ∀ a, Orderly (f a)) : Orderly (m >>= f) :=
  Through.bind Retains.onAreas hm hf

theorem assign (f : ProcEntry → ProcEntry) : Orderly (LoadStep.assign f : LoadStep File Unit) :=
  Through.assign Retains.onAreas f

theorem createStack (hk : k.Maps) (addr size : UInt64) (s : Sys File) :
    Retains s (createStackWithRedZone k addr size s).2 := by
  intro hs
  obtain ⟨v, s', heq, hs', hgrow, -⟩ := createStack_cases hk hs addr size
  rw [heq]
  refine ⟨hs', fun x hx => ?_⟩
  rw [(hgrow x hx).1]
  exact hx

theorem steps (hk : k.Maps) : Steps k fun _ m => Orderly m :=
  Through.steps Retains.onAreas (show LoadStep.efault < 0 by decide) (createStack hk)

theorem elfLoadBinary (hk : k.Maps) {img : ElfImage File}
    (hl : Linked (k.content img.file).length img.loads) (s : Sys File) :
    Retains s (elfLoadBinary k img s).2 := by
  intro hs
  obtain ⟨v, s', heq, -, hcases⟩ := elfLoadBinary_cases hk hl hs
  rw [heq]
  rcases hcases with ⟨-, -, hspace⟩ | ⟨P, -, hres, -⟩
  · dsimp only
    rw [hspace]
    exact ⟨hs, fun _ hx => hx⟩
  · refine ⟨hres.sorted, fun x hx => ?_⟩
    -- the image lies where nothing was mapped
    have hout : x < P.base.toNat ∨ P.base.toNat + P.size ≤ x := by
      by_contra hin
      exact hx (hres.free x (by omega) (by omega))
    rw [(hres.frame x hout).1]
    exact hx

theorem loadError_neg (addr : UInt64) : loadError addr < 0 := by
  have h := addr.toNat_lt
  unfold loadError
  split <;> omega

theorem loadImage (hk : k.Maps) {img : ElfImage File}
    (hl : Linked (k.content img.file).length img.loads) : Orderly (Loader.loadImage k img) :=
  Through.check Retains.onAreas (elfLoadBinary hk hl) loadError_neg fun addr =>
    Through.pure Retains.onAreas addr

end Orderly

end Orderly

/-! ## The first image -/

section First

variable {File : Type} {k : Kern File} {t : LoadState File} {img : ElfImage File}

/-- What `do_load_monitor` does once the first image is loaded at `addr`. -/
def afterFirst (k : Kern File) (setup : LoadSetup) (files : LoadFiles File)
    (argv : List (List UInt8)) (addr : UInt64) : LoadStep File Unit :=
  match files.interp with
  | some interp => do
    let loadAddr ← loadImage k files.monitor
    createElfTbls k setup files.monitor loadAddr addr argv
    LoadStep.assign fun e => { e with entryAddr := addr + interp.eEntry }
  | none => do
    createElfTbls k setup files.monitor addr 0 argv
    LoadStep.assign fun e => { e with entryAddr := addr + files.monitor.eEntry }

theorem doLoadMonitor_eq (k : Kern File) (setup : LoadSetup) (files : LoadFiles File)
    (argv : List (List UInt8)) (t : LoadState File) :
    doLoadMonitor k setup files argv t =
      (loadImage k files.first >>= afterFirst k setup files argv) t := by
  unfold doLoadMonitor afterFirst LoadFiles.first
  cases files.interp <;> rfl

theorem afterFirst_orderly (hk : k.Maps) (setup : LoadSetup) {files : LoadFiles File}
    (hl : Linked (k.content files.monitor.file).length files.monitor.loads)
    (argv : List (List UInt8)) (addr : UInt64) : Orderly (afterFirst k setup files argv addr) := by
  unfold afterFirst
  split
  · refine (Orderly.loadImage hk hl).bind fun loadAddr => ?_
    exact ((Orderly.steps hk).createElfTbls ..).bind fun _ => .assign _
  · exact ((Orderly.steps hk).createElfTbls ..).bind fun _ => .assign _

/-- What `loadImage` does, in terms of `elf_load_binary`. -/
theorem loadImage_apply (k : Kern File) (img : ElfImage File) (t : LoadState File) :
    loadImage k img t =
      (if BadAddr (elfLoadBinary k img t.sys).1 then
        .error (loadError (elfLoadBinary k img t.sys).1)
      else .ok (elfLoadBinary k img t.sys).1, { t with sys := (elfLoadBinary k img t.sys).2 }) := by
  have hcall : (LoadStep.call (elfLoadBinary k img) : LoadStep File UInt64) t =
      (.ok (elfLoadBinary k img t.sys).1, { t with sys := (elfLoadBinary k img t.sys).2 }) := rfl
  unfold loadImage
  rw [Fallible.bind_of_ok hcall]
  unfold LoadStep.gotoIf
  split <;> rfl

/-- The first mapping is refused, and nothing has changed. -/
theorem loadImage_of_refused (hk : k.Maps) (hl : Linked (k.content img.file).length img.loads)
    (hs : Sorted t.sys.space.mmap) (href : img.Refused k t.sys) :
    ∃ e t', loadImage k img t = (.error e, t') ∧ t'.p = t.p ∧
      t'.sys.space = t.sys.space := by
  obtain ⟨v, s', heq, -, hcases⟩ := elfLoadBinary_cases hk hl hs
  rw [loadImage_apply, heq]
  rcases hcases with ⟨-, hbad, hspace⟩ | ⟨P, hnot, -⟩
  · rw [if_pos hbad]
    exact ⟨_, _, rfl, rfl, hspace⟩
  · exact absurd href hnot

/-- Something is mapped that was not. -/
def Leaves (s s' : Sys File) : Prop :=
  ∃ x, lookup s.space.mmap x = none ∧ lookup s'.space.mmap x ≠ none

/-- The first mapping is granted, and there is something new. -/
theorem loadImage_leaves (hk : k.Maps) (hl : Linked (k.content img.file).length img.loads)
    (hs : Sorted t.sys.space.mmap) (hnot : ¬img.Refused k t.sys) :
    Leaves t.sys (loadImage k img t).2.sys := by
  obtain ⟨v, s', heq, -, hcases⟩ := elfLoadBinary_cases hk hl hs
  rcases hcases with ⟨href, -⟩ | ⟨P, -, hres, -⟩
  · exact absurd href hnot
  have hpos : 0 < P.size := by
    rcases hloads : img.loads with _ | ⟨f, rest⟩
    · refine absurd (.inr fun f hf => ?_) hnot
      rw [hloads] at hf
      cases hf
    obtain ⟨z, hz⟩ : ∃ z, (f :: rest).getLast? = some z := ⟨_, List.getLast?_cons⟩
    rw [hloads] at hl
    have htotal := (hl.shaped hloads hz).total
    have h0 : (totalMappingSize img.phdrs).toNat ≠ 0 := fun h0 => htotal (UInt64.toNat_inj.mp h0)
    have hle := le_pageAlign (totalMappingSize img.phdrs).toNat
    rw [hres.size]
    omega
  rw [loadImage_apply, heq]
  exact ⟨P.base.toNat, hres.free _ (Nat.le_refl _) (Nat.lt_add_of_pos_right hpos), hres.base⟩

/-- It is loaded, or the kernel has refused a call. -/
theorem loadImage_answered (hk : k.Maps) (hp : Portable (k.content img.file).length img)
    (hs : Sorted t.sys.space.mmap) : Answered (loadImage k img) t :=
  Answered.checkThen (elfLoadBinary_answers hk hp hs) .pure

end First

/-! ## Both images and the stack -/

section Whole

variable {File : Type} {k : Kern File} {t : LoadState File} {files : LoadFiles File}

/-- The images as a linker makes them. -/
structure Proper (k : Kern File) (files : LoadFiles File) : Prop where
  monitor : Portable (k.content files.monitor.file).length files.monitor
  interp : ∀ img, files.interp = some img → Portable (k.content img.file).length img

theorem Proper.first (h : Proper k files) :
    Portable (k.content files.first.file).length files.first := by
  unfold LoadFiles.first
  rcases hi : files.interp with _ | img
  · exact h.monitor
  · exact h.interp img hi

theorem doLoadMonitor_error_neg (hk : k.Maps) (hp : Proper k files) (setup : LoadSetup)
    {argv : List (List UInt8)} {e : Int}
    (h : (doLoadMonitor k setup files argv t).1 = .error e) : e < 0 := by
  rw [doLoadMonitor_eq] at h
  exact ((Orderly.loadImage hk hp.first.linked).bind
    (afterFirst_orderly hk setup hp.monitor.linked argv)).error t e h

/-- If the first mapping is refused, loading fails and changes nothing. -/
theorem doLoadMonitor_of_refused (hk : k.Maps) (hp : Proper k files) (setup : LoadSetup)
    (argv : List (List UInt8)) (hs : Sorted t.sys.space.mmap)
    (href : files.first.Refused k t.sys) :
    ∃ e t', doLoadMonitor k setup files argv t = (.error e, t') ∧ t'.p = t.p ∧
      t'.sys.space = t.sys.space := by
  obtain ⟨e, t', heq, hrest⟩ := loadImage_of_refused hk hp.first.linked hs href
  refine ⟨e, t', ?_, hrest⟩
  rw [doLoadMonitor_eq]
  exact Fallible.bind_of_error heq

/-- If the first mapping is granted, loading leaves something behind. -/
theorem doLoadMonitor_leaves (hk : k.Maps) (hp : Proper k files) (setup : LoadSetup)
    (argv : List (List UInt8)) (hs : Sorted t.sys.space.mmap)
    (hnot : ¬files.first.Refused k t.sys) :
    Leaves t.sys (doLoadMonitor k setup files argv t).2.sys := by
  obtain ⟨x, hfree, hmapped⟩ := loadImage_leaves hk hp.first.linked hs hnot
  have hsorted := ((Orderly.loadImage hk hp.first.linked).state t hs).1
  refine ⟨x, hfree, ?_⟩
  rw [doLoadMonitor_eq]
  rcases h : loadImage k files.first t with ⟨r, t₁⟩
  rw [h] at hmapped hsorted
  cases r with
  | ok addr =>
    rw [Fallible.bind_of_ok h]
    exact ((afterFirst_orderly hk setup hp.monitor.linked argv addr).state t₁ hsorted).2 x hmapped
  | error e =>
    rw [Fallible.bind_of_error h]
    exact hmapped

/-- **Loading succeeds exactly if the kernel grants every call.** -/
theorem doLoadMonitor_answered (hk : k.Maps) (hp : Proper k files) (setup : LoadSetup)
    (argv : List (List UInt8)) (hs : Sorted t.sys.space.mmap) :
    Answered (doLoadMonitor k setup files argv) t := by
  unfold Answered
  rw [doLoadMonitor_eq]
  refine (loadImage_answered hk hp.first hs).bind fun addr t₁ h₁ => ?_
  have hs₁ := ((Orderly.loadImage hk hp.first.linked).state t hs).1
  rw [h₁] at hs₁
  unfold afterFirst
  split
  · refine (loadImage_answered hk hp.monitor hs₁).bind fun loadAddr t₂ _ => ?_
    exact Answered.bind (OnlyRefusals.createElfTbls _ _ _ _ _ t₂) fun _ t₃ _ =>
      OnlyRefusals.assign _ t₃
  · exact Answered.bind (OnlyRefusals.createElfTbls _ _ _ _ _ t₁) fun _ t₂ _ =>
      OnlyRefusals.assign _ t₂

end Whole

end Loader

end NoDrop
