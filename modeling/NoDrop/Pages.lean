import NoDrop.DoLoad

/-! # Whole pages

The areas of an address space are whole pages, and each carries the file it is mapped from.  Both
are kept by everything the loader does, whatever the file it loads looks like; and what it has
mapped when it succeeds includes a stack, which comes from no file (`doLoadMonitor_areas`).
-/
namespace NoDrop

open Areas Bytes

variable {File : Type}

/-- The areas are in order and are whole pages, and each is as `J` says. -/
structure Tidy (J : VmInfo File → Prop) (l : List (Vma File)) : Prop where
  sorted : Sorted l
  paged : ∀ a ∈ l, a.start % pageSize = 0 ∧ a.stop % pageSize = 0
  info : ∀ a ∈ l, J a.val

namespace Tidy

variable {J : VmInfo File → Prop} {l : List (Vma File)}

theorem unmap (h : Tidy J l) {s e : Nat} (hse : s ≤ e) (hs : s % pageSize = 0)
    (he : e % pageSize = 0) : Tidy J (Areas.unmap s e l) := by
  refine ⟨h.sorted.unmap hse, fun b hb => ?_, fun b hb => ?_⟩
  · obtain ⟨a, ha, hb⟩ := List.mem_flatMap.mp hb
    obtain ⟨hstart, hstop⟩ := ends_of_mem_carve hb
    obtain ⟨hpstart, hpstop⟩ := h.paged a ha
    refine ⟨?_, ?_⟩
    · rcases hstart with heq | heq <;> rwa [heq]
    · rcases hstop with heq | heq <;> rwa [heq]
  · obtain ⟨a, ha, hb⟩ := List.mem_flatMap.mp hb
    rw [(mem_carve hb).1]
    exact h.info a ha

theorem map (h : Tidy J l) {a : Vma File} (hlt : a.start < a.stop)
    (hs : a.start % pageSize = 0) (he : a.stop % pageSize = 0) (ha : J a.val) :
    Tidy J (Areas.map a l) := by
  have hrest := h.unmap (Nat.le_of_lt hlt) hs he
  refine ⟨h.sorted.map hlt, fun b hb => ?_, fun b hb => ?_⟩
  · rcases mem_insert.mp hb with rfl | hb
    · exact ⟨hs, he⟩
    · exact hrest.paged b hb
  · rcases mem_insert.mp hb with rfl | hb
    · exact ha
    · exact hrest.info b hb

/-- A page of which an address is in an area lies in it as a whole. -/
theorem page_in {a : Vma File} (h : Tidy J l) (ha : a ∈ l) {x y : Nat} (hx : a.Has x)
    (hpage : x / pageSize = y / pageSize) : a.Has y := by
  obtain ⟨hstart, hstop⟩ := h.paged a ha
  obtain ⟨hlo, hhi⟩ := hx
  unfold pageSize at *
  exact ⟨by omega, by omega⟩

end Tidy

/-! ## The calls of the loader -/

namespace Sys

variable {k : Kern File} {J : VmInfo File → Prop} {s : Sys File}

theorem tidy_mapArea (h : Tidy J s.space.mmap) {start len : Nat} (hstart : start % pageSize = 0)
    (hlen : 0 < len) (hpage : len % pageSize = 0) {info : VmInfo File} (hinfo : J info)
    (off : Nat) : Tidy J (s.mapArea k start len info off).space.mmap := by
  refine h.map (Nat.lt_add_of_pos_right hlen) hstart ?_ hinfo
  rw [Nat.add_mod, hstart, hpage]
  rfl

theorem pageAlign_pos {n : UInt64} (h : n ≠ 0) : 0 < pageAlign n.toNat := by
  have hne : n.toNat ≠ 0 := fun hz => h (UInt64.toNat_inj.mp hz)
  have hle := le_pageAlign n.toNat
  omega

theorem tidy_vmMmap (hk : k.Maps) (h : Tidy J s.space.mmap) {owner : Owner File}
    {file : Option File} {addr len : UInt64} {prot : Prot} {fixed : Bool}
    (haddr : fixed = true → addr.toNat % pageSize = 0) (hinfo : J ⟨file, prot, owner⟩)
    (off : UInt64) : Tidy J (s.vmMmap k owner file addr len prot fixed off).2.space.mmap := by
  rcases vmMmap_cases k owner file addr len prot fixed off s with ⟨-, heq⟩ | ⟨hgood, heq⟩
  · rw [heq]
    exact h
  · obtain ⟨hlen, hfixed, hfree⟩ := hk.mmap _ _ _ _ _ _ _ _ rfl hgood
    rw [heq]
    refine tidy_mapArea h ?_ (pageAlign_pos hlen) (pageAlign_mod _) hinfo _
    cases fixed with
    | true =>
      rw [hfixed rfl]
      exact haddr rfl
    | false => exact (hfree rfl).1

theorem tidy_vmMunmap (h : Tidy J s.space.mmap) (addr len : UInt64) :
    Tidy J (s.vmMunmap addr len).space.mmap := by
  unfold vmMunmap
  split
  · exact h
  · rename_i hok
    rw [not_or, not_not] at hok
    refine h.unmap (Nat.le_add_right ..) hok.1 ?_
    rw [Nat.add_mod, hok.1, pageAlign_mod]
    rfl

theorem tidy_vmBrkFlags (h : Tidy J s.space.mmap) {owner : Owner File} {addr len : UInt64}
    {exec : Bool} (haddr : addr.toNat % pageSize = 0) (hlen : len ≠ 0)
    (hinfo : J ⟨none, ⟨true, true, exec⟩, owner⟩) :
    Tidy J (s.vmBrkFlags k owner addr len exec).2.space.mmap := by
  unfold vmBrkFlags
  dsimp only
  split
  · exact h
  · exact tidy_mapArea h haddr (pageAlign_pos hlen) (pageAlign_mod _) hinfo _

end Sys

/-! ## An image -/

section Image

variable {k : Kern File} {J : VmInfo File → Prop} {s : Sys File} {file : File}

/-- What the loader maps is as `J` says. -/
structure Labels (J : VmInfo File → Prop) (file : File) : Prop where
  segment : ∀ prot, J ⟨some file, prot, .segment file⟩
  bss : ∀ prot, J ⟨none, prot, .bss file⟩

theorem elfPagestart_mod (v : UInt64) : (elfPagestart v).toNat % pageSize = 0 := by
  rw [toNat_elfPagestart]
  exact Nat.mul_mod_left ..

theorem tidy_elfMap (hk : k.Maps) (hl : Labels J file) (h : Tidy J s.space.mmap) (addr : UInt64)
    (eppnt : ElfPhdr) (prot : Prot) (fixed : Bool) (totalSize : UInt64) :
    Tidy J (elfMap k file addr eppnt prot fixed totalSize s).2.space.mmap := by
  have hmap : ∀ (s : Sys File) (len off : UInt64), Tidy J s.space.mmap →
      Tidy J (s.vmMmap k (.segment file) (some file) (elfPagestart addr) len prot fixed
        off).2.space.mmap :=
    fun s len off hs => Sys.tidy_vmMmap hk hs (fun _ => elfPagestart_mod addr) (hl.segment prot) off
  unfold elfMap
  dsimp only
  split
  · exact h
  · split
    · split
      · exact hmap _ _ _ h
      · refine Sys.tidy_vmMunmap ?_ _ _
        exact hmap _ _ _ h
    · exact hmap _ _ _ h

theorem tidy_elfLoadSegment (hk : k.Maps) (hl : Labels J file) (h : Tidy J s.space.mmap)
    (eppnt : ElfPhdr) (l : ElfLoop) :
    Tidy J (elfLoadSegment k file eppnt l s).2.space.mmap := by
  have hmap := tidy_elfMap hk hl h ((if l.loadAddrSet then l.loadAddr else -eppnt.pVaddr) +
    eppnt.pVaddr) eppnt (elfProt eppnt) l.loadAddrSet l.totalSize
  unfold elfLoadSegment
  dsimp only
  generalize elfMap k file _ eppnt (elfProt eppnt) l.loadAddrSet l.totalSize s = r at hmap ⊢
  repeat' split
  all_goals exact hmap

theorem tidy_elfLoadSegments (hk : k.Maps) (hl : Labels J file) (h : Tidy J s.space.mmap)
    (phdrs : List ElfPhdr) (l : ElfLoop) :
    Tidy J (elfLoadSegments k file phdrs l s).2.space.mmap := by
  induction phdrs generalizing l s with
  | nil => exact h
  | cons eppnt phdrs ih =>
    unfold elfLoadSegments
    split
    · have hseg := tidy_elfLoadSegment hk hl h eppnt l
      split
      · rename_i heq
        rw [heq] at hseg
        exact hseg
      · rename_i heq
        rw [heq] at hseg
        exact ih hseg _
    · exact ih h l

theorem tidy_elfLoadBss (hl : Labels J file) (h : Tidy J s.space.mmap) (l : ElfLoop) :
    Tidy J (elfLoadBss k file l s).2.space.mmap := by
  have hpad : (padzero k l.elfBss s).2.space.mmap = s.space.mmap := by
    unfold padzero
    dsimp only
    split <;> rfl
  rw [← hpad] at h
  unfold elfLoadBss
  dsimp only
  split
  · exact h
  · split
    · rename_i hlt
      have hpos : elfPagealign l.lastBss - elfPagealign l.elfBss ≠ 0 := by
        intro hz
        have hnat := congrArg UInt64.toNat hz
        rw [UInt64.toNat_sub_of_le _ _ (UInt64.le_of_lt hlt)] at hnat
        have hle := Nat.sub_eq_zero_iff_le.mp hnat
        exact absurd (UInt64.lt_iff_toNat_lt.mp hlt) (Nat.not_lt.mpr hle)
      have hbrk := Sys.tidy_vmBrkFlags (k := k) h (elfPagestart_mod (l.elfBss + 4096 - 1)) hpos
        (hl.bss ⟨true, true, l.bssProt.exec⟩)
      split <;> exact hbrk
    · exact h

theorem tidy_elfLoadBinary (hk : k.Maps) {img : ElfImage File} (hl : Labels J img.file)
    (h : Tidy J s.space.mmap) : Tidy J (elfLoadBinary k img s).2.space.mmap := by
  unfold elfLoadBinary
  dsimp only
  split
  · exact h
  split
  · exact h
  have hsegs := tidy_elfLoadSegments hk hl h img.phdrs
    ⟨false, 0, totalMappingSize img.phdrs, 0, 0, ⟨false, false, false⟩⟩
  split
  · rename_i heq
    rw [heq] at hsegs
    exact hsegs
  · rename_i heq
    rw [heq] at hsegs
    exact tidy_elfLoadBss hl hsegs _

end Image

/-! ## The whole load -/

namespace Loader

variable {k : Kern File} {J : VmInfo File → Prop}

/-- The areas stay tidy, and what is mapped stays as it is. -/
def KeepsAreas (J : VmInfo File → Prop) (s s' : Sys File) : Prop :=
  Tidy J s.space.mmap → Tidy J s'.space.mmap ∧
    ∀ x, lookup s.space.mmap x ≠ none → lookup s'.space.mmap x = lookup s.space.mmap x

/-- The areas stay tidy. -/
def KeepsTidy (J : VmInfo File → Prop) (s s' : Sys File) : Prop :=
  Tidy J s.space.mmap → Tidy J s'.space.mmap

theorem KeepsTidy.onAreas : OnAreas (KeepsTidy J) := by
  refine ⟨fun h ht => ?_, fun h h' ht => h' (h ht)⟩
  rw [h]
  exact ht

theorem KeepsAreas.onAreas : OnAreas (KeepsAreas J) := by
  refine ⟨fun h ht => ?_, fun h h' ht => ?_⟩
  · rw [h]
    exact ⟨ht, fun _ _ => rfl⟩
  · obtain ⟨ht', hx⟩ := h ht
    obtain ⟨ht'', hx'⟩ := h' ht'
    refine ⟨ht'', fun x hne => ?_⟩
    rw [hx' x (by rwa [hx x hne]), hx x hne]

theorem createStack_keeps (hk : k.Maps) (hstack : ∀ prot, J ⟨none, prot, .stack⟩)
    (addr size : UInt64) (s : Sys File) :
    KeepsAreas J s (createStackWithRedZone k addr size s).2 := by
  intro ht
  refine ⟨?_, fun x hx => ?_⟩
  · have hfirst : ∀ prefer : UInt64, Tidy J (s.vmMmap k .stack none prefer (size + 4096 + 4096)
        ⟨false, false, false⟩ false 0).2.space.mmap := fun prefer =>
      Sys.tidy_vmMmap hk ht (fun h => absurd h Bool.false_ne_true) (hstack _) 0
    unfold createStackWithRedZone
    dsimp only
    generalize (if addr > 4096 then addr - 4096 else addr) = prefer
    split
    · exact hfirst prefer
    · refine Sys.tidy_vmMmap hk (Sys.tidy_vmMunmap (hfirst prefer) _ _) ?_ (hstack _) 0
      exact fun h => absurd h Bool.false_ne_true
  · obtain ⟨v, s', heq, -, hgrow, -⟩ := createStack_cases hk ht.sorted addr size
    rw [heq]
    exact (hgrow x hx).1

/-- What `create_elf_tbls` leaves: the areas are tidy, and there is a stack among them. -/
theorem createElfTbls_areas (hk : k.Maps) (hstack : ∀ prot, J ⟨none, prot, .stack⟩)
    {setup : LoadSetup} {exec : ElfImage File} {loadAddr interpLoadAddr : UInt64}
    {argv : List (List UInt8)} {t t' : LoadState File} (ht : Tidy J t.sys.space.mmap)
    (h : createElfTbls k setup exec loadAddr interpLoadAddr argv t = (.ok (), t')) :
    Tidy J t'.sys.space.mmap ∧ ∃ x < taskSize, ∃ prot,
      lookup t'.sys.space.mmap x = some ⟨none, prot, .stack⟩ := by
  have hsteps : Steps k fun _ m => Through (KeepsAreas J) (fun _ => True) m :=
    Through.steps KeepsAreas.onAreas trivial (createStack_keeps hk hstack)
  obtain ⟨⟨uRandBytes, argStart⟩, t₁, hfill, h⟩ := Fallible.bind_ok_iff.mp h
  obtain ⟨start, t₂, hcall, hfill⟩ := Fallible.bind_ok_iff.mp hfill
  obtain ⟨_, t₃, hgoto, hrest⟩ := Fallible.bind_ok_iff.mp hfill
  obtain ⟨hgood, rfl⟩ := gotoIf_ok.mp hgoto
  -- the stack is made, and everything after it leaves the areas as they are
  have hkeep : KeepsAreas J t₃.sys t₁.sys := by
    refine Through.of_eq (E := fun _ => True) ?_ hrest
    refine hsteps.bind _ _ _ _ (hsteps.assign _) fun _ => ?_
    refine hsteps.bind _ _ _ _ (hsteps.copyToUser _ _) fun _ => ?_
    refine hsteps.bind _ _ _ _ (hsteps.assign _) fun _ => ?_
    refine hsteps.bind _ _ _ _ (hsteps.peek _ _) fun info => ?_
    refine hsteps.bind _ _ _ _ (hsteps.copyToUser _ _) fun _ => ?_
    exact hsteps.bind _ _ _ _ (hsteps.pushArgs _ _) fun _ => hsteps.pure _ _
  have hkeep' : KeepsAreas J t₁.sys t'.sys :=
    Through.of_eq (hsteps.vmalloc _ _ _ (hsteps.putTbls _ _ _ _)) h
  obtain ⟨v, s', heq, -, -, hnew⟩ := createStack_cases hk ht.sorted 0 setup.stackSize
  have htidy := (createStack_keeps hk hstack 0 setup.stackSize t.sys ht).1
  unfold LoadStep.call Fallible.lift at hcall
  dsimp only at hcall
  rw [heq] at hcall htidy
  cases hcall
  obtain ⟨hsize, htop, -, hmapped⟩ := hnew hgood
  obtain ⟨htidy', hx⟩ := (KeepsAreas.onAreas.trans hkeep hkeep') htidy
  have hpos := Sys.pageAlign_pos hsize
  have hstart := hmapped v.toNat (Nat.le_refl _) (Nat.lt_add_of_pos_right hpos)
  refine ⟨htidy', v.toNat, by omega, ⟨true, true, false⟩, ?_⟩
  rw [hx v.toNat (by rw [hstart]; exact Option.some_ne_none _), hstart]

/-- What `do_load_monitor` maps is as `J` says. -/
structure LoadLabels (J : VmInfo File → Prop) (files : LoadFiles File) : Prop where
  monitor : Labels J files.monitor.file
  interp : ∀ img, files.interp = some img → Labels J img.file
  stack : ∀ prot, J ⟨none, prot, .stack⟩

theorem LoadLabels.first {files : LoadFiles File} (h : LoadLabels J files) :
    Labels J files.first.file := by
  unfold LoadFiles.first
  rcases hi : files.interp with _ | img
  · exact h.monitor
  · exact h.interp img hi

theorem loadImage_tidy (hk : k.Maps) {img : ElfImage File} (hl : Labels J img.file)
    {t t' : LoadState File} (ht : Tidy J t.sys.space.mmap) {r : Except Int UInt64}
    (h : loadImage k img t = (r, t')) : Tidy J t'.sys.space.mmap := by
  have hstep : Through (KeepsTidy J) (fun _ => True) (loadImage k img) :=
    Through.check KeepsTidy.onAreas (fun s hs => tidy_elfLoadBinary hk hl hs) (fun _ => trivial)
      fun addr => Through.pure KeepsTidy.onAreas addr
  exact hstep.of_eq h ht

/-- **A successful load** leaves tidy areas, with the stack of the monitor among them. -/
theorem doLoadMonitor_areas (hk : k.Maps) {setup : LoadSetup} {files : LoadFiles File}
    (hl : LoadLabels J files) {argv : List (List UInt8)} {t t' : LoadState File}
    (ht : Tidy J t.sys.space.mmap) (h : doLoadMonitor k setup files argv t = (.ok (), t')) :
    Tidy J t'.sys.space.mmap ∧ ∃ x < taskSize, ∃ prot,
      lookup t'.sys.space.mmap x = some ⟨none, prot, .stack⟩ := by
  rw [doLoadMonitor_eq] at h
  obtain ⟨addr, t₁, hfirst, hafter⟩ := Fallible.bind_ok_iff.mp h
  have ht₁ := loadImage_tidy hk hl.first ht hfirst
  cases hi : files.interp with
  | some interp =>
    simp only [afterFirst, hi] at hafter
    obtain ⟨loadAddr, t₂, hload, hafter⟩ := Fallible.bind_ok_iff.mp hafter
    obtain ⟨_, t₃, htbls, hassign⟩ := Fallible.bind_ok_iff.mp hafter
    cases hassign
    have hareas := createElfTbls_areas hk hl.stack (loadImage_tidy hk hl.monitor ht₁ hload) htbls
    exact hareas
  | none =>
    simp only [afterFirst, hi] at hafter
    obtain ⟨_, t₂, htbls, hassign⟩ := Fallible.bind_ok_iff.mp hafter
    cases hassign
    have hareas := createElfTbls_areas hk hl.stack ht₁ htbls
    exact hareas

end Loader

end NoDrop
