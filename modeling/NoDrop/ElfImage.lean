import NoDrop.ElfLoad

/-! # The whole image

The loop of `elf_load_binary` leaves every segment's bytes in memory (`Laid`).  Here is what
follows it, the memory for which the file has no bytes, and with it the theorem about the
whole function (`elfLoadBinary_faithful`).
-/
namespace NoDrop

open Areas Bytes

/-! ## The memory without bytes in the file -/

section Bss

variable {File : Type} {k : Kern File} {file : File} {P : Site} {first : Request File}
  {s₀ s : Sys File} {z : ElfPhdr} {l : ElfLoop} {done : List ElfPhdr}

theorem Site.pageAlign_addr {v : Nat} (hlow : P.ps.toNat ≤ v) :
    pageAlign (P.addr v) = P.addr (pageAlign v) := by
  have hb := P.base_mod
  have hp := P.ps_mod
  unfold pageAlign Site.addr pageSize at *
  omega

/-- The pages of a segment end with those of the last one, or before. -/
theorem Laid.mapped_le (h : Laid k file P first s₀ done z l s) {q : ElfPhdr} (hq : q ∈ z :: done) :
    P.addr (pageStart q.vaddr) + q.mapSize ≤ P.addr (pageAlign (z.vaddr + z.filesz)) := by
  have hend := q.pageStart_add_mapSize
  have hlow := (h.fits q hq).low
  rcases List.mem_cons.mp hq with rfl | hdone
  · unfold Site.addr
    omega
  · have hmono : pageAlign (q.vaddr + q.filesz) ≤ pageAlign (q.vaddr + q.memsz) :=
      pageAlign_le_pageAlign (Nat.add_le_add_left (h.filesz_le q hq) _)
    have h1 := h.below q hdone
    have h2 := pageStart_le z.vaddr
    have h3 := le_pageAlign (z.vaddr + z.filesz)
    unfold Site.addr
    omega

/-- The bytes of a segment end with those of the last one, or before. -/
theorem Laid.bytes_le (h : Laid k file P first s₀ done z l s) {q : ElfPhdr} (hq : q ∈ z :: done) :
    P.addr q.vaddr + q.filesz ≤ P.addr (z.vaddr + z.filesz) := by
  have hlow := (h.fits q hq).low_vaddr
  rcases List.mem_cons.mp hq with rfl | hdone
  · rw [Site.addr_add hlow]
  · have h0 := h.filesz_le q hq
    have h1 := h.below q hdone
    have h2 := pageStart_le z.vaddr
    have h3 := le_pageAlign (q.vaddr + q.memsz)
    unfold Site.addr
    omega

/-- The end of the last segment's bytes, with the rest of its page. -/
theorem Laid.covers_page (h : Laid k file P first s₀ done z l s) :
    P.base.toNat ≤ P.addr (z.vaddr + z.filesz) ∧
      P.addr (pageAlign (z.vaddr + z.memsz)) ≤ P.base.toNat + P.size := by
  have hhigh := (h.fits z List.mem_cons_self).high
  unfold Site.addr
  omega

theorem getD_replicate_zero (n i : Nat) : (List.replicate n (0 : UInt8)).getD i 0 = 0 := by
  rw [List.getD_eq_getElem?_getD, List.getElem?_replicate]
  split <;> rfl

/-- `padzero` clears the rest of the page. -/
theorem Laid.padzero (h : Laid k file P first s₀ done z l s) :
    ∃ failed s', NoDrop.padzero k l.elfBss s = (failed, s') ∧
      Laid k file P first s₀ done z l s' ∧
      (failed = false → ∀ x, P.addr (z.vaddr + z.filesz) ≤ x →
        x < P.addr (pageAlign (z.vaddr + z.filesz)) → s'.space.mem x = 0) := by
  have hfit := h.fits z List.mem_cons_self
  have hlow : P.ps.toNat ≤ z.vaddr + z.filesz := Nat.le_add_right_of_le hfit.low_vaddr
  have halign := Site.pageAlign_addr hlow
  have hbss := h.vars.elfBss
  unfold NoDrop.padzero
  dsimp only
  by_cases hz : elfPageoffset l.elfBss = 0
  · rw [if_neg (not_not.mpr hz)]
    refine ⟨false, s, rfl, h, ?_⟩
    rintro - x hlo hhi
    -- the bytes end with the page
    have hmod : P.addr (z.vaddr + z.filesz) % pageSize = 0 := by
      rw [← hbss]
      show l.elfBss.toNat % 4096 = 0
      rw [← toNat_elfPageoffset, hz]
      rfl
    rw [← halign, pageAlign_of_aligned hmod] at hhi
    omega
  · rw [if_pos hz]
    have hoff : (elfPageoffset l.elfBss).toNat = P.addr (z.vaddr + z.filesz) % 4096 := by
      rw [toNat_elfPageoffset, hbss]
    have hne : P.addr (z.vaddr + z.filesz) % 4096 ≠ 0 := by
      rw [← hoff]
      exact fun h0 => hz (UInt64.toNat_inj.mp h0)
    have hrest : (4096 - elfPageoffset l.elfBss).toNat =
        4096 - P.addr (z.vaddr + z.filesz) % 4096 := by
      rw [UInt64.toNat_sub_of_le, hoff]
      · rfl
      · rw [UInt64.le_iff_toNat_le, hoff]
        exact Nat.le_of_lt (Nat.mod_lt _ (by decide))
    have hend : P.addr (z.vaddr + z.filesz) + (4096 - P.addr (z.vaddr + z.filesz) % 4096) =
        P.addr (pageAlign (z.vaddr + z.filesz)) := by
      rw [← halign]
      unfold pageAlign pageSize
      omega
    have hpage : P.addr (pageAlign (z.vaddr + z.filesz)) ≤ P.base.toNat + P.size := by
      have h1 : pageAlign (z.vaddr + z.filesz) ≤ pageAlign (z.vaddr + z.memsz) :=
        pageAlign_le_pageAlign (Nat.add_le_add_left (h.filesz_le z List.mem_cons_self) _)
      have h2 := h.covers_page.2
      unfold Site.addr at *
      omega
    have hcov : P.Covers l.elfBss.toNat (4096 - elfPageoffset l.elfBss).toNat := by
      rw [hbss, hrest]
      exact ⟨h.covers_page.1, by omega⟩
    unfold Sys.clearUser
    dsimp only
    refine ⟨_, _, rfl, ?_, ?_⟩
    · have hnote := h.kept.note (.clearUser l.elfBss (4096 - elfPageoffset l.elfBss))
        (k.answer s (.clearUser l.elfBss (4096 - elfPageoffset l.elfBss))) hcov
      refine ⟨hnote.store ?_, h.vars, ?_, h.fits, h.filesz_le, h.below⟩
      · rw [List.length_replicate]
        exact ⟨hcov.1, Nat.le_trans (Nat.add_le_add_left (Nat.sub_le ..) _) hcov.2⟩
      · intro q hq
        refine ((h.held q hq).note _ _).store ?_ _
        rw [hbss]
        exact h.bytes_le hq
    · intro hok x hlo hhi
      have hleft : k.answer s (.clearUser l.elfBss (4096 - elfPageoffset l.elfBss)) = 0 := by
        simpa using hok
      rw [hleft, hbss, hrest]
      have ht : Write.Touches ⟨P.addr (z.vaddr + z.filesz),
          List.replicate (4096 - P.addr (z.vaddr + z.filesz) % 4096 - (0 : UInt64).toNat) 0⟩ x := by
        refine ⟨hlo, ?_⟩
        rw [Write.stop, List.length_replicate]
        show x < P.addr (z.vaddr + z.filesz) + (4096 - P.addr (z.vaddr + z.filesz) % 4096 - 0)
        omega
      refine (Image.write_of_touches ht).trans ?_
      exact getD_replicate_zero ..

/-- The part of a segment for which the file has no bytes is mapped and clear. -/
def Cleared (P : Site) (s : Sys File) (ph : ElfPhdr) : Prop :=
  ∀ i, ph.filesz ≤ i → i < ph.memsz →
    lookup s.space.mmap (P.addr ph.vaddr + i) ≠ none ∧ s.space.mem (P.addr ph.vaddr + i) = 0

theorem badAddr_negEfault : BadAddr negEfault := by decide

/-- On the last segment's pages, once their end is cleared. -/
theorem Laid.cleared_page (h : Laid k file P first s₀ done z l s)
    (hzero : ∀ x, P.addr (z.vaddr + z.filesz) ≤ x →
      x < P.addr (pageAlign (z.vaddr + z.filesz)) → s.space.mem x = 0) {i : Nat}
    (hi : z.filesz ≤ i) (hlt : P.addr z.vaddr + i < P.addr (pageAlign (z.vaddr + z.filesz))) :
    lookup s.space.mmap (P.addr z.vaddr + i) ≠ none ∧ s.space.mem (P.addr z.vaddr + i) = 0 := by
  have hfit := h.fits z List.mem_cons_self
  have hstart := pageStart_le z.vaddr
  have hend := z.pageStart_add_mapSize
  have hlow := hfit.low
  refine ⟨?_, hzero _ ?_ hlt⟩
  · rw [(h.held z List.mem_cons_self).mapped _ ?_ ?_]
    · exact Option.some_ne_none _
    · unfold Site.addr
      omega
    · unfold Site.addr at *
      omega
  · unfold Site.addr
    omega

/-- The ends of the last segment's pages, as `elf_load_binary` computes them. -/
theorem Laid.toNat_ends (h : Laid k file P first s₀ done z l s) :
    (elfPagealign l.elfBss).toNat = P.addr (pageAlign (z.vaddr + z.filesz)) ∧
      (elfPagealign l.lastBss).toNat = P.addr (pageAlign (z.vaddr + z.memsz)) := by
  have hlow := (h.fits z List.mem_cons_self).low_vaddr
  have hle := h.filesz_le z List.mem_cons_self
  have hcov := h.covers_page.2
  have htop := P.top
  have halign := le_pageAlign (z.vaddr + z.memsz)
  constructor
  · rw [toNat_elfPagealign, h.vars.elfBss, Site.pageAlign_addr (by omega)]
    rw [h.vars.elfBss]
    unfold Site.addr taskSize at *
    omega
  · rw [toNat_elfPagealign, h.vars.lastBss, Site.pageAlign_addr (by omega)]
    rw [h.vars.lastBss]
    unfold Site.addr taskSize at *
    omega

/-- The pages behind the last segment's are mapped without a file. -/
theorem Laid.mapBss (h : Laid k file P first s₀ done z l s)
    (hzero : ∀ x, P.addr (z.vaddr + z.filesz) ≤ x →
      x < P.addr (pageAlign (z.vaddr + z.filesz)) → s.space.mem x = 0) {n : Nat} (hpos : 0 < n)
    (hend : P.addr (pageAlign (z.vaddr + z.filesz)) + n = P.addr (pageAlign (z.vaddr + z.memsz)))
    {info : VmInfo File} (hinfo : info.vmFile = none) :
    let s' := s.mapArea k (P.addr (pageAlign (z.vaddr + z.filesz))) n info 0
    (∀ q ∈ z :: done, InMemory k file P s' q) ∧ Cleared P s' z := by
  constructor
  · intro q hq
    exact (h.held q hq).mapArea (h.fits q hq) h.kept.sorted hpos (h.mapped_le hq) _ _
  · intro i hlo hhi
    rw [Sys.lookup_mapArea h.kept.sorted hpos]
    by_cases hx : P.addr z.vaddr + i < P.addr (pageAlign (z.vaddr + z.filesz))
    · have hout : ¬(P.addr (pageAlign (z.vaddr + z.filesz)) ≤ P.addr z.vaddr + i ∧
          P.addr z.vaddr + i < P.addr (pageAlign (z.vaddr + z.filesz)) + n) := by omega
      rw [if_neg hout]
      exact ⟨(h.cleared_page hzero hlo hx).1, (if_neg hout).trans (h.cleared_page hzero hlo hx).2⟩
    · have hin : P.addr (pageAlign (z.vaddr + z.filesz)) ≤ P.addr z.vaddr + i ∧
          P.addr z.vaddr + i < P.addr (pageAlign (z.vaddr + z.filesz)) + n := by
        have hlow := (h.fits z List.mem_cons_self).low_vaddr
        have halign := le_pageAlign (z.vaddr + z.memsz)
        unfold Site.addr at *
        omega
      rw [if_pos hin]
      refine ⟨Option.some_ne_none _, (if_pos hin).trans ?_⟩
      rw [hinfo]
      rfl

theorem Laid.note (h : Laid k file P first s₀ done z l s) (req : Request File) (ret : UInt64)
    (hin : P.Inside (req, ret)) : Laid k file P first s₀ done z l (s.note req ret) :=
  ⟨h.kept.note req ret hin, h.vars, fun q hq => (h.held q hq).note req ret, h.fits, h.filesz_le,
    h.below⟩

/-- **The end of `elf_load_binary`.** -/
theorem Laid.elfLoadBss (hk : k.Maps) (h : Laid k file P first s₀ done z l s) :
    ∃ v s', NoDrop.elfLoadBss k file l s = (v, s') ∧ Kept P first s₀ s' ∧
      (¬BadAddr v → v = P.loadAddr ∧ (∀ q ∈ z :: done, InMemory k file P s' q) ∧
        Cleared P s' z) := by
  obtain ⟨failed, s₁, hpad, h₁, hzero⟩ := h.padzero
  obtain ⟨hE, hL⟩ := h.toNat_ends
  unfold NoDrop.elfLoadBss
  rw [hpad]
  dsimp only
  cases failed with
  | true => exact ⟨_, _, rfl, h₁.kept, fun hn => absurd badAddr_negEfault hn⟩
  | false =>
    rw [if_neg Bool.false_ne_true]
    by_cases hlt : elfPagealign l.elfBss < elfPagealign l.lastBss
    · rw [if_pos hlt]
      rw [UInt64.lt_iff_toNat_lt, hE, hL] at hlt
      let n := P.addr (pageAlign (z.vaddr + z.memsz)) - P.addr (pageAlign (z.vaddr + z.filesz))
      have hlen : pageAlign (elfPagealign l.lastBss - elfPagealign l.elfBss).toNat = n := by
        rw [UInt64.toNat_sub_of_le, hE, hL]
        · refine pageAlign_of_aligned ?_
          have hlow := (h.fits z List.mem_cons_self).low_vaddr
          have h1 := pageAlign_mod (z.vaddr + z.memsz)
          have h2 := pageAlign_mod (z.vaddr + z.filesz)
          have h3 := le_pageAlign (z.vaddr + z.filesz)
          unfold Site.addr pageSize at *
          omega
        · rw [UInt64.le_iff_toNat_le, hE, hL]
          exact Nat.le_of_lt hlt
      have hpos : 0 < n := Nat.sub_pos_of_lt hlt
      have hend : P.addr (pageAlign (z.vaddr + z.filesz)) + n =
          P.addr (pageAlign (z.vaddr + z.memsz)) := Nat.add_sub_cancel' (Nat.le_of_lt hlt)
      have hin : P.Covers (P.addr (pageAlign (z.vaddr + z.filesz))) n := by
        refine ⟨Nat.le_add_right .., ?_⟩
        rw [hend]
        exact h.covers_page.2
      let req : Request File :=
        .vmBrkFlags (elfPagealign l.elfBss) (elfPagealign l.lastBss - elfPagealign l.elfBss)
      have hinside : P.Inside (req, k.answer s₁ req) := by
        show P.Covers _ _
        rw [hE, hlen]
        exact hin
      have hnote := h₁.note req (k.answer s₁ req) hinside
      unfold Sys.vmBrkFlags
      dsimp only
      by_cases hret : k.answer s₁ req = 0
      · rw [if_neg (not_not.mpr hret)]
        dsimp only
        rw [if_neg (not_not.mpr hret), hE, hlen]
        refine ⟨_, _, rfl, hnote.kept.mapArea hin hpos _ _, fun _ => ⟨h.vars.loadAddr, ?_⟩⟩
        exact hnote.mapBss (hzero rfl) hpos hend rfl
      · rw [if_pos hret]
        dsimp only
        rw [if_pos hret]
        exact ⟨_, _, rfl, hnote.kept, fun hn => absurd ((hk.brk s₁ _ _).resolve_left hret) hn⟩
    · rw [if_neg hlt]
      rw [UInt64.lt_iff_toNat_lt, hE, hL] at hlt
      refine ⟨_, _, rfl, h₁.kept, fun _ => ⟨h.vars.loadAddr, h₁.held, ?_⟩⟩
      intro i hlo hhi
      refine h₁.cleared_page (hzero rfl) hlo ?_
      have hlow := (h.fits z List.mem_cons_self).low_vaddr
      have halign := le_pageAlign (z.vaddr + z.memsz)
      unfold Site.addr at *
      omega

end Bss

/-! ## The whole image -/

section Image

variable {File : Type} {k : Kern File} {s : Sys File}

theorem filter_load {ph : ElfPhdr} (h : ph.pType = ptLoad) (phdrs : List ElfPhdr) :
    ((ph :: phdrs).filter fun ph => ph.pType = ptLoad) =
      ph :: phdrs.filter fun ph => ph.pType = ptLoad := by
  simp [h]

theorem filter_other {ph : ElfPhdr} (h : ph.pType ≠ ptLoad) (phdrs : List ElfPhdr) :
    ((ph :: phdrs).filter fun ph => ph.pType = ptLoad) =
      phdrs.filter fun ph => ph.pType = ptLoad := by
  simp [h]

/-- The loop passes over what is not loaded. -/
theorem elfLoadSegments_filter (file : File) (phdrs : List ElfPhdr) (l : ElfLoop) (s : Sys File) :
    elfLoadSegments k file phdrs l s =
      elfLoadSegments k file (phdrs.filter fun ph => ph.pType = ptLoad) l s := by
  induction phdrs generalizing l s with
  | nil => rfl
  | cons ph phdrs ih =>
    by_cases hload : ph.pType = ptLoad
    · rw [filter_load hload, elfLoadSegments, elfLoadSegments,
        if_pos hload, if_pos hload]
      rcases elfLoadSegment k file ph l s with ⟨r, s'⟩
      cases r with
      | error e => rfl
      | ok l' => exact ih l' s'
    · rw [filter_other hload, elfLoadSegments, if_neg hload]
      exact ih l s

/-- The first and the last segment, as the loop of `total_mapping_size` finds them. -/
theorem foldl_loads (phdrs : List ElfPhdr) (a b : Option ElfPhdr) :
    phdrs.foldl (fun idx ph =>
      if ph.pType = ptLoad then (idx.1.or (some ph), some ph) else idx) (a, b) =
      (a.or (phdrs.filter fun ph => ph.pType = ptLoad).head?,
        ((phdrs.filter fun ph => ph.pType = ptLoad).getLast?).or b) := by
  induction phdrs generalizing a b with
  | nil => simp
  | cons ph phdrs ih =>
    rw [List.foldl_cons]
    by_cases hload : ph.pType = ptLoad
    · rw [if_pos hload, ih, filter_load hload, List.head?_cons,
        List.getLast?_cons]
      cases a <;> cases (phdrs.filter fun ph => ph.pType = ptLoad).getLast? <;> simp
    · rw [if_neg hload, ih, filter_other hload]

theorem totalMappingSize_of_loads {phdrs : List ElfPhdr} {f z : ElfPhdr}
    (hf : (phdrs.filter fun ph => ph.pType = ptLoad).head? = some f)
    (hz : (phdrs.filter fun ph => ph.pType = ptLoad).getLast? = some z) :
    totalMappingSize phdrs = z.pVaddr + z.pMemsz - elfPagestart f.pVaddr := by
  unfold totalMappingSize
  rw [foldl_loads, hf, hz]
  rfl

theorem totalMappingSize_nil {phdrs : List ElfPhdr}
    (h : (phdrs.filter fun ph => ph.pType = ptLoad) = []) : totalMappingSize phdrs = 0 := by
  unfold totalMappingSize
  rw [foldl_loads, h]
  rfl

/-- Of segments in the order of their addresses, each lies between the first and the last. -/
theorem Linked.between {len : Nat} {f z ph : ElfPhdr} {rest : List ElfPhdr}
    (h : Linked len (f :: rest)) (hz : (f :: rest).getLast? = some z) (hph : ph ∈ f :: rest) :
    pageStart f.vaddr ≤ pageStart ph.vaddr ∧
      pageAlign (ph.vaddr + ph.memsz) ≤ pageAlign (z.vaddr + z.memsz) := by
  constructor
  · rcases List.mem_cons.mp hph with rfl | hrest
    · exact Nat.le_refl _
    · have h1 := (List.pairwise_cons.mp h.apart).1 ph hrest
      have h2 := pageStart_le f.vaddr
      have h3 := le_pageAlign (f.vaddr + f.memsz)
      omega
  · have hsplit := List.dropLast_append_getLast? z hz
    have hapart := h.apart
    rw [← hsplit] at hapart hph
    rcases List.mem_append.mp hph with hinit | hlast
    · have h1 := (List.pairwise_append.mp hapart).2.2 ph hinit z List.mem_cons_self
      have h2 := pageStart_le z.vaddr
      have h3 := le_pageAlign (z.vaddr + z.memsz)
      omega
    · rw [List.mem_singleton.mp hlast]

theorem Linked.toNat_total {len : Nat} {f z : ElfPhdr} {rest : List ElfPhdr}
    (h : Linked len (f :: rest)) (hz : (f :: rest).getLast? = some z) :
    (z.pVaddr + z.pMemsz - elfPagestart f.pVaddr).toNat + pageStart f.vaddr =
      z.vaddr + z.memsz := by
  have hmem : z ∈ f :: rest := List.mem_of_getLast? hz
  have htop := h.top z hmem
  have hlow := (h.between hz hmem).1
  have hle := pageStart_le z.vaddr
  have hadd : (z.pVaddr + z.pMemsz).toNat = z.vaddr + z.memsz := by
    rw [UInt64.toNat_add]
    exact Nat.mod_eq_of_lt htop
  have hps : (elfPagestart f.pVaddr).toNat = pageStart f.vaddr := toNat_elfPagestart _
  rw [UInt64.toNat_sub_of_le, hadd, hps]
  · omega
  · rw [UInt64.le_iff_toNat_le, hadd, hps]
    omega

/-- The image has the place `P`: its range was reserved by the first mapping, with the size of
the image, where nothing was mapped before; all that was mapped since lies in it, and nothing
was changed outside it. -/
structure Reserved (img : ElfImage File) (P : Site) (s s' : Sys File) : Prop where
  size : P.size = pageAlign (totalMappingSize img.phdrs).toNat
  free : s.space.Free P.base.toNat P.size
  log : ∃ len prot off ext, pageAlign len.toNat = P.size ∧ (∀ e ∈ ext, P.Inside e) ∧
    s'.log = s.log ++ (.vmMmap (some img.file) 0 len prot false off, P.base) :: ext
  frame : ∀ x, x < P.base.toNat ∨ P.base.toNat + P.size ≤ x →
    lookup s'.space.mmap x = lookup s.space.mmap x ∧ s'.space.mem x = s.space.mem x
  base : lookup s'.space.mmap P.base.toNat ≠ none
  sorted : Sorted s'.space.mmap

theorem Kept.reserved {img : ElfImage File} {P : Site} {ph : ElfPhdr} {s' : Sys File}
    (h : Kept P (reserveRequest img.file ph (totalMappingSize img.phdrs)) s s')
    (hsize : P.size = pageAlign (totalMappingSize img.phdrs).toNat)
    (hlen : (elfPagealign (totalMappingSize img.phdrs)).toNat = P.size)
    (hfree : s.space.Free P.base.toNat P.size) : Reserved img P s s' := by
  obtain ⟨ext, hlog, hin⟩ := h.log
  refine ⟨hsize, hfree, ⟨_, _, _, ext, ?_, hin, hlog⟩, h.frame, h.base, h.sorted⟩
  rw [hlen, pageAlign_of_aligned P.size_mod]

/-- The segment is in memory from `start` on, as the file has it. -/
def Loaded (k : Kern File) (file : File) (s : Sys File) (start : Nat) (ph : ElfPhdr) : Prop :=
  ∀ i, i < ph.memsz → lookup s.space.mmap (start + i) ≠ none ∧
    s.space.mem (start + i) = if i < ph.filesz then (k.content file).getD (ph.offset + i) 0 else 0

theorem InMemory.loaded {file : File} {P : Site} {ph : ElfPhdr} (h : InMemory k file P s ph)
    (hfit : P.Fits ph) (hclear : Cleared P s ph) : Loaded k file s (P.addr ph.vaddr) ph := by
  intro i hi
  by_cases hfile : i < ph.filesz
  · obtain ⟨hlo, hhi⟩ := hfit.addr_lt hfile
    rw [if_pos hfile, h.mapped _ hlo hhi]
    exact ⟨Option.some_ne_none _, h.bytes i hfile⟩
  · rw [if_neg hfile]
    exact hclear i (Nat.not_lt.mp hfile) hi

/-- What follows from the shape of an image, with first segment `f` and last segment `z`. -/
structure Shaped (img : ElfImage File) (f z : ElfPhdr) : Prop where
  total : totalMappingSize img.phdrs ≠ 0
  high : pageStart f.vaddr + pageAlign (totalMappingSize img.phdrs).toNat =
    pageAlign (z.vaddr + z.memsz)
  pos : 0 < f.mapSize
  load : ∀ q ∈ img.loads, q.pType = ptLoad

theorem Linked.shaped {len : Nat} {img : ElfImage File} {f z : ElfPhdr} {rest : List ElfPhdr}
    (h : Linked len (f :: rest)) (hloads : img.loads = f :: rest)
    (hz : (f :: rest).getLast? = some z) : Shaped img f z := by
  have hfilter : (img.phdrs.filter fun ph => ph.pType = ptLoad) = f :: rest := hloads
  have htot : totalMappingSize img.phdrs = z.pVaddr + z.pMemsz - elfPagestart f.pVaddr :=
    totalMappingSize_of_loads (by rw [hfilter]; rfl) (by rw [hfilter]; exact hz)
  have hend := h.toNat_total hz
  rw [← htot] at hend
  have hfirst := h.first f rfl
  have hle := h.filesz_le f List.mem_cons_self
  refine ⟨?_, ?_, ?_, ?_⟩
  · intro h0
    rw [h0] at hend
    have hzero : (0 : UInt64).toNat = 0 := rfl
    have hlast := (h.between hz List.mem_cons_self).2
    unfold pageAlign pageStart pageSize at *
    omega
  · have := pageStart_mod f.vaddr
    rw [← hend]
    unfold pageAlign pageSize at *
    omega
  · have := le_pageAlign (f.filesz + f.vaddr % pageSize)
    unfold ElfPhdr.mapSize
    omega
  · intro q hq
    simpa using (List.mem_filter.mp hq).2

/-- `elf_load_binary` of an image with first segment `f`. -/
theorem elfLoadBinary_eq {img : ElfImage File} {f z : ElfPhdr} {rest : List ElfPhdr}
    (htype : ¬(img.eType ≠ etExec ∧ img.eType ≠ etDyn)) (hloads : img.loads = f :: rest)
    (hshape : Shaped img f z) (s : Sys File) :
    elfLoadBinary k img s =
      match elfLoadSegment k img.file f
        ⟨false, 0, totalMappingSize img.phdrs, 0, 0, ⟨false, false, false⟩⟩ s with
      | (.error e, s) => (e, s)
      | (.ok l, s) =>
        match elfLoadSegments k img.file rest l s with
        | (.error e, s) => (e, s)
        | (.ok l, s) => elfLoadBss k img.file l s := by
  have hfilter : (img.phdrs.filter fun ph => ph.pType = ptLoad) = f :: rest := hloads
  have hload : f.pType = ptLoad := hshape.load f (by rw [hloads]; exact List.mem_cons_self)
  unfold elfLoadBinary
  rw [if_neg htype]
  dsimp only
  rw [if_neg hshape.total, elfLoadSegments_filter, hfilter, elfLoadSegments, if_pos hload]
  rcases elfLoadSegment k img.file f
    ⟨false, 0, totalMappingSize img.phdrs, 0, 0, ⟨false, false, false⟩⟩ s with ⟨r, s'⟩
  cases r with
  | error e => rfl
  | ok l => rfl

/-- The segments fit into the range that is reserved. -/
theorem Shaped.fits {len : Nat} {img : ElfImage File} {f z q : ElfPhdr} {rest : List ElfPhdr}
    {P : Site} (h : Shaped img f z) (hl : Linked len (f :: rest))
    (hz : (f :: rest).getLast? = some z) (hps : P.ps.toNat = pageStart f.vaddr)
    (hsize : P.size = pageAlign (totalMappingSize img.phdrs).toNat) (hq : q ∈ f :: rest) :
    P.Fits q := by
  obtain ⟨hq1, hq2⟩ := hl.between hz hq
  constructor
  · rw [hps]
    exact hq1
  · rw [hps, hsize, h.high]
    exact hq2

/-- The call that reserves the range of an image is refused, or there is none. -/
def ElfImage.Refused (img : ElfImage File) (k : Kern File) (s : Sys File) : Prop :=
  (img.eType ≠ etExec ∧ img.eType ≠ etDyn) ∨
    ∀ f, img.loads.head? = some f →
      BadAddr (k.answer s (reserveRequest img.file f (totalMappingSize img.phdrs)))

/-- The outcomes of `elf_load_binary`: nothing is mapped, or the image has a place. -/
theorem elfLoadBinary_cases (hk : k.Maps) {img : ElfImage File}
    (hl : Linked (k.content img.file).length img.loads) (hs : Sorted s.space.mmap) :
    ∃ v s', elfLoadBinary k img s = (v, s') ∧ s'.underflow = s.underflow ∧
      ((img.Refused k s ∧ BadAddr v ∧ s'.space = s.space) ∨
      ∃ P : Site, ¬img.Refused k s ∧ Reserved img P s s' ∧
        (¬BadAddr v → v = P.loadAddr ∧
          ∀ ph ∈ img.loads, P.Fits ph ∧ Loaded k img.file s' (P.addr ph.vaddr) ph)) := by
  by_cases htype : img.eType ≠ etExec ∧ img.eType ≠ etDyn
  · exact ⟨_, _, if_pos htype, rfl, .inl ⟨.inl htype, by decide, rfl⟩⟩
  rcases hcases : img.loads with _ | ⟨f, rest⟩
  · refine ⟨negEinval, s, ?_, rfl, .inl ⟨.inr fun f hf => ?_, by decide, rfl⟩⟩
    · unfold elfLoadBinary
      rw [if_neg htype]
      exact if_pos (totalMappingSize_nil hcases)
    · rw [hcases] at hf
      cases hf
  obtain ⟨z, hz⟩ : ∃ z, (f :: rest).getLast? = some z := ⟨_, List.getLast?_cons⟩
  rw [hcases] at hl
  have hshape := hl.shaped hcases hz
  have hf : f ∈ f :: rest := List.mem_cons_self
  rw [elfLoadBinary_eq htype hcases hshape]
  rcases Laid.begin img.file hk hs (hl.mappable hf) hshape.pos hshape.total
    (by rw [hshape.high]; exact (hl.between hz hf).2) ⟨false, false, false⟩ with
    ⟨hbad, hseg⟩ | ⟨P, hbase, hps, hsize, hlen, hfit, hfree, r, s₁, hseg, hkept, -, herr, -, hok⟩
  · rw [hseg]
    refine ⟨_, _, rfl, rfl, .inl ⟨.inr fun f' hf' => ?_, hbad, rfl⟩⟩
    rw [hcases] at hf'
    rw [← Option.some.inj hf']
    exact hbad
  have hgranted : ¬img.Refused k s := by
    rintro (h | h)
    · exact htype h
    · have hbad := h f (by rw [hcases]; rfl)
      rw [← hbase] at hbad
      have htop := P.top
      have hcov := hfit.covers (hl.filesz_le f hf)
      have hpos := hshape.pos
      unfold BadAddr at hbad
      have := hcov.1
      have := hcov.2
      omega
  have hload : ∀ q ∈ f :: rest, q.pType = ptLoad := by
    rw [← hcases]
    exact hshape.load
  have hfits := fun q (hq : q ∈ f :: rest) => hshape.fits hl hz hps hsize hq
  rw [hseg]
  cases r with
  | error e =>
    exact ⟨e, s₁, rfl, hkept.underflow, .inr ⟨P, hgranted, hkept.reserved hsize hlen hfree,
      fun hn => absurd (herr e rfl) hn⟩⟩
  | ok l₁ =>
    obtain ⟨r, s₂, hrun, hkept₂, herr₂, hok₂⟩ := (hok l₁ rfl).run hk
      (fun q hq => ⟨hload q (List.mem_cons_of_mem f hq), hl.mappable (List.mem_cons_of_mem f hq),
        hfits q (List.mem_cons_of_mem f hq)⟩) hl.apart
    dsimp only
    rw [hrun]
    cases r with
    | error e =>
      exact ⟨e, s₂, rfl, hkept₂.underflow, .inr ⟨P, hgranted, hkept₂.reserved hsize hlen hfree,
        fun hn => absurd (herr₂ e rfl) hn⟩⟩
    | ok l₂ =>
      obtain ⟨z', done, hlaid, hz', hmem⟩ := hok₂ l₂ rfl
      obtain rfl : z = z' := Option.some.inj (hz.symm.trans hz')
      obtain ⟨v, s', hbss, hkept', hgood⟩ := hlaid.elfLoadBss hk
      refine ⟨v, s', hbss, hkept'.underflow,
        .inr ⟨P, hgranted, hkept'.reserved hsize hlen hfree, ?_⟩⟩
      intro hn
      obtain ⟨hv, hheld, hclear⟩ := hgood hn
      refine ⟨hv, ?_⟩
      intro ph hph
      refine ⟨hfits ph hph, (hheld ph (hmem ph (by simpa using hph))).loaded (hfits ph hph) ?_⟩
      -- only the last segment has memory without bytes in the file
      have hsplit := List.dropLast_append_getLast? z hz
      rw [← hsplit] at hph
      rcases List.mem_append.mp hph with hinit | hlast
      · intro i hlo hhi
        have := hl.bss ph hinit
        omega
      · rw [List.mem_singleton.mp hlast]
        exact hclear

/-- **`elf_load_binary` maps the image faithfully.**  Where it does not return an error, every
segment is at its address, as the file has it.  What it maps lies in the range reserved for
the image, which was free; and no subtraction of `elf_map` wraps around. -/
theorem elfLoadBinary_faithful (hk : k.Maps) {img : ElfImage File}
    (hl : Linked (k.content img.file).length img.loads) (hs : Sorted s.space.mmap) :
    let (v, s') := elfLoadBinary k img s
    (¬BadAddr v → ∀ ph ∈ img.loads, Loaded k img.file s' (v + ph.pVaddr).toNat ph) ∧
      ((BadAddr v ∧ s'.space = s.space) ∨ ∃ P, Reserved img P s s') ∧
      s'.underflow = s.underflow := by
  obtain ⟨v, s', heq, hunder, hcases⟩ := elfLoadBinary_cases hk hl hs
  rw [heq]
  refine ⟨?_, hcases.imp (fun h => h.2) (fun ⟨P, _, hres, _⟩ => ⟨P, hres⟩), hunder⟩
  intro hn ph hph
  rcases hcases with ⟨-, hbad, -⟩ | ⟨P, -, -, hgood⟩
  · exact absurd hbad hn
  · obtain ⟨hv, hall⟩ := hgood hn
    obtain ⟨hfit, hloaded⟩ := hall ph hph
    have haddr : (v + ph.pVaddr).toNat = P.addr ph.vaddr := by
      rw [hv]
      exact Site.toNat_loadAddr_add hfit.low_vaddr
        (Nat.le_trans (Nat.le_add_right ..) hfit.high_vaddr)
    rw [haddr]
    exact hloaded

end Image

/-- An image with a segment of code and one of data, with 8 KiB of memory. -/
def twoSegments : ElfImage Unit where
  file := ()
  eType := etDyn
  eEntry := 0
  ePhoff := 64
  phdrs := [⟨ptLoad, 5, 0, 0, 3, 3⟩, ⟨ptLoad, 6, 0, 0x1000, 2, 0x2000⟩]

theorem twoSegments_linked : Linked 3 twoSegments.loads := by
  have hloads : twoSegments.loads = twoSegments.phdrs := rfl
  rw [hloads]
  exact ⟨by decide, by decide, by decide, by decide, by decide, by decide,
    fun ph h => by rw [← Option.some.inj h]; decide, by decide⟩

/-- Memory with nothing mapped. -/
def emptySys : Sys Unit := ⟨⟨[], fun _ => 0⟩, [], false⟩

theorem twoSegments_placed :
    ¬BadAddr (elfLoadBinary (roomyKern fun _ => [1, 2, 3]) twoSegments emptySys).1 := by
  decide +kernel

theorem elfLoadBinary_twoSegments :
    ¬BadAddr (elfLoadBinary (roomyKern fun _ => [1, 2, 3]) twoSegments emptySys).1 ∧
      let (v, s') := elfLoadBinary (roomyKern fun _ => [1, 2, 3]) twoSegments emptySys
      (¬BadAddr v → ∀ ph ∈ twoSegments.loads,
        Loaded (roomyKern fun _ => [1, 2, 3]) twoSegments.file s' (v + ph.pVaddr).toNat ph) ∧
      ((BadAddr v ∧ s'.space = emptySys.space) ∨ ∃ P, Reserved twoSegments P emptySys s') ∧
      s'.underflow = emptySys.underflow := by
  have hl : Linked ((roomyKern fun _ => [1, 2, 3]).content twoSegments.file).length
      twoSegments.loads := twoSegments_linked
  have h := elfLoadBinary_faithful (s := emptySys) (roomyKern_maps fun _ => [1, 2, 3]) hl Sorted.nil
  exact ⟨twoSegments_placed, h⟩

end NoDrop
