import NoDrop.ElfImage

/-! # When an image cannot be loaded

`elf_load_binary` checks what it has mapped and what it was given, and fails for reasons of its
own.  For an image that is linked at page 0 and has no empty segment, as a position-independent
program is, none of these checks fails: the image is loaded exactly if the kernel grants every
call (`elfLoadBinary_answers`).
-/
namespace NoDrop

open Areas Bytes

/-- A position-independent image, as a linker makes it from a file of `len` bytes. -/
structure Portable {File : Type} (len : Nat) (img : ElfImage File) : Prop where
  linked : Linked len img.loads
  type : ¬(img.eType ≠ etExec ∧ img.eType ≠ etDyn)
  loads : img.loads ≠ []
  memsz : ∀ ph ∈ img.loads, 0 < ph.memsz
  zero : ∀ f, img.loads.head? = some f → pageStart f.vaddr = 0

section Log

variable {File : Type} {k : Kern File} {file : File} {P : Site} {s s' : Sys File}
  {ph z : ElfPhdr} {l : ElfLoop} {len : Nat} {prot : Prot}

/-- `elf_map` of a segment other than the first fails only if its mapping is refused. -/
theorem elfMap_granted (hm : Mappable len ph) {addr : UInt64}
    (hz : ph.mapSize = 0 → ¬BadAddr (elfPagestart addr)) (s : Sys File) :
    ∃ ext, (elfMap k file addr ph prot true 0 s).2.log = s.log ++ ext ∧
      ((∀ e ∈ ext, Granted e) ↔ ¬BadAddr (elfMap k file addr ph prot true 0 s).1) := by
  rw [elfMap_fixed hm]
  by_cases h0 : ph.mapSize = 0
  · rw [if_pos h0]
    exact ⟨[], (List.append_nil _).symm, fun _ => hz h0, fun _ e he => by cases he⟩
  · rw [if_neg h0]
    refine ⟨_, Sys.vmMmap_log (.segment file) (some file) (elfPagestart addr) ph.mapLen prot true
      ph.mapOff s, ?_⟩
    rw [List.forall_mem_singleton]
    exact Iff.rfl

/-- What the outcome of a part of `elf_load_binary` says of the calls `ext` it has made. -/
def Answers (Q : ElfLoop → Prop) (r : Except UInt64 ElfLoop) (ext : List (Request File × UInt64)) :
    Prop :=
  (∃ l, r = .ok l ∧ (∀ e ∈ ext, Granted e) ∧ Q l) ∨
    ∃ e, r = .error e ∧ BadAddr e ∧ ¬∀ e ∈ ext, Granted e

/-- A segment other than the first is loaded if its mapping is granted. -/
theorem Vars.elfLoadSegment_answers (file : File) (hv : Vars P z l) (hm : Mappable len ph)
    (hfit : P.Fits ph) (hpos : 0 < ph.memsz) (hzle : z.filesz ≤ z.memsz)
    (hapart : pageAlign (z.vaddr + z.memsz) ≤ pageStart ph.vaddr) (s : Sys File) :
    ∃ r s' ext, elfLoadSegment k file ph l s = (r, s') ∧ s'.log = s.log ++ ext ∧
      Answers (Vars P ph) r ext := by
  have hend : z.vaddr + z.memsz ≤ ph.vaddr :=
    Nat.le_trans (le_pageAlign _) (Nat.le_trans hapart (pageStart_le _))
  obtain ⟨helf, hlast⟩ := hv.le hzle hend
  have hload : ∀ a, (if l.loadAddrSet then l.loadAddr else a) = P.loadAddr := by
    intro a
    rw [if_pos hv.set]
    exact hv.loadAddr
  have hempty : ph.mapSize = 0 → ¬BadAddr (elfPagestart (P.loadAddr + ph.pVaddr)) := by
    intro _ hbad
    have htop := P.top
    have hhigh := hfit.high_vaddr
    have hlow := hfit.low
    have hle := pageStart_le ph.vaddr
    unfold BadAddr at hbad
    rw [Site.toNat_elfPagestart_add hfit.low (Nat.le_trans (Nat.le_add_right ..) hhigh)] at hbad
    unfold Site.addr ElfPhdr.vaddr at *
    omega
  obtain ⟨ext, hlog, hiff⟩ : ∃ ext,
      (elfMap k file (P.loadAddr + ph.pVaddr) ph (elfProt ph) true 0 s).2.log = s.log ++ ext ∧
      ((∀ e ∈ ext, Granted e) ↔
        ¬BadAddr (elfMap k file (P.loadAddr + ph.pVaddr) ph (elfProt ph) true 0 s).1) :=
    elfMap_granted hm hempty s
  rcases heq : elfMap k file (P.loadAddr + ph.pVaddr) ph (elfProt ph) true 0 s with ⟨addr, s'⟩
  rw [heq] at hlog hiff
  have hmap : elfMap k file ((if l.loadAddrSet then l.loadAddr else -ph.pVaddr) + ph.pVaddr) ph
      (elfProt ph) l.loadAddrSet l.totalSize s = (addr, s') := by
    rw [hload, hv.total, hv.set]
    exact heq
  by_cases hbad : BadAddr addr
  · exact ⟨_, s', ext, elfLoadSegment_of_bad hmap hbad, hlog,
      .inr ⟨addr, rfl, hbad, fun hall => hiff.mp hall hbad⟩⟩
  · obtain ⟨l', hseg, hvars⟩ :=
      elfLoadSegment_ok_of_map hm hfit hpos hmap hbad (hload _) helf hlast
    exact ⟨_, s', ext, hseg, hlog, .inl ⟨l', rfl, hiff.mpr hbad, hvars⟩⟩

/-- The rest of the loop succeeds if all its mappings are granted. -/
theorem Vars.elfLoadSegments_answers (file : File) {rest : List ElfPhdr} (hv : Vars P z l)
    (hzle : z.filesz ≤ z.memsz)
    (hrest : ∀ q ∈ rest, q.pType = ptLoad ∧ Mappable len q ∧ P.Fits q ∧ 0 < q.memsz)
    (hapart : (z :: rest).Pairwise fun a b => pageAlign (a.vaddr + a.memsz) ≤ pageStart b.vaddr)
    (s : Sys File) :
    ∃ r s' ext, elfLoadSegments k file rest l s = (r, s') ∧ s'.log = s.log ++ ext ∧
      Answers (fun l => ∃ z', (z :: rest).getLast? = some z' ∧ Vars P z' l) r ext := by
  induction rest generalizing z l s with
  | nil =>
    exact ⟨_, _, [], rfl, (List.append_nil _).symm,
      .inl ⟨l, rfl, (fun e he => by cases he), z, rfl, hv⟩⟩
  | cons ph rest ih =>
    obtain ⟨hload, hm, hfit, hpos⟩ := hrest ph List.mem_cons_self
    obtain ⟨hz, hapart⟩ := List.pairwise_cons.mp hapart
    obtain ⟨r, s₁, ext, hseg, hlog, hans⟩ :=
      hv.elfLoadSegment_answers (k := k) file hm hfit hpos hzle (hz ph List.mem_cons_self) s
    rw [elfLoadSegments, if_pos hload, hseg]
    rcases hans with ⟨l₁, rfl, hall, hv₁⟩ | ⟨e, rfl, hbad, hnot⟩
    · obtain ⟨r, s₂, ext', hrun, hlog', hans'⟩ :=
        ih hv₁ hm.filesz_le (fun q hq => hrest q (List.mem_cons_of_mem ph hq)) hapart s₁
      refine ⟨r, s₂, ext ++ ext', hrun, ?_, ?_⟩
      · rw [hlog', hlog, List.append_assoc]
      · rcases hans' with ⟨l₂, rfl, hall', hlast⟩ | ⟨e, rfl, hbad, hnot⟩
        · exact .inl ⟨l₂, rfl, List.forall_mem_append.mpr ⟨hall, hall'⟩, hlast⟩
        · exact .inr ⟨e, rfl, hbad, fun h => hnot (List.forall_mem_append.mp h).2⟩
    · exact ⟨_, _, ext, rfl, hlog, .inr ⟨e, rfl, hbad, hnot⟩⟩

/-- `padzero` fails only if `clear_user` does. -/
theorem padzero_answers (elfBss : UInt64) (s : Sys File) :
    ∃ failed s' ext, padzero k elfBss s = (failed, s') ∧ s'.log = s.log ++ ext ∧
      ((∀ e ∈ ext, Granted e) ↔ failed = false) := by
  unfold padzero
  dsimp only
  split
  · refine ⟨_, _, [(.clearUser elfBss (4096 - elfPageoffset elfBss), _)], rfl, rfl, ?_⟩
    rw [List.forall_mem_singleton, decide_eq_false_iff_not, not_not]
    exact Iff.rfl
  · exact ⟨false, s, [], rfl, (List.append_nil _).symm, fun _ => rfl, fun _ e he => by cases he⟩

/-- The end of `elf_load_binary` fails only if a call is refused. -/
theorem elfLoadBss_answers (hk : k.Maps) (file : File) (hload : ¬BadAddr l.loadAddr)
    (s : Sys File) :
    ∃ v s' ext, elfLoadBss k file l s = (v, s') ∧ s'.log = s.log ++ ext ∧
      ((∀ e ∈ ext, Granted e) ↔ ¬BadAddr v) := by
  obtain ⟨failed, s₁, ext, hpad, hlog, hiff⟩ := padzero_answers (k := k) l.elfBss s
  unfold elfLoadBss
  rw [hpad]
  dsimp only
  cases failed with
  | true =>
    refine ⟨_, s₁, ext, rfl, hlog, ?_⟩
    rw [hiff]
    exact ⟨fun h => absurd h (by decide), fun h => absurd badAddr_negEfault h⟩
  | false =>
    have hall : ∀ e ∈ ext, Granted e := hiff.mpr rfl
    rw [if_neg Bool.false_ne_true]
    split
    · have hfst := Sys.vmBrkFlags_fst (k := k) (.bss file) (elfPagealign l.elfBss)
        (elfPagealign l.lastBss - elfPagealign l.elfBss) l.bssProt.exec s₁
      have hnote := Sys.vmBrkFlags_log (k := k) (.bss file) (elfPagealign l.elfBss)
        (elfPagealign l.lastBss - elfPagealign l.elfBss) l.bssProt.exec s₁
      rcases hbrk : s₁.vmBrkFlags k (.bss file) (elfPagealign l.elfBss)
        (elfPagealign l.lastBss - elfPagealign l.elfBss) l.bssProt.exec with ⟨error, s₂⟩
      rw [hbrk] at hfst hnote
      rw [hlog, List.append_assoc] at hnote
      dsimp only at hfst hnote ⊢
      have hgranted : (∀ e ∈ ext ++ [(.vmBrkFlags (elfPagealign l.elfBss)
          (elfPagealign l.lastBss - elfPagealign l.elfBss), error)], Granted e) ↔ error = 0 := by
        rw [List.forall_mem_append, List.forall_mem_singleton]
        exact and_iff_right hall
      split
      · rename_i hret
        have hbad : BadAddr error :=
          hfst ▸ (hk.brk s₁ _ _).resolve_left (fun h => hret (hfst.trans h))
        exact ⟨_, _, _, rfl, hnote, fun h => absurd (hgranted.mp h) hret, fun h => absurd hbad h⟩
      · rename_i hret
        exact ⟨_, _, _, rfl, hnote, fun _ => hload, fun _ => hgranted.mpr (not_not.mp hret)⟩
    · exact ⟨_, s₁, ext, rfl, hlog, fun _ => hload, fun _ => hall⟩

/-- **A position-independent image is loaded exactly if the kernel grants every call.** -/
theorem elfLoadBinary_answers (hk : k.Maps) {img : ElfImage File}
    (hp : Portable (k.content img.file).length img) (hs : Sorted s.space.mmap) :
    ∃ ext, (elfLoadBinary k img s).2.log = s.log ++ ext ∧
      ((∀ e ∈ ext, Granted e) ↔ ¬BadAddr (elfLoadBinary k img s).1) := by
  rcases hcases : img.loads with _ | ⟨f, rest⟩
  · exact absurd hcases hp.loads
  obtain ⟨z, hz⟩ : ∃ z, (f :: rest).getLast? = some z := ⟨_, List.getLast?_cons⟩
  have hl := hp.linked
  have hmemsz := hp.memsz
  rw [hcases] at hl hmemsz
  have hshape := hl.shaped hcases hz
  have hf : f ∈ f :: rest := List.mem_cons_self
  rw [elfLoadBinary_eq hp.type hcases hshape]
  rcases Laid.begin img.file hk hs (hl.mappable hf) hshape.pos hshape.total
    (by rw [hshape.high]; exact (hl.between hz hf).2) ⟨false, false, false⟩ with
    ⟨hbad, hseg⟩ | ⟨P, hbase, hps, hsize, -, hfit, -, r, s₁, hseg, -, hlog, -, hgo, hok⟩
  · rw [hseg]
    refine ⟨[_], rfl, ?_⟩
    rw [List.forall_mem_singleton]
    exact Iff.rfl
  have hgood : ¬BadAddr P.base := by
    have htop := P.top
    have hcov := hfit.covers (hl.filesz_le f hf)
    have hpos := hshape.pos
    have h1 := hcov.1
    have h2 := hcov.2
    unfold BadAddr
    omega
  obtain ⟨l₁, rfl⟩ := hgo (hmemsz f hf)
  have hv := (hok l₁ rfl).vars
  have hload : ∀ q ∈ f :: rest, q.pType = ptLoad := by
    rw [← hcases]
    exact hshape.load
  obtain ⟨r, s₂, ext, hrun, hlog', hans⟩ := hv.elfLoadSegments_answers (k := k) img.file
    (hl.filesz_le f hf)
    (fun q hq => ⟨hload q (List.mem_cons_of_mem f hq), hl.mappable (List.mem_cons_of_mem f hq),
      hshape.fits hl hz hps hsize (List.mem_cons_of_mem f hq),
      hmemsz q (List.mem_cons_of_mem f hq)⟩) hl.apart s₁
  rw [hseg]
  dsimp only
  rw [hrun]
  rw [hlog] at hlog'
  rcases hans with ⟨l₂, rfl, hall, z', -, hv₂⟩ | ⟨e, rfl, hbad, hnot⟩
  · -- the image is linked at page 0, so that the address is that of the first mapping
    have haddr : P.loadAddr = P.base := by
      have hps0 : P.ps = 0 := by
        rw [← UInt64.toNat_inj, hps]
        exact hp.zero f (by rw [hcases]; rfl)
      rw [Site.loadAddr, hps0]
      exact UInt64.sub_zero ..
    obtain ⟨v, s₃, ext', hbss, hlog₃, hiff⟩ := elfLoadBss_answers hk img.file (l := l₂)
      (by rw [hv₂.loadAddr, haddr]; exact hgood) s₂
    refine ⟨[(reserveRequest img.file f (totalMappingSize img.phdrs), P.base)] ++ ext ++ ext',
      ?_, ?_⟩
    · dsimp only
      rw [hbss, hlog₃, hlog', List.append_assoc, List.append_assoc, List.append_assoc]
    · dsimp only
      rw [hbss, ← hiff]
      constructor
      · exact fun h => (List.forall_mem_append.mp h).2
      · intro h
        refine List.forall_mem_append.mpr ⟨List.forall_mem_append.mpr ⟨?_, hall⟩, h⟩
        rw [List.forall_mem_singleton]
        exact hgood
  · refine ⟨[(reserveRequest img.file f (totalMappingSize img.phdrs), P.base)] ++ ext,
      hlog'.trans (List.append_assoc ..), ?_⟩
    constructor
    · exact fun h => absurd (List.forall_mem_append.mp h).2 hnot
    · exact fun h => absurd hbad h

end Log

end NoDrop
