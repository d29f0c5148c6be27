import NoDrop.Elf

/-! # The image in memory

What `elf_load_binary` leaves in the address space.  The files it is for are those a linker
makes (`Linked`): the segments follow one another, each on pages of its own, and only the
last has memory for which the file has no bytes.  For these, and for every kernel that
keeps to `Kern.Maps`, the image is where the returned address says and is what the file
says (`elfLoadBinary_faithful`, in `ElfImage`).

Addresses are counted from the first page of the image: a segment is at `base + (v - ps)`
where `base` is what the first `vm_mmap` returned and `ps` is the page of the first
segment's `p_vaddr`.  The loop keeps `Laid`.
-/
namespace NoDrop

open Areas Bytes

/-! ## What a linker makes -/

namespace ElfPhdr

/-- The fields as numbers. -/
def vaddr (ph : ElfPhdr) : Nat := ph.pVaddr.toNat
def memsz (ph : ElfPhdr) : Nat := ph.pMemsz.toNat
def filesz (ph : ElfPhdr) : Nat := ph.pFilesz.toNat
def offset (ph : ElfPhdr) : Nat := ph.pOffset.toNat

end ElfPhdr

/-- The address of the page. -/
def pageStart (n : Nat) : Nat := n / pageSize * pageSize

/-- The segments that are loaded. -/
def ElfImage.loads {File : Type} (img : ElfImage File) : List ElfPhdr :=
  img.phdrs.filter fun ph => ph.pType = ptLoad

/-- The `PT_LOAD` segments of a file of `len` bytes, as a linker makes them: in the order of
their addresses and on separate pages, with the file's pages in step with those of memory,
inside the file, the first one not empty, and all but the last without memory for which
the file has no bytes. -/
structure Linked (len : Nat) (loads : List ElfPhdr) : Prop where
  apart : loads.Pairwise fun a b => pageAlign (a.vaddr + a.memsz) ≤ pageStart b.vaddr
  inStep : ∀ ph ∈ loads, ph.offset % pageSize = ph.vaddr % pageSize
  filesz_le : ∀ ph ∈ loads, ph.filesz ≤ ph.memsz
  top : ∀ ph ∈ loads, ph.vaddr + ph.memsz < 2 ^ 64
  inFile : ∀ ph ∈ loads, ph.offset + ph.filesz ≤ len
  fileLen : len < 2 ^ 63
  first : ∀ ph, loads.head? = some ph → 0 < ph.filesz
  bss : ∀ ph ∈ loads.dropLast, ph.memsz = ph.filesz

/-- Whole pages around a range. -/
theorem pageStart_add_pageAlign (v n : Nat) :
    pageStart v + pageAlign (n + v % pageSize) = pageAlign (v + n) := by
  unfold pageStart pageAlign pageSize
  omega

theorem pageAlign_le_pageAlign {m n : Nat} (h : m ≤ n) : pageAlign m ≤ pageAlign n := by
  unfold pageAlign pageSize
  omega

theorem pageStart_le (n : Nat) : pageStart n ≤ n := by
  unfold pageStart pageSize
  omega

theorem pageStart_mod (n : Nat) : pageStart n % pageSize = 0 := Nat.mul_mod_left ..

/-! ## `elf_map` -/

section Map

variable {File : Type} {k : Kern File} {s : Sys File} {file : File} {ph : ElfPhdr} {prot : Prot}

/-- What a single segment needs. -/
structure Mappable (len : Nat) (ph : ElfPhdr) : Prop where
  inStep : ph.offset % pageSize = ph.vaddr % pageSize
  filesz_le : ph.filesz ≤ ph.memsz
  top : ph.vaddr + ph.memsz < 2 ^ 64
  inFile : ph.offset + ph.filesz ≤ len
  fileLen : len < 2 ^ 63

theorem Linked.mappable {len : Nat} {loads : List ElfPhdr} (h : Linked len loads)
    (hph : ph ∈ loads) : Mappable len ph :=
  ⟨h.inStep ph hph, h.filesz_le ph hph, h.top ph hph, h.inFile ph hph, h.fileLen⟩

namespace ElfPhdr

/-- How many bytes a segment is mapped with, and from where in the file: whole pages. -/
def mapLen (ph : ElfPhdr) : UInt64 := elfPagealign (ph.pFilesz + elfPageoffset ph.pVaddr)
def mapOff (ph : ElfPhdr) : UInt64 := ph.pOffset - elfPageoffset ph.pVaddr

/-- `mapLen` as a number. -/
def mapSize (ph : ElfPhdr) : Nat := pageAlign (ph.filesz + ph.vaddr % pageSize)

end ElfPhdr

variable {len : Nat}

theorem Mappable.toNat_mapLen (h : Mappable len ph) : ph.mapLen.toNat = ph.mapSize := by
  have hfile : ph.pFilesz.toNat < 2 ^ 63 := by
    have h1 := h.inFile
    have h2 := h.fileLen
    unfold ElfPhdr.filesz at h1
    omega
  have hadd : (ph.pFilesz + elfPageoffset ph.pVaddr).toNat = ph.filesz + ph.vaddr % pageSize := by
    rw [UInt64.toNat_add, toNat_elfPageoffset]
    unfold ElfPhdr.filesz ElfPhdr.vaddr pageSize
    omega
  unfold ElfPhdr.mapLen
  rw [toNat_elfPagealign, hadd]
  · rfl
  · rw [hadd]
    unfold ElfPhdr.filesz pageSize
    omega

/-- The subtraction for the place in the file does not wrap around. -/
theorem Mappable.le_offset (h : Mappable len ph) : elfPageoffset ph.pVaddr ≤ ph.pOffset := by
  have hstep := h.inStep
  rw [UInt64.le_iff_toNat_le, toNat_elfPageoffset]
  unfold ElfPhdr.offset ElfPhdr.vaddr pageSize at hstep
  omega

theorem Mappable.toNat_mapOff (h : Mappable len ph) :
    ph.mapOff.toNat + ph.vaddr % pageSize = ph.offset := by
  have hle := h.le_offset
  unfold ElfPhdr.mapOff
  rw [UInt64.toNat_sub_of_le _ _ hle, toNat_elfPageoffset]
  rw [UInt64.le_iff_toNat_le, toNat_elfPageoffset] at hle
  exact Nat.sub_add_cancel hle

theorem Mappable.mapLen_eq_zero (h : Mappable len ph) : ph.mapLen = 0 ↔ ph.mapSize = 0 := by
  rw [← h.toNat_mapLen]
  exact UInt64.toNat_inj.symm

/-- A segment ends where its pages do. -/
theorem ElfPhdr.pageStart_add_mapSize (ph : ElfPhdr) :
    pageStart ph.vaddr + ph.mapSize = pageAlign (ph.vaddr + ph.filesz) :=
  pageStart_add_pageAlign ph.vaddr ph.filesz

theorem ElfPhdr.mapSize_mod (ph : ElfPhdr) : ph.mapSize % pageSize = 0 := pageAlign_mod _

/-- `elf_map` of a segment other than the first. -/
theorem elfMap_fixed (h : Mappable len ph) (addr : UInt64) :
    elfMap k file addr ph prot true 0 s =
      if ph.mapSize = 0 then (elfPagestart addr, s)
      else s.vmMmap k (.segment file) (some file) (elfPagestart addr) ph.mapLen prot true
        ph.mapOff := by
  have hoff : decide (ph.pOffset < elfPageoffset ph.pVaddr) = false :=
    decide_eq_false (UInt64.not_lt.mpr h.le_offset)
  unfold elfMap
  rw [hoff, Bool.or_false]
  by_cases hz : ph.mapSize = 0
  · rw [if_pos hz]
    exact if_pos (h.mapLen_eq_zero.mpr hz)
  · rw [if_neg hz]
    exact (if_neg (mt h.mapLen_eq_zero.mp hz)).trans (if_neg (fun hne => hne rfl))

/-- `elf_map` of the first segment: the whole image is mapped, and what the segment does not
need is given back. -/
theorem elfMap_first (h : Mappable len ph) (hpos : 0 < ph.mapSize) {total : UInt64}
    (htotal : total ≠ 0) (addr : UInt64) :
    elfMap k file addr ph prot false total s =
      let (ret, s) := s.vmMmap k (.segment file) (some file) (elfPagestart addr)
        (elfPagealign total) prot false ph.mapOff
      if BadAddr ret then (ret, s)
      else (ret, ({ s with underflow := s.underflow || elfPagealign total < ph.mapLen } :
        Sys File).vmMunmap (ret + ph.mapLen) (elfPagealign total - ph.mapLen)) := by
  have hoff : decide (ph.pOffset < elfPageoffset ph.pVaddr) = false :=
    decide_eq_false (UInt64.not_lt.mpr h.le_offset)
  have hne : ¬ph.mapSize = 0 := Nat.pos_iff_ne_zero.mp hpos
  unfold elfMap
  rw [hoff, Bool.or_false]
  exact (if_neg (mt h.mapLen_eq_zero.mp hne)).trans (if_pos htotal)

end Map

/-! ## Where the image is -/

/-- The place of an image: page `ps` of the file's addresses is page `base` of memory, and
`size` bytes from there on are reserved. -/
structure Site where
  base : UInt64
  ps : UInt64
  size : Nat
  base_mod : base.toNat % pageSize = 0
  ps_mod : ps.toNat % pageSize = 0
  size_mod : size % pageSize = 0
  top : base.toNat + size ≤ taskSize

namespace Site

variable (P : Site)

/-- What is added to an address of the file. -/
def loadAddr : UInt64 := P.base - P.ps

/-- Where address `v` of the file is in memory. -/
def addr (v : Nat) : Nat := P.base.toNat + (v - P.ps.toNat)

/-- The segment lies in the reserved range. -/
structure Fits (ph : ElfPhdr) : Prop where
  low : P.ps.toNat ≤ pageStart ph.vaddr
  high : pageAlign (ph.vaddr + ph.memsz) ≤ P.ps.toNat + P.size

/-- The range lies in the reserved one. -/
def Covers (start len : Nat) : Prop := P.base.toNat ≤ start ∧ start + len ≤ P.base.toNat + P.size

/-- The call is a mapping in the reserved range, at the address it is given. -/
def Inside {File : Type} : Request File × UInt64 → Prop
  | (.vmMmap _ addr len _ fixed _, _) => fixed = true ∧ P.Covers addr.toNat (pageAlign len.toNat)
  | (.vmBrkFlags addr len, _) => P.Covers addr.toNat (pageAlign len.toNat)
  | (.clearUser addr len, _) => P.Covers addr.toNat len.toNat
  | _ => False

variable {P}

/-- `load_addr + v` does not wrap around. -/
theorem toNat_loadAddr_add {v : UInt64} (hlow : P.ps.toNat ≤ v.toNat)
    (hhigh : v.toNat ≤ P.ps.toNat + P.size) : (P.loadAddr + v).toNat = P.addr v.toNat := by
  have htop := P.top
  have hbase := P.base.toNat_lt
  have hps := P.ps.toNat_lt
  rw [loadAddr, UInt64.toNat_add, UInt64.toNat_sub]
  unfold addr taskSize at *
  omega

theorem addr_add {v n : Nat} (hlow : P.ps.toNat ≤ v) : P.addr (v + n) = P.addr v + n := by
  unfold addr
  omega

theorem Fits.low_vaddr {ph : ElfPhdr} (h : P.Fits ph) : P.ps.toNat ≤ ph.vaddr :=
  Nat.le_trans h.low (pageStart_le _)

theorem Fits.high_vaddr {ph : ElfPhdr} (h : P.Fits ph) :
    ph.vaddr + ph.memsz ≤ P.ps.toNat + P.size :=
  Nat.le_trans (le_pageAlign _) h.high

/-- The pages that a segment is mapped to. -/
theorem Fits.covers {ph : ElfPhdr} (h : P.Fits ph) (hle : ph.filesz ≤ ph.memsz) :
    P.Covers (P.addr (pageStart ph.vaddr)) ph.mapSize := by
  have hend := ph.pageStart_add_mapSize
  have hmono : pageAlign (ph.vaddr + ph.filesz) ≤ pageAlign (ph.vaddr + ph.memsz) :=
    pageAlign_le_pageAlign (Nat.add_le_add_left hle _)
  have hlow := h.low
  have hhigh := h.high
  unfold Covers addr
  omega

/-- The page of an address of the image. -/
theorem toNat_elfPagestart_add {v : UInt64} (hlow : P.ps.toNat ≤ pageStart v.toNat)
    (hhigh : v.toNat ≤ P.ps.toNat + P.size) :
    (elfPagestart (P.loadAddr + v)).toNat = P.addr (pageStart v.toNat) := by
  have hb := P.base_mod
  have hp := P.ps_mod
  rw [toNat_elfPagestart,
    toNat_loadAddr_add (Nat.le_trans hlow (pageStart_le _)) hhigh]
  unfold addr pageStart pageSize at *
  omega

end Site

/-! ## What the calls keep -/

section Kept

variable {File : Type} {k : Kern File} {P : Site} {first : Request File} {s₀ s : Sys File}

/-- Since `s₀`, when the image's range was reserved by the call `first`, nothing was changed
outside it, and its first page stayed mapped. -/
structure Kept (P : Site) (first : Request File) (s₀ s : Sys File) : Prop where
  sorted : Sorted s.space.mmap
  base : lookup s.space.mmap P.base.toNat ≠ none
  frame : ∀ x, x < P.base.toNat ∨ P.base.toNat + P.size ≤ x →
    lookup s.space.mmap x = lookup s₀.space.mmap x ∧ s.space.mem x = s₀.space.mem x
  log : ∃ ext, s.log = s₀.log ++ (first, P.base) :: ext ∧ ∀ e ∈ ext, P.Inside e
  underflow : s.underflow = s₀.underflow

namespace Kept

theorem note (h : Kept P first s₀ s) (req : Request File) (ret : UInt64)
    (hin : P.Inside (req, ret)) : Kept P first s₀ (s.note req ret) := by
  obtain ⟨ext, hlog, hext⟩ := h.log
  refine ⟨h.sorted, h.base, h.frame, ⟨ext ++ [(req, ret)], ?_, ?_⟩, h.underflow⟩
  · show s.log ++ [(req, ret)] = _
    rw [hlog, List.append_assoc, List.cons_append]
  · intro e he
    rcases List.mem_append.mp he with he | he
    · exact hext e he
    · rw [List.mem_singleton.mp he]
      exact hin

theorem mapArea (h : Kept P first s₀ s) {start len : Nat} (hin : P.Covers start len)
    (hlen : 0 < len) (info : VmInfo File) (off : Nat) :
    Kept P first s₀ (s.mapArea k start len info off) := by
  obtain ⟨hlo, hhi⟩ := hin
  refine ⟨Sys.sorted_mapArea h.sorted hlen start info off, ?_, ?_, h.log, h.underflow⟩
  · rw [Sys.lookup_mapArea h.sorted hlen]
    split
    · exact Option.some_ne_none _
    · exact h.base
  intro x hx
  have hout : ¬(start ≤ x ∧ x < start + len) := by omega
  rw [Sys.lookup_mapArea h.sorted hlen, if_neg hout]
  exact ⟨(h.frame x hx).1, (if_neg hout).trans (h.frame x hx).2⟩

theorem store (h : Kept P first s₀ s) {start : Nat} {data : List UInt8}
    (hin : P.Covers start data.length) : Kept P first s₀ (s.store start data) := by
  obtain ⟨hlo, hhi⟩ := hin
  refine ⟨h.sorted, h.base, ?_, h.log, h.underflow⟩
  intro x hx
  refine ⟨(h.frame x hx).1, ?_⟩
  rw [← (h.frame x hx).2]
  refine Image.write_of_not_touches ?_
  rintro ⟨h1, h2⟩
  unfold Write.stop at h2
  dsimp only at h1 h2
  omega

/-- The range is reserved. -/
theorem reserve (hs : Sorted s.space.mmap) (hpos : 0 < P.size) (req : Request File)
    (info : VmInfo File) (off : Nat) :
    Kept P req s ((s.note req P.base).mapArea k P.base.toNat P.size info off) := by
  have hout : ∀ x, x < P.base.toNat ∨ P.base.toNat + P.size ≤ x →
      ¬(P.base.toNat ≤ x ∧ x < P.base.toNat + P.size) := by
    intro x hx
    omega
  refine ⟨Sys.sorted_mapArea hs hpos _ _ _, ?_, ?_, ⟨[], rfl, (fun e he => by cases he)⟩, rfl⟩
  · have hin : P.base.toNat ≤ P.base.toNat ∧ P.base.toNat < P.base.toNat + P.size := by omega
    exact fun hn => Option.some_ne_none _ ((if_pos hin).symm.trans
      ((Sys.lookup_mapArea hs hpos _ _ _ P.base.toNat).symm.trans hn))
  intro x hx
  exact ⟨(Sys.lookup_mapArea hs hpos _ _ _ x).trans (if_neg (hout x hx)), if_neg (hout x hx)⟩

theorem vmMunmap (h : Kept P first s₀ s) {addr len : UInt64} (ha : addr.toNat % pageSize = 0)
    (hl : len.toNat % pageSize = 0) (hbase : P.base.toNat < addr.toNat)
    (hin : P.Covers addr.toNat len.toNat) : Kept P first s₀ (s.vmMunmap addr len) := by
  obtain ⟨hlo, hhi⟩ := hin
  have htop := P.top
  refine ⟨Sys.sorted_vmMunmap h.sorted addr len, ?_, ?_, ?_, ?_⟩
  · rw [Sys.lookup_vmMunmap h.sorted ha hl (by omega), if_neg (by omega)]
    exact h.base
  · intro x hx
    rw [Sys.lookup_vmMunmap h.sorted ha hl (by omega), if_neg (by omega), Sys.vmMunmap_mem]
    exact h.frame x hx
  · rw [Sys.vmMunmap_log]
    exact h.log
  · rw [Sys.vmMunmap_underflow]
    exact h.underflow

end Kept

end Kept

/-! ## A segment in memory -/

section InMemory

variable {File : Type} {k : Kern File} {file : File} {P : Site} {ph : ElfPhdr} {s : Sys File}

/-- The segment's pages are mapped, and its bytes are those of the file. -/
structure InMemory (k : Kern File) (file : File) (P : Site) (s : Sys File) (ph : ElfPhdr) :
    Prop where
  mapped : ∀ x, P.addr (pageStart ph.vaddr) ≤ x → x < P.addr (pageStart ph.vaddr) + ph.mapSize →
    lookup s.space.mmap x = some ⟨some file, elfProt ph, .segment file⟩
  bytes : ∀ i, i < ph.filesz →
    s.space.mem (P.addr ph.vaddr + i) = (k.content file).getD (ph.offset + i) 0

/-- A segment's bytes are on its pages. -/
theorem Site.Fits.addr_lt (h : P.Fits ph) {i : Nat} (hi : i < ph.filesz) :
    P.addr (pageStart ph.vaddr) ≤ P.addr ph.vaddr + i ∧
      P.addr ph.vaddr + i < P.addr (pageStart ph.vaddr) + ph.mapSize := by
  have hlow := h.low
  have hle := pageStart_le ph.vaddr
  have hend := ph.pageStart_add_mapSize
  have hal := le_pageAlign (ph.vaddr + ph.filesz)
  unfold Site.addr
  omega

/-- What is mapped elsewhere leaves the segment alone. -/
theorem InMemory.mapArea (h : InMemory k file P s ph) (hfit : P.Fits ph) (hs : Sorted s.space.mmap)
    {start len : Nat} (hlen : 0 < len)
    (hout : P.addr (pageStart ph.vaddr) + ph.mapSize ≤ start) (info : VmInfo File) (off : Nat) :
    InMemory k file P (s.mapArea k start len info off) ph := by
  constructor
  · intro x hlo hhi
    rw [Sys.lookup_mapArea hs hlen, if_neg (by omega)]
    exact h.mapped x hlo hhi
  · intro i hi
    obtain ⟨-, hlt⟩ := hfit.addr_lt hi
    exact (if_neg (by omega)).trans (h.bytes i hi)

theorem InMemory.note (h : InMemory k file P s ph) (req : Request File) (ret : UInt64) :
    InMemory k file P (s.note req ret) ph := ⟨h.mapped, h.bytes⟩

theorem InMemory.store (h : InMemory k file P s ph) {start : Nat}
    (hout : P.addr ph.vaddr + ph.filesz ≤ start)
    (data : List UInt8) : InMemory k file P (s.store start data) ph := by
  refine ⟨h.mapped, ?_⟩
  intro i hi
  rw [← h.bytes i hi]
  refine Image.write_of_not_touches ?_
  rintro ⟨h1, -⟩
  dsimp only at h1
  omega

theorem InMemory.vmMunmap (h : InMemory k file P s ph) (hs : Sorted s.space.mmap)
    {addr len : UInt64}
    (ha : addr.toNat % pageSize = 0) (hl : len.toNat % pageSize = 0)
    (htop : addr.toNat + len.toNat ≤ taskSize)
    (hout : P.addr (pageStart ph.vaddr) + ph.mapSize ≤ addr.toNat) :
    InMemory k file P (s.vmMunmap addr len) ph := by
  constructor
  · intro x hlo hhi
    rw [Sys.lookup_vmMunmap hs ha hl htop, if_neg (by omega)]
    exact h.mapped x hlo hhi
  · rw [Sys.vmMunmap_mem]
    exact h.bytes

/-- The pages of the segment, freshly mapped. -/
theorem InMemory.of_mapArea {len : Nat} (hm : Mappable len ph) (hfit : P.Fits ph)
    (hs : Sorted s.space.mmap) {n : Nat} (hn : ph.mapSize ≤ n) (hpos : 0 < n) :
    InMemory k file P (s.mapArea k (P.addr (pageStart ph.vaddr)) n
      ⟨some file, elfProt ph, .segment file⟩ ph.mapOff.toNat) ph := by
  constructor
  · intro x hlo hhi
    rw [Sys.lookup_mapArea hs hpos, if_pos ⟨hlo, by omega⟩]
  · intro i hi
    obtain ⟨hlo, hhi⟩ := hfit.addr_lt hi
    have hoff := hm.toNat_mapOff
    have hlow := hfit.low
    have hstart : pageStart ph.vaddr + ph.vaddr % pageSize = ph.vaddr := by
      unfold pageStart pageSize
      omega
    refine (if_pos ⟨hlo, by omega⟩).trans ?_
    show (k.content file).getD _ 0 = _
    congr 1
    unfold Site.addr
    omega

end InMemory

/-! ## The loop -/

section Loop

variable {File : Type} {k : Kern File} {file : File} {P : Site} {first : Request File}
  {s₀ s s' : Sys File} {ph z : ElfPhdr} {l : ElfLoop} {len : Nat}

/-- The variables of the loop after segment `z`. -/
structure Vars (P : Site) (z : ElfPhdr) (l : ElfLoop) : Prop where
  set : l.loadAddrSet = true
  loadAddr : l.loadAddr = P.loadAddr
  total : l.totalSize = 0
  elfBss : l.elfBss.toNat = P.addr (z.vaddr + z.filesz)
  lastBss : l.lastBss.toNat = P.addr (z.vaddr + z.memsz)

/-- **The loop's invariant**: segment `z` and those before it are in memory. -/
structure Laid (k : Kern File) (file : File) (P : Site) (first : Request File) (s₀ : Sys File)
    (done : List ElfPhdr) (z : ElfPhdr) (l : ElfLoop) (s : Sys File) : Prop where
  kept : Kept P first s₀ s
  vars : Vars P z l
  held : ∀ q ∈ z :: done, InMemory k file P s q
  fits : ∀ q ∈ z :: done, P.Fits q
  filesz_le : ∀ q ∈ z :: done, q.filesz ≤ q.memsz
  below : ∀ q ∈ done, pageAlign (q.vaddr + q.memsz) ≤ pageStart z.vaddr

/-- The end of a part of a segment. -/
theorem Site.Fits.toNat_end (hfit : P.Fits ph) (hm : Mappable len ph) {n : UInt64}
    (hn : n.toNat ≤ ph.memsz) :
    (P.loadAddr + ph.pVaddr + n).toNat = P.addr (ph.vaddr + n.toNat) := by
  have htop := hm.top
  have hlow := hfit.low_vaddr
  have hhigh := hfit.high_vaddr
  have hadd : (ph.pVaddr + n).toNat = ph.vaddr + n.toNat := by
    rw [UInt64.toNat_add]
    unfold ElfPhdr.vaddr at *
    omega
  rw [UInt64.add_assoc, Site.toNat_loadAddr_add (by omega) (by omega), hadd]

theorem badAddr_negEnomem : BadAddr negEnomem := by decide

/-- The greater one of two ends. -/
theorem toNat_later {x y : UInt64} (h : y.toNat ≤ x.toNat) :
    (if x > y then x else y).toNat = x.toNat := by
  split
  · rfl
  · rename_i hlt
    rw [gt_iff_lt, UInt64.lt_iff_toNat_lt] at hlt
    omega

/-- The ends grow from segment to segment. -/
theorem Vars.le (hv : Vars P z l) (hzle : z.filesz ≤ z.memsz)
    (hend : z.vaddr + z.memsz ≤ ph.vaddr) :
    l.elfBss.toNat ≤ P.addr (ph.vaddr + ph.filesz) ∧
      l.lastBss.toNat ≤ P.addr (ph.vaddr + ph.memsz) := by
  rw [hv.elfBss, hv.lastBss]
  unfold Site.addr
  omega

/-- What `elf_load_binary` does when `elf_map` fails. -/
theorem elfLoadSegment_of_bad {addr : UInt64}
    (hmap : elfMap k file ((if l.loadAddrSet then l.loadAddr else -ph.pVaddr) + ph.pVaddr) ph
      (elfProt ph) l.loadAddrSet l.totalSize s = (addr, s'))
    (hbad : BadAddr addr) : elfLoadSegment k file ph l s = (.error addr, s') := by
  unfold elfLoadSegment
  dsimp only
  rw [hmap]
  exact if_pos hbad

/-- What `elf_load_binary` does with a segment after `elf_map`. -/
theorem elfLoadSegment_of_map (hm : Mappable len ph) (hfit : P.Fits ph) {addr : UInt64}
    (hmap : elfMap k file ((if l.loadAddrSet then l.loadAddr else -ph.pVaddr) + ph.pVaddr) ph
      (elfProt ph) l.loadAddrSet l.totalSize s = (addr, s'))
    (hgood : ¬BadAddr addr)
    (hload : (if l.loadAddrSet then l.loadAddr else addr - elfPagestart ph.pVaddr) = P.loadAddr)
    (helf : l.elfBss.toNat ≤ P.addr (ph.vaddr + ph.filesz))
    (hlast : l.lastBss.toNat ≤ P.addr (ph.vaddr + ph.memsz)) :
    ∃ r, elfLoadSegment k file ph l s = (r, s') ∧ (∀ e, r = .error e → BadAddr e) ∧
      ∀ l', r = .ok l' → Vars P ph l' := by
  have hload' : (if l.loadAddrSet then (if l.loadAddrSet then l.loadAddr else -ph.pVaddr)
      else addr - elfPagestart ph.pVaddr) = P.loadAddr := by
    rw [← hload]
    split <;> rfl
  unfold elfLoadSegment
  dsimp only
  rw [hmap]
  dsimp only
  rw [if_neg hgood, hload']
  split
  · refine ⟨_, rfl, ?_, ?_⟩
    · intro e he
      rw [← Except.error.inj he]
      exact badAddr_negEnomem
    · intro l' hl'
      cases hl'
  · have hfile := hfit.toNat_end hm hm.filesz_le
    have hmem := hfit.toNat_end hm (Nat.le_refl ph.memsz)
    refine ⟨_, rfl, ?_, ?_⟩
    · intro e he
      cases he
    · intro l' hl'
      rw [← Except.ok.inj hl']
      refine ⟨rfl, rfl, rfl, ?_, ?_⟩
      · exact (toNat_later (Nat.le_trans helf (Nat.le_of_eq hfile.symm))).trans hfile
      · exact (toNat_later (Nat.le_trans hlast (Nat.le_of_eq hmem.symm))).trans hmem

/-- A segment that lies in the reserved range passes the checks. -/
theorem Site.Fits.checks (hfit : P.Fits ph) (hm : Mappable len ph) (hpos : 0 < ph.memsz) :
    ¬(BadAddr (P.loadAddr + ph.pVaddr) ∨ ph.pFilesz > ph.pMemsz ∨ taskSize < ph.pMemsz.toNat ∨
      taskSize - ph.pMemsz.toNat < (P.loadAddr + ph.pVaddr).toNat) := by
  have hle := hm.filesz_le
  have hlow := hfit.low_vaddr
  have hhigh := hfit.high_vaddr
  have htop := P.top
  have haddr : (P.loadAddr + ph.pVaddr).toNat = P.addr ph.vaddr :=
    Site.toNat_loadAddr_add hlow (Nat.le_trans (Nat.le_add_right ..) hhigh)
  have hnat : ¬ph.pFilesz > ph.pMemsz := by
    rw [gt_iff_lt, UInt64.lt_iff_toNat_lt]
    exact Nat.not_lt.mpr hle
  unfold BadAddr
  rw [haddr]
  unfold Site.addr ElfPhdr.memsz at *
  rintro (h | h | h | h)
  · omega
  · exact hnat h
  · omega
  · omega

/-- After `elf_map` a segment that lies in the reserved range is done. -/
theorem elfLoadSegment_ok_of_map (hm : Mappable len ph) (hfit : P.Fits ph) (hpos : 0 < ph.memsz)
    {addr : UInt64}
    (hmap : elfMap k file ((if l.loadAddrSet then l.loadAddr else -ph.pVaddr) + ph.pVaddr) ph
      (elfProt ph) l.loadAddrSet l.totalSize s = (addr, s'))
    (hgood : ¬BadAddr addr)
    (hload : (if l.loadAddrSet then l.loadAddr else addr - elfPagestart ph.pVaddr) = P.loadAddr)
    (helf : l.elfBss.toNat ≤ P.addr (ph.vaddr + ph.filesz))
    (hlast : l.lastBss.toNat ≤ P.addr (ph.vaddr + ph.memsz)) :
    ∃ l', elfLoadSegment k file ph l s = (.ok l', s') ∧ Vars P ph l' := by
  obtain ⟨r, heq, herr, hok⟩ := elfLoadSegment_of_map hm hfit hmap hgood hload helf hlast
  have hload' : (if l.loadAddrSet then (if l.loadAddrSet then l.loadAddr else -ph.pVaddr)
      else addr - elfPagestart ph.pVaddr) = P.loadAddr := by
    rw [← hload]
    split <;> rfl
  have hchecks := hfit.checks hm hpos
  cases r with
  | ok l' => exact ⟨l', heq, hok l' rfl⟩
  | error e =>
    unfold elfLoadSegment at heq
    dsimp only at heq
    rw [hmap] at heq
    dsimp only at heq
    rw [if_neg hgood, hload', if_neg hchecks] at heq
    cases heq

/-- A segment without pages needs nothing. -/
theorem InMemory.of_mapSize (hfit : P.Fits ph) (hz : ph.mapSize = 0) : InMemory k file P s ph := by
  constructor
  · intro x hlo hhi
    omega
  · intro i hi
    have := hfit.addr_lt hi
    omega

/-- `elf_map` of a segment other than the first, among segments in memory. -/
theorem Kept.elfMap_fixed (hk : k.Maps) (h : Kept P first s₀ s) {done : List ElfPhdr}
    (hheld : ∀ q ∈ done, InMemory k file P s q) (hm : Mappable len ph) (hfit : P.Fits ph)
    (hfits : ∀ q ∈ done, P.Fits q) (hle : ∀ q ∈ done, q.filesz ≤ q.memsz)
    (hapart : ∀ q ∈ done, pageAlign (q.vaddr + q.memsz) ≤ pageStart ph.vaddr) :
    ∃ addr s', elfMap k file (P.loadAddr + ph.pVaddr) ph (elfProt ph) true 0 s = (addr, s') ∧
      Kept P first s₀ s' ∧ (¬BadAddr addr → ∀ q ∈ ph :: done, InMemory k file P s' q) := by
  have haddr : (elfPagestart (P.loadAddr + ph.pVaddr)).toNat = P.addr (pageStart ph.vaddr) :=
    Site.toNat_elfPagestart_add hfit.low (Nat.le_trans (Nat.le_add_right ..) hfit.high_vaddr)
  have hlen : pageAlign ph.mapLen.toNat = ph.mapSize := by
    rw [hm.toNat_mapLen, pageAlign_of_aligned ph.mapSize_mod]
  rw [NoDrop.elfMap_fixed hm]
  by_cases hz : ph.mapSize = 0
  · rw [if_pos hz]
    refine ⟨_, _, rfl, h, ?_⟩
    rintro - q hq
    rcases List.mem_cons.mp hq with rfl | hq
    · exact .of_mapSize hfit hz
    · exact hheld q hq
  · rw [if_neg hz]
    have hpos := Nat.pos_of_ne_zero hz
    have hcov := hfit.covers hm.filesz_le
    rcases Sys.vmMmap_cases k (.segment file) (some file) (elfPagestart (P.loadAddr + ph.pVaddr))
      ph.mapLen (elfProt ph) true ph.mapOff s with ⟨hbad, heq⟩ | ⟨hgood, heq⟩
    · refine ⟨_, _, heq, h.note _ _ ⟨rfl, ?_⟩, (fun hn => absurd hbad hn)⟩
      rw [haddr, hlen]
      exact hcov
    · -- the kernel honours `MAP_FIXED`
      have hret := (hk.mmap _ _ _ _ _ _ _ _ rfl hgood).2.1 rfl
      rw [hret, haddr, hlen] at heq
      have hkept := h.note (.vmMmap (some file) (elfPagestart (P.loadAddr + ph.pVaddr)) ph.mapLen
        (elfProt ph) true ph.mapOff) (elfPagestart (P.loadAddr + ph.pVaddr))
        ⟨rfl, by rw [haddr, hlen]; exact hcov⟩
      refine ⟨_, _, heq, hkept.mapArea hcov hpos _ _, ?_⟩
      rintro - q hq
      rcases List.mem_cons.mp hq with rfl | hq
      · exact .of_mapArea hm hfit hkept.sorted (Nat.le_refl _) hpos
      · refine ((hheld q hq).note _ _).mapArea (hfits q hq) hkept.sorted hpos ?_ _ _
        have hend := q.pageStart_add_mapSize
        have hmono : pageAlign (q.vaddr + q.filesz) ≤ pageAlign (q.vaddr + q.memsz) :=
          pageAlign_le_pageAlign (Nat.add_le_add_left (hle q hq) _)
        have hbelow := hapart q hq
        have hlow := (hfits q hq).low
        unfold Site.addr
        omega

/-- **A step of the loop**, for a segment other than the first. -/
theorem Laid.step {done : List ElfPhdr} (hk : k.Maps) (h : Laid k file P first s₀ done z l s)
    (hm : Mappable len ph) (hfit : P.Fits ph)
    (hapart : pageAlign (z.vaddr + z.memsz) ≤ pageStart ph.vaddr) :
    ∃ r s', elfLoadSegment k file ph l s = (r, s') ∧ Kept P first s₀ s' ∧
      (∀ e, r = .error e → BadAddr e) ∧
      ∀ l', r = .ok l' → Laid k file P first s₀ (z :: done) ph l' s' := by
  have hv := h.vars
  have hload : ∀ a, (if l.loadAddrSet then l.loadAddr else a) = P.loadAddr := by
    intro a
    rw [if_pos hv.set]
    exact hv.loadAddr
  -- the segment begins behind those before it
  have hstart : pageStart z.vaddr ≤ pageStart ph.vaddr := by
    have h1 := pageStart_le z.vaddr
    have h2 := le_pageAlign (z.vaddr + z.memsz)
    omega
  have hbelow : ∀ q ∈ z :: done, pageAlign (q.vaddr + q.memsz) ≤ pageStart ph.vaddr := by
    intro q hq
    rcases List.mem_cons.mp hq with rfl | hq
    · exact hapart
    · exact Nat.le_trans (h.below q hq) hstart
  obtain ⟨addr, s', heq, hkept, hheld⟩ :=
    h.kept.elfMap_fixed hk h.held hm hfit h.fits h.filesz_le hbelow
  have hmap : elfMap k file ((if l.loadAddrSet then l.loadAddr else -ph.pVaddr) + ph.pVaddr) ph
      (elfProt ph) l.loadAddrSet l.totalSize s = (addr, s') := by
    rw [hload, hv.total, hv.set]
    exact heq
  by_cases hbad : BadAddr addr
  · refine ⟨.error addr, s', elfLoadSegment_of_bad hmap hbad, hkept, ?_, ?_⟩
    · intro e he
      rw [← Except.error.inj he]
      exact hbad
    · intro l' hl'
      cases hl'
  · have hend : z.vaddr + z.memsz ≤ ph.vaddr :=
      Nat.le_trans (le_pageAlign _) (Nat.le_trans hapart (pageStart_le _))
    obtain ⟨helf, hlast⟩ := hv.le (h.filesz_le z List.mem_cons_self) hend
    obtain ⟨r, hseg, herr, hok⟩ :=
      elfLoadSegment_of_map hm hfit hmap hbad (hload _) helf hlast
    refine ⟨r, s', hseg, hkept, herr, ?_⟩
    intro l' hl'
    exact ⟨hkept, hok l' hl', hheld hbad, List.forall_mem_cons.mpr ⟨hfit, h.fits⟩,
      List.forall_mem_cons.mpr ⟨hm.filesz_le, h.filesz_le⟩, hbelow⟩

/-- **The rest of the loop.** -/
theorem Laid.run (hk : k.Maps) {rest done : List ElfPhdr} (h : Laid k file P first s₀ done z l s)
    (hrest : ∀ q ∈ rest, q.pType = ptLoad ∧ Mappable len q ∧ P.Fits q)
    (hapart : (z :: rest).Pairwise fun a b => pageAlign (a.vaddr + a.memsz) ≤ pageStart b.vaddr) :
    ∃ r s', elfLoadSegments k file rest l s = (r, s') ∧ Kept P first s₀ s' ∧
      (∀ e, r = .error e → BadAddr e) ∧
      ∀ l', r = .ok l' → ∃ z' done', Laid k file P first s₀ done' z' l' s' ∧
        (z :: rest).getLast? = some z' ∧ ∀ q ∈ z :: done ++ rest, q ∈ z' :: done' := by
  -- along the segments, with the last one and those before it
  induction rest generalizing z done l s with
  | nil =>
    refine ⟨.ok l, s, rfl, h.kept, (fun e he => by cases he), ?_⟩
    intro l' hl'
    rw [← Except.ok.inj hl']
    exact ⟨z, done, h, rfl, fun q hq => by rwa [List.append_nil] at hq⟩
  | cons ph rest ih =>
    obtain ⟨hload, hm, hfit⟩ := hrest ph List.mem_cons_self
    obtain ⟨hz, hapart⟩ := List.pairwise_cons.mp hapart
    obtain ⟨r, s₁, hseg, hkept, herr, hok⟩ := h.step hk hm hfit (hz ph List.mem_cons_self)
    rw [elfLoadSegments, if_pos hload, hseg]
    cases r with
    | error e => exact ⟨.error e, s₁, rfl, hkept, herr, fun l' hl' => by cases hl'⟩
    | ok l₁ =>
      obtain ⟨r, s', hrun, hkept, herr, hok⟩ :=
        ih (hok l₁ rfl) (fun q hq => hrest q (List.mem_cons_of_mem ph hq)) hapart
      refine ⟨r, s', hrun, hkept, herr, ?_⟩
      intro l' hl'
      obtain ⟨z', done', hlaid, hlast, hmem⟩ := hok l' hl'
      refine ⟨z', done', hlaid, hlast, ?_⟩
      intro q hq
      refine hmem q ?_
      simp only [List.mem_append, List.mem_cons] at hq ⊢
      tauto

/-- Where `ELF_PAGEALIGN` wraps around there is nothing left to map. -/
theorem toNat_elfPagealign_of_ne_zero {v : UInt64} (h : elfPagealign v ≠ 0) :
    (elfPagealign v).toNat = pageAlign v.toNat := by
  refine toNat_elfPagealign (Nat.lt_of_not_le fun hle => h ?_)
  have hv := v.toNat_lt
  have hone : (1 : UInt64).toNat = 1 := rfl
  have hpage : (4096 : UInt64).toNat = 4096 := rfl
  rw [← UInt64.toNat_inj]
  show (elfPagestart (v + 4096 - 1)).toNat = 0
  rw [toNat_elfPagestart, UInt64.toNat_sub, UInt64.toNat_add, hone, hpage]
  omega

/-- What `elf_map` makes of the first segment, when it is granted. -/
theorem Kept.elfMap_first (hs : Sorted s.space.mmap) (hm : Mappable len ph) (hfit : P.Fits ph)
    (hps : P.ps = elfPagestart ph.pVaddr) (hpos : 0 < ph.mapSize) {total : UInt64}
    (hsize : (elfPagealign total).toNat = P.size) (hgood : ¬BadAddr P.base) (htotal : total ≠ 0)
    (hret : k.answer s (.vmMmap (some file) 0 (elfPagealign total) (elfProt ph) false ph.mapOff) =
      P.base) :
    ∃ s', elfMap k file 0 ph (elfProt ph) false total s = (P.base, s') ∧
      Kept P (.vmMmap (some file) 0 (elfPagealign total) (elfProt ph) false ph.mapOff) s s' ∧
      InMemory k file P s' ph ∧
      s'.log = s.log ++
        [(.vmMmap (some file) 0 (elfPagealign total) (elfProt ph) false ph.mapOff, P.base)] := by
  have hlen := hm.toNat_mapLen
  have hbase : P.addr (pageStart ph.vaddr) = P.base.toNat := by
    have h1 : P.ps.toNat = pageStart ph.vaddr := by rw [hps, toNat_elfPagestart]; rfl
    unfold Site.addr
    omega
  have hle : ph.mapSize ≤ P.size := by
    have := (hfit.covers hm.filesz_le).2
    omega
  have htop := P.top
  have hunder : decide (elfPagealign total < ph.mapLen) = false := by
    refine decide_eq_false (UInt64.not_lt.mpr ?_)
    rw [UInt64.le_iff_toNat_le, hsize, hlen]
    exact hle
  -- the whole range is mapped
  let req : Request File :=
    .vmMmap (some file) 0 (elfPagealign total) (elfProt ph) false ph.mapOff
  let s₁ := (s.note req P.base).mapArea k P.base.toNat P.size
    ⟨some file, elfProt ph, .segment file⟩ ph.mapOff.toNat
  have hmap : s.vmMmap k (.segment file) (some file) 0 (elfPagealign total) (elfProt ph) false
      ph.mapOff = (P.base, s₁) := by
    unfold Sys.vmMmap
    dsimp only
    rw [hret, hsize, pageAlign_of_aligned P.size_mod, if_neg hgood]
  have hkept : Kept P req s s₁ := Kept.reserve hs (Nat.lt_of_lt_of_le hpos hle) req _ _
  have hheld : InMemory k file P s₁ ph := by
    have hsn : Sorted (s.note req P.base).space.mmap := hs
    have hfresh : InMemory k file P ((s.note req P.base).mapArea k (P.addr (pageStart ph.vaddr)) P.size
        ⟨some file, elfProt ph, .segment file⟩ ph.mapOff.toNat) ph :=
      InMemory.of_mapArea hm hfit hsn hle (Nat.lt_of_lt_of_le hpos hle)
    rw [hbase] at hfresh
    exact hfresh
  -- and the end is given back
  have haddr : (P.base + ph.mapLen).toNat = P.base.toNat + ph.mapSize := by
    rw [UInt64.toNat_add, hlen]
    unfold taskSize at htop
    omega
  have hrest : (elfPagealign total - ph.mapLen).toNat = P.size - ph.mapSize := by
    rw [UInt64.toNat_sub_of_le, hsize, hlen]
    rw [UInt64.le_iff_toNat_le, hsize, hlen]
    exact hle
  have hamod : (P.base + ph.mapLen).toNat % pageSize = 0 := by
    have h1 := P.base_mod
    have h2 := ph.mapSize_mod
    rw [haddr, Nat.add_mod, h1, h2]
    rfl
  have hrmod : (elfPagealign total - ph.mapLen).toNat % pageSize = 0 := by
    have h1 := P.size_mod
    have h2 := ph.mapSize_mod
    rw [hrest]
    unfold pageSize at *
    omega
  refine ⟨s₁.vmMunmap (P.base + ph.mapLen) (elfPagealign total - ph.mapLen), ?_, ?_, ?_,
    Sys.vmMunmap_log ..⟩
  · have hzero : elfPagestart 0 = 0 := by decide
    rw [NoDrop.elfMap_first hm hpos htotal, hzero, hmap]
    dsimp only
    rw [if_neg hgood, hunder, Bool.or_false]
  · refine hkept.vmMunmap hamod hrmod (by omega) ?_
    rw [haddr, hrest]
    unfold Site.Covers
    omega
  · refine hheld.vmMunmap hkept.sorted hamod hrmod ?_ ?_
    · rw [haddr, hrest]
      omega
    · rw [hbase, haddr]

/-- The call that reserves the image's range. -/
def reserveRequest (file : File) (ph : ElfPhdr) (total : UInt64) : Request File :=
  .vmMmap (some file) 0 (elfPagealign total) (elfProt ph) false ph.mapOff

/-- **The first step of the loop.**  The image finds a place, or there is nothing new. -/
theorem Laid.begin (file : File) (hk : k.Maps) (hs : Sorted s.space.mmap) (hm : Mappable len ph)
    (hpos : 0 < ph.mapSize) {total : UInt64} (htotal : total ≠ 0)
    (hend : pageAlign (ph.vaddr + ph.memsz) ≤ pageStart ph.vaddr + pageAlign total.toNat)
    (prot : Prot) :
    let l : ElfLoop := ⟨false, 0, total, 0, 0, prot⟩
    let req := reserveRequest file ph total
    (BadAddr (k.answer s req) ∧
      elfLoadSegment k file ph l s = (.error (k.answer s req), s.note req (k.answer s req))) ∨
    ∃ P : Site, P.base = k.answer s req ∧ P.ps.toNat = pageStart ph.vaddr ∧
      P.size = pageAlign total.toNat ∧ (elfPagealign total).toNat = P.size ∧ P.Fits ph ∧
      s.space.Free P.base.toNat P.size ∧
      ∃ r s', elfLoadSegment k file ph l s = (r, s') ∧ Kept P req s s' ∧
        s'.log = s.log ++ [(req, P.base)] ∧ (∀ e, r = .error e → BadAddr e) ∧
        (0 < ph.memsz → ∃ l', r = .ok l') ∧
        ∀ l', r = .ok l' → Laid k file P req s [] ph l' s' := by
  dsimp only
  have hneg : -ph.pVaddr + ph.pVaddr = 0 := neg_add_cancel _
  by_cases hbad : BadAddr (k.answer s (reserveRequest file ph total))
  · refine .inl ⟨hbad, ?_⟩
    have hzero : elfPagestart 0 = 0 := by decide
    have hmap : elfMap k file 0 ph (elfProt ph) false total s =
        (k.answer s (reserveRequest file ph total),
          s.note (reserveRequest file ph total) (k.answer s (reserveRequest file ph total))) := by
      have hrefused : s.vmMmap k (.segment file) (some file) 0 (elfPagealign total) (elfProt ph)
          false ph.mapOff = (k.answer s (reserveRequest file ph total),
            s.note (reserveRequest file ph total) (k.answer s (reserveRequest file ph total))) :=
        if_pos hbad
      rw [NoDrop.elfMap_first hm hpos htotal, hzero, hrefused]
      exact if_pos hbad
    unfold elfLoadSegment
    simp only [Bool.false_eq_true, if_false]
    rw [hneg, hmap]
    exact if_pos hbad
  · obtain ⟨hne, -, hnew⟩ := hk.mmap _ _ _ _ _ _ _ _ rfl hbad
    obtain ⟨hbmod, htop, hfree⟩ := hnew rfl
    have hsize := toNat_elfPagealign_of_ne_zero hne
    have hps : (elfPagestart ph.pVaddr).toNat = pageStart ph.vaddr := toNat_elfPagestart _
    rw [hsize, pageAlign_of_aligned (pageAlign_mod _)] at htop hfree
    let P : Site :=
      { base := k.answer s (reserveRequest file ph total)
        ps := elfPagestart ph.pVaddr
        size := pageAlign total.toNat
        base_mod := hbmod
        ps_mod := by rw [hps]; exact pageStart_mod _
        size_mod := pageAlign_mod _
        top := htop }
    have hfit : P.Fits ph := ⟨Nat.le_of_eq hps, Nat.le_trans hend (by rw [← hps])⟩
    obtain ⟨s', hmap, hkept, hheld, hlog⟩ :=
      Kept.elfMap_first hs hm hfit rfl hpos hsize hbad htotal rfl
    let l : ElfLoop := ⟨false, 0, total, 0, 0, prot⟩
    have hmap' : elfMap k file ((if l.loadAddrSet then l.loadAddr else -ph.pVaddr) + ph.pVaddr) ph
        (elfProt ph) l.loadAddrSet l.totalSize s = (P.base, s') := by
      simpa only [l, Bool.false_eq_true, if_false, hneg] using hmap
    obtain ⟨r, hseg, herr, hok⟩ :=
      elfLoadSegment_of_map hm hfit hmap' hbad rfl (Nat.zero_le _) (Nat.zero_le _)
    refine .inr ⟨P, rfl, hps, rfl, hsize, hfit, hfree, r, s', hseg, hkept, hlog, herr, ?_, ?_⟩
    · intro hmem
      obtain ⟨l', hseg', -⟩ :=
        elfLoadSegment_ok_of_map hm hfit hmem hmap' hbad rfl (Nat.zero_le _) (Nat.zero_le _)
      exact ⟨l', (Prod.mk.inj (hseg.symm.trans hseg')).1⟩
    · intro l' hl'
      exact ⟨hkept, hok l' hl', List.forall_mem_singleton.mpr hheld,
        List.forall_mem_singleton.mpr hfit, List.forall_mem_singleton.mpr hm.filesz_le,
        fun q hq => by cases hq⟩

end Loop

end NoDrop
