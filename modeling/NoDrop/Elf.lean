import NoDrop.AddrSpace
import NoDrop.Lib.Words

/-! # Mapping an executable file

`elf_load_binary` of `kmodule/elf.c` maps the segments of the monitor, and of its dynamic
linker, into the address space of the application.  The first segment is mapped with the
size of the whole image, so that the kernel finds a place with room for all of it; what
the first segment does not need is unmapped again, and the other segments are mapped into
the gap with `MAP_FIXED`.  The memory behind the last segment for which the file has no
bytes is cleared up to the end of the page, and mapped from there on.
-/
namespace NoDrop

open Areas Bytes

/-! ## Data -/

/-- `PT_LOAD` and `PT_INTERP`. -/
def ptLoad : UInt32 := 1
def ptInterp : UInt32 := 3

/-- `ET_EXEC` and `ET_DYN`. -/
def etExec : UInt16 := 2
def etDyn : UInt16 := 3

/-- `struct elf_phdr`, without `p_paddr` and `p_align`. -/
structure ElfPhdr where
  pType : UInt32
  pFlags : UInt32
  pOffset : UInt64
  pVaddr : UInt64
  pFilesz : UInt64
  pMemsz : UInt64
deriving DecidableEq, Repr

/-- What the loader keeps of an executable file: of the `struct elfhdr` the type, the entry
and the place of the program headers, and the program headers themselves. -/
structure ElfImage (File : Type) where
  file : File
  eType : UInt16
  eEntry : UInt64
  ePhoff : UInt64
  phdrs : List ElfPhdr

/-- The errors of the loader, as the `unsigned long` they are returned in. -/
def negEinval : UInt64 := -22
def negEnomem : UInt64 := -12
def negEfault : UInt64 := -14

/-! ## The code -/

/-- `ELF_PAGESTART`. -/
def elfPagestart (v : UInt64) : UInt64 := v &&& ~~~4095

/-- `ELF_PAGEOFFSET`. -/
def elfPageoffset (v : UInt64) : UInt64 := v &&& 4095

/-- `ELF_PAGEALIGN`. -/
def elfPagealign (v : UInt64) : UInt64 := (v + 4096 - 1) &&& ~~~4095

/-- `total_mapping_size`: from the first to the last `PT_LOAD`. -/
def totalMappingSize (cmds : List ElfPhdr) : UInt64 :=
  let idx := cmds.foldl (fun idx ph =>
    if ph.pType = ptLoad then (idx.1.or (some ph), some ph) else idx) (none, none)
  match idx with
  | (some first, some last) => last.pVaddr + last.pMemsz - elfPagestart first.pVaddr
  | _ => 0

section Code

variable {File : Type} (k : Kern File)

/-- `padzero`: whether it has failed. -/
def padzero (elfBss : UInt64) (s : Sys File) : Bool × Sys File :=
  let nbyte := elfPageoffset elfBss
  if nbyte ≠ 0 then
    let (left, s) := s.clearUser k elfBss (4096 - nbyte)
    (left ≠ 0, s)
  else (false, s)

/-- `elf_map`. -/
def elfMap (file : File) (addr : UInt64) (eppnt : ElfPhdr) (prot : Prot) (fixed : Bool)
    (totalSize : UInt64) (s : Sys File) : UInt64 × Sys File :=
  let size := eppnt.pFilesz + elfPageoffset eppnt.pVaddr
  let off := eppnt.pOffset - elfPageoffset eppnt.pVaddr
  let s := { s with underflow := s.underflow || eppnt.pOffset < elfPageoffset eppnt.pVaddr }
  let addr := elfPagestart addr
  let size := elfPagealign size
  if size = 0 then (addr, s)
  else if totalSize ≠ 0 then
    let totalSize := elfPagealign totalSize
    let (mapAddr, s) := s.vmMmap k (.segment file) (some file) addr totalSize prot fixed off
    if BadAddr mapAddr then (mapAddr, s)
    else
      let s := { s with underflow := s.underflow || totalSize < size }
      (mapAddr, s.vmMunmap (mapAddr + size) (totalSize - size))
  else s.vmMmap k (.segment file) (some file) addr size prot fixed off

/-- The variables of the loop in `elf_load_binary`. -/
structure ElfLoop where
  loadAddrSet : Bool
  loadAddr : UInt64
  totalSize : UInt64
  elfBss : UInt64
  lastBss : UInt64
  bssProt : Prot

/-- The protection that `p_flags` asks for: `PF_R`, `PF_W` and `PF_X`. -/
def elfProt (ph : ElfPhdr) : Prot :=
  ⟨ph.pFlags &&& 4 ≠ 0, ph.pFlags &&& 2 ≠ 0, ph.pFlags &&& 1 ≠ 0⟩

/-- One `PT_LOAD` in the loop of `elf_load_binary`: the variables afterwards, or the error
that is returned. -/
def elfLoadSegment (file : File) (eppnt : ElfPhdr) (l : ElfLoop) (s : Sys File) :
    Except UInt64 ElfLoop × Sys File :=
  let prot := elfProt eppnt
  let vaddr := eppnt.pVaddr
  let loadAddr := if l.loadAddrSet then l.loadAddr else -vaddr
  let (addr, s) := elfMap k file (loadAddr + vaddr) eppnt prot l.loadAddrSet l.totalSize s
  if BadAddr addr then (.error addr, s)
  else
    let loadAddr := if l.loadAddrSet then loadAddr else addr - elfPagestart vaddr
    let start := loadAddr + eppnt.pVaddr
    if BadAddr start ∨ eppnt.pFilesz > eppnt.pMemsz ∨ taskSize < eppnt.pMemsz.toNat ∨
        taskSize - eppnt.pMemsz.toNat < start.toNat then (.error negEnomem, s)
    else
      let fileEnd := loadAddr + eppnt.pVaddr + eppnt.pFilesz
      let memEnd := loadAddr + eppnt.pVaddr + eppnt.pMemsz
      (.ok
        { loadAddrSet := true
          loadAddr := loadAddr
          totalSize := 0
          elfBss := if fileEnd > l.elfBss then fileEnd else l.elfBss
          lastBss := if memEnd > l.lastBss then memEnd else l.lastBss
          bssProt := if memEnd > l.lastBss then prot else l.bssProt }, s)

/-- The loop of `elf_load_binary`. -/
def elfLoadSegments (file : File) : List ElfPhdr → ElfLoop → Sys File →
    Except UInt64 ElfLoop × Sys File
  | [], l, s => (.ok l, s)
  | eppnt :: phdrs, l, s =>
    if eppnt.pType = ptLoad then
      match elfLoadSegment k file eppnt l s with
      | (.error e, s) => (.error e, s)
      | (.ok l, s) => elfLoadSegments file phdrs l s
    else elfLoadSegments file phdrs l s

/-- The end of `elf_load_binary`, where the memory without bytes in the file is made. -/
def elfLoadBss (file : File) (l : ElfLoop) (s : Sys File) : UInt64 × Sys File :=
  let (failed, s) := padzero k l.elfBss s
  if failed then (negEfault, s)
  else
    let elfBss := elfPagealign l.elfBss
    let lastBss := elfPagealign l.lastBss
    if elfBss < lastBss then
      let (error, s) := s.vmBrkFlags k (.bss file) elfBss (lastBss - elfBss) l.bssProt.exec
      if error ≠ 0 then (error, s) else (l.loadAddr, s)
    else (l.loadAddr, s)

/-- `elf_load_binary`. -/
def elfLoadBinary (img : ElfImage File) (s : Sys File) : UInt64 × Sys File :=
  if img.eType ≠ etExec ∧ img.eType ≠ etDyn then (~~~0, s)
  else
    let totalSize := totalMappingSize img.phdrs
    if totalSize = 0 then (negEinval, s)
    else
      let l : ElfLoop := ⟨false, 0, totalSize, 0, 0, ⟨false, false, false⟩⟩
      match elfLoadSegments k img.file img.phdrs l s with
      | (.error e, s) => (e, s)
      | (.ok l, s) => elfLoadBss k img.file l s

end Code

/-! ## Pages -/

theorem toNat_elfPagestart (v : UInt64) : (elfPagestart v).toNat = v.toNat / 4096 * 4096 := by
  have hmask : (~~~(4095 : UInt64)).toNat = 2 ^ 64 - 2 ^ 12 := by decide
  rw [elfPagestart, UInt64.toNat_and, hmask]
  exact and_highMask v.toNat_lt (by decide)

theorem toNat_elfPageoffset (v : UInt64) : (elfPageoffset v).toNat = v.toNat % 4096 := by
  rw [elfPageoffset, UInt64.toNat_and]
  exact Nat.and_two_pow_sub_one_eq_mod v.toNat 12

theorem toNat_elfPagealign {v : UInt64} (h : v.toNat + 4095 < 2 ^ 64) :
    (elfPagealign v).toNat = pageAlign v.toNat := by
  have hadd : (v + 4096 - 1).toNat = v.toNat + 4095 := by
    have hone : (1 : UInt64).toNat = 1 := rfl
    have hpage : (4096 : UInt64).toNat = 4096 := rfl
    rw [UInt64.toNat_sub, UInt64.toNat_add, hone, hpage]
    omega
  show (elfPagestart (v + 4096 - 1)).toNat = _
  rw [toNat_elfPagestart, hadd]
  rfl

end NoDrop
