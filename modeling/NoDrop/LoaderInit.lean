import NoDrop.Elf
import NoDrop.Kernel
import NoDrop.Lib.Fallible

/-! # Finding the monitor

`loader_init` of `kmodule/loader.c` opens the monitor's file, reads its tables, looks for the
section with the monitor's data, and opens the dynamic linker if the file names one.  Anything may
go wrong on the way, and what was opened and allocated until then is given back behind three
labels.

The files are whatever they are: the model takes what each call returns, at each place where it is
made, from a `LoaderEnv`.  Memory is identified by the place where it was allocated, and a pointer
that was not set yet is a value of its own, so that freeing it shows.
-/
namespace NoDrop

open Bytes

/-! ## Data -/

/-- The places where a file is read or memory allocated. -/
inductive LoaderSite where
  | monitorHdr | monitorPhdrs | monitorShdrs | shstrtab | interpPath | interpHdr | interpPhdrs
deriving DecidableEq, Repr

/-- A pointer to kernel memory. -/
inductive KPtr where
  | null
  | block (site : LoaderSite)
  | uninit
deriving DecidableEq, Repr

/-- What the calls return.  `kernel_read` reads no more than it is asked for, errors are negative,
and `vmalloc` has no memory for nothing or for more than there is; `stray` is what lies behind a
table that was allocated. -/
structure LoaderEnv where
  openMonitor : Except Int Unit
  openInterp : List UInt8 → Except Int Unit
  kernelRead : LoaderSite → UInt64 → Nat → Except Int (List UInt8)
  vmalloc : LoaderSite → Nat → Bool
  /-- `filp_monitor->f_op->mmap` is there. -/
  monitorMmap : Bool
  stray : Nat → UInt8
  openMonitor_neg : ∀ err, openMonitor = .error err → err < 0
  openInterp_neg : ∀ path err, openInterp path = .error err → err < 0
  read_neg : ∀ site pos size err, kernelRead site pos size = .error err → err < 0
  read_le : ∀ site pos size bs, kernelRead site pos size = .ok bs → bs.length ≤ size
  vmalloc_le : ∀ site size, vmalloc site size = true → 0 < size ∧ size < 2 ^ 47

/-- The variables of `loader_init`: the static ones, the two pointers of its own, what is
allocated, what was passed to `vfree`, and whether the tables were only read inside.  What the
tables contain is kept beside the pointers to them. -/
structure InitState where
  filpMonitor : Bool
  filpInterpreter : Bool
  monitorElfPhdata : KPtr
  monitorElfShdata : KPtr
  interpElfPhdata : KPtr
  monitorInfoOff : UInt64
  elfShstrtab : KPtr
  elfInterpreter : KPtr
  live : List LoaderSite
  freed : List KPtr
  inside : Bool
  phdrs : List UInt8
  shdrs : List UInt8
  strtab : List UInt8

/-- `out` and the labels behind which things are given back. -/
inductive InitExit where
  | out | freeMonitor | freeInterp | freeDentry
deriving DecidableEq, Repr

/-- A step of `loader_init`, which may go to a label with `retval` set. -/
abbrev InitStep := Fallible InitState (Int × InitExit)

/-! ## The file's tables -/

/-- `EIO`, `ENOEXEC`, `ENOMEM` and `ELIBBAD`; `EINVAL` is `22`. -/
def errIo : Int := -5
def errNoexec : Int := -8
def errNomem : Int := -12
def errInval : Int := -22
def errLibbad : Int := -80

/-- `sizeof(struct elfhdr)`, `sizeof(struct elf_phdr)` and `sizeof(struct elf_shdr)`. -/
def elfhdrSize : Nat := 64
def elfPhdrSize : Nat := 56
def elfShdrSize : Nat := 64

/-- `ELFMAG`. -/
def elfMag : List UInt8 := [0x7f, 0x45, 0x4c, 0x46]

/-- `EM_X86_64`. -/
def emX8664 : UInt16 := 62

/-- `PATH_MAX`. -/
def pathMax : Nat := 4096

/-- `NOD_SECTION_NAME`, with its terminator. -/
def nodSectionName : List UInt8 :=
  [0x2e, 0x6d, 0x6f, 0x6e, 0x69, 0x74, 0x6f, 0x72, 0x2e, 0x69, 0x6e, 0x66, 0x6f, 0]

/-- The fields of a `struct elfhdr`. -/
def ePhoff (hdr : List UInt8) : UInt64 := field64 hdr 32
def eShoff (hdr : List UInt8) : UInt64 := field64 hdr 40
def ePhentsize (hdr : List UInt8) : UInt16 := field16 hdr 54
def ePhnum (hdr : List UInt8) : UInt16 := field16 hdr 56
def eShentsize (hdr : List UInt8) : UInt16 := field16 hdr 58
def eShnum (hdr : List UInt8) : UInt16 := field16 hdr 60
def eShstrndx (hdr : List UInt8) : UInt16 := field16 hdr 62

/-- The `i`th `struct elf_phdr` of a table. -/
def phdrAt (bs : List UInt8) (i : Nat) : ElfPhdr :=
  let ph := bs.drop (elfPhdrSize * i)
  ⟨field32 ph 0, field32 ph 4, field64 ph 8, field64 ph 16, field64 ph 32, field64 ph 40⟩

/-- The table of program headers. -/
def phdrTable (bs : List UInt8) (n : Nat) : List ElfPhdr := (List.range n).map (phdrAt bs)

/-- What `loader_init` reads of a `struct elf_shdr`. -/
structure ElfShdr where
  shName : UInt32
  shAddr : UInt64
  shOffset : UInt64
  shSize : UInt64
deriving DecidableEq, Repr

def shdrAt (bs : List UInt8) (i : Nat) : ElfShdr :=
  let sh := bs.drop (elfShdrSize * i)
  ⟨field32 sh 0, field64 sh 16, field64 sh 24, field64 sh 32⟩

def shdrTable (bs : List UInt8) (n : Nat) : List ElfShdr := (List.range n).map (shdrAt bs)

/-! ## The code -/

namespace InitState

/-- `vmalloc` has returned memory. -/
def alloc (s : InitState) (site : LoaderSite) : InitState := { s with live := site :: s.live }

def vfree (s : InitState) (p : KPtr) : InitState :=
  { s with
    freed := s.freed ++ [p]
    live := match p with
      | .block site => s.live.erase site
      | _ => s.live }

/-- `fput` of a file that is open. -/
def putInterpreter (s : InitState) : InitState :=
  if s.filpInterpreter then { s with filpInterpreter := false } else s

def freePath (s : InitState) : InitState :=
  if s.elfInterpreter ≠ .null then { s.vfree s.elfInterpreter with elfInterpreter := .null } else s

def putMonitor (s : InitState) : InitState :=
  let s := if s.filpMonitor then { s with filpMonitor := false } else s
  if s.elfShstrtab ≠ .null then { s.vfree s.elfShstrtab with elfShstrtab := .null } else s

/-- What is done behind a label. -/
def cleanup (s : InitState) : InitExit → InitState
  | .out => s
  | .freeMonitor => s.putMonitor
  | .freeInterp => s.freePath.putMonitor
  | .freeDentry => s.putInterpreter.freePath.putMonitor

end InitState

section Code

variable (e : LoaderEnv)

namespace InitStep

/-- `if (cond) goto label`, with `retval` set. -/
def gotoIf (cond : Prop) [Decidable cond] (retval : Int) (label : InitExit) : InitStep Unit :=
  if cond then .fail (retval, label) else pure ()

/-- Assignments. -/
def set (f : InitState → InitState) : InitStep Unit := .lift fun s => ((), f s)

/-- `open_exec`. -/
def openExec (outcome : Except Int Unit) (label : InitExit) : InitStep Unit :=
  match outcome with
  | .error err => .fail (err, label)
  | .ok () => pure ()

/-- `kernel_read` of all that is asked for. -/
def kernelRead (site : LoaderSite) (pos : UInt64) (size : Nat) (label : InitExit) :
    InitStep (List UInt8) :=
  match e.kernelRead site pos size with
  | .error err => .fail (err, label)
  | .ok bs => if bs.length ≠ size then .fail (errIo, label) else pure bs

end InitStep

open InitStep

/-- The common course of `elf_load_phdrs`, `elf_load_shdrs` and `elf_load_shstrtab`: the memory is
freed on every error, also before it is allocated.  It returns the error, the pointer and what was
read. -/
def elfLoadTable (site : LoaderSite) (fits : Prop) [Decidable fits] (size : Nat) (pos : UInt64)
    (s : InitState) : (Int × KPtr × List UInt8) × InitState :=
  if ¬fits then ((-1, .null, []), s.vfree .uninit)
  else if e.vmalloc site size = false then ((-1, .null, []), s.vfree .null)
  else
    let s := s.alloc site
    match e.kernelRead site pos size with
    | .error err => ((err, .null, []), s.vfree (.block site))
    | .ok bs =>
      if bs.length ≠ size then ((errIo, .null, []), s.vfree (.block site))
      else ((0, .block site, bs), s)

/-- The checks of `elf_load_phdrs`. -/
def PhdrsFit (hdr : List UInt8) : Prop :=
  (ePhentsize hdr).toNat = elfPhdrSize ∧ 1 ≤ (ePhnum hdr).toNat ∧
    (ePhnum hdr).toNat ≤ 65536 / elfPhdrSize ∧ elfPhdrSize * (ePhnum hdr).toNat ≤ 4096

instance instDecidablePhdrsFit (hdr : List UInt8) : Decidable (PhdrsFit hdr) :=
  inferInstanceAs (Decidable (_ ∧ _ ∧ _ ∧ _))

/-- The checks of `elf_load_shdrs`. -/
def ShdrsFit (hdr : List UInt8) : Prop :=
  (eShentsize hdr).toNat = elfShdrSize ∧ 1 ≤ (eShnum hdr).toNat ∧
    (eShnum hdr).toNat ≤ 65536 / elfShdrSize ∧ elfShdrSize * (eShnum hdr).toNat ≤ 4096

instance instDecidableShdrsFit (hdr : List UInt8) : Decidable (ShdrsFit hdr) :=
  inferInstanceAs (Decidable (_ ∧ _ ∧ _ ∧ _))

/-- The check of `elf_load_shstrtab`. -/
def StrtabFits (hdr : List UInt8) : Prop :=
  1 ≤ (eShstrndx hdr).toNat ∧ (eShstrndx hdr).toNat < (eShnum hdr).toNat

instance instDecidableStrtabFits (hdr : List UInt8) : Decidable (StrtabFits hdr) :=
  inferInstanceAs (Decidable (_ ∧ _))

/-- The section that holds the names. -/
def strShdr (hdr shdrs : List UInt8) : ElfShdr := shdrAt shdrs (eShstrndx hdr).toNat

/-- `size` of `elf_load_shstrtab`, an `int` that is passed on as `unsigned long`. -/
def strtabSize (hdr shdrs : List UInt8) : Nat :=
  (strShdr hdr shdrs).shSize.toUInt32.toInt32.toInt64.toUInt64.toNat

def elfLoadPhdrs (site : LoaderSite) (hdr : List UInt8) :=
  elfLoadTable e site (PhdrsFit hdr) (elfPhdrSize * (ePhnum hdr).toNat) (ePhoff hdr)

def elfLoadShdrs (hdr : List UInt8) :=
  elfLoadTable e .monitorShdrs (ShdrsFit hdr) (elfShdrSize * (eShnum hdr).toNat) (eShoff hdr)

def elfLoadShstrtab (hdr shdrs : List UInt8) :=
  elfLoadTable e .shstrtab (StrtabFits hdr) (strtabSize hdr shdrs) (strShdr hdr shdrs).shOffset

/-- `strcmp` of the string at `i` of a table with a string, and whether it has read only the
table. -/
def strcmp (stray : Nat → UInt8) (tab : List UInt8) : Nat → List UInt8 → Bool × Bool
  | _, [] => (true, true)
  | i, c :: cs =>
      let b := if i < tab.length then tab.getD i 0 else stray i
      if b ≠ c then (false, i < tab.length)
      else
        let r := strcmp stray tab (i + 1) cs
        (r.1, i < tab.length && r.2)

/-- The loop over the sections: the address of the first with the right name, or 0, and whether
only the table was read. -/
def findInfo (stray : Nat → UInt8) (tab : List UInt8) : List ElfShdr → UInt64 × Bool
  | [] => (0, true)
  | sh :: shs =>
      let r := strcmp stray tab sh.shName.toNat nodSectionName
      if r.1 then (sh.shAddr, r.2)
      else
        let r' := findInfo stray tab shs
        (r'.1, r.2 && r'.2)

/-- The consistency checks of an executable. -/
def IsElf (hdr : List UInt8) : Prop := hdr.take 4 = elfMag

instance instDecidableIsElf (hdr : List UInt8) : Decidable (IsElf hdr) :=
  inferInstanceAs (Decidable (_ = _))

def eType (hdr : List UInt8) : UInt16 := field16 hdr 16
def eMachine (hdr : List UInt8) : UInt16 := field16 hdr 18

/-- The monitor and its tables, up to the string table. -/
def loadTables : InitStep (List UInt8) := do
  openExec e.openMonitor .out
  set fun s => { s with filpMonitor := true }
  let hdr ← InitStep.kernelRead e .monitorHdr 0 elfhdrSize .freeMonitor
  gotoIf (¬IsElf hdr) errNoexec .freeMonitor
  gotoIf (eType hdr ≠ etDyn ∧ eType hdr ≠ etExec) errNoexec .freeMonitor
  gotoIf (eMachine hdr ≠ emX8664) errNoexec .freeMonitor
  gotoIf (e.monitorMmap = false) errNoexec .freeMonitor
  let (err, phdata, phdrs) ← .lift (elfLoadPhdrs e .monitorPhdrs hdr)
  set fun s => { s with monitorElfPhdata := phdata, phdrs := phdrs }
  gotoIf (err ≠ 0) errNoexec .freeMonitor
  let (err, shdata, shdrs) ← .lift (elfLoadShdrs e hdr)
  set fun s => { s with monitorElfShdata := shdata, shdrs := shdrs }
  gotoIf (err ≠ 0) errNoexec .freeMonitor
  let (err, shstrtab, strtab) ← .lift (elfLoadShstrtab e hdr shdrs)
  set fun s => { s with elfShstrtab := shstrtab, strtab := strtab }
  gotoIf (err ≠ 0) errNoexec .freeMonitor
  pure hdr

/-- The section with the monitor's data. -/
def findSection (hdr : List UInt8) : InitStep Unit := do
  let off ← .lift fun s =>
    let r := findInfo e.stray s.strtab (shdrTable s.shdrs (eShnum hdr).toNat)
    (r.1, { s with monitorInfoOff := r.1, inside := s.inside && r.2 })
  gotoIf (off = 0) errInval .freeMonitor

/-- The dynamic linker that a `PT_INTERP` names. -/
def loadInterp (ph : ElfPhdr) : InitStep Unit := do
  gotoIf (pathMax < ph.pFilesz.toNat ∨ ph.pFilesz.toNat < 2) 0 .freeMonitor
  gotoIf (e.vmalloc .interpPath ph.pFilesz.toNat = false) errNomem .freeMonitor
  set fun s => { s.alloc .interpPath with elfInterpreter := .block .interpPath }
  let path ← InitStep.kernelRead e .interpPath ph.pOffset ph.pFilesz.toNat .freeInterp
  gotoIf (path.getD (ph.pFilesz.toNat - 1) 0 ≠ 0) errNoexec .freeInterp
  openExec (e.openInterp path) .freeInterp
  set fun s => { s with filpInterpreter := true }
  let hdr ← InitStep.kernelRead e .interpHdr 0 elfhdrSize .freeDentry
  set fun s => { s.vfree s.elfInterpreter with elfInterpreter := .null }
  gotoIf (¬IsElf hdr) errLibbad .freeDentry
  gotoIf (eMachine hdr ≠ emX8664) errLibbad .freeDentry
  let (err, phdata, _) ← .lift (elfLoadPhdrs e .interpPhdrs hdr)
  set fun s => { s with interpElfPhdata := phdata }
  gotoIf (err ≠ 0) errLibbad .freeDentry

/-- `loader_init` up to its labels. -/
def loaderBody : InitStep Unit := do
  let hdr ← loadTables e
  findSection e hdr
  let interp ← .lift fun s =>
    ((phdrTable s.phdrs (ePhnum hdr).toNat).find? fun ph => ph.pType = ptInterp, s)
  match interp with
  | none => pure ()
  | some ph => loadInterp e ph

/-- The variables at the beginning. -/
def InitState.start : InitState where
  filpMonitor := false
  filpInterpreter := false
  monitorElfPhdata := .null
  monitorElfShdata := .null
  interpElfPhdata := .null
  monitorInfoOff := 0
  elfShstrtab := .null
  elfInterpreter := .null
  live := []
  freed := []
  inside := true
  phdrs := []
  shdrs := []
  strtab := []

/-- `loader_init`. -/
def loaderInit : Int × InitState :=
  match loaderBody e .start with
  | (.ok _, s) => (0, s)
  | (.error (retval, label), s) => (retval, s.cleanup label)

end Code

/-! ## What it is to do -/

namespace InitState

/-- The table of the monitor's program headers has a `PT_INTERP`. -/
def HasInterp (s : InitState) : Prop :=
  ∃ ph ∈ phdrTable s.phdrs (s.phdrs.length / elfPhdrSize), ph.pType = ptInterp

/-- A section of the monitor has the right name and is loaded somewhere. -/
def HasSection (s : InitState) : Prop :=
  ∃ sh ∈ shdrTable s.shdrs (s.shdrs.length / elfShdrSize), sh.shAddr ≠ 0 ∧
    nodSectionName <+: s.strtab.drop sh.shName.toNat

/-- The monitor can be loaded. -/
structure Ready (s : InitState) : Prop where
  monitor : s.filpMonitor = true
  phdrs : s.monitorElfPhdata = .block .monitorPhdrs
  named : s.HasSection
  interp : s.HasInterp → s.filpInterpreter = true ∧ s.interpElfPhdata = .block .interpPhdrs

/-- A static variable points to the memory. -/
def Kept (s : InitState) (site : LoaderSite) : Prop :=
  s.monitorElfPhdata = .block site ∨ s.monitorElfShdata = .block site ∨
    s.interpElfPhdata = .block site

end InitState

/-- `loader_init` has returned what it should and has left nothing behind: 0 says that the monitor
can be loaded and anything else is an error, only memory from `vmalloc` was freed, the tables were
read inside, and what is still allocated can be reached. -/
structure InitRight (ret : Int) (s : InitState) : Prop where
  zero : ret = 0 ↔ s.Ready
  neg : ret ≠ 0 → ret < 0
  freed : ∀ p ∈ s.freed, p ≠ .uninit
  inside : s.inside = true
  kept : ∀ site ∈ s.live, s.Kept site

/-! ## Leaving by a label -/

namespace InitState

/-- Up to here everything is right: what is allocated is held by a variable. -/
structure Holding (s : InitState) : Prop where
  freed : ∀ p ∈ s.freed, p ≠ .uninit
  inside : s.inside = true
  nodup : s.live.Nodup
  shstrtab : s.elfShstrtab ≠ .uninit
  interpreter : s.elfInterpreter ≠ .uninit
  held : ∀ site ∈ s.live, s.Kept site ∨ s.elfShstrtab = .block site ∨
    s.elfInterpreter = .block site

/-- The label gives back what is held at that point. -/
def GivesBack (s : InitState) : InitExit → Prop
  | .out => s.filpMonitor = false ∧ s.elfShstrtab = .null ∧ s.elfInterpreter = .null
  | .freeMonitor => s.elfInterpreter = .null
  | .freeInterp | .freeDentry => True

variable {s : InitState}

theorem mem_vfree_freed {p q : KPtr} : q ∈ (s.vfree p).freed ↔ q ∈ s.freed ∨ q = p := by
  show q ∈ s.freed ++ [p] ↔ _
  rw [List.mem_append, List.mem_singleton]

/-- What is left after freeing was there, and the pointer is not to it. -/
theorem mem_vfree_live (hn : s.live.Nodup) {p : KPtr} {site : LoaderSite}
    (h : site ∈ (s.vfree p).live) : site ∈ s.live ∧ p ≠ .block site := by
  cases p with
  | null => exact ⟨h, KPtr.noConfusion⟩
  | uninit => exact ⟨h, KPtr.noConfusion⟩
  | block freed =>
    obtain ⟨hne, hmem⟩ := hn.mem_erase_iff.mp h
    exact ⟨hmem, fun heq => hne (KPtr.block.inj heq).symm⟩

theorem nodup_vfree (hn : s.live.Nodup) (p : KPtr) : (s.vfree p).live.Nodup := by
  cases p with
  | null => exact hn
  | uninit => exact hn
  | block freed => exact hn.erase freed

theorem Holding.freed_vfree (h : s.Holding) {p : KPtr} (hp : p ≠ .uninit) :
    ∀ q ∈ (s.vfree p).freed, q ≠ .uninit := by
  intro q hq
  rcases mem_vfree_freed.mp hq with hq | rfl
  · exact h.freed q hq
  · exact hp

/-- The path is freed. -/
theorem Holding.freePath (h : s.Holding) :
    s.freePath.Holding ∧ s.freePath.elfInterpreter = .null := by
  unfold InitState.freePath
  split
  · refine ⟨⟨h.freed_vfree h.interpreter, h.inside, nodup_vfree h.nodup _, h.shstrtab,
      KPtr.noConfusion, fun site hsite => ?_⟩, rfl⟩
    obtain ⟨hlive, hne⟩ := mem_vfree_live h.nodup hsite
    rcases h.held site hlive with hk | hs | hi
    · exact .inl hk
    · exact .inr (.inl hs)
    · exact absurd hi hne
  · rename_i hnull
    exact ⟨h, not_not.mp hnull⟩

theorem Holding.closeMonitor (h : s.Holding) : Holding { s with filpMonitor := false } :=
  ⟨h.freed, h.inside, h.nodup, h.shstrtab, h.interpreter, h.held⟩

/-- The monitor is closed, and the names are freed. -/
theorem Holding.putMonitor (h : s.Holding) (hi : s.elfInterpreter = .null) :
    s.putMonitor.filpMonitor = false ∧ (∀ p ∈ s.putMonitor.freed, p ≠ .uninit) ∧
      s.putMonitor.inside = true ∧ ∀ site ∈ s.putMonitor.live, s.putMonitor.Kept site := by
  have hclosed : (if s.filpMonitor then { s with filpMonitor := false } else s) =
      { s with filpMonitor := false } := by
    split
    · rfl
    · rename_i hf
      rw [Bool.not_eq_true] at hf
      rw [← hf]
  unfold InitState.putMonitor
  dsimp only
  rw [hclosed]
  split
  · refine ⟨rfl, h.closeMonitor.freed_vfree h.shstrtab, h.inside, fun site hsite => ?_⟩
    obtain ⟨hlive, hne⟩ := mem_vfree_live h.closeMonitor.nodup hsite
    rcases h.held site hlive with hk | hs | hi'
    · exact hk
    · exact absurd hs hne
    · rw [hi] at hi'
      cases hi'
  · rename_i hnull
    refine ⟨rfl, h.freed, h.inside, fun site hsite => ?_⟩
    rcases h.held site hsite with hk | hs | hi'
    · exact hk
    · rw [not_not.mp hnull] at hs
      cases hs
    · rw [hi] at hi'
      cases hi'

/-- What a label leaves. -/
theorem Holding.cleanup (h : s.Holding) {label : InitExit} (hl : s.GivesBack label) :
    (s.cleanup label).filpMonitor = false ∧ (∀ p ∈ (s.cleanup label).freed, p ≠ .uninit) ∧
      (s.cleanup label).inside = true ∧ ∀ site ∈ (s.cleanup label).live,
        (s.cleanup label).Kept site := by
  cases label with
  | out =>
    refine ⟨hl.1, h.freed, h.inside, fun site hsite => ?_⟩
    rcases h.held site hsite with hk | hs | hi
    · exact hk
    · rw [hl.2.1] at hs
      cases hs
    · rw [hl.2.2] at hi
      cases hi
  | freeMonitor => exact h.putMonitor hl
  | freeInterp => exact h.freePath.1.putMonitor h.freePath.2
  | freeDentry =>
    have hput : s.putInterpreter.Holding := by
      unfold putInterpreter
      split
      · exact ⟨h.freed, h.inside, h.nodup, h.shstrtab, h.interpreter, h.held⟩
      · exact h
    exact hput.freePath.1.putMonitor hput.freePath.2

end InitState

/-- Leaving by the label that gives everything back is right if it says that it has failed. -/
theorem initRight_cleanup {s : InitState} (h : s.Holding) {label : InitExit}
    (hl : s.GivesBack label) (ret : Int) : InitRight ret (s.cleanup label) ↔ ret < 0 := by
  obtain ⟨hclosed, hfreed, hinside, hkept⟩ := h.cleanup hl
  have hnot : ¬(s.cleanup label).Ready := by
    intro hready
    rw [hready.monitor] at hclosed
    cases hclosed
  constructor
  · intro hright
    exact hright.neg fun hz => hnot (hright.zero.mp hz)
  · intro hneg
    exact ⟨iff_of_false (Int.ne_of_lt hneg) hnot, fun _ => hneg, hfreed, hinside, hkept⟩

/-- Something has gone wrong. -/
def Spoilt (s : InitState) : Prop := .uninit ∈ s.freed ∨ s.inside = false

section Spoilt

variable {s : InitState}

theorem Spoilt.vfree (h : Spoilt s) (p : KPtr) : Spoilt (s.vfree p) :=
  h.imp_left fun hf => InitState.mem_vfree_freed.mpr (.inl hf)

theorem Spoilt.freePath (h : Spoilt s) : Spoilt s.freePath := by
  unfold InitState.freePath
  split
  · exact h.vfree s.elfInterpreter
  · exact h

theorem Spoilt.putMonitor (h : Spoilt s) : Spoilt s.putMonitor := by
  have hclosed : Spoilt (if s.filpMonitor then { s with filpMonitor := false } else s) := by
    split <;> exact h
  unfold InitState.putMonitor
  dsimp only
  generalize (if s.filpMonitor then { s with filpMonitor := false } else s) = s' at hclosed ⊢
  split
  · exact hclosed.vfree s'.elfShstrtab
  · exact hclosed

theorem Spoilt.cleanup (h : Spoilt s) (label : InitExit) : Spoilt (s.cleanup label) := by
  have hput : Spoilt s.putInterpreter := by
    unfold InitState.putInterpreter
    split <;> exact h
  cases label with
  | out => exact h
  | freeMonitor => exact h.putMonitor
  | freeInterp => exact h.freePath.putMonitor
  | freeDentry => exact hput.freePath.putMonitor

theorem Spoilt.not_right (h : Spoilt s) (ret : Int) : ¬InitRight ret s := by
  intro hright
  rcases h with hf | hi
  · exact hright.freed _ hf rfl
  · rw [hright.inside] at hi
    cases hi

end Spoilt

/-! ## The steps -/

section Steps

variable {α β : Type} {e : LoaderEnv} {s : InitState}

/-- From this state `loader_init` ends right if it goes on with `m`. -/
def EndsRight (m : InitStep α) (s : InitState) : Prop :=
  match m s with
  | (.ok _, s') => InitRight 0 s'
  | (.error (ret, label), s') => InitRight ret (s'.cleanup label)

theorem endsRight_of_ok {m : InitStep α} {f : α → InitStep β} {a : α} {s' : InitState}
    (h : m s = (.ok a, s')) : EndsRight (m >>= f) s ↔ EndsRight (f a) s' := by
  unfold EndsRight
  rw [Fallible.bind_of_ok h]

theorem endsRight_of_error {m : InitStep α} {f : α → InitStep β} {ret : Int} {label : InitExit}
    {s' : InitState} (h : m s = (.error (ret, label), s')) :
    EndsRight (m >>= f) s ↔ InitRight ret (s'.cleanup label) := by
  unfold EndsRight
  rw [Fallible.bind_of_error h]

theorem endsRight_set (f : InitState → InitState) (g : Unit → InitStep β) :
    EndsRight (InitStep.set f >>= g) s ↔ EndsRight (g ()) (f s) :=
  endsRight_of_ok rfl

/-- A step that keeps what has gone wrong. -/
def KeepsSpoilt (m : InitStep α) : Prop :=
  Fallible.Within (fun s s' => Spoilt s → Spoilt s') (fun _ => True) m

theorem KeepsSpoilt.not_endsRight {m : InitStep α} (h : KeepsSpoilt m) (hs : Spoilt s) :
    ¬EndsRight m s := by
  have hs' := h.state s hs
  unfold EndsRight
  rcases hm : m s with ⟨r, s'⟩
  rw [hm] at hs'
  rcases r with ⟨ret, label⟩ | a
  · exact (hs'.cleanup label).not_right ret
  · exact hs'.not_right 0

theorem KeepsSpoilt.bind {m : InitStep α} {f : α → InitStep β} (hm : KeepsSpoilt m)
    (hf : ∀ a, KeepsSpoilt (f a)) : KeepsSpoilt (m >>= f) :=
  Fallible.Within.bind (fun h h' hs => h' (h hs)) hm hf

theorem keepsSpoilt_pure (a : α) : KeepsSpoilt (pure a) := Fallible.Within.pure (fun _ hs => hs) a

theorem keepsSpoilt_fail (err : Int × InitExit) : KeepsSpoilt (Fallible.fail err : InitStep α) :=
  Fallible.Within.fail (fun _ hs => hs) trivial

theorem keepsSpoilt_gotoIf (cond : Prop) [Decidable cond] (ret : Int) (label : InitExit) :
    KeepsSpoilt (InitStep.gotoIf cond ret label) := by
  unfold InitStep.gotoIf
  split
  · exact keepsSpoilt_fail _
  · exact keepsSpoilt_pure ()

theorem keepsSpoilt_set {f : InitState → InitState} (hf : ∀ s, Spoilt s → Spoilt (f s)) :
    KeepsSpoilt (InitStep.set f) :=
  Fallible.Within.lift hf

theorem keepsSpoilt_openExec (outcome : Except Int Unit) (label : InitExit) :
    KeepsSpoilt (InitStep.openExec outcome label) := by
  unfold InitStep.openExec
  split
  · exact keepsSpoilt_fail _
  · exact keepsSpoilt_pure ()

theorem keepsSpoilt_kernelRead (site : LoaderSite) (pos : UInt64) (size : Nat)
    (label : InitExit) : KeepsSpoilt (InitStep.kernelRead e site pos size label) := by
  unfold InitStep.kernelRead
  split
  · exact keepsSpoilt_fail _
  · split
    · exact keepsSpoilt_fail _
    · exact keepsSpoilt_pure _

theorem keepsSpoilt_loadTable (site : LoaderSite) (fits : Prop) [Decidable fits] (size : Nat)
    (pos : UInt64) : KeepsSpoilt (Fallible.lift (elfLoadTable e site fits size pos)) := by
  refine Fallible.Within.lift fun s hs => ?_
  have halloc : Spoilt (s.alloc site) := hs
  unfold elfLoadTable
  split
  · exact hs.vfree _
  · split
    · exact hs.vfree _
    · dsimp only
      split
      · exact halloc.vfree _
      · split
        · exact halloc.vfree _
        · exact halloc

/-- Nothing is mended while the dynamic linker is loaded. -/
theorem keepsSpoilt_loadInterp (ph : ElfPhdr) : KeepsSpoilt (loadInterp e ph) := by
  unfold loadInterp
  refine (keepsSpoilt_gotoIf _ _ _).bind fun _ => (keepsSpoilt_gotoIf _ _ _).bind fun _ =>
    (keepsSpoilt_set fun s hs => ?_).bind fun _ => (keepsSpoilt_kernelRead _ _ _ _).bind fun _ =>
    (keepsSpoilt_gotoIf _ _ _).bind fun _ => (keepsSpoilt_openExec _ _).bind fun _ =>
    (keepsSpoilt_set fun s hs => ?_).bind fun _ => (keepsSpoilt_kernelRead _ _ _ _).bind fun _ =>
    (keepsSpoilt_set fun s hs => ?_).bind fun _ => (keepsSpoilt_gotoIf _ _ _).bind fun _ =>
    (keepsSpoilt_gotoIf _ _ _).bind fun _ => (keepsSpoilt_loadTable _ _ _ _).bind fun _ =>
    (keepsSpoilt_set fun s hs => ?_).bind fun _ => keepsSpoilt_gotoIf _ _ _
  · exact hs
  · exact hs
  · exact hs.vfree s.elfInterpreter
  · exact hs

theorem endsRight_fail (ret : Int) (label : InitExit) (g : α → InitStep β) :
    EndsRight (Fallible.fail (ret, label) >>= g) s ↔ InitRight ret (s.cleanup label) :=
  endsRight_of_error rfl

theorem endsRight_pure (a : α) (g : α → InitStep β) :
    EndsRight (pure a >>= g) s ↔ EndsRight (g a) s :=
  endsRight_of_ok rfl

theorem endsRight_last (m : InitStep Unit) :
    EndsRight m s ↔ EndsRight (m >>= fun _ => (pure () : InitStep Unit)) s := by
  unfold EndsRight
  rcases hm : m s with ⟨r, s'⟩
  rcases r with ⟨ret, label⟩ | a
  · rw [Fallible.bind_of_error hm]
  · rw [Fallible.bind_of_ok hm]
    rfl

theorem endsRight_goto {cond : Prop} [Decidable cond] (hc : cond) (ret : Int) (label : InitExit)
    (g : Unit → InitStep β) :
    EndsRight (InitStep.gotoIf cond ret label >>= g) s ↔ InitRight ret (s.cleanup label) := by
  rw [InitStep.gotoIf, if_pos hc, endsRight_fail]

theorem endsRight_go_on {cond : Prop} [Decidable cond] (hc : ¬cond) (ret : Int)
    (label : InitExit) (g : Unit → InitStep β) :
    EndsRight (InitStep.gotoIf cond ret label >>= g) s ↔ EndsRight (g ()) s := by
  rw [InitStep.gotoIf, if_neg hc, endsRight_pure]

/-- What `kernel_read` reads, if that is all that was asked for. -/
def LoaderEnv.readAll (e : LoaderEnv) (site : LoaderSite) (pos : UInt64) (size : Nat) :
    Option (List UInt8) :=
  match e.kernelRead site pos size with
  | .error _ => none
  | .ok bs => if bs.length ≠ size then none else some bs

/-- A table for which there is memory, and that can be read. -/
def LoaderEnv.table (e : LoaderEnv) (site : LoaderSite) (pos : UInt64) (size : Nat) :
    Option (List UInt8) :=
  if e.vmalloc site size = false then none else e.readAll site pos size

/-- `kernel_read` by cases. -/
theorem readAll_cases (e : LoaderEnv) (site : LoaderSite) (pos : UInt64) (size : Nat) :
    (∃ err < 0, e.kernelRead site pos size = .error err ∧ e.readAll site pos size = none) ∨
    (∃ bs, e.kernelRead site pos size = .ok bs ∧ bs.length ≠ size ∧
      e.readAll site pos size = none) ∨
    ∃ bs, e.kernelRead site pos size = .ok bs ∧ bs.length = size ∧
      e.readAll site pos size = some bs := by
  unfold LoaderEnv.readAll
  rcases hr : e.kernelRead site pos size with err | bs
  · exact .inl ⟨err, e.read_neg _ _ _ _ hr, rfl, rfl⟩
  · by_cases hlen : bs.length = size
    · exact .inr (.inr ⟨bs, rfl, hlen, if_neg (not_not.mpr hlen)⟩)
    · exact .inr (.inl ⟨bs, rfl, hlen, if_pos hlen⟩)

section Held

variable (h : s.Holding)
include h

/-- A jump to the right label, with an error. -/
theorem endsRight_gotoIf {cond : Prop} [Decidable cond] {ret : Int} {label : InitExit}
    (hl : s.GivesBack label) (hret : ret < 0) (g : Unit → InitStep β) :
    EndsRight (InitStep.gotoIf cond ret label >>= g) s ↔ (¬cond → EndsRight (g ()) s) := by
  by_cases hc : cond
  · rw [endsRight_goto hc, initRight_cleanup h hl]
    exact iff_of_true hret fun hn => absurd hc hn
  · rw [endsRight_go_on hc]
    exact ⟨fun hg _ => hg, fun hg => hg hc⟩

theorem endsRight_openExec {outcome : Except Int Unit} {label : InitExit}
    (hneg : ∀ err, outcome = .error err → err < 0) (hl : s.GivesBack label)
    (g : Unit → InitStep β) :
    EndsRight (InitStep.openExec outcome label >>= g) s ↔
      (outcome = .ok () → EndsRight (g ()) s) := by
  unfold InitStep.openExec
  rcases outcome with err | u
  · dsimp only
    rw [endsRight_fail, initRight_cleanup h hl]
    exact iff_of_true (hneg err rfl) fun hok => by cases hok
  · dsimp only
    rw [endsRight_pure]
    exact ⟨fun hg _ => hg, fun hg => hg rfl⟩

theorem endsRight_kernelRead {site : LoaderSite} {pos : UInt64} {size : Nat} {label : InitExit}
    (hl : s.GivesBack label) (g : List UInt8 → InitStep β) :
    EndsRight (InitStep.kernelRead e site pos size label >>= g) s ↔
      ∀ bs ∈ e.readAll site pos size, EndsRight (g bs) s := by
  unfold InitStep.kernelRead
  rcases readAll_cases e site pos size with ⟨err, hneg, hr, hall⟩ | ⟨bs, hr, hlen, hall⟩ |
    ⟨bs, hr, hlen, hall⟩
  · rw [hr, hall]
    dsimp only
    rw [endsRight_fail, initRight_cleanup h hl]
    exact iff_of_true hneg fun _ hbs => by cases hbs
  · rw [hr, hall]
    dsimp only
    rw [if_pos hlen, endsRight_fail, initRight_cleanup h hl]
    exact iff_of_true (by decide) fun _ hbs => by cases hbs
  · rw [hr, hall]
    dsimp only
    rw [if_neg (not_not.mpr hlen), endsRight_pure]
    exact ⟨fun hg b hb => Option.some.inj hb ▸ hg, fun hg => hg bs rfl⟩

end Held

theorem InitState.vfree_alloc (s : InitState) (site : LoaderSite) :
    (s.alloc site).vfree (.block site) = { s with freed := s.freed ++ [.block site] } := by
  simp only [InitState.alloc, InitState.vfree, List.erase_cons_head]

/-- A table is loaded: its memory is freed before it is allocated if the checks fail. -/
theorem endsRight_table (h : s.Holding) {site : LoaderSite} {fits : Prop} [Decidable fits]
    {size : Nat} {pos : UInt64} (g : Int × KPtr × List UInt8 → InitStep β)
    (hbad : ∀ freed, .uninit ∈ freed →
      ¬EndsRight (g (-1, .null, [])) { s with freed := freed })
    (hfail : ∀ err freed, err ≠ 0 → (∀ p ∈ freed, p ≠ KPtr.uninit) →
      EndsRight (g (err, .null, [])) { s with freed := freed }) :
    EndsRight (Fallible.lift (elfLoadTable e site fits size pos) >>= g) s ↔
      fits ∧ ∀ bs ∈ e.table site pos size, EndsRight (g (0, .block site, bs)) (s.alloc site) := by
  have hlift : EndsRight (Fallible.lift (elfLoadTable e site fits size pos) >>= g) s ↔
      EndsRight (g (elfLoadTable e site fits size pos s).1)
        (elfLoadTable e site fits size pos s).2 :=
    endsRight_of_ok rfl
  have hgood : ∀ p : KPtr, p ≠ .uninit → ∀ q ∈ s.freed ++ [p], q ≠ KPtr.uninit := by
    intro p hp q hq
    rcases List.mem_append.mp hq with hq | hq
    · exact h.freed q hq
    · rw [List.mem_singleton.mp hq]
      exact hp
  rw [hlift]
  unfold elfLoadTable LoaderEnv.table
  by_cases hfits : fits
  · rw [if_neg (not_not.mpr hfits)]
    by_cases hmem : e.vmalloc site size = false
    · rw [if_pos hmem, if_pos hmem]
      exact iff_of_true (hfail _ _ (by decide) (hgood _ KPtr.noConfusion))
        ⟨hfits, fun _ hbs => by cases hbs⟩
    · rw [if_neg hmem, if_neg hmem]
      dsimp only
      rw [InitState.vfree_alloc]
      rcases readAll_cases e site pos size with ⟨err, hneg, hr, hall⟩ | ⟨bs, hr, hlen, hall⟩ |
        ⟨bs, hr, hlen, hall⟩
      · rw [hr, hall]
        exact iff_of_true (hfail _ _ (Int.ne_of_lt hneg) (hgood _ KPtr.noConfusion))
          ⟨hfits, fun _ hbs => by cases hbs⟩
      · rw [hr, hall]
        dsimp only
        rw [if_pos hlen]
        exact iff_of_true (hfail _ _ (by decide) (hgood _ KPtr.noConfusion))
          ⟨hfits, fun _ hbs => by cases hbs⟩
      · rw [hr, hall]
        dsimp only
        rw [if_neg (not_not.mpr hlen)]
        exact ⟨fun hg => ⟨hfits, fun b hb => Option.some.inj hb ▸ hg⟩, fun hg => hg.2 bs rfl⟩
  · rw [if_pos hfits]
    exact iff_of_false (hbad _ (List.mem_append_right _ List.mem_cons_self)) fun hg => hfits hg.1

/-- The call of `elf_load_phdrs` or of one of its siblings, and the jump if it has failed. -/
theorem endsRight_loadTable (h : s.Holding) {site : LoaderSite} {fits : Prop} [Decidable fits]
    {size : Nat} {pos : UInt64} {ret : Int} (hret : ret < 0) {label : InitExit}
    (hl : s.GivesBack label) {f : Int × KPtr × List UInt8 → InitState → InitState}
    (hf : ∀ err freed, f (err, .null, []) { s with freed := freed } = { s with freed := freed })
    (next : Int × KPtr × List UInt8 → InitStep β) :
    EndsRight (Fallible.lift (elfLoadTable e site fits size pos) >>= fun r =>
        InitStep.set (f r) >>= fun _ =>
        InitStep.gotoIf (r.1 ≠ 0) ret label >>= fun _ => next r) s ↔
      fits ∧ ∀ bs ∈ e.table site pos size,
        EndsRight (next (0, .block site, bs)) (f (0, .block site, bs) (s.alloc site)) := by
  rw [endsRight_table h]
  · refine and_congr_right fun _ => forall_congr' fun bs => forall_congr' fun _ => ?_
    rw [endsRight_set]
    exact endsRight_go_on (not_not.mpr rfl) ret label _
  · intro freed hbad
    rw [endsRight_set, hf, endsRight_goto (by decide)]
    exact Spoilt.not_right (Spoilt.cleanup (.inl hbad) label) ret
  · intro err freed herr hgood
    have hheld : InitState.Holding { s with freed := freed } :=
      ⟨hgood, h.inside, h.nodup, h.shstrtab, h.interpreter, h.held⟩
    have hback : InitState.GivesBack { s with freed := freed } label := by
      cases label <;> exact hl
    rw [endsRight_set, hf, endsRight_goto herr, initRight_cleanup hheld hback]
    exact hret

end Steps

/-! ## The whole course -/

/-- The monitor's header passes the checks. -/
def MonitorAccepted (e : LoaderEnv) (hdr : List UInt8) : Prop :=
  IsElf hdr ∧ (eType hdr = etDyn ∨ eType hdr = etExec) ∧ eMachine hdr = emX8664 ∧
    e.monitorMmap = true

/-- The dynamic linker cannot be loaded, and where that shows everything is given back. -/
def InterpFails (e : LoaderEnv) (ph : ElfPhdr) : Prop :=
  (2 ≤ ph.pFilesz.toNat ∧ ph.pFilesz.toNat ≤ pathMax) ∧
    ∀ path ∈ e.table .interpPath ph.pOffset ph.pFilesz.toNat,
      path.getD (ph.pFilesz.toNat - 1) 0 = 0 → e.openInterp path = .ok () →
        ∀ hdr ∈ e.readAll .interpHdr 0 elfhdrSize, IsElf hdr → eMachine hdr = emX8664 →
          PhdrsFit hdr ∧
            e.table .interpPhdrs (ePhoff hdr) (elfPhdrSize * (ePhnum hdr).toNat) = none

/-- **The monitor cannot be loaded, and where that shows everything is given back**: as far as
the file can be read, its tables have the right shape and the names are inside the string table;
but the section is missing, or the dynamic linker fails. -/
def FailsCleanly (e : LoaderEnv) : Prop :=
  e.openMonitor = .ok () → ∀ hdr ∈ e.readAll .monitorHdr 0 elfhdrSize, MonitorAccepted e hdr →
    PhdrsFit hdr ∧
      ∀ phdrs ∈ e.table .monitorPhdrs (ePhoff hdr) (elfPhdrSize * (ePhnum hdr).toNat),
        ShdrsFit hdr ∧
          ∀ shdrs ∈ e.table .monitorShdrs (eShoff hdr) (elfShdrSize * (eShnum hdr).toNat),
            StrtabFits hdr ∧
              ∀ strtab ∈ e.table .shstrtab (strShdr hdr shdrs).shOffset (strtabSize hdr shdrs),
                let found := findInfo e.stray strtab (shdrTable shdrs (eShnum hdr).toNat)
                found.2 = true ∧ (found.1 ≠ 0 → ∃ ph,
                  (phdrTable phdrs (ePhnum hdr).toNat).find? (fun ph => ph.pType = ptInterp) =
                    some ph ∧ InterpFails e ph)

section Course

variable {β : Type} {e : LoaderEnv}

namespace InitState

/-- After the monitor is opened. -/
def opened : InitState := { start with filpMonitor := true }

def withPhdrs (phdrs : List UInt8) : InitState :=
  { opened.alloc .monitorPhdrs with monitorElfPhdata := .block .monitorPhdrs, phdrs := phdrs }

def withShdrs (phdrs shdrs : List UInt8) : InitState :=
  { (withPhdrs phdrs).alloc .monitorShdrs with
    monitorElfShdata := .block .monitorShdrs, shdrs := shdrs }

def withStrtab (phdrs shdrs strtab : List UInt8) : InitState :=
  { (withShdrs phdrs shdrs).alloc .shstrtab with
    elfShstrtab := .block .shstrtab, strtab := strtab }

theorem holding_start : start.Holding :=
  ⟨by simp [start], rfl, List.nodup_nil, KPtr.noConfusion, KPtr.noConfusion, by simp [start]⟩

theorem holding_opened : opened.Holding :=
  ⟨by simp [opened, start], rfl, List.nodup_nil, KPtr.noConfusion, KPtr.noConfusion,
    by simp [opened, start]⟩

theorem holding_withPhdrs (phdrs : List UInt8) : (withPhdrs phdrs).Holding := by
  refine ⟨by simp [withPhdrs, opened, start, alloc], rfl, ?_, KPtr.noConfusion,
    KPtr.noConfusion, ?_⟩
  · simp [withPhdrs, opened, start, alloc]
  · simp [withPhdrs, opened, start, alloc, Kept]

theorem holding_withShdrs (phdrs shdrs : List UInt8) : (withShdrs phdrs shdrs).Holding := by
  refine ⟨by simp [withShdrs, withPhdrs, opened, start, alloc], rfl, ?_, KPtr.noConfusion,
    KPtr.noConfusion, ?_⟩
  · simp [withShdrs, withPhdrs, opened, start, alloc]
  · simp [withShdrs, withPhdrs, opened, start, alloc, Kept]

theorem holding_withStrtab (phdrs shdrs strtab : List UInt8) :
    (withStrtab phdrs shdrs strtab).Holding := by
  refine ⟨by simp [withStrtab, withShdrs, withPhdrs, opened, start, alloc], rfl, ?_,
    KPtr.noConfusion, KPtr.noConfusion, ?_⟩
  · simp [withStrtab, withShdrs, withPhdrs, opened, start, alloc]
  · simp [withStrtab, withShdrs, withPhdrs, opened, start, alloc, Kept]

end InitState

open InitState

/-- The checks of the header, as the code makes them. -/
theorem accepted_imp {hdr : List UInt8} {P : Prop} :
    (¬¬IsElf hdr → ¬(eType hdr ≠ etDyn ∧ eType hdr ≠ etExec) → ¬eMachine hdr ≠ emX8664 →
      ¬e.monitorMmap = false → P) ↔ (MonitorAccepted e hdr → P) := by
  unfold MonitorAccepted
  simp only [ne_eq, not_and_or, not_not, Bool.not_eq_false, and_imp]

theorem endsRight_loadTables (g : List UInt8 → InitStep β) :
    EndsRight (loadTables e >>= g) start ↔
      (e.openMonitor = .ok () → ∀ hdr ∈ e.readAll .monitorHdr 0 elfhdrSize,
        MonitorAccepted e hdr → PhdrsFit hdr ∧
          ∀ phdrs ∈ e.table .monitorPhdrs (ePhoff hdr) (elfPhdrSize * (ePhnum hdr).toNat),
            ShdrsFit hdr ∧
              ∀ shdrs ∈ e.table .monitorShdrs (eShoff hdr) (elfShdrSize * (eShnum hdr).toNat),
                StrtabFits hdr ∧ ∀ strtab ∈ e.table .shstrtab (strShdr hdr shdrs).shOffset
                    (strtabSize hdr shdrs),
                  EndsRight (g hdr) (withStrtab phdrs shdrs strtab)) := by
  have hno : errNoexec < 0 := by decide
  have hout : start.GivesBack .out := ⟨rfl, rfl, rfl⟩
  have hback : ∀ s : InitState, s.elfInterpreter = .null → s.GivesBack .freeMonitor := fun _ h => h
  have hopen := hback opened rfl
  unfold loadTables
  simp only [Fallible.bind_assoc]
  rw [endsRight_openExec holding_start e.openMonitor_neg hout]
  refine forall_congr' fun _ => ?_
  rw [endsRight_set]
  show EndsRight _ opened ↔ _
  rw [endsRight_kernelRead holding_opened hopen]
  refine forall_congr' fun hdr => forall_congr' fun _ => ?_
  rw [endsRight_gotoIf holding_opened hopen hno, endsRight_gotoIf holding_opened hopen hno,
    endsRight_gotoIf holding_opened hopen hno, endsRight_gotoIf holding_opened hopen hno,
    accepted_imp]
  refine forall_congr' fun _ => ?_
  -- the three tables, each with the jump behind it
  unfold elfLoadPhdrs elfLoadShdrs elfLoadShstrtab
  rw [endsRight_loadTable holding_opened hno hopen fun _ _ => rfl]
  refine and_congr_right fun _ => forall_congr' fun phdrs => forall_congr' fun _ => ?_
  show EndsRight _ (withPhdrs phdrs) ↔ _
  rw [endsRight_loadTable (holding_withPhdrs phdrs) hno (hback _ rfl) fun _ _ => rfl]
  refine and_congr_right fun _ => forall_congr' fun shdrs => forall_congr' fun _ => ?_
  show EndsRight _ (withShdrs phdrs shdrs) ↔ _
  rw [endsRight_loadTable (holding_withShdrs phdrs shdrs) hno (hback _ rfl) fun _ _ => rfl]
  refine and_congr_right fun _ => forall_congr' fun strtab => forall_congr' fun _ => ?_
  exact endsRight_pure hdr g

/-- The search for the section: reading outside the names cannot be made good. -/
theorem endsRight_findSection {s : InitState} (h : s.Holding) (hnull : s.elfInterpreter = .null)
    {hdr : List UInt8} {g : Unit → InitStep β} (hg : ∀ u, KeepsSpoilt (g u)) {found : UInt64 × Bool}
    (hfound : findInfo e.stray s.strtab (shdrTable s.shdrs (eShnum hdr).toNat) = found) :
    EndsRight (findSection e hdr >>= g) s ↔
      found.2 = true ∧
        (found.1 ≠ 0 → EndsRight (g ()) { s with monitorInfoOff := found.1 }) := by
  have hlift : EndsRight (findSection e hdr >>= g) s ↔
      EndsRight (InitStep.gotoIf (found.1 = 0) errInval .freeMonitor >>= g)
        { s with monitorInfoOff := found.1, inside := s.inside && found.2 } := by
    unfold findSection
    rw [Fallible.bind_assoc, ← hfound]
    exact endsRight_of_ok rfl
  rw [hlift]
  rcases hin : found.2 with _ | _
  · rw [Bool.and_false]
    refine iff_of_false (KeepsSpoilt.not_endsRight ?_ (.inr rfl)) fun hr => by cases hr.1
    exact (keepsSpoilt_gotoIf _ _ _).bind hg
  · have hheld : InitState.Holding { s with monitorInfoOff := found.1 } :=
      ⟨h.freed, h.inside, h.nodup, h.shstrtab, h.interpreter, h.held⟩
    have hback : InitState.GivesBack { s with monitorInfoOff := found.1 } .freeMonitor := hnull
    have hneg : errInval < 0 := by decide
    rw [Bool.and_true, endsRight_gotoIf hheld hback hneg]
    exact ⟨fun hr => ⟨rfl, hr⟩, fun hr => hr.2⟩

namespace InitState

/-- After the section is found. -/
def located (phdrs shdrs strtab : List UInt8) (off : UInt64) : InitState :=
  { withStrtab phdrs shdrs strtab with monitorInfoOff := off }

def withPath (phdrs shdrs strtab : List UInt8) (off : UInt64) : InitState :=
  { (located phdrs shdrs strtab off).alloc .interpPath with elfInterpreter := .block .interpPath }

def withInterp (phdrs shdrs strtab : List UInt8) (off : UInt64) : InitState :=
  { withPath phdrs shdrs strtab off with filpInterpreter := true }

/-- After the dynamic linker is opened, and its path is freed. -/
def linked (phdrs shdrs strtab : List UInt8) (off : UInt64) : InitState :=
  { located phdrs shdrs strtab off with filpInterpreter := true, freed := [.block .interpPath] }

variable (phdrs shdrs strtab : List UInt8) (off : UInt64)

theorem holding_located : (located phdrs shdrs strtab off).Holding := by
  have h := holding_withStrtab phdrs shdrs strtab
  exact ⟨h.freed, h.inside, h.nodup, h.shstrtab, h.interpreter, h.held⟩

theorem holding_withPath : (withPath phdrs shdrs strtab off).Holding := by
  have h := holding_located phdrs shdrs strtab off
  refine ⟨h.freed, h.inside, List.nodup_cons.mpr ⟨?_, h.nodup⟩, h.shstrtab, KPtr.noConfusion,
    fun site hsite => ?_⟩
  · simp [located, withStrtab, withShdrs, withPhdrs, opened, start, alloc]
  · rcases List.mem_cons.mp hsite with rfl | hsite
    · exact .inr (.inr rfl)
    · rcases h.held site hsite with hk | hs | hi
      · exact .inl hk
      · exact .inr (.inl hs)
      · cases hi

theorem holding_withInterp : (withInterp phdrs shdrs strtab off).Holding := by
  have h := holding_withPath phdrs shdrs strtab off
  exact ⟨h.freed, h.inside, h.nodup, h.shstrtab, h.interpreter, h.held⟩

theorem holding_linked : (linked phdrs shdrs strtab off).Holding := by
  have h := holding_located phdrs shdrs strtab off
  refine ⟨fun p hp => ?_, h.inside, h.nodup, h.shstrtab, h.interpreter, h.held⟩
  rw [List.mem_singleton.mp hp]
  exact KPtr.noConfusion

end InitState

theorem forall_table_iff {site : LoaderSite} {pos : UInt64} {size : Nat}
    {P : List UInt8 → Prop} :
    (∀ bs ∈ e.table site pos size, P bs) ↔
      (¬e.vmalloc site size = false → ∀ bs ∈ e.readAll site pos size, P bs) := by
  unfold LoaderEnv.table
  by_cases hmem : e.vmalloc site size = false
  · rw [if_pos hmem]
    exact iff_of_true (fun _ hbs => by cases hbs) fun hn => absurd hmem hn
  · rw [if_neg hmem]
    exact ⟨fun h _ => h, fun h => h hmem⟩

/-- Nothing frees the names when all goes well, and nothing points to them. -/
theorem not_initRight_of_live {ret : Int} {s : InitState} (hlive : .shstrtab ∈ s.live)
    (hph : s.monitorElfPhdata = .block .monitorPhdrs)
    (hsh : s.monitorElfShdata = .block .monitorShdrs)
    (hint : s.interpElfPhdata ≠ .block .shstrtab) : ¬InitRight ret s := by
  intro hright
  rcases hright.kept _ hlive with hk | hk | hk
  · rw [hph] at hk
    cases hk
  · rw [hsh] at hk
    cases hk
  · exact hint hk

theorem endsRight_loadInterp (phdrs shdrs strtab : List UInt8) (off : UInt64) (ph : ElfPhdr) :
    EndsRight (loadInterp e ph) (located phdrs shdrs strtab off) ↔ InterpFails e ph := by
  have hloc := holding_located phdrs shdrs strtab off
  have hpath := holding_withPath phdrs shdrs strtab off
  have hopen := holding_withInterp phdrs shdrs strtab off
  have hlink := holding_linked phdrs shdrs strtab off
  have hno : errNoexec < 0 := by decide
  have hbad : errLibbad < 0 := by decide
  have hmem : errNomem < 0 := by decide
  have hback : (located phdrs shdrs strtab off).GivesBack .freeMonitor := rfl
  have hint : (withPath phdrs shdrs strtab off).GivesBack .freeInterp := trivial
  have hopened : (withInterp phdrs shdrs strtab off).GivesBack .freeDentry := trivial
  have hdentry : (linked phdrs shdrs strtab off).GivesBack .freeDentry := trivial
  rw [endsRight_last]
  unfold loadInterp InterpFails
  simp only [Fallible.bind_assoc]
  by_cases hsize : pathMax < ph.pFilesz.toNat ∨ ph.pFilesz.toNat < 2
  · rw [endsRight_goto hsize, initRight_cleanup hloc hback]
    exact iff_of_false (by decide) fun hr => by omega
  rw [endsRight_go_on hsize, endsRight_gotoIf hloc hback hmem, endsRight_set, forall_table_iff]
  have hfits : 2 ≤ ph.pFilesz.toNat ∧ ph.pFilesz.toNat ≤ pathMax := by omega
  refine Iff.trans ?_ (and_iff_right hfits).symm
  refine forall_congr' fun _ => ?_
  show EndsRight _ (withPath phdrs shdrs strtab off) ↔ _
  rw [endsRight_kernelRead hpath hint]
  refine forall_congr' fun path => forall_congr' fun _ => ?_
  rw [endsRight_gotoIf hpath hint hno, not_ne_iff]
  refine forall_congr' fun _ => ?_
  rw [endsRight_openExec hpath (e.openInterp_neg path) hint, endsRight_set]
  refine forall_congr' fun _ => ?_
  show EndsRight _ (withInterp phdrs shdrs strtab off) ↔ _
  rw [endsRight_kernelRead hopen hopened]
  refine forall_congr' fun hdr => forall_congr' fun _ => ?_
  rw [endsRight_set]
  show EndsRight _ (linked phdrs shdrs strtab off) ↔ _
  rw [endsRight_gotoIf hlink hdentry hbad, not_not]
  refine forall_congr' fun _ => ?_
  rw [endsRight_gotoIf hlink hdentry hbad, not_ne_iff]
  refine forall_congr' fun _ => ?_
  unfold elfLoadPhdrs
  rw [endsRight_loadTable hlink hbad hdentry fun _ _ => rfl]
  refine and_congr_right fun _ => ?_
  rw [Option.eq_none_iff_forall_not_mem]
  refine forall_congr' fun bs => forall_congr' fun _ => iff_of_false ?_ not_false
  refine not_initRight_of_live (List.mem_cons_of_mem _ List.mem_cons_self) rfl rfl ?_
  exact fun hk => by cases hk

/-- The search for a `PT_INTERP`: without one everything went well. -/
theorem endsRight_interp (phdrs shdrs strtab : List UInt8) (off : UInt64) (hdr : List UInt8) :
    EndsRight (do
        let interp ← .lift fun s =>
          ((phdrTable s.phdrs (ePhnum hdr).toNat).find? fun ph => ph.pType = ptInterp, s)
        match interp with
        | none => pure ()
        | some ph => loadInterp e ph) (located phdrs shdrs strtab off) ↔
      ∃ ph, (phdrTable phdrs (ePhnum hdr).toNat).find? (fun ph => ph.pType = ptInterp) = some ph ∧
        InterpFails e ph := by
  refine (endsRight_of_ok (m := Fallible.lift _) rfl).trans ?_
  show EndsRight (match (phdrTable phdrs (ePhnum hdr).toNat).find?
    (fun ph => ph.pType = ptInterp) with | none => pure () | some ph => loadInterp e ph)
    (located phdrs shdrs strtab off) ↔ _
  generalize (phdrTable phdrs (ePhnum hdr).toNat).find? (fun ph => ph.pType = ptInterp) = interp
  rcases interp with _ | ph
  · refine iff_of_false ?_ fun ⟨_, hnone, _⟩ => by cases hnone
    exact not_initRight_of_live List.mem_cons_self rfl rfl fun hk => by cases hk
  · dsimp only
    rw [endsRight_loadInterp]
    exact ⟨fun h => ⟨ph, rfl, h⟩, fun ⟨_, heq, h⟩ => Option.some.inj heq ▸ h⟩

theorem endsRight_loaderBody : EndsRight (loaderBody e) start ↔ FailsCleanly e := by
  unfold loaderBody FailsCleanly
  rw [endsRight_loadTables]
  refine forall_congr' fun _ => forall_congr' fun hdr => forall_congr' fun _ =>
    forall_congr' fun _ => and_congr_right fun _ => forall_congr' fun phdrs =>
    forall_congr' fun _ => and_congr_right fun _ => forall_congr' fun shdrs =>
    forall_congr' fun _ => and_congr_right fun _ => forall_congr' fun strtab =>
    forall_congr' fun _ => ?_
  dsimp only
  rw [endsRight_findSection (holding_withStrtab phdrs shdrs strtab) rfl (fun _ => ?_) rfl]
  · refine and_congr_right fun _ => forall_congr' fun _ => ?_
    exact endsRight_interp phdrs shdrs strtab _ hdr
  · refine KeepsSpoilt.bind (Fallible.Within.lift fun _ hs => hs) fun interp => ?_
    cases interp with
    | none => exact keepsSpoilt_pure ()
    | some ph => exact keepsSpoilt_loadInterp ph

end Course

/-- **`loader_init` is right exactly when it fails, and fails cleanly**: whatever the files contain
and the calls return.  When it succeeds the string table is lost, when a table has the wrong shape
memory is freed that was never allocated, and a `PT_INTERP` of the wrong size makes it say that
it has succeeded. -/
theorem loaderInit_right_iff (e : LoaderEnv) :
    InitRight (loaderInit e).1 (loaderInit e).2 ↔ FailsCleanly e := by
  rw [← endsRight_loaderBody]
  unfold loaderInit EndsRight
  rcases loaderBody e .start with ⟨r, s⟩
  rcases r with ⟨ret, label⟩ | u <;> rfl

/-- A header of a monitor whose program headers have the wrong size. -/
def oddHeader : List UInt8 :=
  elfMag ++ List.replicate 12 0 ++ [3, 0, 62, 0] ++ List.replicate 44 0

/-- A file of which only the header can be read. -/
def oddEnv : LoaderEnv where
  openMonitor := .ok ()
  openInterp := fun _ => .error (-2)
  kernelRead := fun site _ size =>
    if site = .monitorHdr ∧ size = elfhdrSize then .ok oddHeader else .error errIo
  vmalloc := fun _ size => 0 < size ∧ size < 2 ^ 47
  monitorMmap := true
  stray := fun _ => 0
  openMonitor_neg := fun _ h => by cases h
  openInterp_neg := fun _ err h => by
    cases h
    decide
  read_neg := fun site pos size err h => by
    split at h
    · cases h
    · cases h
      decide
  read_le := fun site pos size bs h => by
    split at h
    · rename_i hsize
      cases h
      rw [hsize.2]
      decide
    · cases h
  vmalloc_le := fun _ size h => of_decide_eq_true h

/-- A pointer that was never set is passed to `vfree`. -/
theorem loaderInit_frees_uninit :
    (loaderInit oddEnv).2.freed = [.uninit] ∧
      ¬InitRight (loaderInit oddEnv).1 (loaderInit oddEnv).2 := by
  have hfreed : (loaderInit oddEnv).2.freed = [.uninit] := by decide +kernel
  refine ⟨hfreed, fun hright => ?_⟩
  exact hright.freed .uninit (hfreed ▸ List.mem_singleton_self _) rfl

end NoDrop
