import Mathlib.Data.UInt
import NoDrop.Lib.Areas

/-! # Whether a range touches the monitor

`nod_mmap_check` of `kmodule/loader.c`, which `mm_range_filter` asks before it lets the
application unmap, protect or move a range of its memory: whether the range has an address
in common with a part of the address space that is mapped from the file of the monitor.

The areas of the address space are visited in the order of their addresses, and the visit
ends at the first one behind the range.  That is right because the later ones are behind
the range too.  The end of the range is computed in 64 bits, though, from an address and a
length that the application chooses; a range that reaches the end of the address space has
its end before its start, and nothing is found in it (`nodMmapCheck_wrapped`).
-/
namespace NoDrop

open Areas

/-! ## Data -/

/-- `PROT_READ`, `PROT_WRITE` and `PROT_EXEC`. -/
structure Prot where
  read : Bool
  write : Bool
  exec : Bool
deriving DecidableEq, Repr

/-- On whose behalf pages are mapped.  The kernel does not keep this. -/
inductive Owner (File : Type) where
  | application
  /-- A segment of an executable file. -/
  | segment (file : File)
  /-- The part of a segment for which the file has no bytes. -/
  | bss (file : File)
  | stack
  /-- The event buffer, or its `nod_buffer_info`. -/
  | buffer
deriving DecidableEq, Repr

/-- What a `struct vm_area_struct` says beside the addresses. -/
structure VmInfo (File : Type) where
  /-- `vm_file`, which is null for anonymous memory. -/
  vmFile : Option File
  prot : Prot
  owner : Owner File
deriving DecidableEq, Repr

/-- `struct vm_area_struct`, from `vm_start` to `vm_end`. -/
abbrev Vma (File : Type) := Area (VmInfo File)

/-- What is found out about an area: `MAPPING_OK` and its siblings. -/
inductive Mapping where
  | ok | next | finish | notfound
deriving DecidableEq, Repr

/-! ## The code -/

section Code

variable {File : Type} [DecidableEq File]

/-- `get_monitor_addr`. -/
def getMonitorAddr (addr length : UInt64) (vma : Vma File) : Mapping :=
  let stop := addr + length
  if stop.toNat < vma.start then .finish
  else if max vma.start addr.toNat < min vma.stop stop.toNat then .ok
  else .next

/-- `check_mapping`, `none` where it stops at its `ASSERT`. -/
def checkMapping (filpMonitor : File) (resolve : Vma File → Mapping) :
    List (Vma File) → Option Mapping
  | [] => some .notfound
  | vma :: mmap =>
    if vma.val.vmFile = some filpMonitor then
      match resolve vma with
      | .ok => some .ok
      | .finish => some .finish
      | .next => checkMapping filpMonitor resolve mmap
      | .notfound => none
    else checkMapping filpMonitor resolve mmap

/-- `nod_mmap_check`, on the areas of the current address space. -/
def nodMmapCheck (filpMonitor : File) (mmap : List (Vma File)) (addr length : UInt64) :
    Option Nat :=
  (checkMapping filpMonitor (getMonitorAddr addr length) mmap).map fun retval =>
    if retval = .ok then 1 else 0

end Code

/-! ## What it decides -/

section Decides

variable {File : Type} [DecidableEq File] {filp : File} {mmap : List (Vma File)}
  {addr length : UInt64}

/-- The area is mapped from the file of the monitor. -/
def OfFile (filp : File) (vma : Vma File) : Bool := vma.val.vmFile = some filp

/-- The area has an address in common with the `length` addresses from `addr` on. -/
def Shares (addr length : Nat) (vma : Vma File) : Prop :=
  ∃ x, vma.Has x ∧ addr ≤ x ∧ x < addr + length

omit [DecidableEq File] in
theorem shares_iff {addr length : Nat} {vma : Vma File} :
    Shares addr length vma ↔ max vma.start addr < min vma.stop (addr + length) := by
  constructor
  · rintro ⟨x, ⟨hlo, hhi⟩, hge, hlt⟩
    omega
  · intro h
    exact ⟨max vma.start addr, ⟨by omega, by omega⟩, by omega, by omega⟩

/-- Areas of other files are passed over. -/
theorem checkMapping_filter (filp : File) (resolve : Vma File → Mapping) (mmap : List (Vma File)) :
    checkMapping filp resolve (mmap.filter (OfFile filp)) = checkMapping filp resolve mmap := by
  induction mmap with
  | nil => rfl
  | cons vma mmap ih =>
    by_cases hf : vma.val.vmFile = some filp
    · have hof : OfFile filp vma = true := decide_eq_true hf
      rw [List.filter_cons_of_pos hof, checkMapping, checkMapping, if_pos hf, if_pos hf, ih]
    · have hof : ¬OfFile filp vma = true := by simpa [OfFile] using hf
      rw [List.filter_cons_of_neg hof, checkMapping, if_neg hf, ih]

omit [DecidableEq File] in
theorem getMonitorAddr_ne_notfound (vma : Vma File) :
    getMonitorAddr addr length vma ≠ .notfound := by
  unfold getMonitorAddr
  dsimp only
  split
  · exact Mapping.noConfusion
  · split <;> exact Mapping.noConfusion

/-- The visit stops at its `ASSERT` for no area. -/
theorem checkMapping_ne_none (mmap : List (Vma File)) :
    checkMapping filp (getMonitorAddr addr length) mmap ≠ none := by
  induction mmap with
  | nil => exact Option.some_ne_none _
  | cons vma mmap ih =>
    rw [checkMapping]
    split
    · split
      · exact Option.some_ne_none _
      · exact Option.some_ne_none _
      · exact ih
      · rename_i h
        exact absurd h (getMonitorAddr_ne_notfound vma)
    · exact ih

theorem nodMmapCheck_eq_one :
    nodMmapCheck filp mmap addr length = some 1 ↔
      checkMapping filp (getMonitorAddr addr length) mmap = some .ok := by
  unfold nodMmapCheck
  cases h : checkMapping filp (getMonitorAddr addr length) mmap with
  | none => exact absurd h (checkMapping_ne_none mmap)
  | some r => cases r <;> decide

/-- As long as the end of the range does not wrap around, the visit finds out whether an
area of the monitor shares an address with it.  It may end early because an area that is
behind the range has only such areas after it. -/
theorem checkMapping_ok_iff (hs : Sorted mmap) (hw : addr.toNat + length.toNat < 2 ^ 64) :
    checkMapping filp (getMonitorAddr addr length) mmap = some .ok ↔
      ∃ vma ∈ mmap, OfFile filp vma ∧ Shares addr.toNat length.toNat vma := by
  have hstop : (addr + length).toNat = addr.toNat + length.toNat := by
    rw [UInt64.toNat_add, Nat.mod_eq_of_lt hw]
  induction mmap with
  | nil => simp [checkMapping]
  | cons vma mmap ih =>
    have ih := ih hs.tail
    have htail : (∃ b ∈ mmap, OfFile filp b ∧ Shares addr.toNat length.toNat b) →
        ∃ b ∈ vma :: mmap, OfFile filp b ∧ Shares addr.toNat length.toNat b := by
      rintro ⟨b, hb, hsh⟩
      exact ⟨b, List.mem_cons_of_mem vma hb, hsh⟩
    by_cases hf : vma.val.vmFile = some filp
    · by_cases hfin : addr.toNat + length.toNat < vma.start
      · have hg : getMonitorAddr addr length vma = .finish := by
          simp only [getMonitorAddr, hstop, if_pos hfin]
        simp only [checkMapping, if_pos hf, hg]
        refine ⟨(fun h => by cases h), ?_⟩
        rintro ⟨b, hb, -, hsh⟩
        rw [shares_iff] at hsh
        rcases List.mem_cons.mp hb with rfl | hb
        · omega
        · have := hs.start_le hb
          omega
      · by_cases hok : max vma.start addr.toNat < min vma.stop (addr.toNat + length.toNat)
        · have hg : getMonitorAddr addr length vma = .ok := by
            simp only [getMonitorAddr, hstop, if_neg hfin, if_pos hok]
          simp only [checkMapping, if_pos hf, hg, true_iff]
          exact ⟨vma, List.mem_cons_self, decide_eq_true hf, shares_iff.mpr hok⟩
        · have hg : getMonitorAddr addr length vma = .next := by
            simp only [getMonitorAddr, hstop, if_neg hfin, if_neg hok]
          simp only [checkMapping, if_pos hf, hg]
          refine ⟨fun h => htail (ih.mp h), ?_⟩
          rintro ⟨b, hb, hof, hsh⟩
          rcases List.mem_cons.mp hb with rfl | hb
          · exact absurd (shares_iff.mp hsh) hok
          · exact ih.mpr ⟨b, hb, hof, hsh⟩
    · rw [checkMapping, if_neg hf]
      refine ⟨fun h => htail (ih.mp h), ?_⟩
      rintro ⟨b, hb, hof, hsh⟩
      rcases List.mem_cons.mp hb with rfl | hb
      · exact absurd (of_decide_eq_true hof) hf
      · exact ih.mpr ⟨b, hb, hof, hsh⟩

/-- A range whose end wraps around is empty to the code. -/
theorem nodMmapCheck_wrapped (hw : 2 ^ 64 ≤ addr.toNat + length.toNat) :
    nodMmapCheck filp mmap addr length = some 0 := by
  have hlt : (addr + length).toNat < addr.toNat := by
    have ha := addr.toNat_lt
    have hl := length.toNat_lt
    rw [UInt64.toNat_add, Nat.mod_eq_sub_mod hw, Nat.mod_eq_of_lt (by omega)]
    omega
  have hne : ∀ mmap : List (Vma File),
      checkMapping filp (getMonitorAddr addr length) mmap ≠ some .ok := by
    intro mmap
    induction mmap with
    | nil => exact fun h => by cases h
    | cons vma mmap ih =>
      rw [checkMapping]
      unfold getMonitorAddr
      dsimp only
      split
      · split
        · rename_i h
          split at h
          · cases h
          · split at h
            · omega
            · cases h
        · exact fun h => by cases h
        · exact ih
        · exact fun h => by cases h
      · exact ih
  unfold nodMmapCheck
  cases h : checkMapping filp (getMonitorAddr addr length) mmap with
  | none => exact absurd h (checkMapping_ne_none mmap)
  | some r =>
    cases r with
    | ok => exact absurd h (hne mmap)
    | next => rfl
    | finish => rfl
    | notfound => rfl

/-- What `nod_mmap_check` is for: it returns 1 exactly if an area of the monitor shares an
address with the range, and areas of other files make no difference. -/
def DecidesSharing (filp : File) (mmap : List (Vma File)) (addr length : UInt64) : Prop :=
  (nodMmapCheck filp mmap addr length = some 1 ↔
    ∃ vma ∈ mmap, OfFile filp vma ∧ Shares addr.toNat length.toNat vma) ∧
  ∀ mmap' : List (Vma File), mmap'.filter (OfFile filp) = mmap.filter (OfFile filp) →
    nodMmapCheck filp mmap' addr length = nodMmapCheck filp mmap addr length

/-- **`nod_mmap_check` is exact up to the end of the address space.**  Sharing is decided
for every range whose end is below `2^64`; for a range whose end wraps around it is decided
only if nothing of the monitor lies above the start of the range. -/
theorem nodMmapCheck_decides_iff (hs : Sorted mmap) (hb : ∀ vma ∈ mmap, vma.stop < 2 ^ 64) :
    DecidesSharing filp mmap addr length ↔
      addr.toNat + length.toNat < 2 ^ 64 ∨
        ∀ vma ∈ mmap, OfFile filp vma → vma.stop ≤ addr.toNat := by
  have hother : ∀ mmap' : List (Vma File),
      mmap'.filter (OfFile filp) = mmap.filter (OfFile filp) →
        nodMmapCheck filp mmap' addr length = nodMmapCheck filp mmap addr length := by
    intro mmap' h
    unfold nodMmapCheck
    rw [← checkMapping_filter filp _ mmap', h, checkMapping_filter]
  by_cases hw : addr.toNat + length.toNat < 2 ^ 64
  · exact iff_of_true ⟨nodMmapCheck_eq_one.trans (checkMapping_ok_iff hs hw), hother⟩ (.inl hw)
  · have hzero : nodMmapCheck filp mmap addr length = some 0 :=
      nodMmapCheck_wrapped (Nat.le_of_not_lt hw)
    constructor
    · rintro ⟨hiff, -⟩
      refine .inr fun vma hv hof => Nat.le_of_not_lt fun hlt => ?_
      have hsh : Shares addr.toNat length.toNat vma := by
        rw [shares_iff]
        have := hs.nonempty vma hv
        have := hb vma hv
        omega
      have hone := hiff.mpr ⟨vma, hv, hof, hsh⟩
      rw [hzero] at hone
      cases hone
    · rintro (h | habove)
      · exact absurd h hw
      · refine ⟨⟨(fun h => by rw [hzero] at h; cases h), ?_⟩, hother⟩
        rintro ⟨vma, hv, hof, hsh⟩
        have hle := habove vma hv hof
        rw [shares_iff] at hsh
        omega

end Decides

/-- One page of the monitor, at `0x10000`. -/
def monitorPage : Vma Nat := ⟨0x10000, 0x11000, ⟨some 1, ⟨true, false, true⟩, .segment 1⟩⟩

theorem monitorPage_sorted : Sorted [monitorPage] := by
  refine ⟨List.pairwise_singleton .., ?_⟩
  intro a ha
  rw [List.mem_singleton.mp ha]
  decide

theorem monitorPage_below : ∀ vma ∈ [monitorPage], vma.stop < 2 ^ 64 := by
  intro a ha
  rw [List.mem_singleton.mp ha]
  decide

/-- The page is recognised. -/
theorem nodMmapCheck_monitorPage : DecidesSharing 1 [monitorPage] 0x10000 0x1000 :=
  (nodMmapCheck_decides_iff monitorPage_sorted monitorPage_below).mpr (.inl (by decide))

/-- The range of all addresses from `0x1000` on, and one more, contains the page, and is
let through. -/
theorem nodMmapCheck_misses_wrapped :
    ¬ ∀ (mmap : List (Vma Nat)) (addr length : UInt64), Sorted mmap →
      (∀ vma ∈ mmap, vma.stop < 2 ^ 64) → DecidesSharing 1 mmap addr length := by
  intro h
  have hd := h [monitorPage] 0x1000 0xfffffffffffff000 monitorPage_sorted monitorPage_below
  have hone := hd.1.mpr ⟨monitorPage, List.mem_singleton.mpr rfl, by decide,
    0x10000, by decide, by decide, by decide⟩
  exact absurd hone (by decide)

end NoDrop
