import NoDrop.AddrSpace
import NoDrop.Record
import NoDrop.Trace

/-! # Mapping the buffer into the monitor

The monitor maps two objects of its thread through `/proc/nodrop`: first the page with the
`nod_buffer_info`, then the event buffer, whose size it reads from that page.  Both calls
end in `nod_dev_mmap` of `kmodule/proc.c`, which sees only the length of the area, rounded
up to whole pages, and goes by that: one page is a request for the `nod_buffer_info`, and
`buffer_size` bytes are a request for the buffer.

`nod_event_set_buffer_size` accepts a buffer of one page.  Then the two requests look
alike, and the monitor is given the `nod_buffer_info` in place of its events
(`one_page_buffer`).
-/
namespace NoDrop

open Bytes

/-! ## Data -/

/-- The objects that can be mapped. -/
inductive DevObject where
  | info | buffer
deriving DecidableEq, Repr

/-- What `nod_dev_mmap` reads of the `struct vm_area_struct`: `vm_end - vm_start`,
`vm_pgoff`, and whether `VM_WRITE` is set. -/
structure DevVma where
  length : Nat
  pgoff : Nat
  write : Bool
deriving DecidableEq, Repr

/-- What is behind an area once it is mapped: the first `length` bytes of an object. -/
structure DevMapping where
  object : DevObject
  length : Nat
deriving DecidableEq, Repr

/-- `sizeof(struct nod_buffer_info)`. -/
def bufferInfoSize : Nat := 32

/-- `ENODEV`, `EIO` and `EINVAL`. -/
def enodev : Int := 19
def eio : Int := 5
def einval : Int := 22

/-! ## The code -/

/-- The bytes that `vmalloc_user` has reserved for an object of the buffer. -/
def NodBuffer.reserved (b : NodBuffer) : DevObject → Nat
  | .info => pageAlign bufferInfoSize
  | .buffer => pageAlign b.allocated

/-- `remap_vmalloc_range(vma, object, 0)`, which fails if the area is longer than what is
reserved. -/
def remapVmallocRange (b : NodBuffer) (vma : DevVma) (object : DevObject) :
    Except Int DevMapping :=
  if b.reserved object < vma.length then .error (-einval) else .ok ⟨object, vma.length⟩

/-- `nod_dev_mmap`, where `p` is the `nod_proc_info` of the file, if it has one. -/
def nodDevMmap (p : Option (ProcStatus × NodBuffer)) (vma : DevVma) : Except Int DevMapping :=
  match p with
  | none => .error (-enodev)
  | some (status, b) =>
    if status ≠ .nodIn then .error (-enodev)
    else if vma.pgoff ≠ 0 then .error (-eio)
    else if vma.length ≤ pageSize then remapVmallocRange b vma .info
    else if vma.length = b.info.bufferSize.toNat then
      if vma.write then .error (-einval) else remapVmallocRange b vma .buffer
    else .error (-eio)

/-- `mmap(NULL, length, ..., MAP_SHARED, fd, 0)` of `/proc/nodrop`, where the kernel finds
room for it. -/
def devMmap (b : NodBuffer) (length : Nat) (write : Bool) : Except Int DevMapping :=
  nodDevMmap (some (.nodIn, b)) ⟨pageAlign length, 0, write⟩

/-- The two calls of `nod_start_main`. -/
def mapBufferInfo (b : NodBuffer) : Except Int DevMapping := devMmap b bufferInfoSize true
def mapBuffer (b : NodBuffer) : Except Int DevMapping :=
  devMmap b b.info.bufferSize.toNat false

/-! ## What is mapped -/

/-- What a buffer looks like right after `init_buffer`. -/
theorem initBuffer_size {size : UInt64} {pages : Region → Image} {b : NodBuffer}
    (h : NodBuffer.initBuffer size pages = some b) :
    b.info.bufferSize = size ∧ b.allocated = size.toNat ∧ size.toNat % pageSize = 0 := by
  unfold NodBuffer.initBuffer at h
  split at h
  · cases h
  · rename_i hsize
    rw [not_or, not_not] at hsize
    cases h
    exact ⟨rfl, rfl, hsize.1⟩

theorem pageAlign_bufferInfoSize : pageAlign bufferInfoSize = pageSize := by decide

/-- A request for one page is taken for the `nod_buffer_info`. -/
theorem nodDevMmap_one_page (b : NodBuffer) (write : Bool) :
    nodDevMmap (some (.nodIn, b)) ⟨pageSize, 0, write⟩ = .ok ⟨.info, pageSize⟩ := by
  have hroom : ¬b.reserved .info < pageSize := by
    show ¬pageAlign bufferInfoSize < pageSize
    rw [pageAlign_bufferInfoSize]
    exact Nat.lt_irrefl _
  simp only [nodDevMmap, ne_eq, not_true_eq_false, if_false, Nat.le_refl, if_true,
    remapVmallocRange, if_neg hroom]

/-- The monitor's two requests give it the objects it asked for, each as a whole. -/
def MapsAskedFor (b : NodBuffer) : Prop :=
  mapBufferInfo b = .ok ⟨.info, pageAlign bufferInfoSize⟩ ∧
    mapBuffer b = .ok ⟨.buffer, b.allocated⟩

/-- **The monitor maps what it asked for exactly if its buffer is not a single page.** -/
theorem mapsAskedFor_iff {size : UInt64} {pages : Region → Image} {b : NodBuffer}
    (hset : nodEventSetBufferSize size = some size)
    (hinit : NodBuffer.initBuffer size pages = some b) :
    MapsAskedFor b ↔ size.toNat ≠ pageSize := by
  obtain ⟨hbs, halloc, hmod⟩ := initBuffer_size hinit
  have hge : pageSize ≤ size.toNat := by
    unfold nodEventSetBufferSize at hset
    split at hset
    · cases hset
    · omega
  have hmap : mapBuffer b = nodDevMmap (some (.nodIn, b)) ⟨size.toNat, 0, false⟩ := by
    unfold mapBuffer devMmap
    rw [hbs, pageAlign_of_aligned hmod]
  constructor
  · rintro ⟨-, hbuf⟩ hone
    rw [hmap, hone, nodDevMmap_one_page] at hbuf
    cases hbuf
  · intro hne
    refine ⟨by rw [mapBufferInfo, devMmap, pageAlign_bufferInfoSize, nodDevMmap_one_page], ?_⟩
    have hgt : ¬size.toNat ≤ pageSize := by omega
    have hroom : ¬b.reserved .buffer < size.toNat := by
      show ¬pageAlign b.allocated < size.toNat
      rw [halloc, pageAlign_of_aligned hmod]
      exact Nat.lt_irrefl _
    rw [hmap, halloc]
    simp only [nodDevMmap, hbs, ne_eq, not_true_eq_false, if_false, if_neg hgt, if_true,
      Bool.false_eq_true, remapVmallocRange, if_neg hroom]

/-- Two pages are accepted, and the monitor gets them. -/
theorem mapsAskedFor_two_pages :
    ∃ b, NodBuffer.initBuffer 8192 (fun _ _ => 0) = some b ∧ MapsAskedFor b := by
  have hset : nodEventSetBufferSize 8192 = some 8192 := by decide
  obtain ⟨b, hinit⟩ : ∃ b, NodBuffer.initBuffer 8192 (fun _ _ => 0) = some b := ⟨_, rfl⟩
  exact ⟨b, hinit, (mapsAskedFor_iff hset hinit).mpr (by decide)⟩

/-- A buffer of one page is accepted, and the monitor is given its `nod_buffer_info` a
second time. -/
theorem one_page_buffer : ¬ ∀ (size : UInt64) (pages : Region → Image) (b : NodBuffer),
    nodEventSetBufferSize size = some size → NodBuffer.initBuffer size pages = some b →
    MapsAskedFor b := by
  intro h
  have hset : nodEventSetBufferSize 4096 = some 4096 := by decide
  obtain ⟨b, hinit⟩ : ∃ b, NodBuffer.initBuffer 4096 (fun _ _ => 0) = some b := ⟨_, rfl⟩
  obtain ⟨-, hbuf⟩ := h 4096 _ b hset hinit
  have hsize : pageAlign b.info.bufferSize.toNat = pageSize := by
    rw [(initBuffer_size hinit).1]
    decide
  rw [mapBuffer, devMmap, hsize, nodDevMmap_one_page] at hbuf
  cases hbuf

end NoDrop
