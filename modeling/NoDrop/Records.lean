import NoDrop.Record
import NoDrop.Room

/-! # Records

What a successful attempt leaves in memory.  `Framed` is what the monitor's loop relies
on: a record is at least a header long and `hdr->len` is its length.  `Complete` is the
whole format: the magic number, an event type, the number of arguments the type
declares, and a length that is made up of the header, the array of lengths and the
lengths in it.

`Event.imageOf_framed` and `Event.imageOf_complete` are the two facts about the recorder:
every record is framed, and a record whose arguments start right after the array of
lengths is complete.  (An attempt restarted after `arg_data_offset` moved leaves a gap,
and its record is framed only.)
-/
namespace NoDrop

open Bytes

/-! ## Well-formed records -/

/-- The integer in the `n` bytes of a record from `off` on. -/
def field (bs : List UInt8) (off n : Nat) : Nat := leNat ((bs.drop off).take n)

theorem field_read (img : Image) {off n len : Nat} (h : off + n ≤ len) :
    field (img.read 0 len) off n = leNat (img.read off n) := by
  rw [field, Image.drop_read _ _ (by omega), Image.take_read _ _ (by omega), Nat.zero_add]

/-- A record as the monitor's loop steps over it. -/
structure Framed (bs : List UInt8) : Prop where
  hdr : hdrSize ≤ bs.length
  len : field bs 16 4 = bs.length

/-- The lengths a record gives for its first `n` arguments. -/
def argLens (bs : List UInt8) (n : Nat) : List Nat :=
  (List.range n).map fun i => field bs (hdrSize + 2 * i) 2

/-- A complete record. -/
structure Complete (bs : List UInt8) : Prop extends Framed bs where
  magic : field bs 24 4 = nodEventHdrMagic
  type : ∃ t : EventType, field bs 14 2 = t.toNat ∧ field bs 20 4 = (gEventInfo t).nparams
  args : bs.length = hdrSize + 2 * field bs 20 4 + (argLens bs (field bs 20 4)).sum

/-! ## Free space and attempts -/

theorem NodBuffer.freespace_lt (b : NodBuffer) : b.freespace < 2 ^ 32 :=
  UInt32.toNat_lt _

/-- While `tail` is inside the buffer, what is taken for free is free. -/
theorem NodBuffer.freespace_eq {b : NodBuffer} (h : b.info.tail.toNat ≤ b.info.bufferSize.toNat) :
    b.freespace = (b.info.bufferSize.toNat - b.info.tail.toNat) % 2 ^ 32 := by
  have hle : b.info.tail.toUInt64 ≤ b.info.bufferSize := by
    rw [UInt64.le_iff_toNat_le]
    simpa using h
  rw [freespace, UInt64.toNat_toUInt32, UInt64.toNat_sub_of_le _ _ hle]
  simp

/-- `args.buffer_size - args.arg_data_offset`, as the `uint32_t` it is assigned to. -/
def argDataSize (size off : Nat) : Nat := (size + 2 ^ 32 - off) % 2 ^ 32

theorem argDataSize_eq {size off : Nat} (h : off ≤ size) (hs : size < 2 ^ 32) :
    argDataSize size off = size - off := by
  simp only [argDataSize]
  omega

/-- An attempt whose arguments start inside its room does what a filler run does. -/
theorem Event.attempt_sound (ev : Event) (size off : Nat) (h : off ≤ size) (hs : size < 2 ^ 32) :
    (ev.attempt size off).Sound ev.type ⟨0, off, size - off⟩ := by
  have he : (size + 2 ^ 32 - off) % 2 ^ 32 = size - off := argDataSize_eq h hs
  rw [Event.attempt, he]
  exact Filler.run_sound _ _ _ (by simp only; omega)

/-- The attempt filled in every argument. -/
def Event.Succeeds (ev : Event) (r : FillerRun) : Prop :=
  r.res = some nodSuccess ∧ r.args.curarg = ev.nargs

instance (ev : Event) (r : FillerRun) : Decidable (ev.Succeeds r) :=
  inferInstanceAs (Decidable (_ ∧ _))

theorem Event.nargs_le (ev : Event) : ev.nargs ≤ nodMaxEventParams := gEventInfo_nparams_le _

/-- The lengths of the arguments an attempt lays down. -/
def Event.sizes (ev : Event) (size off : Nat) : List Nat :=
  ev.filler.sizes ev.um 0 (argDataSize size off)

theorem Event.attempt_hasLens (ev : Event) {size off : Nat} (h : off ≤ size) (hs : size < 2 ^ 32)
    (hn : 2 * ev.nargs ≤ off) (hok : ev.Succeeds (ev.attempt size off)) :
    (ev.attempt size off).HasLens ⟨0, off, size - off⟩ (ev.sizes size off) := by
  have he : (size + 2 ^ 32 - off) % 2 ^ 32 = size - off := argDataSize_eq h hs
  have hrun : ev.attempt size off = ev.filler.run ev.um ⟨0, off, size - off⟩ := by
    rw [Event.attempt, he]
  rw [Event.sizes, argDataSize_eq h hs, hrun]
  exact Filler.run_hasLens _ _ (by simp only; omega) hn (hrun ▸ hok.1)

/-! ## The record an attempt writes -/

namespace Event

variable (ev : Event)

/-- The memory at the header's address once `hdr->len` is stored. -/
def imageOf (r : FillerRun) (img : Image) : Image :=
  img.writes (ev.stores r ++ [lenStore (hdrSize + r.args.argDataOffset)])

variable {ev}

theorem header_stop_le : ∀ w ∈ ev.header, w.stop ≤ hdrSize := by
  simp [header, Write.stop, hdrSize]

/-- Every store of an attempt stays between the header and the end of its room. -/
theorem stores_stop_le {size off : Nat} {r : FillerRun}
    (hr : r.Sound ev.type ⟨0, off, size - off⟩) (hoff : off ≤ size) (hn : 2 * ev.nargs ≤ size) :
    ∀ w ∈ ev.stores r, w.stop ≤ hdrSize + size := by
  intro w hw
  rcases List.mem_append.mp hw with hw | hw
  · have := header_stop_le w hw
    omega
  · obtain ⟨v, hv, rfl⟩ := List.mem_map.mp hw
    rw [Write.stop_shift]
    rcases hr.stores v hv with ⟨j, len, -, hj, rfl⟩ | ⟨-, h⟩
    · simp only [slot, Write.stop, leBytes_length]
      simp only [nargs] at hn
      omega
    · simp only at h
      omega

/-- Until `hdr->len` is stored, an attempt leaves the old value in its place. -/
theorem stores_not_touch_len (r : FillerRun) {w : Write} (hw : w ∈ ev.stores r) {i : Nat}
    (hi : i < 4) : ¬ w.Touches (16 + i) := by
  simp only [Write.Touches]
  rcases List.mem_append.mp hw with hw | hw
  · simp only [header, List.mem_cons, List.not_mem_nil, or_false] at hw
    rcases hw with rfl | rfl | rfl | rfl | rfl | rfl <;>
      simp only [Write.stop, leBytes_length] <;> omega
  · obtain ⟨v, -, rfl⟩ := List.mem_map.mp hw
    simp only [Write.shift, hdrSize]
    omega

/-- A header field other than `len` reads back as it was stored. -/
theorem read_imageOf_header (pre post : List Write) (w : Write) (r : FillerRun) (img : Image)
    (hh : ev.header = pre ++ w :: post) (hpost : ∀ v ∈ post, v.stop ≤ w.off ∨ w.stop ≤ v.off)
    (hlen : w.stop ≤ 16 ∨ 20 ≤ w.off) :
    (ev.imageOf r img).read w.off w.data.length = w.data := by
  have hw : w.stop ≤ hdrSize := header_stop_le w (by rw [hh]; simp)
  have hsplit : ev.stores r ++ [lenStore (hdrSize + r.args.argDataOffset)] = pre ++ w ::
      (post ++ r.out.map (Write.shift hdrSize) ++
        [lenStore (hdrSize + r.args.argDataOffset)]) := by
    simp [stores, hh]
  rw [imageOf, hsplit]
  apply Image.read_writes_of_last
  intro v hv i hi
  simp only [Write.stop] at hw hpost hlen
  simp only [Write.Touches]
  rcases List.mem_append.mp hv with hv | hv
  · rcases List.mem_append.mp hv with hv | hv
    · have := hpost v hv
      simp only [Write.stop]
      omega
    · obtain ⟨u, -, rfl⟩ := List.mem_map.mp hv
      simp only [Write.shift]
      omega
  · obtain rfl := List.mem_singleton.mp hv
    simp only [lenStore, Write.stop, leBytes_length]
    omega

theorem read_imageOf_type (r : FillerRun) (img : Image) :
    (ev.imageOf r img).read 14 2 = leBytes 2 ev.type.toNat := by
  have h := read_imageOf_header [_, _] [_, _, _] ⟨14, leBytes 2 ev.type.toNat⟩ r img rfl
    (by simp [Write.stop]) (by simp [Write.stop])
  simpa using h

theorem read_imageOf_nargs (r : FillerRun) (img : Image) :
    (ev.imageOf r img).read 20 4 = leBytes 4 ev.nargs := by
  have h := read_imageOf_header [_, _, _, _] [_] ⟨20, leBytes 4 ev.nargs⟩ r img rfl
    (by simp [Write.stop]) (by simp)
  simpa using h

theorem read_imageOf_magic (r : FillerRun) (img : Image) :
    (ev.imageOf r img).read 24 4 = leBytes 4 nodEventHdrMagic := by
  have h := read_imageOf_header [_, _, _, _, _] [] ⟨24, leBytes 4 nodEventHdrMagic⟩ r img
    (show ev.header = _ from rfl) (by simp) (by simp)
  simpa using h

theorem read_imageOf_len (r : FillerRun) (img : Image) :
    (ev.imageOf r img).read 16 4 = leBytes 4 (hdrSize + r.args.argDataOffset) := by
  have h := img.read_writes_of_last (ev.stores r) [] (lenStore (hdrSize + r.args.argDataOffset))
    (by simp)
  simpa [imageOf, lenStore] using h

/-- The memory past the header is what the filler's stores make of it. -/
theorem read_imageOf (r : FillerRun) (img : Image) (off n : Nat) :
    (ev.imageOf r img).read (hdrSize + off) n =
      (Image.writes (fun j => (img.writes ev.header) (hdrSize + j)) r.out).read off n := by
  have hlen : ∀ i, ¬ (lenStore (hdrSize + r.args.argDataOffset)).Touches (hdrSize + off + i) := by
    intro i
    simp only [lenStore, Write.Touches, Write.stop, leBytes_length, hdrSize]
    omega
  rw [imageOf, Image.writes_append, Image.read_writes_of_untouched (by simpa using fun i _ => hlen i),
    stores, Image.writes_append]
  apply Image.read_congr
  intro i _
  rw [Nat.add_assoc, Image.writes_shift]

/-- The array of lengths of a record. -/
theorem read_imageOf_lens {a : RingArgs} {r : FillerRun} {ls : List Nat} (hls : r.HasLens a ls)
    (ha : a.curarg = 0) (hs : ev.Succeeds r) :
    ls.length = ev.nargs ∧
      ∀ img, (ev.imageOf r img).read hdrSize (2 * ev.nargs) = lensBytes ls := by
  have hn : ls.length = ev.nargs := by
    have h1 := hls.curarg
    have h2 := hs.2
    omega
  refine ⟨hn, fun img => ?_⟩
  have hread := hls.read fun j => (img.writes ev.header) (hdrSize + j)
  rw [ha, Nat.mul_zero, hn] at hread
  rw [← hread]
  exact read_imageOf r img 0 _

end Event

/-- The array of lengths, read back. -/
theorem lens_lensBytes {ls : List Nat} (h : ∀ l ∈ ls, l ≤ nodMaxArgSize) :
    ((List.range ls.length).map fun i => leNat (((lensBytes ls).drop (2 * i)).take 2)) = ls := by
  induction ls with
  | nil => rfl
  | cons l ls ih =>
    have hl : l < 256 ^ 2 := Nat.lt_of_le_of_lt (h l List.mem_cons_self) (by decide)
    have hdrop : ∀ i, (leBytes 2 l ++ lensBytes ls).drop (2 * (i + 1)) = (lensBytes ls).drop (2 * i) := by
      intro i
      rw [Nat.mul_add, Nat.add_comm, ← List.drop_drop, List.drop_left' (by simp)]
    simp only [List.length_cons, List.range_succ_eq_map, List.map_cons, List.map_map,
      Function.comp_def, lensBytes_cons, Nat.succ_eq_add_one, hdrop]
    rw [ih fun l hl => h l (List.mem_cons_of_mem _ hl), Nat.mul_zero, List.drop_zero,
      List.take_left' (by simp), leNat_leBytes_of_lt hl]

namespace Event

variable {ev : Event}

/-- **A successful attempt leaves a framed record**, wherever its arguments start. -/
theorem imageOf_framed {off size : Nat} {r : FillerRun}
    (hr : r.Sound ev.type ⟨0, off, size - off⟩) (hoff : off ≤ size)
    (hsize : hdrSize + size < 2 ^ 32) (img : Image) :
    Framed ((ev.imageOf r img).read 0 (hdrSize + r.args.argDataOffset)) := by
  have hroom := hr.room
  simp only at hroom
  refine ⟨by simp, ?_⟩
  rw [field_read _ (by simp only [hdrSize]; omega), read_imageOf_len,
    leNat_leBytes_of_lt (by omega), Image.read_length]

/-- The lengths a record gives are those of the arguments laid down. -/
theorem argLens_imageOf {off size : Nat} (hoff : off ≤ size) (hsize : size < 2 ^ 32)
    (hn : 2 * ev.nargs ≤ off) (hs : ev.Succeeds (ev.attempt size off)) (img : Image) :
    argLens ((ev.imageOf (ev.attempt size off) img).read 0
      (hdrSize + (ev.attempt size off).args.argDataOffset)) ev.nargs = ev.sizes size off := by
  have hls := ev.attempt_hasLens hoff hsize hn hs
  have hle := (ev.attempt_sound size off hoff hsize).offset_le
  obtain ⟨hlen, hlens⟩ := read_imageOf_lens hls rfl hs
  simp only at hle
  rw [← lens_lensBytes hls.le, argLens, hlen]
  apply List.map_congr_left
  intro i hi
  have hi := List.mem_range.mp hi
  rw [field_read _ (by omega), ← hlens img, Image.drop_read _ _ (by omega),
    Image.take_read _ _ (by omega)]

/-- **A record whose arguments start right after the array of lengths is complete.** -/
theorem imageOf_complete {size : Nat} (hs : ev.Succeeds (ev.attempt size (2 * ev.nargs)))
    (hoff : 2 * ev.nargs ≤ size) (hsize : hdrSize + size < 2 ^ 32) (img : Image) :
    Complete ((ev.imageOf (ev.attempt size (2 * ev.nargs)) img).read 0
      (hdrSize + (ev.attempt size (2 * ev.nargs)).args.argDataOffset)) := by
  have hr := ev.attempt_sound size (2 * ev.nargs) hoff (by omega)
  have hls := ev.attempt_hasLens hoff (by omega) (Nat.le_refl _) hs
  have hargs := argLens_imageOf hoff (by omega) (Nat.le_refl _) hs img
  have hsum := hls.offset
  simp only at hsum
  generalize ev.attempt size (2 * ev.nargs) = r at *
  generalize ev.sizes size (2 * ev.nargs) = ls at *
  have hn := ev.nargs_le
  have hlt := ev.type.toNat_lt
  simp only [nodMaxEventParams, nodeEventMax] at hn hlt
  have hnargs : field ((ev.imageOf r img).read 0 (hdrSize + r.args.argDataOffset)) 20 4 =
      ev.nargs := by
    rw [field_read _ (by simp only [hdrSize]; omega), read_imageOf_nargs,
      leNat_leBytes_of_lt (by omega)]
  refine ⟨imageOf_framed hr hoff hsize img, ?_, ⟨ev.type, ?_, hnargs⟩, ?_⟩
  · rw [field_read _ (by simp only [hdrSize]; omega), read_imageOf_magic,
      leNat_leBytes_of_lt (by decide)]
  · rw [field_read _ (by simp only [hdrSize]; omega), read_imageOf_type,
      leNat_leBytes_of_lt (by omega)]
  · rw [hnargs, hargs, Image.read_length, ← hsum]
    omega

/-- **The lengths in a record give away where its arguments start**: two runs that leave the same
record have the same lengths and start at the same offset. -/
theorem start_eq_of_hasLens {a a' : RingArgs} {r r' : FillerRun} {ls ls' : List Nat}
    (hls : r.HasLens a ls) (hls' : r'.HasLens a' ls') (ha : a.curarg = 0) (ha' : a'.curarg = 0)
    (hoff : 2 * ev.nargs ≤ a.argDataOffset) (hs : ev.Succeeds r) (hs' : ev.Succeeds r')
    {img img' : Image}
    (he : (ev.imageOf r img).read 0 (hdrSize + r.args.argDataOffset) =
      (ev.imageOf r' img').read 0 (hdrSize + r'.args.argDataOffset)) :
    a.argDataOffset = a'.argDataOffset ∧ ls = ls' := by
  obtain ⟨hlen, hlens⟩ := read_imageOf_lens hls ha hs
  obtain ⟨hlen', hlens'⟩ := read_imageOf_lens hls' ha' hs'
  have hsum := hls.offset
  have hsum' := hls'.offset
  have hend : r.args.argDataOffset = r'.args.argDataOffset := by
    have := congrArg List.length he
    simp only [Image.read_length] at this
    omega
  have hcut : (ev.imageOf r img).read hdrSize (2 * ev.nargs) =
      (ev.imageOf r' img').read hdrSize (2 * ev.nargs) := by
    have := congrArg (fun bs => (bs.drop hdrSize).take (2 * ev.nargs)) he
    simpa only [Image.drop_read _ _ (show hdrSize ≤ hdrSize + r.args.argDataOffset by omega),
      Image.drop_read _ _ (show hdrSize ≤ hdrSize + r'.args.argDataOffset by omega),
      Nat.add_sub_cancel_left, Nat.zero_add,
      Image.take_read _ _ (show 2 * ev.nargs ≤ r.args.argDataOffset by omega),
      Image.take_read _ _ (show 2 * ev.nargs ≤ r'.args.argDataOffset by omega)] using this
  have hsizes : ls = ls' := by
    refine lensBytes_inj hls.le hls'.le ?_
    rw [← hlens img, ← hlens' img', hcut]
  rw [hsizes] at hsum
  exact ⟨by omega, hsizes⟩

/-- Two attempts that start their arguments inside their room. -/
theorem start_eq_of_record_eq {off off' size size' : Nat}
    (h : off ≤ size) (h' : off' ≤ size') (hlt : size < 2 ^ 32) (hlt' : size' < 2 ^ 32)
    (hoff : 2 * ev.nargs ≤ off) (hoff' : 2 * ev.nargs ≤ off')
    (hs : ev.Succeeds (ev.attempt size off)) (hs' : ev.Succeeds (ev.attempt size' off'))
    {img img' : Image}
    (he : (ev.imageOf (ev.attempt size off) img).read 0
        (hdrSize + (ev.attempt size off).args.argDataOffset) =
      (ev.imageOf (ev.attempt size' off') img').read 0
        (hdrSize + (ev.attempt size' off').args.argDataOffset)) :
    off = off' ∧ ev.sizes size off = ev.sizes size' off' :=
  start_eq_of_hasLens (ev.attempt_hasLens h hlt hoff hs) (ev.attempt_hasLens h' hlt' hoff' hs') rfl
    rfl hoff hs hs' he

end Event

end NoDrop
