import NoDrop.BufferQueue
import NoDrop.Lib.Words

/-! # Fetching the buffers

`NOD_IOCTL_FETCH_BUFFER` of `kmodule/proc.c`: the caller passes a `struct fetch_buffer_struct`
with a buffer and its length, `nod_proc_traverse` copies the threads' buffers there one after
another as long as they fit, and the number of bytes is to be reported in the structure.

The traversal moves the pointer along (`traverse_copies`), and the structure is copied back
through the moved pointer: it goes behind the bytes that were fetched, and not to where it came
from (`fetchBuffer_iff`).
-/
namespace NoDrop

open Bytes

/-! ## The caller's memory -/

/-- The caller's memory, as `copy_to_user` finds it.  User addresses are below `2 ^ 63`. -/
structure UserSpace where
  mem : Image
  readable : Nat → Bool
  writable : Nat → Bool
  limit : Nat
  limit_lt : limit < 2 ^ 63
  /-- How many bytes a copy that faults gets through, as far as that is possible. -/
  fault : Nat → Nat → Nat

namespace UserSpace

/-- The memory as the copies from it see it. -/
def um (u : UserSpace) : UserMem :=
  ⟨fun x => if u.readable x then some (u.mem x) else none, u.limit, u.fault⟩

/-- How many of the `n` bytes from `dst` on can be written before one that cannot. -/
def writableLen (u : UserSpace) (dst n : Nat) : Nat :=
  ((List.range n).takeWhile fun i => u.writable (dst + i)).length

/-- `copy_to_user`: the bytes it stores at `dst`, and the number it did not copy. -/
def copyToUser (u : UserSpace) (dst : Nat) (bs : List UInt8) : List UInt8 × Nat :=
  if u.limit < dst + bs.length then ([], bs.length)
  else if u.writableLen dst bs.length = bs.length then (bs, 0)
  else
    let k := min (u.fault dst bs.length) (u.writableLen dst bs.length)
    (bs.take k, bs.length - k)

/-- The memory after a store. -/
def stored (u : UserSpace) (w : Write) : UserSpace := { u with mem := u.mem.write w }

/-- A copy that reports nothing missing stored every byte, below the limit. -/
theorem copyToUser_done {u : UserSpace} {dst : Nat} {bs : List UInt8}
    (h : (u.copyToUser dst bs).2 = 0) :
    (u.copyToUser dst bs).1 = bs ∧ (bs ≠ [] → dst + bs.length ≤ u.limit) := by
  have hle : u.writableLen dst bs.length ≤ bs.length := by
    have hprefix := (List.takeWhile_prefix (fun i => u.writable (dst + i))
      (l := List.range bs.length)).length_le
    rwa [List.length_range] at hprefix
  unfold copyToUser at h ⊢
  split
  · rename_i hlimit
    rw [if_pos hlimit] at h
    obtain rfl := List.eq_nil_of_length_eq_zero h
    exact ⟨rfl, fun hne => absurd rfl hne⟩
  · rename_i hlimit
    rw [if_neg hlimit] at h
    split
    · exact ⟨rfl, fun _ => Nat.not_lt.mp hlimit⟩
    · rename_i hshort
      rw [if_neg hshort] at h
      simp only at h
      omega

end UserSpace

/-! ## The traversal -/

/-- `nod_proc_traverse`: the callback on one entry after another, until it answers
`NOD_PROC_TRAVERSE_BREAK`. -/
def nodProcTraverse {P S : Type} (func : P → S → S × Bool) : List P → S → S
  | [], st => st
  | p :: ps, st =>
      let r := func p st
      if r.2 then nodProcTraverse func ps r.1 else r.1

/-- `-EFAULT`. -/
def eFault : Int := -14

/-- The records of a buffer, `buffer[0, tail)`. -/
def NodBuffer.bytes (b : NodBuffer) : List UInt8 := (b.mem .buffer).read 0 b.info.tail.toNat

@[simp] theorem NodBuffer.bytes_length (b : NodBuffer) : b.bytes.length = b.info.tail.toNat :=
  Image.read_length ..

/-- The variables of the call: `ptr`, `count` and `ret`, the caller's memory, and the stores made
there. -/
structure FetchState where
  user : UserSpace
  ptr : UInt64
  count : UInt64
  ret : Int
  log : List Write

/-- The store of some bytes at `ptr`. -/
def FetchState.put (st : FetchState) (bs : List UInt8) : FetchState :=
  { st with user := st.user.stored ⟨st.ptr.toNat, bs⟩, log := st.log ++ [⟨st.ptr.toNat, bs⟩] }

/-- `__proc_buf_copy`. -/
def procBufCopy (len : UInt64) (b : NodBuffer) (st : FetchState) : FetchState × Bool :=
  if st.count + b.info.tail.toUInt64 ≤ len then
    let got := st.user.copyToUser st.ptr.toNat b.bytes
    if got.2 ≠ 0 then ({ st.put got.1 with ret := eFault }, false)
    else
      ({ st.put got.1 with
          ptr := st.ptr + b.info.tail.toUInt64
          count := st.count + b.info.tail.toUInt64
          ret := 0 }, true)
  else ({ st with ret := 0 }, false)

/-- `struct fetch_buffer_struct`: its bytes. -/
def fetchStruct (len buf : UInt64) : List UInt8 := leBytes 8 len.toNat ++ leBytes 8 buf.toNat

/-- The fields of the structure that the caller passes at `arg`. -/
def fetchLen (u : UserSpace) (arg : UInt64) : UInt64 := UInt64.ofNat (u.mem.word arg.toNat)
def fetchBuf (u : UserSpace) (arg : UInt64) : UInt64 := UInt64.ofNat (u.mem.word (arg.toNat + 8))

/-- `nod_dev_ioctl`, for `NOD_IOCTL_FETCH_BUFFER`. -/
def ioctlFetchBuffer (table : List NodBuffer) (arg : UInt64) (u : UserSpace) : FetchState :=
  let buf := fetchBuf u arg
  if (u.um.nodCopyFromUser arg.toNat 16).2 ≠ 0 then ⟨u, buf, 0, eFault, []⟩
  else
    let st := nodProcTraverse (procBufCopy (fetchLen u arg)) table ⟨u, buf, 0, 0, []⟩
    if st.ret ≠ 0 then st
    else
      let got := st.user.copyToUser st.ptr.toNat (fetchStruct st.count buf)
      { st.put got.1 with ret := if got.2 ≠ 0 then eFault else 0 }

/-! ## What is copied -/

/-- The leading buffers that fit in `room` bytes. -/
def leading : Nat → List NodBuffer → List NodBuffer
  | _, [] => []
  | room, b :: bs =>
      if b.info.tail.toNat ≤ room then b :: leading (room - b.info.tail.toNat) bs else []

/-- The bytes of some buffers, one after another. -/
def bytesOf (bs : List NodBuffer) : List UInt8 := bs.flatMap NodBuffer.bytes

theorem leading_prefix (room : Nat) (table : List NodBuffer) : leading room table <+: table := by
  induction table generalizing room with
  | nil => exact List.prefix_rfl
  | cons b bs ih =>
    unfold leading
    split
    · exact (List.prefix_cons_inj b).mpr (ih _)
    · exact List.nil_prefix

theorem bytesOf_leading_le (room : Nat) (table : List NodBuffer) :
    (bytesOf (leading room table)).length ≤ room := by
  induction table generalizing room with
  | nil => exact Nat.zero_le _
  | cons b bs ih =>
    unfold leading
    split
    · rename_i hfits
      have hrest := ih (room - b.info.tail.toNat)
      rw [bytesOf, List.flatMap_cons, List.length_append, NodBuffer.bytes_length]
      unfold bytesOf at hrest
      omega
    · exact Nat.zero_le _

/-- No longer prefix fits. -/
theorem length_le_leading {room : Nat} {table pre : List NodBuffer} (hpre : pre <+: table)
    (hfits : (bytesOf pre).length ≤ room) :
    (bytesOf pre).length ≤ (bytesOf (leading room table)).length := by
  induction table generalizing room pre with
  | nil =>
    obtain rfl := List.prefix_nil.mp hpre
    exact Nat.zero_le _
  | cons b bs ih =>
    cases pre with
    | nil => exact Nat.zero_le _
    | cons p pre =>
      obtain ⟨rfl, hrest⟩ := List.cons_prefix_cons.mp hpre
      simp only [bytesOf, List.flatMap_cons, List.length_append, NodBuffer.bytes_length] at hfits
      have hle := @ih (room - p.info.tail.toNat) pre hrest (by simp only [bytesOf]; omega)
      unfold leading
      rw [if_pos (by omega)]
      simp only [bytesOf, List.flatMap_cons, List.length_append, NodBuffer.bytes_length] at hle ⊢
      omega

/-- The state `st'` is `st` with `data` copied out at `ptr`. -/
structure CopiedOut (data : List UInt8) (st st' : FetchState) : Prop where
  ret : st'.ret = 0
  count : st'.count.toNat = st.count.toNat + data.length
  ptr : st'.ptr.toNat = st.ptr.toNat + data.length
  user : st'.user = st.user.stored ⟨st.ptr.toNat, data⟩
  count_le : st'.count.toNat ≤ st.user.limit
  log : ∃ ws, st'.log = st.log ++ ws ∧ ∀ w ∈ ws, ∀ x, w.Touches x →
    st.ptr.toNat ≤ x ∧ x < st.ptr.toNat + data.length

theorem CopiedOut.nil {st : FetchState} (hle : st.count.toNat ≤ st.user.limit) :
    CopiedOut [] st { st with ret := 0 } := by
  refine ⟨rfl, rfl, rfl, ?_, hle, [], (List.append_nil _).symm, fun _ h => ?_⟩
  · rw [UserSpace.stored, Image.write_nil]
  · exact absurd h List.not_mem_nil

/-- One copy after another. -/
theorem CopiedOut.trans {data more : List UInt8} {st st' st'' : FetchState}
    (h : CopiedOut data st st') (h' : CopiedOut more st' st'') :
    CopiedOut (data ++ more) st st'' := by
  obtain ⟨ws, hlog, hin⟩ := h.log
  obtain ⟨ws', hlog', hin'⟩ := h'.log
  have hcount := h.count
  have hptr := h.ptr
  refine ⟨h'.ret, ?_, ?_, ?_, ?_, ws ++ ws', ?_, ?_⟩
  · rw [h'.count, List.length_append]
    omega
  · rw [h'.ptr, List.length_append]
    omega
  · rw [h'.user, h.user, hptr]
    simp only [UserSpace.stored]
    rw [Image.write_append]
  · have hle := h'.count_le
    rw [h.user] at hle
    exact hle
  · rw [hlog', hlog, List.append_assoc]
  · intro w hw x hx
    rw [List.length_append]
    rcases List.mem_append.mp hw with hw | hw
    · have := hin w hw x hx
      omega
    · have := hin' w hw x hx
      omega

section Fetch

variable {len : UInt64} {table : List NodBuffer} {st : FetchState}

/-- The counter does not wrap: what has been copied lies below the limit. -/
theorem count_add_tail (hcount : st.count.toNat ≤ st.user.limit) (b : NodBuffer) :
    (st.count + b.info.tail.toUInt64).toNat = st.count.toNat + b.info.tail.toNat := by
  have hlimit := st.user.limit_lt
  have htail := UInt32.toNat_lt b.info.tail
  rw [UInt64.toNat_add, UInt32.toNat_toUInt64]
  exact Nat.mod_eq_of_lt (by omega)

/-- A buffer that is copied. -/
theorem procBufCopy_copies {b : NodBuffer} (hcount : st.count.toNat ≤ st.user.limit)
    (hptr : st.count.toNat ≤ st.ptr.toNat)
    (hfits : st.count.toNat + b.info.tail.toNat ≤ len.toNat)
    (hcopy : (st.user.copyToUser st.ptr.toNat b.bytes).2 = 0) :
    (procBufCopy len b st).2 = true ∧ CopiedOut b.bytes st (procBufCopy len b st).1 := by
  have hsum := count_add_tail hcount b
  have hle : st.count + b.info.tail.toUInt64 ≤ len := by
    rw [UInt64.le_iff_toNat_le, hsum]
    exact hfits
  obtain ⟨hbytes, hbelow⟩ := UserSpace.copyToUser_done hcopy
  have hlimit := st.user.limit_lt
  have hreach : b.info.tail.toNat ≠ 0 → st.ptr.toNat + b.info.tail.toNat ≤ st.user.limit := by
    intro hne
    rw [← b.bytes_length] at hne ⊢
    exact hbelow fun hnil => hne (by rw [hnil]; rfl)
  have hmove : (st.ptr + b.info.tail.toUInt64).toNat = st.ptr.toNat + b.info.tail.toNat := by
    have hptr64 := UInt64.toNat_lt st.ptr
    rw [UInt64.toNat_add, UInt32.toNat_toUInt64]
    refine Nat.mod_eq_of_lt ?_
    by_cases hzero : b.info.tail.toNat = 0
    · omega
    · have := hreach hzero
      omega
  unfold procBufCopy
  dsimp only
  rw [if_pos hle, if_neg (not_not.mpr hcopy), hbytes]
  refine ⟨rfl, rfl, ?_, ?_, rfl, ?_, [⟨st.ptr.toNat, b.bytes⟩], rfl, ?_⟩
  · rw [b.bytes_length]
    exact hsum
  · rw [b.bytes_length]
    exact hmove
  · rw [hsum]
    by_cases hzero : b.info.tail.toNat = 0
    · omega
    · have := hreach hzero
      omega
  · intro w hw x hx
    obtain rfl := List.mem_singleton.mp hw
    exact hx

theorem procBufCopy_faults {b : NodBuffer} (hcount : st.count.toNat ≤ st.user.limit)
    (hfits : st.count.toNat + b.info.tail.toNat ≤ len.toNat)
    (hcopy : (st.user.copyToUser st.ptr.toNat b.bytes).2 ≠ 0) :
    (procBufCopy len b st).2 = false ∧ (procBufCopy len b st).1.ret = eFault := by
  have hle : st.count + b.info.tail.toUInt64 ≤ len := by
    rw [UInt64.le_iff_toNat_le, count_add_tail hcount b]
    exact hfits
  unfold procBufCopy
  dsimp only
  rw [if_pos hle, if_pos hcopy]
  exact ⟨rfl, rfl⟩

/-- **The traversal** copies the leading buffers that fit, one behind another from `ptr` on. -/
theorem traverse_copies (hret : st.ret = 0) (hcount : st.count.toNat ≤ st.user.limit)
    (hptr : st.count.toNat ≤ st.ptr.toNat) (hlen : st.count.toNat ≤ len.toNat)
    (hok : (nodProcTraverse (procBufCopy len) table st).ret = 0) :
    CopiedOut (bytesOf (leading (len.toNat - st.count.toNat) table)) st
      (nodProcTraverse (procBufCopy len) table st) := by
  induction table generalizing st with
  | nil =>
    have hself : ({ st with ret := 0 } : FetchState) = st := by rw [← hret]
    have hnil := CopiedOut.nil hcount
    rwa [hself] at hnil
  | cons b bs ih =>
    unfold nodProcTraverse at hok ⊢
    by_cases hfits : st.count.toNat + b.info.tail.toNat ≤ len.toNat
    · by_cases hcopy : (st.user.copyToUser st.ptr.toNat b.bytes).2 = 0
      · obtain ⟨hgo, hcopied⟩ := procBufCopy_copies hcount hptr hfits hcopy
        dsimp only at hok ⊢
        rw [hgo, if_pos rfl] at hok ⊢
        have hleading : leading (len.toNat - st.count.toNat) (b :: bs) = b ::
            leading (len.toNat - (procBufCopy len b st).1.count.toNat) bs := by
          rw [leading, if_pos (by omega), hcopied.count, b.bytes_length, Nat.sub_add_eq]
        rw [hleading, bytesOf, List.flatMap_cons]
        have hcount' := hcopied.count
        have hptr' := hcopied.ptr
        rw [b.bytes_length] at hcount' hptr'
        have hle := hcopied.count_le
        refine hcopied.trans (ih hcopied.ret ?_ (by omega) (by omega) hok)
        rw [hcopied.user]
        exact hle
      · have hfault := procBufCopy_faults hcount hfits hcopy
        dsimp only at hok
        rw [hfault.1, if_neg (by decide)] at hok
        exact absurd (hfault.2.symm.trans hok) (by decide)
    · have hstop : procBufCopy len b st = ({ st with ret := 0 }, false) := by
        refine if_neg fun hle => hfits ?_
        rw [← count_add_tail hcount b]
        exact UInt64.le_iff_toNat_le.mp hle
      dsimp only at hok ⊢
      rw [hstop, leading, if_neg (by omega)]
      exact CopiedOut.nil hcount

/-- From the start of the call. -/
theorem traverse_start {u : UserSpace} {buf : UInt64}
    (hok : (nodProcTraverse (procBufCopy len) table ⟨u, buf, 0, 0, []⟩).ret = 0) :
    CopiedOut (bytesOf (leading len.toNat table)) ⟨u, buf, 0, 0, []⟩
      (nodProcTraverse (procBufCopy len) table ⟨u, buf, 0, 0, []⟩) := by
  have hzero : (0 : UInt64).toNat = 0 := rfl
  have hcopied := @traverse_copies len table ⟨u, buf, 0, 0, []⟩ rfl (Nat.zero_le _)
    (Nat.zero_le _) (Nat.zero_le _) hok
  dsimp only at hcopied
  rwa [hzero, Nat.sub_zero] at hcopied

end Fetch

/-! ## What the call does -/

/-- The call has succeeded and done what was asked: the bytes stored outside the structure at
`arg` are those of whole buffers, the first ones of the table, which fit in the length given, and
the structure reports their number. -/
def FetchRight (table : List NodBuffer) (arg : UInt64) (u : UserSpace) : Prop :=
  ∃ bs, bs <+: table ∧ (bytesOf bs).length ≤ (fetchLen u arg).toNat ∧
    (ioctlFetchBuffer table arg u).user.mem.read (fetchBuf u arg).toNat (bytesOf bs).length =
      bytesOf bs ∧
    (∀ w ∈ (ioctlFetchBuffer table arg u).log, ∀ x, w.Touches x →
      ((fetchBuf u arg).toNat ≤ x ∧ x < (fetchBuf u arg).toNat + (bytesOf bs).length) ∨
        (arg.toNat ≤ x ∧ x < arg.toNat + 16)) ∧
    (ioctlFetchBuffer table arg u).user.mem.word arg.toNat = (bytesOf bs).length

section Ioctl

variable {table : List NodBuffer} {arg : UInt64} {u : UserSpace}

/-- The bytes that are fetched. -/
def fetched (table : List NodBuffer) (arg : UInt64) (u : UserSpace) : List UInt8 :=
  bytesOf (leading (fetchLen u arg).toNat table)

/-- Where the structure is stored. -/
def resultAt (table : List NodBuffer) (arg : UInt64) (u : UserSpace) : Nat :=
  (fetchBuf u arg).toNat + (fetched table arg u).length

/-- The structure that is stored there. -/
def resultStruct (table : List NodBuffer) (arg : UInt64) (u : UserSpace) : List UInt8 :=
  fetchStruct (UInt64.ofNat (fetched table arg u).length) (fetchBuf u arg)

theorem resultStruct_length (table : List NodBuffer) (arg : UInt64) (u : UserSpace) :
    (resultStruct table arg u).length = 16 := by
  simp [resultStruct, fetchStruct]

/-- What a call that succeeds leaves: the bytes at the buffer, and the structure behind them. -/
structure FetchDone (table : List NodBuffer) (arg : UInt64) (u : UserSpace) (st : FetchState) :
    Prop where
  mem : st.user.mem = (u.mem.write ⟨(fetchBuf u arg).toNat, fetched table arg u⟩).write
    ⟨resultAt table arg u, resultStruct table arg u⟩
  log : ∃ ws, st.log = ws ++ [⟨resultAt table arg u, resultStruct table arg u⟩] ∧
    ∀ w ∈ ws, ∀ x, w.Touches x → (fetchBuf u arg).toNat ≤ x ∧ x < resultAt table arg u
  below : (fetched table arg u).length < 2 ^ 64

theorem ioctlFetchBuffer_done (h : (ioctlFetchBuffer table arg u).ret = 0) :
    FetchDone table arg u (ioctlFetchBuffer table arg u) := by
  unfold ioctlFetchBuffer at h ⊢
  dsimp only at h ⊢
  by_cases hreq : (u.um.nodCopyFromUser arg.toNat 16).2 ≠ 0
  · rw [if_pos hreq] at h
    exact absurd h (show eFault ≠ 0 by decide)
  rw [if_neg hreq] at h ⊢
  generalize hst : nodProcTraverse (procBufCopy (fetchLen u arg)) table
    ⟨u, fetchBuf u arg, 0, 0, []⟩ = st at h ⊢
  by_cases hret : st.ret ≠ 0
  · rw [if_pos hret] at h
    exact absurd h hret
  rw [if_neg hret] at h ⊢
  have hdata : CopiedOut (fetched table arg u) ⟨u, fetchBuf u arg, 0, 0, []⟩ st := by
    rw [← hst]
    refine traverse_start ?_
    rw [hst]
    exact not_not.mp hret
  have hcount : st.count.toNat = (fetched table arg u).length :=
    hdata.count.trans (Nat.zero_add _)
  have hptr : st.ptr.toNat = resultAt table arg u := hdata.ptr
  have hbelow : (fetched table arg u).length < 2 ^ 64 := hcount ▸ UInt64.toNat_lt st.count
  have hstruct : fetchStruct st.count (fetchBuf u arg) = resultStruct table arg u := by
    rw [resultStruct, ← hcount, UInt64.ofNat_toNat]
  rw [hstruct, hptr] at h ⊢
  have hcopy : (st.user.copyToUser (resultAt table arg u) (resultStruct table arg u)).2 = 0 := by
    by_contra hne
    rw [if_pos hne] at h
    exact absurd h (show eFault ≠ 0 by decide)
  obtain ⟨hbytes, -⟩ := UserSpace.copyToUser_done hcopy
  rw [hbytes]
  obtain ⟨ws, hlog, hin⟩ := hdata.log
  refine ⟨?_, ⟨ws, ?_, hin⟩, hbelow⟩
  · simp only [FetchState.put, UserSpace.stored, hdata.user, hptr]
  · simp only [FetchState.put, hlog, hptr, List.nil_append]

/-- The structure is stored behind the bytes. -/
theorem FetchDone.slot {st : FetchState} (h : FetchDone table arg u st) {i : Nat} (hi : i < 16) :
    ∃ w ∈ st.log, w.Touches (resultAt table arg u + i) := by
  obtain ⟨ws, hlog, -⟩ := h.log
  refine ⟨_, hlog ▸ List.mem_append_right _ List.mem_cons_self, Nat.le_add_right .., ?_⟩
  simp only [Write.stop, resultStruct_length]
  omega

theorem FetchRight.resultAt_eq (h : (ioctlFetchBuffer table arg u).ret = 0)
    (hright : FetchRight table arg u) : arg.toNat = resultAt table arg u := by
  obtain ⟨bs, hpre, hfits, -, hstores, -⟩ := hright
  have hdone := ioctlFetchBuffer_done h
  have hshort := length_le_leading hpre hfits
  have hend : resultAt table arg u = (fetchBuf u arg).toNat +
    (bytesOf (leading (fetchLen u arg).toNat table)).length := rfl
  have hslot : ∀ i < 16, arg.toNat ≤ resultAt table arg u + i ∧
      resultAt table arg u + i < arg.toNat + 16 := by
    intro i hi
    obtain ⟨w, hw, ht⟩ := hdone.slot hi
    refine (hstores w hw _ ht).resolve_left fun hin => ?_
    omega
  have hfirst := hslot 0 (by decide)
  have hfinal := hslot 15 (by decide)
  omega

theorem fetchRight_of_resultAt (h : (ioctlFetchBuffer table arg u).ret = 0)
    (harg : arg.toNat = resultAt table arg u) : FetchRight table arg u := by
  obtain ⟨hmem, ⟨ws, hlog, hin⟩, hbelow⟩ := ioctlFetchBuffer_done h
  have hlen := resultStruct_length table arg u
  refine ⟨leading (fetchLen u arg).toNat table, leading_prefix .., bytesOf_leading_le .., ?_,
    fun w hw x hx => ?_, ?_⟩
  · have hself := Image.read_write_self u.mem ⟨(fetchBuf u arg).toNat, fetched table arg u⟩
    rw [hmem]
    refine Eq.trans (Image.read_congr fun i hi => Image.write_of_not_touches ?_) hself
    rintro ⟨hlo, -⟩
    have hend : resultAt table arg u = (fetchBuf u arg).toNat +
      (bytesOf (leading (fetchLen u arg).toNat table)).length := rfl
    simp only at hlo
    omega
  · rw [hlog] at hw
    rcases List.mem_append.mp hw with hw | hw
    · exact .inl (hin w hw x hx)
    · obtain rfl := List.mem_singleton.mp hw
      obtain ⟨hlo, hhi⟩ := hx
      simp only [Write.stop, hlen] at hlo hhi
      exact .inr ⟨by omega, by omega⟩
  · have hself := Image.read_write_self (u.mem.write ⟨(fetchBuf u arg).toNat, fetched table arg u⟩)
      ⟨resultAt table arg u, resultStruct table arg u⟩
    simp only [hlen] at hself
    rw [hmem, harg, Image.word, ← Image.take_read _ _ (show 8 ≤ 16 by decide), hself,
      resultStruct, fetchStruct, List.take_left' (leBytes_length ..),
      leNat_leBytes_of_lt (show _ < 256 ^ 8 from UInt64.toNat_lt _),
      UInt64.toNat_ofNat_of_lt' hbelow]
    rfl

/-- **A fetch is right only where the request happens to lie right behind the bytes fetched**:
that is where the answer goes. -/
theorem fetchBuffer_iff (h : (ioctlFetchBuffer table arg u).ret = 0) :
    FetchRight table arg u ↔
      arg.toNat = (fetchBuf u arg).toNat + (fetched table arg u).length :=
  ⟨FetchRight.resultAt_eq h, fetchRight_of_resultAt h⟩

/-- For a request that is apart from the buffer, as that of `nodrop-ctl`, even the weaker half
fails: either the answer runs over the end of the buffer, or the length in the request is not
the number of bytes. -/
theorem fetchBuffer_apart (h : (ioctlFetchBuffer table arg u).ret = 0)
    (hapart : arg.toNat + 16 ≤ (fetchBuf u arg).toNat ∨
      (fetchBuf u arg).toNat + (fetchLen u arg).toNat + 16 ≤ arg.toNat)
    (hstores : ∀ w ∈ (ioctlFetchBuffer table arg u).log, ∀ x, w.Touches x →
      ((fetchBuf u arg).toNat ≤ x ∧ x < (fetchBuf u arg).toNat + (fetchLen u arg).toNat) ∨
        (arg.toNat ≤ x ∧ x < arg.toNat + 16)) :
    (ioctlFetchBuffer table arg u).user.mem.word arg.toNat ≠ (fetched table arg u).length := by
  have hdone := ioctlFetchBuffer_done h
  have hfits := bytesOf_leading_le (fetchLen u arg).toNat table
  have hend : resultAt table arg u = (fetchBuf u arg).toNat + (fetched table arg u).length := rfl
  have hcount : fetched table arg u = bytesOf (leading (fetchLen u arg).toNat table) := rfl
  rw [← hcount] at hfits
  have hroom : resultAt table arg u + 15 < (fetchBuf u arg).toNat + (fetchLen u arg).toNat := by
    obtain ⟨w, hw, ht⟩ := hdone.slot (show 15 < 16 by decide)
    rcases hstores w hw _ ht with hin | hin
    · exact hin.2
    · omega
  -- the request itself is left as it was
  have hword : (ioctlFetchBuffer table arg u).user.mem.word arg.toNat = u.mem.word arg.toNat := by
    refine Image.word_congr fun i hlo hhi => ?_
    rw [hdone.mem, Image.write_of_not_touches, Image.write_of_not_touches]
    · rintro ⟨h1, h2⟩
      simp only [Write.stop] at h1 h2
      omega
    · rintro ⟨h1, h2⟩
      simp only [Write.stop, resultStruct_length] at h1 h2
      omega
  have hlen : (fetchLen u arg).toNat = u.mem.word arg.toNat :=
    UInt64.toNat_ofNat_of_lt' (u.mem.word_lt _)
  omega

end Ioctl

/-- Memory with a request at 4 KiB. -/
def requestSpace (len buf : Nat) : UserSpace where
  mem := Image.write (fun _ => 0) ⟨0x1000, leBytes 8 len ++ leBytes 8 buf⟩
  readable _ := true
  writable _ := true
  limit := 0x10000
  limit_lt := by decide
  fault _ _ := 0

/-- A buffer with two bytes in it. -/
def twoBytes : NodBuffer := ⟨⟨1, 2, 0, 4096⟩, fun _ _ => 7, false, 0, 4096⟩

theorem fetchBuffer_iff_behind : FetchRight [twoBytes] 0x1000 (requestSpace 2 0xffe) :=
  (fetchBuffer_iff (by decide +kernel)).mpr (by decide +kernel)

/-- **A fetch of two bytes into a buffer of two**: it succeeds, and overwrites the sixteen bytes
behind the buffer. -/
theorem fetchBuffer_overruns :
    (ioctlFetchBuffer [twoBytes] 0x1000 (requestSpace 2 0x2000)).ret = 0 ∧
      ¬FetchRight [twoBytes] 0x1000 (requestSpace 2 0x2000) := by
  have hret : (ioctlFetchBuffer [twoBytes] 0x1000 (requestSpace 2 0x2000)).ret = 0 := by
    decide +kernel
  exact ⟨hret, fun hright => absurd (hright.resultAt_eq hret) (by decide +kernel)⟩

end NoDrop
