import NoDrop.WriteData

/-! # The data of vector I/O

`parse_readv_writev_bufs` copies the `iovec`s to the head of `str_storage` and merges the user's
buffers behind them, in the same page: it reads `iov[j]` from there each time it needs it, while
it stores next to it.  `mergeLoop` is the loop over the page, with the variables and the
arithmetic of the source; the list version that the fillers use, `mergeBufs`, is what it comes
to (`mergeLoop_spec`).  `vectorData_exact` says what is at `targetbuf` when the data is pushed.
-/
namespace NoDrop

open Bytes Filler

/-! ## The loop over the page -/

/-- `iov[j].iov_base`, in the page. -/
def iovBase (page : Image) (j : Nat) : Nat := page.word (16 * j)

/-- `iov[j].iov_len`, in the page. -/
def iovLen (page : Image) (j : Nat) : UInt64 := UInt64.ofNat (page.word (16 * j + 8))

/-- The page and `bufsize`, with what has been done so far: where the copies went and how long
they were, and what the `ASSERT`s found. -/
structure Merge where
  page : Image
  bufsize : UInt64
  copies : List (Nat × Nat)
  asserts : List Bool

/-- `tocopy_len`. -/
def tocopyLen (isWrite : Bool) (retval targetbuflen bufsize len : UInt64) : UInt64 :=
  if isWrite then min len (targetbuflen - bufsize - 1)
  else min (min len (retval - bufsize)) (targetbuflen - bufsize - 1)

/-- A copy of `n` bytes from `src` to `targetbuf + bufsize`. -/
def Merge.copied (m : Merge) (um : UserMem) (copylen : UInt64) (src n : Nat) : Merge :=
  { m with
    page := m.page.write ⟨copylen.toNat + m.bufsize.toNat, (um.nodCopyFromUser src n).1⟩
    copies := m.copies ++ [(copylen.toNat + m.bufsize.toNat, n)] }

/-- The loop that merges the buffers, with `n` rounds to go and `iov[j]` next: what it leaves,
and whether no copy faulted. -/
def mergeLoop (um : UserMem) (isWrite : Bool) (retval copylen : UInt64) :
    Nat → Nat → Merge → Merge × Bool
  | 0, _, m => (m, true)
  | n + 1, j, m =>
      if isWrite = false ∧ retval ≤ m.bufsize then
        ({ m with asserts := m.asserts ++ [decide (m.bufsize ≥ retval)] }, true)
      else
        let targetbuflen := UInt64.ofNat pageSize - copylen
        let tocopy := tocopyLen isWrite retval targetbuflen m.bufsize (iovLen m.page j)
        let m' := m.copied um copylen (iovBase m.page j) tocopy.toNat
        -- `notcopied_len` is a `u32`
        if (um.nodCopyFromUser (iovBase m.page j) tocopy.toNat).2 % 2 ^ 32 ≠ 0 then (m', false)
        else
          let m'' := { m' with bufsize := m.bufsize + tocopy }
          -- `iov[j].iov_len` is read anew
          if tocopy ≠ iovLen m''.page j then (m'', true)
          else mergeLoop um isWrite retval copylen n (j + 1) m''

/-- How far `parse_readv_writev_bufs` comes. -/
inductive Reached where
  | refused | fault | data
deriving DecidableEq, Repr

/-- `parse_readv_writev_bufs` on a page, up to the push of the data, for `retval > 0` and
`iovcnt > 0`. -/
def mergeVector (um : UserMem) (iovsrc iovcnt retval : UInt64) (isWrite : Bool) (page : Image) :
    Merge × Reached :=
  let copylen := iovcnt * 16
  if 0xffffffff ≤ iovcnt then (⟨page, 0, [], []⟩, .refused)
  else if UInt64.ofNat pageSize ≤ copylen then (⟨page, 0, [], []⟩, .refused)
  else
    let got := um.nodCopyFromUser iovsrc.toNat copylen.toNat
    let m : Merge := ⟨page.write ⟨0, got.1⟩, 0, [(0, copylen.toNat)], []⟩
    if got.2 ≠ 0 then (m, .fault)
    else
      let r := mergeLoop um isWrite retval copylen iovcnt.toNat 0 m
      (r.1, if r.2 then .data else .fault)

/-! ## The user's data -/

/-- The `n` bytes at `addr`, as far as there are any. -/
def UserMem.bytesAt (um : UserMem) (addr n : Nat) : List (Option UInt8) :=
  (List.range n).map fun k => um.byte (addr + k)

/-- The user's buffers, one after another. -/
def UserMem.vector (um : UserMem) (iov : List Iovec) : List (Option UInt8) :=
  iov.flatMap fun v => um.bytesAt v.1 v.2

/-- The most that the loop merges with `room` bytes at `targetbuf`. -/
def mergeCap (isWrite : Bool) (retval room : Nat) : Nat :=
  if isWrite then room - 1 else min retval (room - 1)

section Vector

variable {um : UserMem}

@[simp] theorem UserMem.bytesAt_length (um : UserMem) (addr n : Nat) :
    (um.bytesAt addr n).length = n := by
  simp [UserMem.bytesAt]

theorem UserMem.bytesAt_add (um : UserMem) (addr m n : Nat) :
    um.bytesAt addr (m + n) = um.bytesAt addr m ++ um.bytesAt (addr + m) n := by
  simp [UserMem.bytesAt, List.range_add, Nat.add_assoc, Function.comp_def]

theorem UserMem.bytesAt_take (um : UserMem) (addr : Nat) {k n : Nat} (h : k ≤ n) :
    (um.bytesAt addr n).take k = um.bytesAt addr k := by
  obtain ⟨d, rfl⟩ := Nat.exists_eq_add_of_le h
  rw [UserMem.bytesAt_add, List.take_left' (um.bytesAt_length ..)]

theorem UserMem.vector_length (um : UserMem) (iov : List Iovec) :
    (um.vector iov).length = (iov.map Prod.snd).sum := by
  induction iov with
  | nil => rfl
  | cons v iov ih =>
    have hcons : um.vector (v :: iov) = um.bytesAt v.1 v.2 ++ um.vector iov := rfl
    rw [hcons, List.length_append, ih, UserMem.bytesAt_length]
    rfl

theorem UserMem.readable_eq_bytesAt {addr n : Nat} (h : (um.readable addr n).length = n) :
    (um.readable addr n).map some = um.bytesAt addr n := by
  induction n generalizing addr with
  | zero => rfl
  | succ n ih =>
    have hstep : um.bytesAt addr (n + 1) = um.byte addr :: um.bytesAt (addr + 1) n := by
      rw [Nat.add_comm n 1, UserMem.bytesAt_add]
      rfl
    rw [hstep]
    unfold UserMem.readable at h ⊢
    cases hb : um.byte addr with
    | none => simp [hb] at h
    | some b =>
      simp only [hb, List.length_cons, Nat.add_right_cancel_iff] at h
      rw [List.map_cons, ih h]

/-- A copy that does not fault copies the user's bytes. -/
theorem UserMem.nodCopyFromUser_bytesAt {addr n : Nat} (h : (um.nodCopyFromUser addr n).2 = 0) :
    (um.nodCopyFromUser addr n).1.map some = um.bytesAt addr n := by
  have hlen := um.nodCopyFromUser_length h
  unfold UserMem.nodCopyFromUser at h hlen ⊢
  split at h
  · rename_i hok
    rw [if_pos hok] at hlen ⊢
    rw [um.copyFromUserInatomic_eq h] at hlen ⊢
    exact um.readable_eq_bytesAt hlen
  · rename_i hok
    obtain rfl : n = 0 := h
    rw [if_neg hok]
    rfl

/-- What is merged, if no copy faults: the user's data as far as the cap. -/
theorem mergeBufs_exact {retval room : Nat} {isWrite : Bool} {iov : List Iovec} {buf : List UInt8}
    (hbuf : buf.length ≤ mergeCap isWrite retval room)
    (hok : (mergeBufs um retval room isWrite iov buf).2 = true) :
    ∃ data, (mergeBufs um retval room isWrite iov buf).1 = buf ++ data ∧
      data.map some = (um.vector iov).take (mergeCap isWrite retval room - buf.length) := by
  induction iov generalizing buf with
  | nil => exact ⟨[], (List.append_nil buf).symm, List.take_nil.symm⟩
  | cons v iov ih =>
    obtain ⟨base, len⟩ := v
    have hcons : um.vector ((base, len) :: iov) = um.bytesAt base len ++ um.vector iov := rfl
    unfold mergeBufs at hok ⊢
    by_cases hstop : isWrite = false ∧ retval ≤ buf.length
    · rw [if_pos hstop]
      have hcap : mergeCap isWrite retval room - buf.length = 0 := by
        rw [mergeCap, hstop.1]
        simp only [Bool.false_eq_true, if_false]
        omega
      rw [hcap]
      exact ⟨[], (List.append_nil buf).symm, rfl⟩
    rw [if_neg hstop] at hok ⊢
    dsimp only at hok ⊢
    have htocopy : min (if isWrite = true then len else min len (retval - buf.length))
        (room - buf.length - 1) = min len (mergeCap isWrite retval room - buf.length) := by
      unfold mergeCap
      cases isWrite with
      | true => simp only [if_true]; omega
      | false => simp only [Bool.false_eq_true, if_false]; omega
    rw [htocopy] at hok ⊢
    split at hok
    · cases hok
    rename_i hgot
    have hgot := not_not.mp hgot
    have hlen := um.nodCopyFromUser_length hgot
    have hbytes := um.nodCopyFromUser_bytesAt hgot
    rw [if_neg (not_not.mpr hgot)]
    by_cases hall : min len (mergeCap isWrite retval room - buf.length) = len
    · -- the whole buffer goes in
      rw [hall] at hok hlen hbytes ⊢
      rw [if_neg (not_not.mpr rfl)] at hok ⊢
      have hnext : (buf ++ (um.nodCopyFromUser base len).1).length ≤
          mergeCap isWrite retval room := by
        rw [List.length_append, hlen]
        omega
      obtain ⟨data, hdata, htake⟩ := ih hnext hok
      refine ⟨(um.nodCopyFromUser base len).1 ++ data, by rw [hdata, List.append_assoc], ?_⟩
      have hwhole : (um.bytesAt base len).length ≤ mergeCap isWrite retval room - buf.length := by
        rw [UserMem.bytesAt_length]
        omega
      rw [List.map_append, hbytes, htake, hcons, List.take_append, List.take_of_length_le hwhole,
        List.length_append, hlen, UserMem.bytesAt_length, Nat.sub_add_eq]
    · rw [if_pos hall]
      refine ⟨_, rfl, ?_⟩
      have hle : mergeCap isWrite retval room - buf.length ≤ len := by omega
      rw [hbytes, Nat.min_eq_right hle, hcons, List.take_append_of_le_length, um.bytesAt_take _ hle]
      rw [UserMem.bytesAt_length]
      exact hle

end Vector

/-! ## The loop comes to the list version -/

/-- The `n` `iovec`s in the page from `iov[j]` on. -/
def pageIovecs (page : Image) : Nat → Nat → List Iovec
  | _, 0 => []
  | j, n + 1 => (iovBase page j, (iovLen page j).toNat) :: pageIovecs page (j + 1) n

theorem iovBase_congr {page page' : Image} {j : Nat} (h : ∀ i < 16 * j + 16, page' i = page i) :
    iovBase page' j = iovBase page j :=
  Image.word_congr fun i _ hi => h i (by omega)

theorem iovLen_congr {page page' : Image} {j : Nat} (h : ∀ i < 16 * j + 16, page' i = page i) :
    iovLen page' j = iovLen page j :=
  congrArg UInt64.ofNat (Image.word_congr fun i _ hi => h i (by omega))

theorem pageIovecs_congr {page page' : Image} {j n : Nat}
    (h : ∀ i < 16 * (j + n), page' i = page i) : pageIovecs page' j n = pageIovecs page j n := by
  induction n generalizing j with
  | zero => rfl
  | succ n ih =>
    rw [pageIovecs, pageIovecs, iovBase_congr fun i hi => h i (by omega),
      iovLen_congr fun i hi => h i (by omega), ih fun i hi => h i (by omega)]

/-- What a run of the loop leaves in the terms of `mergeBufs`. -/
structure MergesTo (um : UserMem) (isWrite : Bool) (retval copylen : UInt64) (iov : List Iovec)
    (m : Merge) (r : Merge × Bool) : Prop where
  merged : ∃ data, mergeBufs um retval.toNat (pageSize - copylen.toNat) isWrite iov
      (m.page.read copylen.toNat m.bufsize.toNat) = (data, r.2) ∧
    r.1.page.read copylen.toNat data.length = data ∧
    (r.2 = true → r.1.bufsize.toNat = data.length)
  frame : ∀ i, i < copylen.toNat ∨ pageSize ≤ i → r.1.page i = m.page i
  copies : ∃ more, r.1.copies = m.copies ++ more ∧
    ∀ c ∈ more, copylen.toNat ≤ c.1 ∧ c.1 + c.2 ≤ pageSize
  asserts : ∀ b ∈ r.1.asserts, b ∈ m.asserts ∨ b = true

section Loop

variable {um : UserMem} {isWrite : Bool} {retval copylen : UInt64}

/-- None of the differences wraps. -/
theorem tocopyLen_toNat {bufsize : UInt64} (len : UInt64) (hcopylen : copylen.toNat < pageSize)
    (hcap : bufsize.toNat ≤ mergeCap isWrite retval.toNat (pageSize - copylen.toNat)) :
    (tocopyLen isWrite retval (UInt64.ofNat pageSize - copylen) bufsize len).toNat =
      min (if isWrite then len.toNat else min len.toNat (retval.toNat - bufsize.toNat))
        (pageSize - copylen.toNat - bufsize.toNat - 1) := by
  have hpage : (UInt64.ofNat pageSize).toNat = pageSize := rfl
  have hroom : (UInt64.ofNat pageSize - copylen).toNat = pageSize - copylen.toNat := by
    rw [UInt64.toNat_sub_of_le _ _ (UInt64.le_iff_toNat_le.mpr (by omega)), hpage]
  have hlt : bufsize.toNat ≤ pageSize - copylen.toNat - 1 := by
    unfold mergeCap at hcap
    split at hcap
    · exact hcap
    · omega
  have hleft : (UInt64.ofNat pageSize - copylen - bufsize).toNat =
      pageSize - copylen.toNat - bufsize.toNat := by
    rw [UInt64.toNat_sub_of_le _ _ (UInt64.le_iff_toNat_le.mpr (by omega)), hroom]
  have hlast : (UInt64.ofNat pageSize - copylen - bufsize - 1).toNat =
      pageSize - copylen.toNat - bufsize.toNat - 1 := by
    have hone : (1 : UInt64).toNat = 1 := rfl
    rw [UInt64.toNat_sub_of_le _ _ (UInt64.le_iff_toNat_le.mpr (by omega)), hleft, hone]
  unfold tocopyLen
  cases isWrite with
  | true =>
    simp only [if_true]
    rw [UInt64.toNat_min, hlast]
  | false =>
    simp only [mergeCap, Bool.false_eq_true, if_false] at hcap ⊢
    rw [UInt64.toNat_min, UInt64.toNat_min, hlast,
      UInt64.toNat_sub_of_le _ _ (UInt64.le_iff_toNat_le.mpr (by omega))]

theorem Merge.copied_of_outside (m : Merge) (um : UserMem) (src n : Nat) {i : Nat}
    (h : i < copylen.toNat + m.bufsize.toNat ∨ copylen.toNat + m.bufsize.toNat + n ≤ i) :
    (m.copied um copylen src n).page i = m.page i := by
  refine Image.write_of_not_touches ?_
  rintro ⟨hlo, hhi⟩
  have hle := um.nodCopyFromUser_length_le src n
  simp only [Write.stop] at hlo hhi
  omega

theorem Merge.copied_read (m : Merge) (um : UserMem) (copylen : UInt64) (src n : Nat) :
    (m.copied um copylen src n).page.read copylen.toNat
        (m.bufsize.toNat + (um.nodCopyFromUser src n).1.length) =
      m.page.read copylen.toNat m.bufsize.toNat ++ (um.nodCopyFromUser src n).1 := by
  rw [Image.read_add]
  congr 1
  · exact Image.read_congr fun i hi => m.copied_of_outside um src n (.inl (by omega))
  · exact Image.read_write_self m.page ⟨_, _⟩

/-- A copy that ends in the page leaves the `iovec`s and what is behind the page alone. -/
theorem Merge.copied_frame (m : Merge) (um : UserMem) (src : Nat) {n : Nat}
    (h : copylen.toNat + m.bufsize.toNat + n ≤ pageSize) :
    ∀ i, i < copylen.toNat ∨ pageSize ≤ i → (m.copied um copylen src n).page i = m.page i :=
  fun _ hi => m.copied_of_outside um src n (by omega)

theorem Merge.copied_copies (m : Merge) (um : UserMem) (src : Nat) {n : Nat}
    (h : copylen.toNat + m.bufsize.toNat + n ≤ pageSize) :
    ∃ more, (m.copied um copylen src n).copies = m.copies ++ more ∧
      ∀ c ∈ more, copylen.toNat ≤ c.1 ∧ c.1 + c.2 ≤ pageSize := by
  refine ⟨_, rfl, fun c hc => ?_⟩
  obtain rfl := List.mem_singleton.mp hc
  exact ⟨Nat.le_add_right .., h⟩

theorem Merge.no_copies (m : Merge) : ∃ more, m.copies = m.copies ++ more ∧
    ∀ c ∈ more, copylen.toNat ≤ c.1 ∧ c.1 + c.2 ≤ pageSize :=
  ⟨[], (List.append_nil _).symm, fun _ h => absurd h List.not_mem_nil⟩

/-- A round of the list version that does not stop at once. -/
theorem mergeBufs_cons {retval room base len k : Nat} {iov : List Iovec} {buf : List UInt8}
    (hstop : ¬(isWrite = false ∧ retval ≤ buf.length))
    (hk : k = min (if isWrite then len else min len (retval - buf.length))
      (room - buf.length - 1)) :
    mergeBufs um retval room isWrite ((base, len) :: iov) buf =
      if (um.nodCopyFromUser base k).2 ≠ 0 then (buf ++ (um.nodCopyFromUser base k).1, false)
      else if k ≠ len then (buf ++ (um.nodCopyFromUser base k).1, true)
      else mergeBufs um retval room isWrite iov (buf ++ (um.nodCopyFromUser base k).1) := by
  rw [mergeBufs, if_neg hstop, hk]

/-- What is copied stays within the cap, and so in the page. -/
theorem tocopyLen_fits {bufsize len k : Nat}
    (hcap : bufsize ≤ mergeCap isWrite retval.toNat (pageSize - copylen.toNat))
    (hpage : copylen.toNat < pageSize)
    (hk : k = min (if isWrite then len else min len (retval.toNat - bufsize))
      (pageSize - copylen.toNat - bufsize - 1)) :
    bufsize + k ≤ mergeCap isWrite retval.toNat (pageSize - copylen.toNat) ∧
      copylen.toNat + bufsize + k < pageSize := by
  unfold mergeCap at hcap ⊢
  cases isWrite with
  | true =>
    simp only [if_true] at hcap hk ⊢
    omega
  | false =>
    simp only [Bool.false_eq_true, if_false] at hcap hk ⊢
    omega

/-- Nothing more is copied. -/
theorem MergesTo.of_stop {iov : List Iovec} {m : Merge} {asserts : List Bool}
    (hmerge : mergeBufs um retval.toNat (pageSize - copylen.toNat) isWrite iov
      (m.page.read copylen.toNat m.bufsize.toNat) =
        (m.page.read copylen.toNat m.bufsize.toNat, true))
    (hasserts : ∀ b ∈ asserts, b ∈ m.asserts ∨ b = true) :
    MergesTo um isWrite retval copylen iov m ({ m with asserts := asserts }, true) := by
  refine ⟨⟨_, hmerge, ?_, fun _ => ?_⟩, fun _ _ => rfl, m.no_copies, hasserts⟩
  · rw [Image.read_length]
  · exact (Image.read_length ..).symm

/-- One round, and the others. -/
theorem MergesTo.cons {iov iov' : List Iovec} {m m' : Merge} {r : Merge × Bool}
    (hmerge : mergeBufs um retval.toNat (pageSize - copylen.toNat) isWrite iov
        (m.page.read copylen.toNat m.bufsize.toNat) =
      mergeBufs um retval.toNat (pageSize - copylen.toNat) isWrite iov'
        (m'.page.read copylen.toNat m'.bufsize.toNat))
    (hframe : ∀ i, i < copylen.toNat ∨ pageSize ≤ i → m'.page i = m.page i)
    (hcopies : ∃ more, m'.copies = m.copies ++ more ∧
      ∀ c ∈ more, copylen.toNat ≤ c.1 ∧ c.1 + c.2 ≤ pageSize)
    (hasserts : m'.asserts = m.asserts) (hrest : MergesTo um isWrite retval copylen iov' m' r) :
    MergesTo um isWrite retval copylen iov m r := by
  obtain ⟨data, hdata, hpage, hend⟩ := hrest.merged
  obtain ⟨more, hmore, hin⟩ := hcopies
  obtain ⟨more', hmore', hin'⟩ := hrest.copies
  refine ⟨⟨data, hmerge.trans hdata, hpage, hend⟩, fun i hi => ?_, ⟨more ++ more', ?_, ?_⟩, ?_⟩
  · exact (hrest.frame i hi).trans (hframe i hi)
  · rw [hmore', hmore, List.append_assoc]
  · exact fun c hc => (List.mem_append.mp hc).elim (hin c) (hin' c)
  · rw [← hasserts]
    exact hrest.asserts

/-- The loop over the page, from a state in which what has been merged is within the cap. -/
theorem mergeLoop_spec {n j : Nat} {m : Merge} (hcopylen : copylen.toNat = 16 * (j + n))
    (hpage : copylen.toNat < pageSize)
    (hcap : m.bufsize.toNat ≤ mergeCap isWrite retval.toNat (pageSize - copylen.toNat)) :
    MergesTo um isWrite retval copylen (pageIovecs m.page j n) m
      (mergeLoop um isWrite retval copylen n j m) := by
  induction n generalizing j m with
  | zero => exact MergesTo.of_stop rfl fun _ h => .inl h
  | succ n ih =>
    unfold mergeLoop pageIovecs
    by_cases hstop : isWrite = false ∧ retval ≤ m.bufsize
    · rw [if_pos hstop]
      have hmerge : mergeBufs um retval.toNat (pageSize - copylen.toNat) isWrite
          ((iovBase m.page j, (iovLen m.page j).toNat) :: pageIovecs m.page (j + 1) n)
          (m.page.read copylen.toNat m.bufsize.toNat) =
          (m.page.read copylen.toNat m.bufsize.toNat, true) := by
        rw [mergeBufs, Image.read_length, if_pos ⟨hstop.1, UInt64.le_iff_toNat_le.mp hstop.2⟩]
      refine MergesTo.of_stop hmerge fun b hb => ?_
      rcases List.mem_append.mp hb with hb | hb
      · exact .inl hb
      · exact .inr ((List.mem_singleton.mp hb).trans (decide_eq_true hstop.2))
    rw [if_neg hstop]
    have htocopy := tocopyLen_toNat (iovLen m.page j) hpage hcap
    dsimp only
    generalize tocopyLen isWrite retval (UInt64.ofNat pageSize - copylen) m.bufsize
      (iovLen m.page j) = tocopy at htocopy ⊢
    obtain ⟨hnext, hfit⟩ := tocopyLen_fits hcap hpage htocopy
    have hlen : (m.page.read copylen.toNat m.bufsize.toNat).length = m.bufsize.toNat :=
      Image.read_length ..
    have hgo : ¬(isWrite = false ∧
        retval.toNat ≤ (m.page.read copylen.toNat m.bufsize.toNat).length) := by
      rw [hlen]
      exact fun h => hstop ⟨h.1, UInt64.le_iff_toNat_le.mpr h.2⟩
    rw [← hlen] at htocopy
    have hmerge := @mergeBufs_cons um isWrite retval.toNat (pageSize - copylen.toNat)
      (iovBase m.page j) _ _ (pageIovecs m.page (j + 1) n) _ hgo htocopy
    have hsmall : tocopy.toNat < 2 ^ 32 ∧ m.bufsize.toNat + tocopy.toNat < 2 ^ 64 := by
      unfold pageSize at hfit
      omega
    have hleft := um.nodCopyFromUser_left_le (iovBase m.page j) tocopy.toNat
    have hsum : (m.bufsize + tocopy).toNat = m.bufsize.toNat + tocopy.toNat :=
      (UInt64.toNat_add ..).trans (Nat.mod_eq_of_lt hsmall.2)
    have hframe := m.copied_frame um (iovBase m.page j) (Nat.le_of_lt hfit)
    have hcopies := m.copied_copies um (iovBase m.page j) (Nat.le_of_lt hfit)
    have hsame := iovLen_congr (j := j) fun i hi => hframe i (.inl (by omega))
    have hread := m.copied_read um copylen (iovBase m.page j) tocopy.toNat
    rw [hsame, Nat.mod_eq_of_lt (Nat.lt_of_le_of_lt hleft hsmall.1)]
    by_cases hfault : (um.nodCopyFromUser (iovBase m.page j) tocopy.toNat).2 ≠ 0
    · rw [if_pos hfault] at hmerge ⊢
      refine ⟨⟨_, hmerge, ?_, fun h => by cases h⟩, hframe, hcopies, fun _ h => .inl h⟩
      rw [List.length_append, hlen]
      exact hread
    rw [if_neg hfault] at hmerge ⊢
    rw [um.nodCopyFromUser_length (not_not.mp hfault)] at hread
    have hdata : (m.page.read copylen.toNat m.bufsize.toNat ++
        (um.nodCopyFromUser (iovBase m.page j) tocopy.toNat).1).length =
          (m.bufsize + tocopy).toNat := by
      rw [List.length_append, hlen, um.nodCopyFromUser_length (not_not.mp hfault), hsum]
    rw [← hsum] at hread
    by_cases hstays : tocopy ≠ iovLen m.page j
    · rw [if_pos hstays]
      rw [if_pos fun h => hstays (UInt64.toNat.inj h)] at hmerge
      refine ⟨⟨_, hmerge, ?_, fun _ => hdata.symm⟩, hframe, hcopies, fun _ h => .inl h⟩
      rw [hdata]
      exact hread
    -- the next round finds the other `iovec`s where they were
    rw [if_neg hstays]
    rw [if_neg fun h => h (congrArg UInt64.toNat (not_not.mp hstays)), ← hread] at hmerge
    have hrest := @ih (j + 1)
      { m.copied um copylen (iovBase m.page j) tocopy.toNat with bufsize := m.bufsize + tocopy }
      (by omega) (by rw [← hsum] at hnext; exact hnext)
    rw [pageIovecs_congr fun i hi => hframe i (.inl (by omega))] at hrest
    refine MergesTo.cons ?_ ?_ ?_ ?_ hrest
    · exact hmerge
    · exact hframe
    · exact hcopies
    · rfl

end Loop

/-! ## The data that is pushed -/

/-- The `iovec`s as they were copied into the page. -/
theorem iovecs_read (page : Image) (j n : Nat) :
    iovecs n (page.read (16 * j) (16 * n)) = pageIovecs page j n := by
  induction n generalizing j with
  | zero => rfl
  | succ n ih =>
    have hbase : leNat ((page.read (16 * j) (16 * (n + 1))).take 8) = iovBase page j := by
      rw [Image.take_read _ _ (by omega)]
      rfl
    have hlen : leNat (((page.read (16 * j) (16 * (n + 1))).drop 8).take 8) =
        (iovLen page j).toNat := by
      rw [Image.drop_read _ _ (by omega), Image.take_read _ _ (by omega)]
      exact (UInt64.toNat_ofNat_of_lt' (page.word_lt _)).symm
    rw [iovecs, pageIovecs, hbase, hlen, Image.drop_read _ _ (by omega), ← ih (j + 1)]
    rfl

/-- What holds of a run on the page however far it comes: the copies end in the page, those of
the data begin behind the `iovec`s, no byte behind the page changes, and no `ASSERT` is false. -/
structure Merge.Safe (copylen : Nat) (page : Image) (m : Merge) : Prop where
  inside : ∀ c ∈ m.copies, c.1 + c.2 ≤ pageSize
  apart : ∀ c ∈ m.copies.tail, copylen ≤ c.1
  behind : ∀ i, pageSize ≤ i → m.page i = page i
  asserts : ∀ b ∈ m.asserts, b = true

/-- What `parse_readv_writev_bufs` pushes for the data. -/
def Merge.value (s : Syscall) (copylen : Nat) (m : Merge) : Value :=
  { val := s.strStorage + UInt64.ofNat copylen
    len := UInt32.ofNat m.bufsize.toNat
    mem := m.page.read copylen m.bufsize.toNat }

section Exact

variable {um : UserMem} {iovsrc iovcnt : UInt64} {retval : UInt64} {isWrite : Bool} {page : Image}

/-- `copylen` does not wrap once `iovcnt` has passed its check. -/
theorem copylen_toNat (h : ¬0xffffffff ≤ iovcnt) : (iovcnt * 16).toNat = 16 * iovcnt.toNat := by
  have hlt : iovcnt.toNat < 0xffffffff :=
    Nat.lt_of_not_le fun hle => h (UInt64.le_iff_toNat_le.mpr hle)
  rw [UInt64.toNat_mul]
  show iovcnt.toNat * 16 % 2 ^ 64 = _
  omega

/-- The page and the loop, once the `iovec`s are there. -/
structure Merged (um : UserMem) (iovsrc iovcnt retval : UInt64) (isWrite : Bool)
    (r : Merge × Reached) : Prop where
  count : iovcnt.toNat < 0xffffffff
  small : 16 * iovcnt.toNat < pageSize
  copied : (um.nodCopyFromUser iovsrc.toNat (16 * iovcnt.toNat)).2 = 0
  data : ∃ data ok, mergeBufs um retval.toNat (pageSize - 16 * iovcnt.toNat) isWrite
      (iovecs iovcnt.toNat (um.nodCopyFromUser iovsrc.toNat (16 * iovcnt.toNat)).1) [] =
        (data, ok) ∧
    r.1.page.read (16 * iovcnt.toNat) data.length = data ∧
    (r.2 = .data → ok = true) ∧ (ok = true → r.1.bufsize.toNat = data.length)

/-- What a run on the page does. -/
theorem mergeVector_spec (um : UserMem) (iovsrc iovcnt retval : UInt64) (isWrite : Bool)
    (page : Image) :
    (mergeVector um iovsrc iovcnt retval isWrite page).1.Safe (16 * iovcnt.toNat) page ∧
      ((mergeVector um iovsrc iovcnt retval isWrite page).2 = .data →
        Merged um iovsrc iovcnt retval isWrite
          (mergeVector um iovsrc iovcnt retval isWrite page)) := by
  have hnone : Merge.Safe (16 * iovcnt.toNat) page ⟨page, 0, [], []⟩ :=
    ⟨by simp, by simp, fun _ _ => rfl, by simp⟩
  unfold mergeVector
  dsimp only
  by_cases hcount : 0xffffffff ≤ iovcnt
  · rw [if_pos hcount]
    exact ⟨hnone, fun h => by cases h⟩
  rw [if_neg hcount]
  have hcopylen := copylen_toNat hcount
  by_cases hbig : UInt64.ofNat pageSize ≤ iovcnt * 16
  · rw [if_pos hbig]
    exact ⟨hnone, fun h => by cases h⟩
  rw [if_neg hbig]
  have hsmall : 16 * iovcnt.toNat < pageSize := by
    have hlt := Nat.lt_of_not_le fun h => hbig (UInt64.le_iff_toNat_le.mpr h)
    rw [hcopylen] at hlt
    exact hlt
  rw [hcopylen]
  generalize hgot : um.nodCopyFromUser iovsrc.toNat (16 * iovcnt.toNat) = got
  have hle : got.1.length ≤ 16 * iovcnt.toNat := hgot ▸ um.nodCopyFromUser_length_le ..
  have hstart : ∀ i, pageSize ≤ i → page.write ⟨0, got.1⟩ i = page i := by
    intro i hi
    refine Image.write_of_not_touches ?_
    rintro ⟨-, hhi⟩
    simp only [Write.stop] at hhi
    omega
  by_cases hfault : got.2 ≠ 0
  · rw [if_pos hfault]
    refine ⟨⟨?_, by simp, hstart, by simp⟩, fun h => by cases h⟩
    intro c hc
    obtain rfl := List.mem_singleton.mp hc
    simp only
    omega
  rw [if_neg hfault]
  have hfull : got.1.length = 16 * iovcnt.toNat :=
    hgot ▸ um.nodCopyFromUser_length (hgot ▸ not_not.mp hfault)
  have hloop := @mergeLoop_spec um isWrite retval (iovcnt * 16) iovcnt.toNat 0
    ⟨page.write ⟨0, got.1⟩, 0, [(0, 16 * iovcnt.toNat)], []⟩ (by omega) (by omega)
    (Nat.zero_le _)
  have hiov : pageIovecs (page.write ⟨0, got.1⟩) 0 iovcnt.toNat =
      iovecs iovcnt.toNat got.1 := by
    have hself := Image.read_write_self page ⟨0, got.1⟩
    simp only [hfull] at hself
    rw [← iovecs_read, Nat.mul_zero, hself]
  rw [hiov] at hloop
  generalize mergeLoop um isWrite retval (iovcnt * 16) iovcnt.toNat 0 _ = r at hloop ⊢
  obtain ⟨more, hmore, hin⟩ := hloop.copies
  refine ⟨⟨?_, ?_, fun i hi => ?_, fun b hb => ?_⟩, fun h => ⟨?_, hsmall, ?_, ?_⟩⟩
  · intro c hc
    rw [hmore, List.mem_append, List.mem_singleton] at hc
    rcases hc with rfl | hc
    · simp only
      omega
    · exact (hin c hc).2
  · intro c hc
    rw [hmore] at hc
    exact hcopylen ▸ (hin c hc).1
  · exact (hloop.frame i (.inr hi)).trans (hstart i hi)
  · exact (hloop.asserts b hb).elim (fun h => absurd h List.not_mem_nil) id
  · exact Nat.lt_of_not_le fun hle => hcount (UInt64.le_iff_toNat_le.mpr hle)
  · rw [hgot]
    exact not_not.mp hfault
  · obtain ⟨data, hdata, hread, hend⟩ := hloop.merged
    rw [hgot]
    refine ⟨data, r.2, ?_, hcopylen ▸ hread, fun h => ?_, hend⟩
    · exact hcopylen ▸ hdata
    · revert h
      cases r.2 with
      | true => exact fun _ => rfl
      | false => exact fun h => by cases h

/-- **The data of vector I/O** is a prefix of the user's: what is pushed are the first bytes of
the user's buffers, one after another, as many as the buffers have, as the call has read, and as
fit behind the `iovec`s; and all that is done for it is done in the page, off the `iovec`s. -/
theorem vectorData_exact (ty : EventType) (s : Syscall) (iovsrc iovcnt retval : UInt64)
    (isWrite pushSize : Bool) (page : Image) (hret : 0 < signed retval) (hcnt : 0 < iovcnt.toNat) :
    let copylen := 16 * iovcnt.toNat
    let r := mergeVector s.um iovsrc iovcnt retval isWrite page
    r.1.Safe copylen page ∧
      (r.2 = .data →
        let iov := iovecs iovcnt.toNat (s.um.nodCopyFromUser iovsrc.toNat copylen).1
        let bufsize := min (iov.map Prod.snd).sum
          (if isWrite then pageSize - copylen - 1 else min retval.toNat (pageSize - copylen - 1))
        r.1.bufsize.toNat = bufsize ∧
        (r.1.page.read copylen bufsize).map some = (s.um.vector iov).take bufsize ∧
        (parseReadvWritevBufs s iovsrc iovcnt retval ⟨pushSize, true, isWrite⟩ : Filler ty).Puts
          pushSize.toNat (r.1.value s copylen)) := by
  intro copylen r
  obtain ⟨hsafe, hloaded⟩ := mergeVector_spec s.um iovsrc iovcnt retval isWrite page
  refine ⟨hsafe, fun hdata => ?_⟩
  intro iov bufsize
  obtain ⟨hcount, hsmall, hcopied, data, ok, hmerge, hread, hok, hend⟩ := hloaded hdata
  obtain rfl : ok = true := hok hdata
  have hend : r.1.bufsize.toNat = data.length := hend rfl
  have hcap : ([] : List UInt8).length ≤ mergeCap isWrite retval.toNat (pageSize - copylen) :=
    Nat.zero_le _
  obtain ⟨data', hdata', htake⟩ := mergeBufs_exact hcap
    (show (mergeBufs s.um retval.toNat (pageSize - copylen) isWrite iov []).2 = true by rw [hmerge])
  rw [hmerge, List.nil_append] at hdata'
  subst hdata'
  have hlen : data.length = bufsize := by
    have hl := congrArg List.length htake
    rw [List.length_map, List.length_take, UserMem.vector_length, Nat.min_comm] at hl
    exact hl
  have hvalue : r.1.value s copylen = { val := s.strStorage + UInt64.ofNat copylen
                                        len := UInt32.ofNat data.length
                                        mem := data } := by
    rw [Merge.value, hend, hread]
  refine ⟨hend.trans hlen, ?_, ?_⟩
  · have hsum := UserMem.vector_length s.um iov
    rw [← hlen, hread, htake, List.take_eq_take_iff, hsum, hlen]
    show min (mergeCap isWrite retval.toNat (pageSize - copylen) - 0) _ =
      min (min _ (mergeCap isWrite retval.toNat (pageSize - copylen))) _
    omega
  · have hcomm : iovcnt.toNat * 16 = copylen := Nat.mul_comm ..
    unfold parseReadvWritevBufs
    dsimp only
    rw [hcomm, if_neg (by omega), if_neg (by omega), hmerge]
    refine puts_scratch ?_
    rw [if_neg (not_not.mpr hcopied), if_neg (show ¬true = false by decide),
      if_pos (And.intro hret hcnt), if_pos rfl, hvalue]
    have hpush : (scratch ⟨copylen, data⟩ (pushLast (r.1.value s copylen)) : Filler ty).Puts 0
        (r.1.value s copylen) := puts_scratch rfl
    rw [hvalue] at hpush
    cases pushSize with
    | true => exact hpush
    | false => exact hpush

end Exact

/-- User memory with two `iovec`s at 4 KiB, of three and of five bytes at 8 KiB and 12 KiB. -/
def twoIovecs : UserMem where
  byte x :=
    if x < 0x1000 then none
    else if x < 0x1020 then
      (leBytes 8 0x2000 ++ leBytes 8 3 ++ leBytes 8 0x3000 ++ leBytes 8 5)[x - 0x1000]?
    else some (UInt8.ofNat x)
  limit := 0x10000
  fault _ _ := 0

/-- A `readv` into them that has read six bytes. -/
def readvCall : Syscall where
  arg i := if i = 1 then 0x1000 else if i = 2 then 2 else 0
  ret := 6
  nr := 19
  um := twoIovecs
  strStorage := 0xffff888000000000

theorem vectorData_exact_readv :
    (mergeVector readvCall.um 0x1000 2 6 false fun _ => 0).1.bufsize.toNat = 6 ∧
      (mergeVector readvCall.um 0x1000 2 6 false fun _ => 0).1.page.read 32 6 =
        [0, 1, 2, 0, 1, 2] := by
  have hdata : (mergeVector readvCall.um 0x1000 2 6 false fun _ => 0).2 = .data := by
    decide +kernel
  obtain ⟨hsize, hread, -⟩ := (vectorData_exact .syscallReadv readvCall 0x1000 2 6 false
    true (fun _ => 0) (by decide) (by decide)).2 hdata
  refine ⟨hsize.trans (by decide +kernel), ?_⟩
  have hbytes : (readvCall.um.vector [(0x2000, 3), (0x3000, 5)]).take 6 =
      [0, 1, 2, 0, 1, 2].map some := by decide +kernel
  exact List.map_injective_iff.mpr (Option.some_injective _) (hread.trans hbytes)

end NoDrop
