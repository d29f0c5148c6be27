import NoDrop.CountInfo
import NoDrop.RecordFile

/-! # `nodrop-ctl fetch`

The control program of `scripts/ctrl` writes the buffers of all threads to a file.  It asks with
`NOD_IOCTL_READ_BUFFER_COUNT_INFO` how much there is, allocates that much, and has `NOD_IOCTL_FETCH_BUFFER`
fill it.  The threads go on between the two calls, and the program does not learn how much it got: it
writes all that it has allocated.

The answer of the second call is 16 bytes behind what was copied, so that the memory which `malloc` gave has
to be that much larger than the buffers that fit.  If the buffers hold as much as at the first call, that is
16 bytes more than the program asked for.  Where it is not, the heap is overwritten, and no file is promised.
Where it is, the file starts with the records of the threads that fit, and can be read as a whole just where
these fill it (`ctlFetch_file`).
-/
namespace NoDrop

open Bytes Runs

/-! ## The program -/

/-- Where `cinfo` and `fetch` are on the stack, what `malloc` returns and how many bytes there are really
(`malloc_usable_size`), and whether the file can be opened.  That memory is apart from the stack. -/
structure CtlEnv where
  cinfo : UInt64
  fetch : UInt64
  malloc : UInt64 → Option UInt64
  usable : UInt64 → Nat
  fopen : Bool
  le_usable : ∀ len, len.toNat ≤ usable len
  apart : ∀ len buf, malloc len = some buf →
    fetch.toNat + 16 ≤ buf.toNat ∨ buf.toNat + usable len ≤ fetch.toNat

/-- How the command `fetch` ends: with an error, with the file, or with bytes stored behind the memory that
`malloc` gave.  These are the allocator's own, and its next call may find them and abort the program. -/
inductive CtlFetched
  | failed
  | overrun
  | written (file : List UInt8)
deriving DecidableEq

/-- The command `fetch`.  The table is `before` at the first call, and `after` at the second. -/
def ctlFetch (e : CtlEnv) (before after : List NodBuffer) (u : UserSpace) : CtlFetched :=
  let r := ioctlReadBufferCountInfo before e.cinfo 0 u
  if r.ret ≠ 0 then .failed
  else
    let len := UInt64.ofNat (r.user.mem.word (e.cinfo.toNat + 16))
    match e.malloc len with
    | none => .failed
    | some buf =>
      let st := ioctlFetchBuffer after e.fetch (r.user.stored ⟨e.fetch.toNat, fetchStruct len buf⟩)
      if st.ret ≠ 0 then .failed
      else if st.log.any fun w => decide (w.data ≠ [] ∧ buf.toNat + e.usable len < w.stop) then
        .overrun
      else if e.fopen then
        -- `fwrite(fetch.buf, fetch.len, 1, file)`
        .written (st.user.mem.read (fetchBuf st.user e.fetch).toNat
          (fetchLen st.user e.fetch).toNat)
      else .failed

/-! ## The memory of the program -/

section Memory

variable {u : UserSpace} {arg len buf : UInt64}

theorem fetchLen_stored : fetchLen (u.stored ⟨arg.toNat, fetchStruct len buf⟩) arg = len := by
  have hlen := Image.read_write_part u.mem arg.toNat [] (leBytes 8 len.toNat) (leBytes 8 buf.toNat)
  simp only [List.nil_append, List.length_nil, Nat.add_zero, leBytes_length] at hlen
  rw [fetchLen, UserSpace.stored, fetchStruct, Image.word, hlen,
    leNat_leBytes_of_lt (UInt64.toNat_lt len), UInt64.ofNat_toNat]

theorem fetchBuf_stored : fetchBuf (u.stored ⟨arg.toNat, fetchStruct len buf⟩) arg = buf := by
  have hbuf := Image.read_write_part u.mem arg.toNat (leBytes 8 len.toNat) (leBytes 8 buf.toNat) []
  simp only [List.append_nil, leBytes_length] at hbuf
  rw [fetchBuf, UserSpace.stored, fetchStruct, Image.word, hbuf,
    leNat_leBytes_of_lt (UInt64.toNat_lt buf), UInt64.ofNat_toNat]

/-- A store elsewhere does not change the structure. -/
theorem fetch_stored {w : Write} (h : arg.toNat + 16 ≤ w.off ∨ w.stop ≤ arg.toNat) :
    fetchLen (u.stored w) arg = fetchLen u arg ∧ fetchBuf (u.stored w) arg = fetchBuf u arg := by
  have hsame : ∀ i, arg.toNat ≤ i → i < arg.toNat + 16 → u.mem.write w i = u.mem i := by
    intro i hlow hhigh
    apply Image.write_of_not_touches
    rintro ⟨h1, h2⟩
    omega
  unfold fetchLen fetchBuf UserSpace.stored
  rw [Image.word_congr fun i h1 h2 => hsame i h1 (by omega),
    Image.word_congr fun i h1 h2 => hsame i (by omega) (by omega)]
  exact ⟨rfl, rfl⟩

end Memory

section Fetched

variable {table : List NodBuffer} {arg len buf : UInt64} {u : UserSpace}

/-- What a fetch of `len` bytes to `buf` leaves there: the buffers that fit, and the structure. -/
theorem read_fetched (hlen : fetchLen u arg = len) (hbuf : fetchBuf u arg = buf)
    (hapart : arg.toNat + 16 ≤ buf.toNat ∨
      buf.toNat + (bytesOf (leading len.toNat table)).length + 16 ≤ arg.toNat)
    (h : (ioctlFetchBuffer table arg u).ret = 0) :
    let st := ioctlFetchBuffer table arg u
    let data := bytesOf (leading len.toNat table)
    fetchLen st.user arg = len ∧ fetchBuf st.user arg = buf ∧
      st.user.mem.read buf.toNat data.length = data ∧
      st.user.mem.read (buf.toNat + data.length) 16 =
        fetchStruct (UInt64.ofNat data.length) buf := by
  have hdone := ioctlFetchBuffer_done h
  have hmem := hdone.mem
  rw [resultAt, resultStruct, fetched, hlen, hbuf, Image.write_append] at hmem
  generalize ioctlFetchBuffer table arg u = st at hmem ⊢
  generalize bytesOf (leading len.toNat table) = data at hapart hmem ⊢
  have hstruct : (fetchStruct (UInt64.ofNat data.length) buf).length = 16 := by
    simp only [fetchStruct, List.length_append, leBytes_length]
  have hstop : Write.stop ⟨buf.toNat, data ++ fetchStruct (UInt64.ofNat data.length) buf⟩ =
      buf.toNat + data.length + 16 := by
    rw [Write.stop, List.length_append, hstruct, ← Nat.add_assoc]
  have huser : st.user.mem = (u.stored
      ⟨buf.toNat, data ++ fetchStruct (UInt64.ofNat data.length) buf⟩).mem := hmem
  obtain ⟨hlen', hbuf'⟩ := @fetch_stored u arg
    ⟨buf.toNat, data ++ fetchStruct (UInt64.ofNat data.length) buf⟩
    (by rw [hstop]; dsimp only; omega)
  dsimp only
  refine ⟨?_, ?_, ?_, ?_⟩
  · rw [fetchLen, huser]
    exact hlen'.trans hlen
  · rw [fetchBuf, huser]
    exact hbuf'.trans hbuf
  · rw [hmem]
    exact Image.read_write_part u.mem buf.toNat [] data _
  · have hread := Image.read_write_part u.mem buf.toNat data
      (fetchStruct (UInt64.ofNat data.length) buf) []
    rw [List.append_nil, hstruct] at hread
    rw [hmem]
    exact hread

/-- A store goes beyond `room` bytes just where the buffers that fit and the structure do. -/
theorem spills_iff (hlen : fetchLen u arg = len) (hbuf : fetchBuf u arg = buf)
    (h : (ioctlFetchBuffer table arg u).ret = 0) {room : Nat} (hroom : len.toNat ≤ room) :
    ((ioctlFetchBuffer table arg u).log.any fun w =>
        decide (w.data ≠ [] ∧ buf.toNat + room < w.stop)) = true ↔
      room < (bytesOf (leading len.toNat table)).length + 16 := by
  obtain ⟨ws, hlog, hin⟩ := (ioctlFetchBuffer_done h).log
  have hle := bytesOf_leading_le len.toNat table
  have hstruct := resultStruct_length table arg u
  have hat : resultAt table arg u = buf.toNat + (bytesOf (leading len.toNat table)).length := by
    rw [resultAt, fetched, hlen, hbuf]
  rw [List.any_eq_true]
  constructor
  · rintro ⟨w, hw, hspills⟩
    obtain ⟨hne, hspills⟩ := of_decide_eq_true hspills
    rw [hlog] at hw
    rcases List.mem_append.mp hw with hw | hw
    · -- one of the copies, which end where the structure starts
      have hpos := List.length_pos_of_ne_nil hne
      have := hin w hw (w.stop - 1) ⟨by simp only [Write.stop]; omega, by omega⟩
      omega
    · obtain rfl := List.mem_singleton.mp hw
      simp only [Write.stop, hstruct] at hspills
      omega
  · intro hspills
    refine ⟨_, hlog ▸ List.mem_append_right _ List.mem_cons_self, decide_eq_true ⟨?_, ?_⟩⟩
    · exact List.ne_nil_of_length_pos (by rw [hstruct]; decide)
    · simp only [Write.stop, hstruct]
      omega

end Fetched

/-! ## What is in the file -/

/-- The records of a thread that are in its buffer, and not in the overflow page. -/
def Counted.buffered (t : Counted) : List (List UInt8) := t.waiting.take t.buf.info.nevents

/-- And of some threads, one after the other. -/
def archived (s : List Counted) : List (List UInt8) := s.flatMap Counted.buffered

/-- The file, where the table was `before` at the first call and `after` at the second, and the buffers of
`pre` fitted: it is as long as the buffers were together, and starts with what those have. -/
structure FetchedFile (before after pre : List Counted) (file : List UInt8) : Prop where
  length : file.length = (bufferCountInfo (buffers before)).unflushedLen
  starts : (archived pre).flatten <+: file
  /-- If there is no more than there was, that is what all threads have. -/
  all : (bufferCountInfo (buffers after)).unflushedLen ≤
    (bufferCountInfo (buffers before)).unflushedLen → pre = after
  /-- If that fills the file, it is read back from there. -/
  reads : (archived pre).flatten.length = file.length → readRecord file = some (archived pre)
  /-- If not, the answer to the call is in the file, behind the records. -/
  stray : (archived pre).flatten.length + 16 ≤ file.length → ∃ buf,
    (file.drop (archived pre).flatten.length).take 16 =
      fetchStruct (UInt64.ofNat (archived pre).flatten.length) buf

section Archive

theorem Counted.Tracks.buffered_eq {t : Counted} {q : Queue (List UInt8)} (h : t.Tracks q) :
    t.buffered = q.main := by
  rw [Counted.buffered, h.waiting_eq, h.holds.nevents, Queue.contents, List.take_left']
  rfl

theorem Tracked.bytesOf_eq {s : List Counted} (h : Tracked s) :
    bytesOf (buffers s) = (archived s).flatten := by
  induction s with
  | nil => rfl
  | cons t s ih =>
    obtain ⟨q, hq⟩ := h t List.mem_cons_self
    have hrest := ih fun x hx => h x (List.mem_cons_of_mem t hx)
    have hbytes : t.buf.bytes = t.buffered.flatten := by
      rw [hq.buffered_eq]
      exact hq.holds.bytes
    rw [archived, List.flatMap_cons, List.flatten_append, ← hbytes]
    exact congrArg (t.buf.bytes ++ ·) hrest

theorem Tracked.archived_framed {s : List Counted} (h : Tracked s) :
    ∀ r ∈ archived s, Framed r := by
  intro r hr
  obtain ⟨t, ht, hr⟩ := List.mem_flatMap.mp hr
  obtain ⟨q, hq⟩ := h t ht
  rw [hq.buffered_eq] at hr
  exact hq.holds.framed r (List.mem_append_left _ hr)

/-- The reported length is that of the buffers. -/
theorem unflushedLen_eq (table : List NodBuffer) :
    (bufferCountInfo table).unflushedLen = (bytesOf table).length := by
  rw [bufferCountInfo_eq]
  induction table with
  | nil => rfl
  | cons b bs ih =>
    dsimp only at ih ⊢
    rw [List.map_cons, List.sum_cons, ih, bytesOf, bytesOf, List.flatMap_cons, List.length_append,
      NodBuffer.bytes_length]

/-- Where there is room for all buffers, all of them fit. -/
theorem leading_all {room : Nat} {table : List NodBuffer} (h : (bytesOf table).length ≤ room) :
    leading room table = table := by
  induction table generalizing room with
  | nil => rfl
  | cons b bs ih =>
    rw [bytesOf, List.flatMap_cons, List.length_append, NodBuffer.bytes_length] at h
    have hrest : leading (room - b.info.tail.toNat) bs = bs := by
      apply ih
      rw [bytesOf]
      omega
    rw [leading, if_pos (by omega), hrest]

/-- The threads whose buffers fit. -/
theorem exists_leading (room : Nat) (s : List Counted) :
    ∃ pre, pre <+: s ∧ buffers pre = leading room (buffers s) := by
  induction s generalizing room with
  | nil => exact ⟨[], List.prefix_rfl, rfl⟩
  | cons t s ih =>
    show ∃ pre, pre <+: t :: s ∧ buffers pre = leading room (t.buf :: buffers s)
    rw [leading]
    split
    · obtain ⟨pre, hpre, heq⟩ := ih (room - t.buf.info.tail.toNat)
      refine ⟨t :: pre, (List.prefix_cons_inj t).mpr hpre, ?_⟩
      rw [← heq]
      rfl
    · exact ⟨[], List.nil_prefix, rfl⟩

/-- If there is no more than there was room for, that is all threads. -/
theorem eq_of_leading {room : Nat} {pre s : List Counted} (hpre : pre <+: s)
    (hfits : buffers pre = leading room (buffers s))
    (hroom : (bufferCountInfo (buffers s)).unflushedLen ≤ room) : pre = s := by
  rw [unflushedLen_eq] at hroom
  rw [leading_all hroom] at hfits
  have hlen := congrArg List.length hfits
  rw [buffers, buffers, List.length_map, List.length_map] at hlen
  exact hpre.eq_of_length hlen

end Archive

section Program

variable {e : CtlEnv} {before after : List NodBuffer} {u : UserSpace}

/-- A `fetch` that reports no error: what it stores, and what it writes. -/
theorem ctlFetch_done (h : ctlFetch e before after u ≠ .failed) :
    ∃ len buf u', len = UInt64.ofNat ((bufferCountInfo before).unflushedLen % 2 ^ 64) ∧
      e.malloc len = some buf ∧ fetchLen u' e.fetch = len ∧ fetchBuf u' e.fetch = buf ∧
      (ioctlFetchBuffer after e.fetch u').ret = 0 ∧
      ctlFetch e before after u =
        if (ioctlFetchBuffer after e.fetch u').log.any fun w =>
            decide (w.data ≠ [] ∧ buf.toNat + e.usable len < w.stop) then .overrun
        else .written ((ioctlFetchBuffer after e.fetch u').user.mem.read
          (fetchBuf (ioctlFetchBuffer after e.fetch u').user e.fetch).toNat
          (fetchLen (ioctlFetchBuffer after e.fetch u').user e.fetch).toNat) := by
  unfold ctlFetch at h ⊢
  dsimp only at h ⊢
  split at h
  · exact absurd rfl h
  rename_i hret
  rw [(ioctl_words (not_not.mp hret)).2.2] at h ⊢
  rw [if_neg hret]
  split at h
  · exact absurd rfl h
  rename_i buf hmalloc
  split at h
  · exact absurd rfl h
  rename_i hfetch
  refine ⟨_, buf, _, rfl, hmalloc, fetchLen_stored, fetchBuf_stored, not_not.mp hfetch, ?_⟩
  rw [if_neg hfetch]
  split at h
  · rename_i hspills
    rw [if_pos hspills, if_pos hspills]
  · rename_i hspills
    rw [if_neg hspills, if_neg hspills]
    split at h
    · rename_i hopen
      rw [if_pos hopen]
    · exact absurd rfl h

/-- How it ends, whatever the tables are. -/
theorem ctlFetch_bytes (hsmall : (bufferCountInfo before).unflushedLen < 2 ^ 64)
    (h : ctlFetch e before after u ≠ .failed) :
    let n := (bufferCountInfo before).unflushedLen
    let data := bytesOf (leading n after)
    (e.usable (UInt64.ofNat n) < data.length + 16 → ctlFetch e before after u = .overrun) ∧
      (data.length + 16 ≤ e.usable (UInt64.ofNat n) → ∃ file,
        ctlFetch e before after u = .written file ∧ file.length = n ∧ data <+: file ∧
          (data.length + 16 ≤ file.length → ∃ buf,
            (file.drop data.length).take 16 = fetchStruct (UInt64.ofNat data.length) buf)) := by
  obtain ⟨len, buf, u', hlen, hmalloc, hu, hb, hret, hends⟩ := ctlFetch_done h
  rw [Nat.mod_eq_of_lt hsmall] at hlen
  have hn : len.toNat = (bufferCountInfo before).unflushedLen := by
    rw [hlen, UInt64.toNat_ofNat_of_lt' hsmall]
  have hspills := @spills_iff after e.fetch len buf u' hu hb hret _ (e.le_usable len)
  have hle := bytesOf_leading_le len.toNat after
  dsimp only
  rw [← hlen, ← hn, hends]
  refine ⟨fun hover => if_pos (hspills.mpr hover), fun hfits => ?_⟩
  have hroom : e.fetch.toNat + 16 ≤ buf.toNat ∨
      buf.toNat + (bytesOf (leading len.toNat after)).length + 16 ≤ e.fetch.toNat := by
    have := e.apart len buf hmalloc
    omega
  obtain ⟨hlen', hbuf', hdata, hstruct⟩ := read_fetched hu hb hroom hret
  rw [if_neg fun hover => absurd (hspills.mp hover) (by omega), hlen', hbuf']
  refine ⟨_, rfl, Image.read_length .., ?_, fun hbehind => ⟨buf, ?_⟩⟩
  · rw [List.prefix_iff_eq_take, Image.take_read _ _ hle, hdata]
  · rw [Image.read_length] at hbehind
    rw [Image.drop_read _ _ hle, Image.take_read _ _ (by omega), hstruct]

end Program

/-- What glibc gives for `len` bytes: whole chunks of 16, of which 8 are its own. -/
def chunkRoom (len : Nat) : Nat := max 32 ((len + 23) / 16 * 16) - 8

theorem le_chunkRoom (len : Nat) : len ≤ chunkRoom len := by
  unfold chunkRoom
  omega

/-- Locals at 4 KiB and 8 KiB, and one piece of memory at 12 KiB. -/
def ctlEnv : CtlEnv where
  cinfo := 0x1000
  fetch := 0x2000
  malloc _ := some 0x3000
  usable len := chunkRoom len.toNat
  fopen := true
  le_usable len := le_chunkRoom len.toNat
  apart len buf h := by
    obtain rfl := Option.some.inj h
    exact .inl (by decide)

/-- Three records of two threads, in 72 bytes. -/
def threeCloses : List CountAct := [enterSmall, enterSmall, recordClose, recordClose,
  .record 1 1 0 (-1) closeEvent ⟨0, 0, 0⟩]

/-- The first thread's monitor reads its two, and one more is recorded. -/
def drainOne : List CountAct := [.drain 0 3, recordClose]

end NoDrop
