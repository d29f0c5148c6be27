import Mathlib.Algebra.BigOperators.Group.List.Basic
import NoDrop.BufferInvariant
import NoDrop.FetchBuffer

/-! # The buffer counters

`NOD_IOCTL_READ_BUFFER_COUNT_INFO` and `read` on the device, in `kmodule/proc.c`: the counters of
the threads in the table, added up.  The table changes as threads come, record, are drained and
exit, and `NOD_IOCTL_CLEAR_BUFFER` resets every buffer of it.  Beside each buffer the model keeps
the history that the counters are to agree with, the records of the thread and those drained.

`event_count` is reset and read, but nothing ever counts an event there (`countsRight_iff`); and
`nevents` and `tail` leave out the record in the overflow page (`unflushed_iff`).
-/
namespace NoDrop

open Bytes Runs

/-! ## The calls -/

/-- `struct buffer_count_info`. -/
structure BufferCountInfo where
  eventCount : Nat
  unflushedCount : Nat
  unflushedLen : Nat

/-- Its bytes. -/
def BufferCountInfo.bytes (info : BufferCountInfo) : List UInt8 :=
  leBytes 8 info.eventCount ++ (leBytes 8 info.unflushedCount ++ leBytes 8 info.unflushedLen)

/-- `__proc_bufcount_read`. -/
def procBufcountRead (b : NodBuffer) (info : BufferCountInfo) : BufferCountInfo × Bool :=
  (⟨info.eventCount + b.eventCount, info.unflushedCount + b.info.nevents,
    info.unflushedLen + b.info.tail.toNat⟩, true)

/-- The counters of the table, from a cleared structure. -/
def bufferCountInfo (table : List NodBuffer) : BufferCountInfo :=
  nodProcTraverse procBufcountRead table ⟨0, 0, 0⟩

/-- What a call leaves: its return value, the caller's memory and the file offset. -/
structure CallResult where
  ret : Int
  user : UserSpace
  off : Nat

/-- `nod_dev_ioctl`, for `NOD_IOCTL_READ_BUFFER_COUNT_INFO`. -/
def ioctlReadBufferCountInfo (table : List NodBuffer) (arg : UInt64) (off : Nat) (u : UserSpace) :
    CallResult :=
  let got := u.copyToUser arg.toNat (bufferCountInfo table).bytes
  ⟨if got.2 ≠ 0 then eFault else 0, u.stored ⟨arg.toNat, got.1⟩, off⟩

/-- `sprintf` with `"%llu"`. -/
def decimal (n : Nat) : List UInt8 := (Nat.toDigits 10 n).map fun c => c.toNat.toUInt8

/-- `BUFSIZE`. -/
def bufSize : Nat := 30

/-- `nod_dev_read`. -/
def nodDevRead (table : List NodBuffer) (buf : UInt64) (count off : Nat) (u : UserSpace) :
    CallResult :=
  if 0 < off ∨ count < bufSize then ⟨0, u, off⟩
  else
    let kbuf := decimal (bufferCountInfo table).eventCount
    let got := u.copyToUser buf.toNat kbuf
    if got.2 ≠ 0 then ⟨eFault, u.stored ⟨buf.toNat, got.1⟩, off⟩
    else ⟨kbuf.length, u.stored ⟨buf.toNat, got.1⟩, kbuf.length⟩

/-! ## The table and its history -/

/-- A thread of the table: its buffer, the records since that was created or cleared, and those
of them that the monitor has been handed. -/
structure Counted where
  buf : NodBuffer
  recorded : List (List UInt8)
  drained : List (List UInt8)

namespace Counted

/-- The records that are not drained yet. -/
def waiting (t : Counted) : List (List UInt8) := t.recorded.diff t.drained

def record (t : Counted) (fuel : Nat) (entryAddr : UInt64) (load : Int) (ev : Event)
    (st : EventStatistic) : Option Counted :=
  let r := doRecordOneEvent fuel entryAddr load ev t.buf st
  r.ret.map fun _ => { t with buf := r.buf, recorded := t.recorded ++ r.record.toList }

def drain (t : Counted) (fuel : Nat) : Option Counted :=
  (nodMonitorMain fuel t.buf).map fun r => { t with buf := r.2, drained := t.drained ++ r.1 }

/-- `__proc_buf_reset`. -/
def clear (t : Counted) : Counted := ⟨t.buf.resetBuffer ⟨true, true⟩, [], []⟩

end Counted

/-- What happens to the table.  A thread enters it anywhere: it is a hash table. -/
inductive CountAct where
  | enter (i : Nat) (size : UInt64) (pages : Region → Image)
  | record (i fuel : Nat) (entryAddr : UInt64) (load : Int) (ev : Event) (st : EventStatistic)
  | drain (i fuel : Nat)
  | clear
  | exit (i : Nat)

/-- A step of one thread. -/
def stepAt (s : List Counted) (i : Nat) (f : Counted → Option Counted) : Option (List Counted) :=
  s[i]?.bind fun t => (f t).map fun t' => s.set i t'

def countStep (s : List Counted) : CountAct → Option (List Counted)
  | .enter i size pages =>
      if i ≤ s.length then
        (NodBuffer.initBuffer size pages).map fun b => s.insertIdx i ⟨b, [], []⟩
      else none
  | .record i fuel entryAddr load ev st => stepAt s i (·.record fuel entryAddr load ev st)
  | .drain i fuel => stepAt s i (·.drain fuel)
  | .clear => some (s.map Counted.clear)
  | .exit i => if i < s.length then some (s.eraseIdx i) else none

/-- The buffers of the table. -/
def buffers (s : List Counted) : List NodBuffer := s.map Counted.buf

/-- What the counters are to be. -/
def countHistory (s : List Counted) : BufferCountInfo where
  eventCount := (s.map fun t => t.recorded.length).sum
  unflushedCount := (s.map fun t => t.waiting.length).sum
  unflushedLen := (s.map fun t => t.waiting.flatten.length).sum

/-- The counters agree with the history, for whoever asks for them and wherever the answer is
to go: every call that succeeds stores them, and every `read` that returns something has stored
the first of them. -/
structure CountsRight (s : List Counted) : Prop where
  ioctl : ∀ arg off u, (ioctlReadBufferCountInfo (buffers s) arg off u).ret = 0 →
    let mem := (ioctlReadBufferCountInfo (buffers s) arg off u).user.mem
    mem.word arg.toNat = (countHistory s).eventCount ∧
      mem.word (arg.toNat + 8) = (countHistory s).unflushedCount ∧
      mem.word (arg.toNat + 16) = (countHistory s).unflushedLen
  read : ∀ buf count off u, 0 < (nodDevRead (buffers s) buf count off u).ret →
    (nodDevRead (buffers s) buf count off u).user.mem.read buf.toNat
      (nodDevRead (buffers s) buf count off u).ret.toNat = decimal (countHistory s).eventCount

/-! ## What the calls return -/

/-- A traversal whose callback never breaks off is a fold. -/
theorem nodProcTraverse_eq_foldl {P S : Type} {func : P → S → S × Bool}
    (h : ∀ p st, (func p st).2 = true) (ps : List P) (st : S) :
    nodProcTraverse func ps st = ps.foldl (fun st p => (func p st).1) st := by
  induction ps generalizing st with
  | nil => rfl
  | cons p ps ih => rw [nodProcTraverse, if_pos (h p st), ih, List.foldl_cons]

theorem bufferCountInfo_eq (table : List NodBuffer) :
    bufferCountInfo table = ⟨(table.map NodBuffer.eventCount).sum,
      (table.map fun b => b.info.nevents).sum, (table.map fun b => b.info.tail.toNat).sum⟩ := by
  have hfold : ∀ (info : BufferCountInfo),
      table.foldl (fun info b => (procBufcountRead b info).1) info =
        ⟨info.eventCount + (table.map NodBuffer.eventCount).sum,
          info.unflushedCount + (table.map fun b => b.info.nevents).sum,
          info.unflushedLen + (table.map fun b => b.info.tail.toNat).sum⟩ := by
    induction table with
    | nil => exact fun _ => rfl
    | cons b bs ih =>
      intro info
      rw [List.foldl_cons, ih]
      simp only [procBufcountRead, List.map_cons, List.sum_cons, Nat.add_assoc]
  rw [bufferCountInfo, nodProcTraverse_eq_foldl fun _ _ => rfl, hfold]
  simp only [Nat.zero_add]

section Calls

variable {table : List NodBuffer} {arg : UInt64} {off : Nat} {u : UserSpace}

/-- The words of the structure that is copied out. -/
theorem ioctl_words (h : (ioctlReadBufferCountInfo table arg off u).ret = 0) :
    let mem := (ioctlReadBufferCountInfo table arg off u).user.mem
    mem.word arg.toNat = (bufferCountInfo table).eventCount % 2 ^ 64 ∧
      mem.word (arg.toNat + 8) = (bufferCountInfo table).unflushedCount % 2 ^ 64 ∧
      mem.word (arg.toNat + 16) = (bufferCountInfo table).unflushedLen % 2 ^ 64 := by
  have hcopy : (u.copyToUser arg.toNat (bufferCountInfo table).bytes).2 = 0 := by
    by_contra hne
    unfold ioctlReadBufferCountInfo at h
    dsimp only at h
    rw [if_pos hne] at h
    exact absurd h (by decide)
  have hmem : (ioctlReadBufferCountInfo table arg off u).user.mem =
      u.mem.write ⟨arg.toNat, (bufferCountInfo table).bytes⟩ := by
    simp only [ioctlReadBufferCountInfo, UserSpace.stored, (UserSpace.copyToUser_done hcopy).1]
  generalize bufferCountInfo table = info at hmem
  obtain ⟨n, k, l⟩ := info
  simp only [BufferCountInfo.bytes] at hmem
  have hn := Image.read_write_part u.mem arg.toNat [] (leBytes 8 n) (leBytes 8 k ++ leBytes 8 l)
  have hk := Image.read_write_part u.mem arg.toNat (leBytes 8 n) (leBytes 8 k) (leBytes 8 l)
  have hl := Image.read_write_part u.mem arg.toNat (leBytes 8 n ++ leBytes 8 k) (leBytes 8 l) []
  simp only [List.nil_append, List.append_nil, List.length_append, List.append_assoc,
    leBytes_length, List.length_nil, Nat.add_zero] at hn hk hl
  dsimp only
  rw [hmem, Image.word, Image.word, Image.word, hn, hk, hl, leNat_leBytes, leNat_leBytes,
    leNat_leBytes]
  exact ⟨rfl, rfl, rfl⟩

theorem read_text {buf : UInt64} {count : Nat} (h : 0 < (nodDevRead table buf count off u).ret) :
    (nodDevRead table buf count off u).user.mem.read buf.toNat
      (nodDevRead table buf count off u).ret.toNat =
        decimal (bufferCountInfo table).eventCount := by
  unfold nodDevRead at h ⊢
  dsimp only at h ⊢
  split at h
  · exact absurd h (show ¬(0 : Int) < 0 by decide)
  rename_i hasked
  split at h
  · exact absurd h (show ¬0 < eFault by decide)
  rename_i hcopy
  rw [if_neg hasked, if_neg hcopy]
  rw [(UserSpace.copyToUser_done (not_not.mp hcopy)).1]
  exact Image.read_write_self u.mem ⟨buf.toNat, decimal (bufferCountInfo table).eventCount⟩

end Calls

/-! ## The history of a run -/

/-- Recording does not count the event. -/
theorem attempts_eventCount (ev : Event) (load : Int) (fuel : Nat) (force restart : Bool)
    (off : Nat) (b : NodBuffer) (st : EventStatistic) :
    (ev.attempts load fuel force restart off b st).buf.eventCount = b.eventCount := by
  induction fuel generalizing force restart off b with
  | zero => rfl
  | succ n ih =>
    simp only [Event.attempts]
    split
    · rfl
    · split
      · exact ih ..
      · simp only [Event.conclude]
        repeat' split
        all_goals rfl

theorem doRecordOneEvent_eventCount (fuel : Nat) (entryAddr : UInt64) (load : Int) (ev : Event)
    (b : NodBuffer) (st : EventStatistic) :
    (doRecordOneEvent fuel entryAddr load ev b st).buf.eventCount = b.eventCount := by
  simp only [doRecordOneEvent, attempts_eventCount]
  unfold NodBuffer.flush
  split <;> rfl

/-- What is left of some records after the first of them. -/
theorem diff_append_left {R : Type} [BEq R] [LawfulBEq R] (xs ys : List R) :
    (xs ++ ys).diff xs = ys := by
  induction xs with
  | nil => rfl
  | cons x xs ih => rw [List.cons_append, List.diff_cons, List.erase_cons_head, ih]

namespace Counted

/-- The buffer holds the records of the thread that are not drained, and has counted none. -/
structure Tracks (t : Counted) (q : Queue (List UInt8)) : Prop where
  uncounted : t.buf.eventCount = 0
  holds : Holds t.buf q
  recorded : t.recorded = t.drained ++ q.contents

variable {t t' : Counted} {q : Queue (List UInt8)}

theorem Tracks.waiting_eq (h : t.Tracks q) : t.waiting = q.contents := by
  rw [waiting, h.recorded, diff_append_left]

theorem tracks_new {size : UInt64} {pages : Region → Image} {b : NodBuffer}
    (h : NodBuffer.initBuffer size pages = some b) : Tracks ⟨b, [], []⟩ ⟨[], none⟩ := by
  refine ⟨?_, initBuffer_holds h, rfl⟩
  unfold NodBuffer.initBuffer at h
  split at h
  · cases h
  · cases h
    rfl

theorem Tracks.record (h : t.Tracks q) {fuel : Nat} {entryAddr : UInt64} {load : Int}
    {ev : Event} {st : EventStatistic} (hsafe : Safe ev t.buf)
    (hr : t.record fuel entryAddr load ev st = some t') : ∃ q', t'.Tracks q' := by
  obtain ⟨ret, hret, rfl⟩ := Option.map_eq_some_iff.mp hr
  obtain ⟨q', hholds, hcontents, -⟩ := record_refines h.holds hsafe (by rw [hret]; simp)
  refine ⟨q', ?_, hholds, ?_⟩
  · exact (doRecordOneEvent_eventCount ..).trans h.uncounted
  · rw [h.recorded, hcontents, List.append_assoc]

theorem Tracks.drain (h : t.Tracks q) {fuel : Nat} (hd : t.drain fuel = some t') :
    ∃ q', t'.Tracks q' := by
  obtain ⟨⟨evts, b⟩, hmain, rfl⟩ := Option.map_eq_some_iff.mp hd
  obtain ⟨rfl, hholds⟩ := nodMonitorMain_holds h.holds hmain
  refine ⟨_, ?_, hholds, ?_⟩
  · obtain ⟨_, -, heq⟩ := Option.map_eq_some_iff.mp hmain
    obtain ⟨-, rfl⟩ := Prod.mk.inj heq
    exact h.uncounted
  · simp only [h.recorded, Queue.contents, List.nil_append, List.append_assoc]

theorem Tracks.clear (h : t.Tracks q) : t.clear.Tracks ⟨[], none⟩ :=
  ⟨rfl, resetBuffer_holds h.holds ⟨true, true⟩, rfl⟩

/-- A thread that has recorded nothing has empty counters. -/
theorem Tracks.of_none_recorded (h : t.Tracks q) (hnone : t.recorded = []) :
    t.buf.info.nevents = 0 ∧ t.buf.info.tail.toNat = 0 ∧ t.waiting = [] := by
  have hcontents : q.contents = [] := (List.append_eq_nil_iff.mp (h.recorded ▸ hnone)).2
  have hmain : q.main = [] := (List.append_eq_nil_iff.mp hcontents).1
  refine ⟨?_, ?_, h.waiting_eq.trans hcontents⟩
  · rw [h.holds.nevents, hmain]
    rfl
  · have hbytes := congrArg List.length h.holds.bytes
    rwa [Image.read_length, hmain] at hbytes

end Counted

/-- Every thread's buffer holds what it is to hold. -/
def Tracked (s : List Counted) : Prop := ∀ t ∈ s, ∃ q, t.Tracks q

/-- The condition on a step: a recording is safe. -/
def SafeRecord (s : List Counted) : CountAct → Prop
  | .record i _ _ _ ev _ => ∀ t ∈ s[i]?, Safe ev t.buf
  | _ => True

instance : ∀ (s : List Counted) (a : CountAct), Decidable (SafeRecord s a)
  | s, .record i _ _ _ ev _ => inferInstanceAs (Decidable (∀ t ∈ s[i]?, Safe ev t.buf))
  | _, .enter .. => inferInstanceAs (Decidable True)
  | _, .drain .. => inferInstanceAs (Decidable True)
  | _, .clear => inferInstanceAs (Decidable True)
  | _, .exit _ => inferInstanceAs (Decidable True)

theorem Tracked.stepAt {s s' : List Counted} {i : Nat} {f : Counted → Option Counted}
    (h : Tracked s) (hf : ∀ t ∈ s[i]?, ∀ t' q, t.Tracks q → f t = some t' → ∃ q', t'.Tracks q')
    (hs : stepAt s i f = some s') : Tracked s' := by
  obtain ⟨t, ht, hmap⟩ := Option.bind_eq_some_iff.mp hs
  obtain ⟨t', ht', rfl⟩ := Option.map_eq_some_iff.mp hmap
  intro x hx
  rcases List.mem_or_eq_of_mem_set hx with hx | rfl
  · exact h x hx
  · obtain ⟨q, hq⟩ := h t (List.mem_of_getElem? ht)
    exact hf t ht _ q hq ht'

/-- One step. -/
theorem Tracked.step {s s' : List Counted} {a : CountAct} (h : Tracked s) (hc : SafeRecord s a)
    (hs : stepOf countStep s a s') : Tracked s' := by
  cases a with
  | enter i size pages =>
    simp only [stepOf, countStep] at hs
    split at hs
    · rename_i hi
      obtain ⟨b, hb, rfl⟩ := Option.map_eq_some_iff.mp hs
      intro x hx
      rcases (List.mem_insertIdx hi).mp hx with rfl | hx
      · exact ⟨_, Counted.tracks_new hb⟩
      · exact h x hx
    · cases hs
  | record i fuel entryAddr load ev st =>
    exact h.stepAt (fun t ht _ _ htracks hr => htracks.record (hc t ht) hr) hs
  | drain i fuel => exact h.stepAt (fun _ _ _ _ htracks hd => htracks.drain hd) hs
  | clear =>
    cases hs
    intro x hx
    obtain ⟨t, ht, rfl⟩ := List.mem_map.mp hx
    obtain ⟨q, hq⟩ := h t ht
    exact ⟨_, hq.clear⟩
  | exit i =>
    simp only [stepOf, countStep] at hs
    split at hs
    · cases hs
      exact fun x hx => h x (List.mem_of_mem_eraseIdx hx)
    · cases hs

/-- A run from the empty table. -/
theorem tracked_of_run {tr : List (List Counted × CountAct)} {s : List Counted}
    (hrun : Run (stepOf countStep) [] tr s) (hc : Meets SafeRecord tr) : Tracked s :=
  hrun.invariant (fun h hc hs => h.step hc hs) (fun _ ht => absurd ht List.not_mem_nil) hc

/-! ## Counters and history -/

theorem sum_map_eq_zero {A : Type} {f : A → Nat} {l : List A} :
    (l.map f).sum = 0 ↔ ∀ x ∈ l, f x = 0 := by
  rw [List.sum_eq_zero_iff_forall_eq_nat]
  simp only [List.mem_map, forall_exists_index, and_imp, forall_apply_eq_imp_iff₂]

section Agree

variable {s : List Counted}

theorem Tracked.eventCount (h : Tracked s) : (bufferCountInfo (buffers s)).eventCount = 0 := by
  rw [bufferCountInfo_eq, buffers, List.map_map]
  refine sum_map_eq_zero.mpr fun t ht => ?_
  obtain ⟨q, hq⟩ := h t ht
  exact hq.uncounted

/-- How many threads have a record in the overflow page. -/
def parkedCount (s : List Counted) : Nat := (s.map fun t => t.buf.filled.toNat).sum

/-- **The count leaves out the overflow pages.** -/
theorem Tracked.unflushedCount (h : Tracked s) :
    (bufferCountInfo (buffers s)).unflushedCount + parkedCount s =
      (countHistory s).unflushedCount := by
  simp only [bufferCountInfo_eq, buffers, List.map_map, parkedCount, countHistory]
  rw [← List.sum_map_add]
  refine congrArg List.sum (List.map_congr_left fun t ht => ?_)
  obtain ⟨q, hq⟩ := h t ht
  rw [Function.comp_apply, hq.holds.nevents, hq.holds.filled, hq.waiting_eq, Queue.contents,
    List.length_append]
  cases q.parked <;> rfl

/-- The counters of the records in the buffers are right just where no page holds one. -/
theorem unflushed_iff (h : Tracked s) :
    ((bufferCountInfo (buffers s)).unflushedCount = (countHistory s).unflushedCount ∧
      (bufferCountInfo (buffers s)).unflushedLen = (countHistory s).unflushedLen) ↔
        ∀ t ∈ s, t.buf.filled = false := by
  have hcount := h.unflushedCount
  have hparked : parkedCount s = 0 ↔ ∀ t ∈ s, t.buf.filled = false := by
    rw [parkedCount, sum_map_eq_zero]
    simp only [Bool.toNat_eq_zero]
  rw [← hparked]
  refine ⟨fun hright => by omega, fun hnone => ⟨by omega, ?_⟩⟩
  simp only [bufferCountInfo_eq, buffers, List.map_map, countHistory]
  refine congrArg List.sum (List.map_congr_left fun t ht => ?_)
  obtain ⟨q, hq⟩ := h t ht
  have hq' : q.parked = none := by
    rw [← Option.isNone_iff_eq_none, ← Option.not_isSome, ← hq.holds.filled]
    simp only [hparked.mp hnone t ht, Bool.not_false]
  have hbytes := congrArg List.length hq.holds.bytes
  rw [Image.read_length] at hbytes
  rw [Function.comp_apply, hbytes, hq.waiting_eq, Queue.contents, hq', Option.toList_none,
    List.append_nil]

/-- With nothing recorded every counter is zero, and so is what it should be. -/
theorem Tracked.none_recorded (h : Tracked s) (hnone : ∀ t ∈ s, t.recorded = []) :
    bufferCountInfo (buffers s) = ⟨0, 0, 0⟩ ∧ countHistory s = ⟨0, 0, 0⟩ := by
  have hzero : ∀ t ∈ s, t.buf.info.nevents = 0 ∧ t.buf.info.tail.toNat = 0 ∧ t.waiting = [] := by
    intro t ht
    obtain ⟨q, hq⟩ := h t ht
    exact hq.of_none_recorded (hnone t ht)
  have hevents := h.eventCount
  rw [bufferCountInfo_eq] at hevents ⊢
  simp only [buffers, List.map_map, countHistory, BufferCountInfo.mk.injEq] at hevents ⊢
  refine ⟨⟨hevents, ?_, ?_⟩, ?_, ?_, ?_⟩ <;> refine sum_map_eq_zero.mpr fun t ht => ?_
  · exact (hzero t ht).1
  · exact (hzero t ht).2.1
  · rw [hnone t ht, List.length_nil]
  · rw [(hzero t ht).2.2, List.length_nil]
  · rw [(hzero t ht).2.2, List.flatten_nil, List.length_nil]

theorem Tracked.countsRight (h : Tracked s) (hnone : ∀ t ∈ s, t.recorded = []) :
    CountsRight s := by
  obtain ⟨hinfo, hhistory⟩ := h.none_recorded hnone
  refine ⟨fun arg off u hret => ?_, fun buf count off u hret => ?_⟩
  · have hwords := ioctl_words hret
    rw [hinfo] at hwords
    rw [hhistory]
    exact hwords
  · rw [read_text hret, hinfo, hhistory]

/-- Someone asks, with room for the answer. -/
theorem ioctl_succeeds (table : List NodBuffer) :
    (ioctlReadBufferCountInfo table 0 0 (requestSpace 0 0)).ret = 0 := by
  have hlen : (bufferCountInfo table).bytes.length = 24 := by
    simp only [BufferCountInfo.bytes, List.length_append, leBytes_length]
  have hcopy : ((requestSpace 0 0).copyToUser 0 (bufferCountInfo table).bytes).2 = 0 := by
    rw [UserSpace.copyToUser, hlen, if_neg (by decide), if_pos (by decide)]
  simp only [ioctlReadBufferCountInfo]
  exact if_neg (not_not.mpr hcopy)

theorem Tracked.none_of_countsRight (h : Tracked s) (hright : CountsRight s) :
    ∀ t ∈ s, t.recorded = [] := by
  have hret := ioctl_succeeds (buffers s)
  have hword := (ioctl_words hret).1
  rw [(hright.ioctl _ _ _ hret).1, h.eventCount, Nat.zero_mod] at hword
  exact fun t ht => List.eq_nil_of_length_eq_zero (sum_map_eq_zero.mp hword t ht)

end Agree

/-- **The counters are right only as long as there is nothing to count**: in every run whose
recordings are safe they agree with the history just where no thread of the table has recorded
anything since its buffer was created or cleared. -/
theorem countsRight_iff {tr : List (List Counted × CountAct)} {s : List Counted}
    (hrun : Run (stepOf countStep) [] tr s) (hsafe : Meets SafeRecord tr) :
    CountsRight s ↔ ∀ t ∈ s, t.recorded = [] :=
  have htracked := tracked_of_run hrun hsafe
  ⟨htracked.none_of_countsRight, htracked.countsRight⟩

/-! ## A thread that records one event -/

/-- A new thread. -/
def newThread : Counted := ⟨smallBuffer, [], []⟩

def enterSmall : CountAct := .enter 0 4096 fun _ _ => 0

/-- The recording of one `close`. -/
def recordClose : CountAct := .record 0 1 0 (-1) closeEvent ⟨0, 0, 0⟩

theorem enter_step : stepOf countStep [] enterSmall [newThread] := by
  simp only [stepOf, countStep, enterSmall, initBuffer_small]
  rfl

theorem recordClose_step :
    ∃ t, stepOf countStep [newThread] recordClose [t] ∧ t.recorded ≠ [] := by
  obtain ⟨-, hfit⟩ := filledTo_zero.close (by decide) 0 0 (-1) ⟨0, 0, 0⟩
  rw [Nat.zero_add] at hfit
  generalize hr : doRecordOneEvent 1 0 (-1) closeEvent smallBuffer ⟨0, 0, 0⟩ = r at hfit
  obtain ⟨bs, hbs⟩ := Option.isSome_iff_exists.mp hfit.record
  have hrec : newThread.record 1 0 (-1) closeEvent ⟨0, 0, 0⟩ = some ⟨r.buf, [bs], []⟩ := by
    simp only [Counted.record, newThread, hr, hbs]
    rcases hfit.ret with hret | hret <;> rw [hret] <;> rfl
  refine ⟨⟨r.buf, [bs], []⟩, ?_, List.cons_ne_nil _ _⟩
  simp only [stepOf, countStep, recordClose, stepAt, List.getElem?_cons_zero, Option.bind_some,
    hrec, Option.map_some, List.set_cons_zero]

/-- It is safe: the buffer is empty and has room for it. -/
theorem recordClose_safe : SafeRecord [newThread] recordClose := by
  intro t ht
  obtain rfl := Option.mem_some.mp ht
  obtain ⟨hroom, hs, -⟩ := filledTo_zero.fits (by decide)
  exact (safe_of_fits rfl hroom (by decide) hs).1

/-- After a thread has recorded and all buffers are cleared. -/
theorem countsRight_iff_cleared : ∃ tr s, Run (stepOf countStep) [] tr s ∧ s ≠ [] ∧
    CountsRight s := by
  obtain ⟨t, hstep, -⟩ := recordClose_step
  have hrun : Run (stepOf countStep) [] _ [t.clear] :=
    ((Run.nil.snoc enter_step).snoc hstep).snoc (show stepOf countStep [t] .clear _ from rfl)
  refine ⟨_, _, hrun, List.cons_ne_nil _ _, (countsRight_iff hrun ?_).mpr ?_⟩
  · refine meets_snoc.mpr ⟨meets_snoc.mpr ⟨meets_snoc.mpr ⟨meets_nil, trivial⟩, ?_⟩, trivial⟩
    exact recordClose_safe
  · intro x hx
    obtain rfl := List.mem_singleton.mp hx
    rfl

/-- **One event recorded, and none counted.** -/
theorem event_not_counted : ¬∀ tr s, Run (stepOf countStep) [] tr s → CountsRight s := by
  intro hall
  obtain ⟨t, hstep, hrecorded⟩ := recordClose_step
  have hrun := (Run.nil.snoc enter_step).snoc hstep
  have hsafe : Meets SafeRecord [([], enterSmall), ([newThread], recordClose)] :=
    meets_snoc.mpr ⟨meets_snoc.mpr ⟨meets_nil, trivial⟩, recordClose_safe⟩
  have hnone := (tracked_of_run hrun hsafe).none_of_countsRight (hall _ _ hrun)
  exact hrecorded (hnone t List.mem_cons_self)

end NoDrop
