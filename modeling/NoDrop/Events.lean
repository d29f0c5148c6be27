import NoDrop.BufferQueue
import NoDrop.FillersTable

/-! # Events of system calls

The event `record_one_event` makes of a system call, and what recording does to the
counters when the event fits: enough to follow a thread that makes many small system
calls without looking at the bytes.
-/
namespace NoDrop

open Bytes

/-- The event of a system call whose row of `g_nod_events` is translated, recorded by
thread 1 on CPU 0 at time 0. -/
def Syscall.event (s : Syscall) (ty : EventType) (force : Bool) : Event where
  type := ty
  ts := 0
  tid := 1
  cpuid := 0
  force := force
  um := s.um
  filler := (nodFillerCallback s ty).getD (.ret nodFailureBug)

/-- The event of a system call, as `record_one_event` passes it on. -/
def Syscall.traced (k : Kernel) (s : Syscall) (ts : UInt64) (tid : UInt32) (cpuid : UInt16)
    (force : Bool) : Event where
  type := gSyscallEventTable s.nr.toNat
  ts := ts
  tid := tid
  cpuid := cpuid
  force := force
  um := s.um
  filler := (fillerCallback k s (gSyscallEventTable s.nr.toNat)).filler

/-- A system call with all registers zero, in an address space with nothing mapped. -/
def Syscall.idle : Syscall where
  arg _ := 0
  ret := 0
  nr := 0
  um := ⟨fun _ => none, 0, fun _ _ => 0⟩
  strStorage := 0xffff888000000000

/-- `close(0)`, which is recorded in 48 bytes. -/
def closeEvent : Event := Syscall.idle.event .syscallClose false

/-- A filler that starts with an integer argument for which there is room. -/
theorem run_push_scalar {ty : EventType} {um : UserMem} {v : Value} {next : Filler ty}
    {i off size : Nat} (w : Nat) (hn : i < (gEventInfo ty).nparams)
    (ht : ((gEventInfo ty).param i).type.width = some w) (hpos : 0 < w)
    (hroom : w ≤ min size nodMaxArgSize) (hw : off + w < 2 ^ 32) :
    (Filler.push v next).run um ⟨i, off, size⟩ =
      { next.run um ⟨i + 1, off + w, size - w⟩ with
        out := [slot i 0, ⟨off, leBytes w v.val.toNat⟩, slot i w] ++
          (next.run um ⟨i + 1, off + w, size - w⟩).out } := by
  have h : valToRing ty um v ⟨i, off, size⟩ = _ := valToRing_scalar hn ht hpos hroom hw
  rw [Filler.run_push_of_success (by rw [h]), h]

theorem closeEvent_attempt (size : Nat) (h : 20 ≤ size) (hs : size < 2 ^ 32) :
    closeEvent.Succeeds (closeEvent.attempt size 4) ∧
      (closeEvent.attempt size 4).args.argDataOffset = 20 := by
  have hsize : (size + 2 ^ 32 - 4) % 2 ^ 32 = size - 4 := by omega
  have hmax : nodMaxArgSize = 65000 := rfl
  have hrun : closeEvent.attempt size 4 =
      (Filler.push { val := 0, fromuser := true } (.push { val := 0 } (.ret nodSuccess)) :
        Filler .syscallClose).run Syscall.idle.um ⟨0, 4, size - 4⟩ := by
    rw [Event.attempt, hsize]
    rfl
  rw [hrun, run_push_scalar 8 (by decide) (by decide) (by decide) (by omega) (by decide),
    run_push_scalar 8 (by decide) (by decide) (by decide) (by omega) (by decide)]
  exact ⟨⟨rfl, rfl⟩, rfl⟩

/-! ## A record that fits -/

section Fits

variable {ev : Event} {b : NodBuffer} {fuel : Nat} {entryAddr : UInt64} {load : Int}
  {st : EventStatistic}

/-- A call with nothing parked that needs one attempt. -/
theorem doRecordOneEvent_of_done (hf : b.filled = false) {code : Int}
    (hres : (ev.tryOnce false (2 * ev.nargs) b).run.res = some code)
    (hc : code ≠ nodFailureBufferFull) :
    doRecordOneEvent (fuel + 1) entryAddr load ev b st =
      ev.conclude load (ev.force || entryAddr = 0 ||
        (ev.tryOnce false (2 * ev.nargs) b).place.region = .overflow)
        (ev.tryOnce false (2 * ev.nargs) b) code st := by
  simp [doRecordOneEvent, NodBuffer.flush, NodBuffer.flushLog, hf,
    Event.attempts_of_done hres hc]

theorem conclude_ret {force : Bool} {t : Attempt} {code : Int} :
    (ev.conclude load force t code st).ret = some load ∨
      (ev.conclude load force t code st).ret = some code := by
  simp only [Event.conclude]
  repeat' split
  all_goals simp

theorem place_eq_atTail (hoff : 2 * ev.nargs + hdrSize ≤ b.freespace) :
    b.place (2 * ev.nargs) false = b.atTail := by
  simp only [NodBuffer.place, Bool.false_eq_true, or_false]
  rw [if_neg (by omega)]
  rfl

/-- What a recording that fits in the buffer leaves, with nothing parked before. -/
structure Fitted (ev : Event) (b : NodBuffer) (load : Int) (st : EventStatistic) (r : Recorded) :
    Prop where
  ret : r.ret = some load ∨ r.ret = some nodSuccess
  record : r.record.isSome
  filled : r.buf.filled = false
  overflow : r.buf.mem .overflow = b.mem .overflow
  info : r.buf.info = { b.info with
    tail := UInt32.ofNat (b.info.tail.toNat +
      (hdrSize + (ev.attempt b.atTail.size (2 * ev.nargs)).args.argDataOffset))
    nevents := b.info.nevents + 1 }
  stat : r.stat = { st with nEvts := st.nEvts + 1 }

theorem record_fits (fuel : Nat) (entryAddr : UInt64) (load : Int) (st : EventStatistic)
    (hf : b.filled = false) (hoff : 2 * ev.nargs + hdrSize ≤ b.freespace)
    (hs : ev.Succeeds (ev.attempt b.atTail.size (2 * ev.nargs))) :
    Fitted ev b load st (doRecordOneEvent (fuel + 1) entryAddr load ev b st) := by
  have hp := place_eq_atTail hoff
  have hrun : (ev.tryOnce false (2 * ev.nargs) b).run = ev.attempt b.atTail.size (2 * ev.nargs) := by
    rw [Event.tryOnce_run, hp]
  have hbf : (ev.tryOnce false (2 * ev.nargs) b).buf.filled = false := by
    rw [Event.tryOnce_filled, hp, hf]
    rfl
  rw [doRecordOneEvent_of_done hf (hrun ▸ hs.1) (by decide)]
  refine ⟨conclude_ret, ?_, ?_, ?_, ?_, ?_⟩
  · rw [Event.conclude_record (hrun ▸ hs)]
    rfl
  · rw [Event.conclude_buf_main (hrun ▸ hs) hbf]
    exact hbf
  · rw [Event.conclude_buf_main (hrun ▸ hs) hbf]
    exact ev.lenStored_mem_other hp (by decide) (by simp [NodBuffer.atTail])
  · rw [Event.conclude_buf_main (hrun ▸ hs) hbf, hrun, Event.tryOnce_info]
  · exact Event.conclude_stat_main (hrun ▸ hs) hbf

/-- Recording an event that fits calls `nod_load_monitor` if that is asked for, or if the
monitor has never been loaded. -/
theorem record_fits_forced (fuel : Nat) (load : Int) (st : EventStatistic)
    (hf : b.filled = false) (hoff : 2 * ev.nargs + hdrSize ≤ b.freespace)
    (hs : ev.Succeeds (ev.attempt b.atTail.size (2 * ev.nargs)))
    (hforce : ev.force = true ∨ entryAddr = 0) :
    (doRecordOneEvent (fuel + 1) entryAddr load ev b st).forced = true ∧
      (doRecordOneEvent (fuel + 1) entryAddr load ev b st).ret = some load := by
  have hrun : (ev.tryOnce false (2 * ev.nargs) b).run = ev.attempt b.atTail.size (2 * ev.nargs) := by
    rw [Event.tryOnce_run, place_eq_atTail hoff]
  have hforced : (ev.force || decide (entryAddr = 0)) = true := by
    rcases hforce with h | h <;> simp [h]
  rw [doRecordOneEvent_of_done hf (hrun ▸ hs.1) (by decide), hforced, Bool.true_or]
  exact Event.conclude_forced (hrun ▸ hs)

/-- An event that fits keeps out of every trap. -/
theorem safe_of_fits (hf : b.filled = false) (hoff : 2 * ev.nargs + hdrSize ≤ b.freespace)
    (hw : b.info.tail.toNat + b.freespace < 2 ^ 32)
    (hs : ev.Succeeds (ev.attempt b.atTail.size (2 * ev.nargs))) :
    Safe ev b ∧ CleanRestart ev b ∧ NotParked ev b := by
  have hflush : b.flush = b := by simp [NodBuffer.flush, hf]
  have hp := place_eq_atTail hoff
  have hfull : (ev.attempt b.atTail.size (2 * ev.nargs)).res ≠ some nodFailureBufferFull := by
    rw [hs.1]
    decide
  refine ⟨⟨?_, ?_, ?_, ?_⟩, ?_, ?_⟩
  · intro h
    rw [hf] at h
    cases h
  · rw [hflush]
    exact hw
  · rw [hflush, hp]
    intro h
    cases h
  · rw [hflush]
    exact fun _ h => absurd h hfull
  · rw [CleanRestart, hflush]
    exact fun _ h => absurd h hfull
  · rw [NotParked, hflush]
    exact ⟨hp, hfull⟩

/-- What a recording that is parked leaves, with nothing parked before. -/
structure Parked (b : NodBuffer) (load : Int) (st : EventStatistic) (r : Recorded) : Prop where
  ret : r.ret = some load ∨ r.ret = some nodSuccess
  record : r.record.isSome
  filled : r.buf.filled = true
  info : r.buf.info = b.info
  stat : r.stat = st

theorem record_parks (fuel : Nat) (entryAddr : UInt64) (load : Int) (st : EventStatistic)
    (hf : b.filled = false) (hp : b.place (2 * ev.nargs) false = .page)
    (hs : ev.Succeeds (ev.attempt Place.page.size (2 * ev.nargs))) :
    Parked b load st (doRecordOneEvent (fuel + 1) entryAddr load ev b st) := by
  have hrun : (ev.tryOnce false (2 * ev.nargs) b).run =
      ev.attempt Place.page.size (2 * ev.nargs) := by
    rw [Event.tryOnce_run, hp]
  have hbf : (ev.tryOnce false (2 * ev.nargs) b).buf.filled = true := by
    rw [Event.tryOnce_filled, hp]
    simp [Place.page]
  rw [doRecordOneEvent_of_done hf (hrun ▸ hs.1) (by decide)]
  refine ⟨conclude_ret, ?_, ?_, ?_, ?_⟩
  · rw [Event.conclude_record (hrun ▸ hs)]
    rfl
  · rw [Event.conclude_buf_parked (hrun ▸ hs) hbf]
    exact hbf
  · rw [Event.conclude_buf_parked (hrun ▸ hs) hbf]
    rfl
  · exact Event.conclude_stat_parked (hrun ▸ hs) hbf

/-- Recording an event for which the buffer has no room for a header, by a filler that
fails: the page counts as filled, with whatever length it had. -/
theorem record_fails_in_page (fuel : Nat) (entryAddr : UInt64) (load : Int) (st : EventStatistic)
    (hf : b.filled = false) (hp : b.place (2 * ev.nargs) false = .page) {code : Int}
    (hres : (ev.attempt Place.page.size (2 * ev.nargs)).res = some code)
    (hfull : code ≠ nodFailureBufferFull) (hs : code ≠ nodSuccess) :
    ((doRecordOneEvent (fuel + 1) entryAddr load ev b st).ret = some load ∨
        (doRecordOneEvent (fuel + 1) entryAddr load ev b st).ret = some code) ∧
      (doRecordOneEvent (fuel + 1) entryAddr load ev b st).buf.filled = true ∧
      hdrLen ((doRecordOneEvent (fuel + 1) entryAddr load ev b st).buf.mem .overflow) =
        hdrLen (b.mem .overflow) := by
  have hrun : (ev.tryOnce false (2 * ev.nargs) b).run.res = some code := by
    rw [Event.tryOnce_run, hp]
    exact hres
  have hnot : ¬ ev.Succeeds (ev.tryOnce false (2 * ev.nargs) b).run := by
    rintro ⟨h, -⟩
    exact hs (Option.some.inj (hrun.symm.trans h))
  rw [doRecordOneEvent_of_done hf hrun hfull, (Event.conclude_of_not_succeeds hrun hnot).2]
  refine ⟨conclude_ret, ?_, ?_⟩
  · rw [Event.tryOnce_filled, hp]
    simp [Place.page]
  · have hm := ev.tryOnce_mem_self false (2 * ev.nargs) b (by rw [hp]; decide)
    rw [hp] at hm
    simp only [Place.page] at hm
    rw [hdrLen, hm, Write.map_shift_zero, Image.read_writes_of_untouched, hdrLen]
    intro w hw i hi
    exact Event.stores_not_touch_len _ hw hi

end Fits

/-! ## A thread that closes descriptors -/

/-- A buffer of one page, on cleared pages, after `n` recordings of `close`. -/
structure FilledTo (n : Nat) (b : NodBuffer) : Prop where
  filled : b.filled = false
  tail : b.info.tail.toNat = 48 * n
  nevents : b.info.nevents = n
  bufferSize : b.info.bufferSize = 4096
  overflow : b.mem .overflow = fun _ => 0

namespace FilledTo

variable {n : Nat} {b : NodBuffer}

theorem freespace (h : FilledTo n b) (hn : 48 * n ≤ 4096) : b.freespace = 4096 - 48 * n := by
  have hs : b.info.bufferSize.toNat = 4096 := by rw [h.bufferSize]; rfl
  rw [NodBuffer.freespace_eq (by rw [h.tail, hs]; exact hn), h.tail, hs]
  omega

/-- After 85 of them an event has no room for its header. -/
theorem place_eq_page (h : FilledTo 85 b) (off : Nat) : b.place off false = .page := by
  rw [NodBuffer.place, h.freespace (by omega), if_pos (Or.inl (by simp only [hdrSize]; omega))]

/-- There is room for another one. -/
theorem fits (h : FilledTo n b) (hn : 48 * (n + 1) ≤ 4096) :
    2 * closeEvent.nargs + hdrSize ≤ b.freespace ∧
      closeEvent.Succeeds (closeEvent.attempt b.atTail.size (2 * closeEvent.nargs)) ∧
      (closeEvent.attempt b.atTail.size (2 * closeEvent.nargs)).args.argDataOffset = 20 := by
  have hfree := h.freespace (by omega)
  have hat : b.atTail.size = 4096 - 48 * n - 28 := by simp [NodBuffer.atTail, hfree, hdrSize]
  have hnargs : 2 * closeEvent.nargs = 4 := rfl
  rw [hnargs, hfree]
  refine ⟨?_, closeEvent_attempt b.atTail.size (by omega) (by omega)⟩
  simp only [hdrSize]
  omega

/-- Recording it. -/
theorem close (h : FilledTo n b) (hn : 48 * (n + 1) ≤ 4096) (fuel : Nat) (entryAddr : UInt64)
    (load : Int) (st : EventStatistic) :
    FilledTo (n + 1) (doRecordOneEvent (fuel + 1) entryAddr load closeEvent b st).buf ∧
      Fitted closeEvent b load st (doRecordOneEvent (fuel + 1) entryAddr load closeEvent b st) := by
  obtain ⟨hroom, hs, hoff⟩ := h.fits hn
  have hfit := record_fits fuel entryAddr load st h.filled hroom hs
  refine ⟨⟨hfit.filled, ?_, ?_, ?_, ?_⟩, hfit⟩
  · rw [hfit.info, hoff, h.tail]
    exact UInt32.toNat_ofNat_of_lt' (by simp only [hdrSize, UInt32.size]; omega)
  · rw [hfit.info]
    exact congrArg (· + 1) h.nevents
  · rw [hfit.info]
    exact h.bufferSize
  · rw [hfit.overflow]
    exact h.overflow

end FilledTo

/-- The smallest buffer, on cleared pages. -/
def smallBuffer : NodBuffer :=
  NodBuffer.resetBuffer
    { info := ⟨0, 0, 0, 4096⟩, mem := Function.update (fun _ _ => 0) .buffer fun _ => 0,
      filled := false, eventCount := 0, allocated := 4096 } ⟨true, true⟩

theorem initBuffer_small : NodBuffer.initBuffer 4096 (fun _ _ => 0) = some smallBuffer := by
  rfl

theorem filledTo_zero : FilledTo 0 smallBuffer := ⟨rfl, rfl, rfl, rfl, rfl⟩

end NoDrop
