import NoDrop.Records

/-! # The buffer as a queue of records

What the buffer is for: a queue of records waiting for the monitor, of which the last
may be parked in the overflow page (`Queue`).  `Holds b q` says that the memory of `b`
represents `q`.

`do_record_one_event` does not refine "append the record if there is one" in every
state: the flush overwrites whatever the buffer holds, and the page counts as filled
before its record is there.  `Safe ev b` collects what keeps a call out of these
traps, and `record_refines` is the refinement under it.
-/
namespace NoDrop

open Bytes

/-! ## The abstract queue -/

/-- Records waiting for the monitor: those in the buffer, and one parked. -/
structure Queue (R : Type) where
  main : List R
  parked : Option R

namespace Queue

variable {R : Type}

/-- The records in the order in which they were recorded. -/
def contents (q : Queue R) : List R := q.main ++ q.parked.toList

/-- The parked record joins the others. -/
def flush (q : Queue R) : Queue R := ⟨q.contents, none⟩

@[simp] theorem contents_flush (q : Queue R) : q.flush.contents = q.contents := by
  simp [flush, contents]

end Queue

/-! ## The representation -/

/-- The buffer's memory holds exactly the records of the queue. -/
structure Holds (b : NodBuffer) (q : Queue (List UInt8)) : Prop where
  bytes : (b.mem .buffer).read 0 b.info.tail.toNat = q.main.flatten
  nevents : b.info.nevents = q.main.length
  framed : ∀ r ∈ q.contents, Framed r
  filled : b.filled = q.parked.isSome
  parked : ∀ r ∈ q.parked,
    (b.mem .overflow).read 0 (hdrLen (b.mem .overflow)) = r ∧ r.length ≤ pageSize
  tail_le : b.info.tail.toNat ≤ b.info.bufferSize.toNat
  page_le : pageSize ≤ b.info.bufferSize.toNat

/-- A buffer with no bytes in it holds no record. -/
theorem Holds.main_eq_nil {b : NodBuffer} {q : Queue (List UInt8)} (h : Holds b q)
    (ht : b.info.tail = 0) : q.main = [] := by
  have hb := h.bytes
  rw [ht] at hb
  cases hm : q.main with
  | nil => rfl
  | cons r rs =>
    have hr := (h.framed r (by simp [Queue.contents, hm])).hdr
    have hl := congrArg List.length hb
    simp only [hm, Image.read_length, List.flatten_cons, List.length_append] at hl
    simp only [hdrSize] at hr
    change 0 = _ at hl
    omega

theorem initBuffer_holds {size : UInt64} {pages : Region → Image} {b : NodBuffer}
    (h : NodBuffer.initBuffer size pages = some b) : Holds b ⟨[], none⟩ := by
  unfold NodBuffer.initBuffer at h
  split at h
  · cases h
  · rename_i hsize
    cases h
    have h0 : size.toNat ≠ 0 := fun h0 => hsize (Or.inr (UInt64.toNat_inj.mp h0))
    have hp : size.toNat % pageSize = 0 := by
      by_contra hne
      exact hsize (Or.inl hne)
    refine ⟨rfl, rfl, by simp [Queue.contents], rfl, by simp, Nat.zero_le _, ?_⟩
    simp only [pageSize] at hp ⊢
    change 4096 ≤ size.toNat
    omega

theorem resetBuffer_holds {b : NodBuffer} {q : Queue (List UInt8)} (h : Holds b q)
    (flags : InitFlags) :
    Holds (b.resetBuffer flags) (if flags.info then ⟨[], none⟩ else q) := by
  obtain ⟨info, count⟩ := flags
  cases info with
  | true =>
    cases count <;>
      exact ⟨rfl, rfl, by simp [Queue.contents], rfl, by simp, Nat.zero_le _, h.page_le⟩
  | false =>
    cases count <;>
      exact ⟨h.bytes, h.nevents, h.framed, h.filled, h.parked, h.tail_le, h.page_le⟩

/-! ## The flush -/

/-- A flush into a drained buffer loses nothing. -/
theorem flush_holds {b : NodBuffer} {q : Queue (List UInt8)} (h : Holds b q)
    (hd : b.filled → b.info.tail = 0) : Holds b.flush q.flush := by
  by_cases hf : b.filled
  · obtain ⟨r, hr⟩ : ∃ r, q.parked = some r := Option.isSome_iff_exists.mp (h.filled ▸ hf)
    obtain ⟨hread, hle⟩ := h.parked r hr
    have hmain := h.main_eq_nil (hd hf)
    have hlen : hdrLen (b.mem .overflow) = r.length := by
      rw [← hread, Image.read_length]
    have htail : (UInt32.ofNat r.length).toNat = r.length :=
      UInt32.toNat_ofNat_of_lt' (Nat.lt_of_le_of_lt hle (by decide))
    have hcontents : q.contents = [r] := by simp [Queue.contents, hmain, hr]
    have hpage := h.page_le
    simp only [NodBuffer.flush, hf, if_true, Queue.flush, hcontents, hlen]
    refine ⟨?_, by simp [h.nevents, hmain], ?_, rfl, by simp, ?_, hpage⟩
    · simp only [htail, Function.update_self, hlen ▸ hread]
      have := Image.read_write_self (b.mem .buffer) ⟨0, r⟩
      simpa using this
    · intro s hs
      refine h.framed s ?_
      rw [hcontents]
      simpa [Queue.contents] using hs
    · simp only [htail]
      omega
  · have hnone : q.parked = none := by
      simpa [h.filled] using hf
    have hq : q.flush = q := by
      obtain ⟨main, parked⟩ := q
      simp_all [Queue.flush, Queue.contents]
    rw [NodBuffer.flush, if_neg hf, hq]
    exact h

/-- After the flush nothing is parked. -/
theorem flush_filled (b : NodBuffer) : b.flush.filled = false := by
  unfold NodBuffer.flush
  split
  · rfl
  · simp_all

/-! ## One attempt -/

/-- The place at `tail` in the buffer. -/
def NodBuffer.atTail (b : NodBuffer) : Place :=
  ⟨.buffer, b.info.tail.toNat, b.freespace - hdrSize⟩

/-- The two outcomes of the choice at `restart:`. -/
theorem NodBuffer.place_cases (b : NodBuffer) (off : Nat) (restart : Bool) :
    b.place off restart = .page ∨
      (restart = false ∧ off + hdrSize ≤ b.freespace ∧ b.place off restart = b.atTail) := by
  unfold place
  split
  · exact Or.inl rfl
  · rename_i h
    refine Or.inr ⟨?_, ?_, rfl⟩
    · cases restart <;> simp_all
    · omega

@[simp] theorem NodBuffer.place_restart (b : NodBuffer) (off : Nat) :
    b.place off true = .page := by
  simp [place]

/-- The buffer after a successful attempt, up to the counters. -/
def Attempt.lenStored (t : Attempt) : NodBuffer :=
  t.buf.write t.place.region
    [(lenStore (hdrSize + t.run.args.argDataOffset)).shift t.place.base]

namespace Event

variable (ev : Event) (restart : Bool) (off : Nat) (b : NodBuffer)

@[simp] theorem tryOnce_place : (ev.tryOnce restart off b).place = b.place off restart := rfl

@[simp] theorem tryOnce_run :
    (ev.tryOnce restart off b).run = ev.attempt (b.place off restart).size off := rfl

@[simp] theorem tryOnce_info : (ev.tryOnce restart off b).buf.info = b.info := rfl

@[simp] theorem tryOnce_filled : (ev.tryOnce restart off b).buf.filled =
    (b.filled || (b.place off restart).region = .overflow) := rfl

/-- The attempt's region after its stores. -/
theorem tryOnce_mem_self (h : (b.place off restart).region ≠ .strStorage) :
    (ev.tryOnce restart off b).buf.mem (b.place off restart).region =
      (b.mem (b.place off restart).region).writes
        ((ev.stores (ev.tryOnce restart off b).run).map
          (Write.shift (b.place off restart).base)) := by
  simp [tryOnce, NodBuffer.write_mem_of_ne _ _ h]

/-- The other region is left alone. -/
theorem tryOnce_mem_other {r : Region} (h : r ≠ .strStorage)
    (hr : r ≠ (b.place off restart).region) :
    (ev.tryOnce restart off b).buf.mem r = b.mem r := by
  simp [tryOnce, NodBuffer.write_mem_of_ne _ _ h, NodBuffer.write_mem_of_ne _ _ hr]

variable {restart off b} {p : Place}

/-- The region of a successful attempt holds its record at the attempt's place. -/
theorem lenStored_mem (hp : b.place off restart = p) (h : p.region ≠ .strStorage) :
    (ev.tryOnce restart off b).lenStored.mem p.region =
      (b.mem p.region).writes ((ev.stores (ev.attempt p.size off) ++
        [lenStore (hdrSize + (ev.attempt p.size off).args.argDataOffset)]).map
          (Write.shift p.base)) := by
  subst hp
  rw [Attempt.lenStored, tryOnce_place, NodBuffer.write_mem_self, tryOnce_mem_self _ _ _ _ h,
    tryOnce_run, List.map_append, Image.writes_append, List.map_singleton]

/-- The record read back at its place is the record at the front of an image. -/
theorem lenStored_read (hp : b.place off restart = p) (h : p.region ≠ .strStorage) (n : Nat) :
    ((ev.tryOnce restart off b).lenStored.mem p.region).read p.base n =
      (ev.imageOf (ev.attempt p.size off) fun j => b.mem p.region (p.base + j)).read 0 n := by
  rw [ev.lenStored_mem hp h]
  apply Image.read_congr
  intro i _
  rw [Image.writes_shift, imageOf, Nat.zero_add]

/-- The other region is as it was. -/
theorem lenStored_mem_other (hp : b.place off restart = p) {r : Region} (h : r ≠ .strStorage)
    (hr : r ≠ p.region) : (ev.tryOnce restart off b).lenStored.mem r = b.mem r := by
  subst hp
  rw [Attempt.lenStored, tryOnce_place, NodBuffer.write_mem_of_ne _ _ hr,
    tryOnce_mem_other _ _ _ _ h hr]

/-! ### The end of the call -/

variable {ev} {load : Int} {force : Bool} {t : Attempt} {st : EventStatistic}

/-- An attempt that did not fill in its record changes nothing more. -/
theorem conclude_of_not_succeeds {code : Int} (hres : t.run.res = some code)
    (h : ¬ ev.Succeeds t.run) :
    (ev.conclude load force t code st).record = none ∧
      (ev.conclude load force t code st).buf = t.buf := by
  simp only [conclude]
  split
  · split
    · rename_i hc hn
      exact absurd ⟨by rw [hres, hc], hn⟩ h
    · exact ⟨rfl, rfl⟩
  · exact ⟨rfl, rfl⟩

theorem conclude_record (h : ev.Succeeds t.run) :
    (ev.conclude load force t nodSuccess st).record =
      some ((t.lenStored.mem t.place.region).read t.place.base
        (hdrSize + t.run.args.argDataOffset)) := by
  simp only [conclude, h.2, if_true, Attempt.lenStored]
  split <;> rfl

theorem conclude_forced (h : ev.Succeeds t.run) :
    (ev.conclude load true t nodSuccess st).forced = true ∧
      (ev.conclude load true t nodSuccess st).ret = some load := by
  cases hf : t.buf.filled <;> simp [conclude, h.2, hf]

theorem conclude_buf_parked (h : ev.Succeeds t.run) (hf : t.buf.filled = true) :
    (ev.conclude load force t nodSuccess st).buf = t.lenStored := by
  simp [conclude, h.2, hf, Attempt.lenStored]

theorem conclude_stat_parked (h : ev.Succeeds t.run) (hf : t.buf.filled = true) :
    (ev.conclude load force t nodSuccess st).stat = st := by
  simp [conclude, h.2, hf]

theorem conclude_stat_main (h : ev.Succeeds t.run) (hf : t.buf.filled = false) :
    (ev.conclude load force t nodSuccess st).stat = { st with nEvts := st.nEvts + 1 } := by
  simp [conclude, h.2, hf]

theorem conclude_buf_main (h : ev.Succeeds t.run) (hf : t.buf.filled = false) :
    (ev.conclude load force t nodSuccess st).buf =
      { t.lenStored with info := { t.buf.info with
          tail := UInt32.ofNat (t.buf.info.tail.toNat + (hdrSize + t.run.args.argDataOffset))
          nevents := t.buf.info.nevents + 1 } } := by
  simp [conclude, h.2, hf, Attempt.lenStored]

end Event

/-! ## What an attempt does to the queue -/

section Attempt

variable {ev : Event} {b : NodBuffer} {q : Queue (List UInt8)} {off : Nat} {restart : Bool}
  {load : Int} {force : Bool} {st : EventStatistic}

/-- An attempt in the buffer leaves the queue as it is until its record is counted. -/
theorem tryOnce_holds_main (ev : Event) (h : Holds b q) (hp : b.place off restart = b.atTail) :
    Holds (ev.tryOnce restart off b).buf q := by
  have hself := ev.tryOnce_mem_self restart off b (by simp [hp, NodBuffer.atTail])
  have hother := ev.tryOnce_mem_other restart off b (r := .overflow) (by decide)
    (by simp [hp, NodBuffer.atTail])
  refine ⟨?_, h.nevents, h.framed, ?_, ?_, h.tail_le, h.page_le⟩
  · rw [hp] at hself
    rw [Event.tryOnce_info, ← h.bytes]
    change ((ev.tryOnce restart off b).buf.mem b.atTail.region).read _ _ = _
    rw [hself]
    -- every store is past the tail
    apply Image.read_writes_of_untouched
    intro w hw i hi
    obtain ⟨v, -, rfl⟩ := List.mem_map.mp hw
    simp only [Write.Touches, Write.shift, NodBuffer.atTail]
    omega
  · rw [Event.tryOnce_filled, hp]
    simpa [NodBuffer.atTail] using h.filled
  · rw [hother]
    exact h.parked

/-- A successful attempt in the buffer appends its record. -/
theorem conclude_holds_main (h : Holds b q) (hq : q.parked = none)
    (hp : b.place off restart = b.atTail) (hoff : off + hdrSize ≤ b.freespace)
    (hw : b.info.tail.toNat + b.freespace < 2 ^ 32)
    (hs : ev.Succeeds (ev.attempt b.atTail.size off)) :
    ∃ bs, (ev.conclude load force (ev.tryOnce restart off b) nodSuccess st).record = some bs ∧
      (off = 2 * ev.nargs → Complete bs) ∧
      Holds (ev.conclude load force (ev.tryOnce restart off b) nodSuccess st).buf
        ⟨q.main ++ [bs], none⟩ := by
  have hsize : b.atTail.size = b.freespace - hdrSize := rfl
  have hbase : b.atTail.base = b.info.tail.toNat := rfl
  have hle : b.freespace ≤ b.info.bufferSize.toNat - b.info.tail.toNat := by
    rw [NodBuffer.freespace_eq h.tail_le]
    exact Nat.mod_le ..
  have htl := h.tail_le
  have hsound := ev.attempt_sound b.atTail.size off (by omega) (by omega)
  have hroom := hsound.room
  simp only at hroom
  have hrun : (ev.tryOnce restart off b).run = ev.attempt b.atTail.size off := by
    rw [Event.tryOnce_run, hp]
  have hf : (ev.tryOnce restart off b).buf.filled = false := by
    rw [Event.tryOnce_filled, hp, h.filled, hq]
    rfl
  have hread := fun n => ev.lenStored_read hp (by simp [NodBuffer.atTail]) n
  -- the records before the new one
  have hold : ((ev.tryOnce restart off b).lenStored.mem b.atTail.region).read 0
      b.info.tail.toNat = q.main.flatten := by
    rw [ev.lenStored_mem hp (by simp [NodBuffer.atTail]), ← h.bytes]
    apply Image.read_writes_of_untouched
    intro w hw i hi
    obtain ⟨v, -, rfl⟩ := List.mem_map.mp hw
    simp only [Write.Touches, Write.shift, hbase]
    omega
  have htail : (UInt32.ofNat (b.info.tail.toNat +
      (hdrSize + (ev.attempt b.atTail.size off).args.argDataOffset))).toNat =
      b.info.tail.toNat + (hdrSize + (ev.attempt b.atTail.size off).args.argDataOffset) :=
    UInt32.toNat_ofNat_of_lt' (by simp only [UInt32.size]; omega)
  refine ⟨_, Event.conclude_record (by rwa [hrun]), ?_, ?_⟩
  · rintro rfl
    rw [Event.tryOnce_place, hp, hrun, hread]
    exact Event.imageOf_complete hs (by omega) (by omega) _
  · rw [Event.conclude_buf_main (by rwa [hrun]) hf, Event.tryOnce_place, hp, hrun,
      Event.tryOnce_info]
    refine ⟨?_, by simp [h.nevents], ?_, hf, by simp, ?_, h.page_le⟩
    · simp only [htail]
      change ((ev.tryOnce restart off b).lenStored.mem b.atTail.region).read _ _ = _
      rw [Image.read_add, Nat.zero_add, hold, List.flatten_append, List.flatten_singleton, hbase]
    · intro r hr
      simp only [Queue.contents, Option.toList_none, List.append_nil, List.mem_append,
        List.mem_singleton] at hr
      rcases hr with hr | rfl
      · exact h.framed r (List.mem_append_left _ hr)
      · rw [hread]
        exact Event.imageOf_framed hsound (by omega) (by omega) _
    · simp only [htail]
      omega

/-- A successful attempt in the overflow page parks its record. -/
theorem conclude_holds_page (h : Holds b q) (hp : b.place off restart = .page)
    (hoff : off ≤ Place.page.size) (hs : ev.Succeeds (ev.attempt Place.page.size off)) :
    ∃ bs, (ev.conclude load force (ev.tryOnce restart off b) nodSuccess st).record = some bs ∧
      (off = 2 * ev.nargs → Complete bs) ∧
      Holds (ev.conclude load force (ev.tryOnce restart off b) nodSuccess st).buf
        ⟨q.main, some bs⟩ := by
  have hsize : hdrSize + Place.page.size = pageSize := by decide
  have hlt : pageSize < 2 ^ 32 := by decide
  have hsound := ev.attempt_sound Place.page.size off hoff (by omega)
  have hroom := hsound.room
  simp only at hroom
  have hrun : (ev.tryOnce restart off b).run = ev.attempt Place.page.size off := by
    rw [Event.tryOnce_run, hp]
  have hf : (ev.tryOnce restart off b).buf.filled = true := by
    rw [Event.tryOnce_filled, hp]
    simp [Place.page]
  have himg : (ev.tryOnce restart off b).lenStored.mem Place.page.region =
      ev.imageOf (ev.attempt Place.page.size off) (b.mem .overflow) := by
    rw [ev.lenStored_mem hp (by decide)]
    simp [Place.page, Event.imageOf]
  have hhdr : hdrLen (ev.imageOf (ev.attempt Place.page.size off) (b.mem .overflow)) =
      hdrSize + (ev.attempt Place.page.size off).args.argDataOffset := by
    rw [hdrLen, Event.read_imageOf_len, leNat_leBytes_of_lt (by omega)]
  have hbase : Place.page.base = 0 := rfl
  refine ⟨_, Event.conclude_record (by rwa [hrun]), ?_, ?_⟩
  · rintro rfl
    rw [Event.tryOnce_place, hp, hrun, hbase, himg]
    exact Event.imageOf_complete hs (by omega) (by omega) _
  · rw [Event.conclude_buf_parked (by rwa [hrun]) hf, Event.tryOnce_place, hp, hrun, hbase, himg]
    refine ⟨?_, h.nevents, ?_, hf, ?_, h.tail_le, h.page_le⟩
    · rw [ev.lenStored_mem_other hp (by decide) (by decide)]
      exact h.bytes
    · intro r hr
      simp only [Queue.contents, Option.toList_some, List.mem_append, List.mem_singleton] at hr
      rcases hr with hr | rfl
      · exact h.framed r (List.mem_append_left _ hr)
      · exact Event.imageOf_framed hsound hoff (by omega) _
    · intro r hr
      obtain rfl := Option.mem_some.mp hr
      change ((ev.tryOnce restart off b).lenStored.mem Place.page.region).read 0
        (hdrLen ((ev.tryOnce restart off b).lenStored.mem Place.page.region)) = _ ∧ _
      rw [himg, hhdr]
      exact ⟨rfl, by rw [Image.read_length]; omega⟩

end Attempt

/-! ## The whole call -/

namespace Event

variable {ev : Event} {load : Int} {force restart : Bool} {off fuel : Nat} {b : NodBuffer}
  {st : EventStatistic}

/-- An attempt that runs out of room is followed by one in the overflow page. -/
theorem attempts_of_full (h : (ev.tryOnce restart off b).run.res = some nodFailureBufferFull) :
    ev.attempts load (fuel + 1) force restart off b st =
      let t := ev.tryOnce restart off b
      let r := ev.attempts load fuel (force || t.place.region = .overflow) true
        t.run.args.argDataOffset t.buf st
      { r with log := t.log ++ r.log } := by
  simp only [attempts, h, if_true]

/-- Any other attempt that returns is the last. -/
theorem attempts_of_done {code : Int} (h : (ev.tryOnce restart off b).run.res = some code)
    (hc : code ≠ nodFailureBufferFull) :
    ev.attempts load (fuel + 1) force restart off b st =
      ev.conclude load (force || (ev.tryOnce restart off b).place.region = .overflow)
        (ev.tryOnce restart off b) code st := by
  simp only [attempts, h, hc, if_false]

/-- What a loop that returns did: its first attempt returned, and was the last or ran
out of room. -/
theorem attempts_cases (h : (ev.attempts load fuel force restart off b st).ret ≠ none) :
    ∃ n code, fuel = n + 1 ∧ (ev.tryOnce restart off b).run.res = some code := by
  cases fuel with
  | zero => exact absurd rfl h
  | succ n =>
    cases hr : (ev.tryOnce restart off b).run.res with
    | none =>
      simp only [attempts, hr] at h
      exact absurd rfl h
    | some code => exact ⟨n, code, rfl, rfl⟩

end Event

/-- **What keeps a call out of the traps.**  The flush finds the buffer drained; the free
space, as computed in 32 bits, does not take `tail` past `2 ^ 32` (it never does in a
buffer smaller than that); and an attempt made in the overflow page fills in its record,
starting inside the page. -/
structure Safe (ev : Event) (b : NodBuffer) : Prop where
  drained : b.filled → b.info.tail = 0
  noWrap : b.flush.info.tail.toNat + b.flush.freespace < 2 ^ 32
  page : b.flush.place (2 * ev.nargs) false = .page →
    ev.Succeeds (ev.attempt Place.page.size (2 * ev.nargs))
  restart : b.flush.place (2 * ev.nargs) false = b.flush.atTail →
    (ev.attempt b.flush.atTail.size (2 * ev.nargs)).res = some nodFailureBufferFull →
    (ev.attempt b.flush.atTail.size (2 * ev.nargs)).args.argDataOffset ≤ Place.page.size ∧
      ev.Succeeds (ev.attempt Place.page.size
        (ev.attempt b.flush.atTail.size (2 * ev.nargs)).args.argDataOffset)

/-- An attempt in the buffer that runs out of room has not laid down anything yet. -/
def CleanRestart (ev : Event) (b : NodBuffer) : Prop :=
  b.flush.place (2 * ev.nargs) false = b.flush.atTail →
    (ev.attempt b.flush.atTail.size (2 * ev.nargs)).res = some nodFailureBufferFull →
    (ev.attempt b.flush.atTail.size (2 * ev.nargs)).args.argDataOffset = 2 * ev.nargs

/-- The event is not parked: there is room for its header, and the attempt does not run
out of room. -/
def NotParked (ev : Event) (b : NodBuffer) : Prop :=
  b.flush.place (2 * ev.nargs) false = b.flush.atTail ∧
    (ev.attempt b.flush.atTail.size (2 * ev.nargs)).res ≠ some nodFailureBufferFull

instance (ev : Event) (b : NodBuffer) : Decidable (Safe ev b) :=
  decidable_of_iff
    ((b.filled → b.info.tail = 0) ∧
      b.flush.info.tail.toNat + b.flush.freespace < 2 ^ 32 ∧
      (b.flush.place (2 * ev.nargs) false = .page →
        ev.Succeeds (ev.attempt Place.page.size (2 * ev.nargs))) ∧
      (b.flush.place (2 * ev.nargs) false = b.flush.atTail →
        (ev.attempt b.flush.atTail.size (2 * ev.nargs)).res = some nodFailureBufferFull →
        (ev.attempt b.flush.atTail.size (2 * ev.nargs)).args.argDataOffset ≤ Place.page.size ∧
          ev.Succeeds (ev.attempt Place.page.size
            (ev.attempt b.flush.atTail.size (2 * ev.nargs)).args.argDataOffset)))
    ⟨fun ⟨h1, h2, h3, h4⟩ => ⟨h1, h2, h3, h4⟩, fun ⟨h1, h2, h3, h4⟩ => ⟨h1, h2, h3, h4⟩⟩

instance (ev : Event) (b : NodBuffer) : Decidable (NotParked ev b) :=
  inferInstanceAs (Decidable (_ ∧ _))

section Record

variable {ev : Event} {b : NodBuffer} {q : Queue (List UInt8)} {load : Int} {force : Bool}
  {fuel : Nat} {st : EventStatistic}

/-- What a call does to the queue: it appends its record, if it has one.  Under `C` the
record is complete. -/
def Appends (C : Prop) (q : Queue (List UInt8)) (r : Recorded) : Prop :=
  ∃ q', Holds r.buf q' ∧ q'.contents = q.contents ++ r.record.toList ∧
    (C → ∀ bs ∈ r.record, Complete bs)

theorem nargs_le_page (ev : Event) : 2 * ev.nargs ≤ Place.page.size := by
  have h := ev.nargs_le
  have hp : Place.page.size = 4068 := by decide
  simp only [nodMaxEventParams] at h
  omega

theorem succeeds_code {r : FillerRun} (h : ev.Succeeds r) {code : Int} (hc : r.res = some code) :
    code = nodSuccess :=
  Option.some.inj (hc.symm.trans h.1)

/-- The last attempt in the overflow page. -/
theorem appends_page {off : Nat} {restart : Bool} (h : Holds b q) (hq : q.parked = none)
    (hp : b.place off restart = .page) (hoff : off ≤ Place.page.size)
    (hs : ev.Succeeds (ev.attempt Place.page.size off)) :
    Appends (off = 2 * ev.nargs) q
      (ev.attempts load (fuel + 1) force restart off b st) := by
  have hrun : (ev.tryOnce restart off b).run.res = some nodSuccess := by
    rw [Event.tryOnce_run, hp]
    exact hs.1
  rw [Event.attempts_of_done hrun (by decide)]
  obtain ⟨bs, hrec, hcomp, hholds⟩ := conclude_holds_page h hp hoff hs
  refine ⟨_, hholds, ?_, ?_⟩
  · rw [hrec]
    simp [Queue.contents, hq]
  · intro hc r hr
    rw [hrec] at hr
    obtain rfl := Option.mem_some.mp hr
    exact hcomp hc

/-- The attempts of a call, from a buffer with nothing parked. -/
theorem attempts_appends (h : Holds b.flush q) (hq : q.parked = none) (hs : Safe ev b)
    (hret : (ev.attempts load fuel force false (2 * ev.nargs) b.flush st).ret ≠ none) :
    Appends (CleanRestart ev b) q
      (ev.attempts load fuel force false (2 * ev.nargs) b.flush st) := by
  obtain ⟨n, code, rfl, hres⟩ := Event.attempts_cases hret
  rcases b.flush.place_cases (2 * ev.nargs) false with hp | ⟨-, hoff, hp⟩
  · -- no room for a header: straight to the page
    obtain ⟨q', h1, h2, h3⟩ :=
      appends_page h hq hp (nargs_le_page ev) (hs.page hp)
    exact ⟨q', h1, h2, fun _ => h3 rfl⟩
  have hrun : (ev.tryOnce false (2 * ev.nargs) b.flush).run =
      ev.attempt b.flush.atTail.size (2 * ev.nargs) := by
    rw [Event.tryOnce_run, hp]
  have hmain := tryOnce_holds_main ev h hp
  by_cases hc : code = nodFailureBufferFull
  · -- no room for the arguments: once more, in the page
    subst hc
    have hres' := hres
    rw [hrun] at hres'
    obtain ⟨hin, hsucc⟩ := hs.restart hp hres'
    rw [Event.attempts_of_full hres] at hret ⊢
    obtain ⟨m, -, rfl, -⟩ := Event.attempts_cases hret
    simp only [hrun]
    obtain ⟨q', h1, h2, h3⟩ :=
      appends_page hmain hq (NodBuffer.place_restart ..) hin hsucc
    exact ⟨q', h1, h2, fun hclean => h3 (hclean hp hres')⟩
  · rw [Event.attempts_of_done hres hc]
    by_cases hsucc : ev.Succeeds (ev.attempt b.flush.atTail.size (2 * ev.nargs))
    · obtain rfl := succeeds_code hsucc (hrun ▸ hres)
      obtain ⟨bs, hrec, hcomp, hholds⟩ := conclude_holds_main h hq hp hoff hs.noWrap hsucc
      refine ⟨_, hholds, ?_, ?_⟩
      · rw [hrec]
        simp [Queue.contents, hq]
      · intro _ r hr
        rw [hrec] at hr
        obtain rfl := Option.mem_some.mp hr
        exact hcomp rfl
    · obtain ⟨hrec, hbuf⟩ := Event.conclude_of_not_succeeds hres (hrun ▸ hsucc)
      refine ⟨q, ?_, ?_, ?_⟩
      · rw [hbuf]
        exact hmain
      · rw [hrec]
        simp
      · intro _ r hr
        rw [hrec] at hr
        simp at hr

/-- **Recording refines appending**: a safe call that returns appends its record to the
queue, if it filled one in, and otherwise leaves the queue as it is. -/
theorem record_refines {entryAddr : UInt64} (h : Holds b q) (hs : Safe ev b)
    (hret : (doRecordOneEvent fuel entryAddr load ev b st).ret ≠ none) :
    Appends (CleanRestart ev b) q (doRecordOneEvent fuel entryAddr load ev b st) := by
  obtain ⟨q', h1, h2, h3⟩ := attempts_appends (flush_holds h hs.drained) rfl hs hret
  exact ⟨q', h1, by rw [h2, Queue.contents_flush]; rfl, h3⟩

end Record

end NoDrop
