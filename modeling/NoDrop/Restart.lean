import NoDrop.BufferInvariant

/-! # The restart in the overflow page

An attempt in the buffer that returns `NOD_FAILURE_BUFFER_FULL` is made again in the
overflow page, and so is one in the page.  `curarg` and `arg_data_size` are set anew at
`restart:`, `arg_data_offset` is not.

So the second attempt is the one a clean start in the page would be exactly when the
first has laid down nothing (`restartsCleanly_iff`), and the call returns within its two
attempts exactly when the second does not run out of room in its turn
(`returnsInTwo_iff`).  A filler that runs out of room whatever room it has goes round for ever.
-/
namespace NoDrop

open Bytes

/-! ## Attempts in terms of room -/

namespace Event

variable (ev : Event) (size off : Nat)

theorem attempt_outOfRoom : (ev.attempt size off).res = some nodFailureBufferFull ↔
    ev.filler.OutOfRoom ev.um 0 (argDataSize size off) :=
  Filler.run_outOfRoom ..

theorem attempt_runsAway : (ev.attempt size off).res = none ↔
    ev.filler.RunsAway ev.um 0 (argDataSize size off) :=
  Filler.run_runsAway ..

theorem attempt_taken (h : off ≤ size) (hs : size < 2 ^ 32) :
    (ev.attempt size off).args.argDataOffset =
      off + ev.filler.taken ev.um 0 (argDataSize size off) := by
  have hd := argDataSize_eq h hs
  refine Filler.run_taken ev.filler ⟨0, off, argDataSize size off⟩ ?_
  simp only [hd]
  omega

/-- The bytes of arguments the first attempt lays down in the buffer. -/
def laidDown (b : NodBuffer) : Nat :=
  ev.filler.taken ev.um 0 (argDataSize b.flush.atTail.size (2 * ev.nargs))

variable {ev} {b : NodBuffer}

theorem restart_offset (hp : b.flush.place (2 * ev.nargs) false = b.flush.atTail) :
    (ev.attempt b.flush.atTail.size (2 * ev.nargs)).args.argDataOffset =
      2 * ev.nargs + ev.laidDown b := by
  have hlt := b.flush.freespace_lt
  have hsize : b.flush.atTail.size = b.flush.freespace - hdrSize := rfl
  rcases b.flush.place_cases (2 * ev.nargs) false with hpage | ⟨-, hoff, -⟩
  · rw [hp] at hpage
    cases hpage
  · exact ev.attempt_taken _ _ (by omega) (by omega)

/-- The record the last attempt leaves, if it fills one in. -/
theorem attempts_record {load : Int} {force restart : Bool} {st : EventStatistic} {off fuel : Nat}
    {c : NodBuffer} {p : Place} {code : Int} (hp : c.place off restart = p)
    (hreg : p.region ≠ .strStorage) (hres : (ev.attempt p.size off).res = some code)
    (hc : code ≠ nodFailureBufferFull) :
    (ev.attempts load (fuel + 1) force restart off c st).record =
      if ev.Succeeds (ev.attempt p.size off) then
        some ((ev.imageOf (ev.attempt p.size off) fun j => c.mem p.region (p.base + j)).read 0
          (hdrSize + (ev.attempt p.size off).args.argDataOffset))
      else none := by
  have hrun : (ev.tryOnce restart off c).run = ev.attempt p.size off := by
    rw [tryOnce_run, hp]
  rw [attempts_of_done (hrun ▸ hres) hc]
  split
  · rename_i hs
    obtain rfl := succeeds_code hs hres
    rw [conclude_record (hrun ▸ hs), tryOnce_place, hp, ev.lenStored_read hp hreg, hrun]
  · rename_i hs
    exact (conclude_of_not_succeeds (hrun ▸ hres) (hrun ▸ hs)).1

/-- The record a single attempt in the page leaves, if it fills one in. -/
theorem attempts_page_record {load : Int} {force : Bool} {st : EventStatistic} (off : Nat)
    (c : NodBuffer) :
    (ev.attempts load 1 force true off c st).record =
      if ev.Succeeds (ev.attempt Place.page.size off) then
        some ((ev.imageOf (ev.attempt Place.page.size off) (c.mem .overflow)).read 0
          (hdrSize + (ev.attempt Place.page.size off).args.argDataOffset))
      else none := by
  have hrun : (ev.tryOnce true off c).run = ev.attempt Place.page.size off := by
    rw [tryOnce_run, NodBuffer.place_restart]
  have hnot : ∀ res, res ≠ some nodSuccess → (ev.attempt Place.page.size off).res = res →
      ¬ ev.Succeeds (ev.attempt Place.page.size off) := by
    rintro res hne hres ⟨h, -⟩
    exact hne (hres.symm.trans h)
  cases hres : (ev.attempt Place.page.size off).res with
  | none =>
    rw [if_neg (hnot _ (by decide) hres)]
    simp only [attempts, hrun, hres]
  | some code =>
    by_cases hfull : code = nodFailureBufferFull
    · subst hfull
      rw [if_neg (hnot _ (by decide) hres), attempts_of_full (hrun ▸ hres)]
      rfl
    · have himg : (fun j => c.mem Place.page.region (Place.page.base + j)) = c.mem .overflow := by
        funext j
        simp [Place.page]
      rw [attempts_record (NodBuffer.place_restart c off) (by decide) hres hfull, himg]

end Event

/-! ## A clean restart -/

section Restart

variable (ev : Event) (b : NodBuffer) (entryAddr : UInt64) (load : Int) (st : EventStatistic)

/-- The attempt in the buffer, as the restart finds it. -/
def Event.first : Attempt := ev.tryOnce false (2 * ev.nargs) b.flush

/-- `args` at the start of the second attempt. -/
def Event.restartArgs : RingArgs :=
  ⟨0, (ev.first b).run.args.argDataOffset,
    argDataSize Place.page.size (ev.first b).run.args.argDataOffset⟩

/-- The second attempt is as good as a single one in the page: it leaves the same record,
its arguments end inside the page and so do its stores. -/
structure RestartsCleanly : Prop where
  record : (doRecordOneEvent 2 entryAddr load ev b st).record =
    (ev.attempts load 1 true true (2 * ev.nargs) b.flush st).record
  room : (ev.restartArgs b).argDataOffset + (ev.restartArgs b).argDataSize ≤ Place.page.size
  inside : ∀ x ∈ (ev.tryOnce true (ev.restartArgs b).argDataOffset (ev.first b).buf).log,
    x.1 = .overflow → x.2.stop ≤ pageSize

variable {ev b entryAddr load st}

theorem restartArgs_offset (hp : b.flush.place (2 * ev.nargs) false = b.flush.atTail) :
    (ev.restartArgs b).argDataOffset = 2 * ev.nargs + ev.laidDown b := by
  rw [Event.restartArgs, Event.first, Event.tryOnce_run, hp, Event.restart_offset hp]

theorem restartArgs_size (hp : b.flush.place (2 * ev.nargs) false = b.flush.atTail) :
    (ev.restartArgs b).argDataSize =
      argDataSize Place.page.size (2 * ev.nargs + ev.laidDown b) := by
  rw [← restartArgs_offset hp]
  rfl

/-- The record of the restarted call. -/
theorem restart_record (entryAddr : UInt64) (load : Int) (st : EventStatistic)
    (hp : b.flush.place (2 * ev.nargs) false = b.flush.atTail)
    (hfull : (ev.attempt b.flush.atTail.size (2 * ev.nargs)).res = some nodFailureBufferFull) :
    (doRecordOneEvent 2 entryAddr load ev b st).record =
      (ev.attempts load 1 true true (2 * ev.nargs + ev.laidDown b) b.flush st).record := by
  have hmem : (ev.tryOnce false (2 * ev.nargs) b.flush).buf.mem .overflow =
      b.flush.mem .overflow :=
    ev.tryOnce_mem_other false (2 * ev.nargs) b.flush (by decide)
      (by simp [hp, NodBuffer.atTail])
  have hrun : (ev.tryOnce false (2 * ev.nargs) b.flush).run =
      ev.attempt b.flush.atTail.size (2 * ev.nargs) := by
    rw [Event.tryOnce_run, hp]
  simp only [doRecordOneEvent]
  rw [Event.attempts_of_full (by rw [hrun]; exact hfull)]
  simp only [hrun, Event.restart_offset hp, Event.attempts_page_record, hmem]

/-- An attempt that starts inside the page stays inside it. -/
theorem tryOnce_page_inside {off : Nat} {c : NodBuffer} (hle : off ≤ Place.page.size)
    {x : Region × Write} (hx : x ∈ (ev.tryOnce true off c).log) (ho : x.1 = .overflow) :
    x.2.stop ≤ pageSize := by
  have hsize : hdrSize + Place.page.size = pageSize := by decide
  have hlt : pageSize < 2 ^ 32 := by decide
  have hsound := ev.attempt_sound Place.page.size off hle (by omega)
  simp only [Event.tryOnce, NodBuffer.place_restart, logAt, List.mem_append, List.mem_map] at hx
  rcases hx with ⟨w, hw, rfl⟩ | ⟨w, -, rfl⟩
  · have := Event.stores_stop_le hsound hle (nargs_le_page ev) w hw
    simp only [Write.stop_shift, Place.page] at this ⊢
    simp only [Place.page] at hsize
    omega
  · cases ho

/-- A clean restart after some arguments were laid down leaves no record. -/
theorem RestartsCleanly.laidDown_or (h : RestartsCleanly ev b entryAddr load st)
    (hp : b.flush.place (2 * ev.nargs) false = b.flush.atTail)
    (hfull : (ev.attempt b.flush.atTail.size (2 * ev.nargs)).res = some nodFailureBufferFull) :
    ev.laidDown b = 0 ∨
      (2 * ev.nargs + ev.laidDown b ≤ Place.page.size ∧
        ¬ ev.Succeeds (ev.attempt Place.page.size (2 * ev.nargs + ev.laidDown b)) ∧
        ¬ ev.Succeeds (ev.attempt Place.page.size (2 * ev.nargs))) := by
  have hn := nargs_le_page ev
  have hlt : Place.page.size < 2 ^ 32 := by decide
  have hin : 2 * ev.nargs + ev.laidDown b ≤ Place.page.size := by
    have hroom := h.room
    rw [restartArgs_size hp, restartArgs_offset hp] at hroom
    omega
  by_cases hz : ev.laidDown b = 0
  · exact Or.inl hz
  refine Or.inr ⟨hin, ?_⟩
  have he := h.record
  rw [restart_record entryAddr load st hp hfull, Event.attempts_page_record,
    Event.attempts_page_record] at he
  by_cases hs : ev.Succeeds (ev.attempt Place.page.size (2 * ev.nargs + ev.laidDown b)) <;>
    by_cases hs' : ev.Succeeds (ev.attempt Place.page.size (2 * ev.nargs))
  · rw [if_pos hs, if_pos hs'] at he
    have hstart := (Event.start_eq_of_record_eq hin hn hlt hlt (by omega) (Nat.le_refl _) hs hs'
      (Option.some.inj he)).1
    omega
  · rw [if_pos hs, if_neg hs'] at he
    cases he
  · rw [if_neg hs, if_pos hs'] at he
    cases he
  · exact ⟨hs, hs'⟩

/-- **When a restart equals a clean attempt.**  The first attempt has laid down no
argument bytes; or it has, but not past the page, and the filler fills in no record
there, neither from where the first attempt stopped nor from the start. -/
theorem restartsCleanly_iff (hp : b.flush.place (2 * ev.nargs) false = b.flush.atTail)
    (hfull : (ev.attempt b.flush.atTail.size (2 * ev.nargs)).res = some nodFailureBufferFull) :
    RestartsCleanly ev b entryAddr load st ↔
      ev.laidDown b = 0 ∨
        (2 * ev.nargs + ev.laidDown b ≤ Place.page.size ∧
          ¬ ev.Succeeds (ev.attempt Place.page.size (2 * ev.nargs + ev.laidDown b)) ∧
          ¬ ev.Succeeds (ev.attempt Place.page.size (2 * ev.nargs))) := by
  refine ⟨fun h => h.laidDown_or hp hfull, fun h => ?_⟩
  have hn := nargs_le_page ev
  have hin : 2 * ev.nargs + ev.laidDown b ≤ Place.page.size := by
    rcases h with hz | ⟨hin, -⟩ <;> omega
  refine ⟨?_, ?_, ?_⟩
  · rw [restart_record entryAddr load st hp hfull]
    rcases h with hz | ⟨-, hs, hs'⟩
    · rw [hz, Nat.add_zero]
    · rw [Event.attempts_page_record, Event.attempts_page_record, if_neg hs, if_neg hs']
  · rw [restartArgs_size hp, restartArgs_offset hp, argDataSize_eq hin (by decide)]
    omega
  · intro x hx ho
    rw [restartArgs_offset hp] at hx
    exact tryOnce_page_inside hin hx ho

end Restart

/-- The same buffer, filled to another point. -/
def NodBuffer.withTail (b : NodBuffer) (tail : UInt32) : NodBuffer :=
  { b with info := { b.info with tail := tail } }

/-- With 36 bytes free `close` has room for its header and not for its first argument:
it is restarted cleanly. -/
theorem restartsCleanly_close :
    RestartsCleanly closeEvent (smallBuffer.withTail 4060) 0 0 ⟨0, 0, 0⟩ :=
  (restartsCleanly_iff (place_eq_atTail (by decide)) (by decide)).mpr (Or.inl (by decide))

/-- **A restart may leave a gap**: with 44 bytes free `close` has laid down the first of
its two arguments when it runs out of room, and its record in the page starts 8 bytes
late. -/
theorem not_restartsCleanly_close : ¬ ∀ (ev : Event) (b : NodBuffer) (entryAddr : UInt64)
    (load : Int) (st : EventStatistic), b.flush.place (2 * ev.nargs) false = b.flush.atTail →
    (ev.attempt b.flush.atTail.size (2 * ev.nargs)).res = some nodFailureBufferFull →
    RestartsCleanly ev b entryAddr load st := by
  intro hall
  have hp : (smallBuffer.withTail 4052).flush.place (2 * closeEvent.nargs) false =
      (smallBuffer.withTail 4052).flush.atTail := place_eq_atTail (by decide)
  have hclean := hall closeEvent (smallBuffer.withTail 4052) 0 0 ⟨0, 0, 0⟩ hp (by decide)
  rcases hclean.laidDown_or hp (by decide) with h | ⟨-, -, h⟩
  · exact absurd h (by decide)
  · exact h (closeEvent_attempt _ (by decide) (by decide)).1

/-! ## Two attempts -/

section Termination

variable {ev : Event} {b : NodBuffer} {entryAddr : UInt64} {load : Int} {st : EventStatistic}

/-- The attempts of a call come to an end: the one in the page, or one in the buffer and at
most one in the page.  That no `ASSERT` fails in them is not part of it (`Syscall.Returns`). -/
structure ReturnsInTwo (ev : Event) (b : NodBuffer) (entryAddr : UInt64) (load : Int)
    (st : EventStatistic) : Prop where
  page : b.flush.place (2 * ev.nargs) false = .page →
    (doRecordOneEvent 1 entryAddr load ev b st).ret ≠ none
  main : b.flush.place (2 * ev.nargs) false = b.flush.atTail →
    (doRecordOneEvent 2 entryAddr load ev b st).ret ≠ none

/-- The filler comes to an end in the page, from offset `off`, without running out of
room: no argument is refused in what the arguments before it leave, the filler does not
report a full buffer on its own account and does not run away. -/
def Event.EndsInPage (ev : Event) (off : Nat) : Prop :=
  ¬ ev.filler.OutOfRoom ev.um 0 (argDataSize Place.page.size off) ∧
    ¬ ev.filler.RunsAway ev.um 0 (argDataSize Place.page.size off)

/-- The condition under which they do. -/
structure EndsInTwo (ev : Event) (b : NodBuffer) : Prop where
  page : b.flush.place (2 * ev.nargs) false = .page → ev.EndsInPage (2 * ev.nargs)
  main : b.flush.place (2 * ev.nargs) false = b.flush.atTail →
    ¬ ev.filler.RunsAway ev.um 0 (argDataSize b.flush.atTail.size (2 * ev.nargs)) ∧
      (ev.filler.OutOfRoom ev.um 0 (argDataSize b.flush.atTail.size (2 * ev.nargs)) →
        ev.EndsInPage (2 * ev.nargs + ev.laidDown b))

theorem conclude_returns {force : Bool} {t : Attempt} {code : Int} :
    (ev.conclude load force t code st).ret ≠ none := by
  simp only [Event.conclude]
  repeat' split
  all_goals simp

/-- One attempt is enough exactly if it comes to an end with room to spare. -/
theorem attempts_one_returns {force restart : Bool} {off : Nat} (c : NodBuffer) :
    (ev.attempts load 1 force restart off c st).ret ≠ none ↔
      (ev.attempt (c.place off restart).size off).res ≠ none ∧
        (ev.attempt (c.place off restart).size off).res ≠ some nodFailureBufferFull := by
  cases hres : (ev.attempt (c.place off restart).size off).res with
  | none => simp [Event.attempts, hres]
  | some code =>
    by_cases hfull : code = nodFailureBufferFull
    · simp [Event.attempts, hres, hfull]
    · rw [Event.attempts_of_done hres hfull]
      exact iff_of_true conclude_returns ⟨by simp, by simpa using hfull⟩

/-- The same in terms of the room in the page. -/
theorem attempts_page_returns {force : Bool} (off : Nat) (c : NodBuffer) :
    (ev.attempts load 1 force true off c st).ret ≠ none ↔ ev.EndsInPage off := by
  rw [attempts_one_returns, NodBuffer.place_restart, Ne, Ne, ev.attempt_outOfRoom,
    ev.attempt_runsAway, Event.EndsInPage, and_comm]

/-- The call that starts in the page. -/
theorem returns_page_iff (entryAddr : UInt64) (load : Int) (st : EventStatistic)
    (hp : b.flush.place (2 * ev.nargs) false = .page) :
    (doRecordOneEvent 1 entryAddr load ev b st).ret ≠ none ↔ ev.EndsInPage (2 * ev.nargs) := by
  simp only [doRecordOneEvent]
  rw [attempts_one_returns, hp, Ne, Ne, ev.attempt_outOfRoom, ev.attempt_runsAway,
    Event.EndsInPage, and_comm]

/-- The call that starts in the buffer. -/
theorem returns_main_iff (entryAddr : UInt64) (load : Int) (st : EventStatistic)
    (hp : b.flush.place (2 * ev.nargs) false = b.flush.atTail) :
    (doRecordOneEvent 2 entryAddr load ev b st).ret ≠ none ↔
      ¬ ev.filler.RunsAway ev.um 0 (argDataSize b.flush.atTail.size (2 * ev.nargs)) ∧
        (ev.filler.OutOfRoom ev.um 0 (argDataSize b.flush.atTail.size (2 * ev.nargs)) →
          ev.EndsInPage (2 * ev.nargs + ev.laidDown b)) := by
  have hrun : (ev.tryOnce false (2 * ev.nargs) b.flush).run =
      ev.attempt b.flush.atTail.size (2 * ev.nargs) := by
    rw [Event.tryOnce_run, hp]
  rw [← ev.attempt_outOfRoom, ← ev.attempt_runsAway]
  simp only [doRecordOneEvent]
  by_cases hfull : (ev.attempt b.flush.atTail.size (2 * ev.nargs)).res = some nodFailureBufferFull
  · rw [Event.attempts_of_full (by rw [hrun]; exact hfull)]
    simp only [hrun, Event.restart_offset hp, attempts_page_returns]
    simp [hfull]
  · cases hres : (ev.attempt b.flush.atTail.size (2 * ev.nargs)).res with
    | none =>
      simp only [Event.attempts, hrun, hres]
      simp
    | some code =>
      have hc : code ≠ nodFailureBufferFull := fun h => hfull (by rw [hres, h])
      rw [Event.attempts_of_done (by rw [hrun]; exact hres) hc]
      simp [hc, conclude_returns]

/-- **When the attempts of a recording come to an end**: for whatever buffer, exactly if the
attempt made in the page ends with room to spare and the attempt in the buffer does not run
away. -/
theorem returnsInTwo_iff : ReturnsInTwo ev b entryAddr load st ↔ EndsInTwo ev b := by
  constructor
  · intro h
    exact ⟨fun hp => (returns_page_iff _ _ _ hp).mp (h.page hp),
      fun hp => (returns_main_iff _ _ _ hp).mp (h.main hp)⟩
  · intro h
    exact ⟨fun hp => (returns_page_iff _ _ _ hp).mpr (h.page hp),
      fun hp => (returns_main_iff _ _ _ hp).mpr (h.main hp)⟩

end Termination

/-- A filler that runs out of room whatever room it has is tried for ever. -/
theorem attempts_never_return {ev : Event} {load : Int}
    (h : ∀ room, ev.filler.OutOfRoom ev.um 0 room) (fuel : Nat) (force restart : Bool) (off : Nat)
    (b : NodBuffer) (st : EventStatistic) :
    (ev.attempts load fuel force restart off b st).ret = none := by
  induction fuel generalizing force restart off b with
  | zero => rfl
  | succ fuel ih =>
    have hfull : (ev.tryOnce restart off b).run.res = some nodFailureBufferFull :=
      (ev.attempt_outOfRoom _ _).mpr (h _)
    rw [Event.attempts_of_full hfull]
    exact ih ..

end NoDrop
