import NoDrop.Bounds
import NoDrop.Endings
import NoDrop.FreeSpace

/-! # The attempt that leaves the record

A recording goes back to `restart:` as long as its filler returns `NOD_FAILURE_BUFFER_FULL`, and
every time it starts its arguments where the attempt before it has stopped.  So an attempt in the
overflow page that runs out of room leaves less to the next one: from there on nothing is
recorded (`attempts_record_of_full`).  An attempt that starts behind the end of the page has all
the room there is, as `arg_data_size` wraps round; if that is not enough, no room is.

Hence a call that leaves a record has ended within its two attempts (`endsInTwo_of_record`), and
the array of lengths of the record holds the lengths of its arguments, wherever they start
(`landing_hasLens`).
-/
namespace NoDrop

open Bytes

/-! ## Arguments in more or less room -/

/-- Whether there is a case for the type does not depend on the room. -/
theorem pushData_bug {t : ParamType} {um : UserMem} {v : Value} {m : Nat}
    (h : pushData t um v m = .error nodFailureBug) (m' : Nat) :
    pushData t um v m' = .error nodFailureBug := by
  by_cases hb : t = .bytebuf
  · subst hb
    rcases pushBytebuf_refused um v m with ⟨-, he⟩ | ⟨-, p, he⟩ <;>
      · rw [pushData, he] at h
        cases h
  by_cases hs : t = .sockaddr ∨ t = .socktuple ∨ t = .fdlist
  · rcases hs with rfl | rfl | rfl
    all_goals
      rcases pushSockaddr_refused um v m with ⟨-, he⟩ | ⟨-, p, he⟩ <;>
        · rw [pushData, he] at h
          cases h
  by_cases hc : t = .charbuf ∨ t = .fspath ∨ t = .fsrelpath
  · rcases hc with rfl | rfl | rfl
    all_goals cases h
  cases hw : t.width with
  | some w =>
    rw [pushData_scalar _ _ _ hw, pushScalar] at h
    split at h <;> cases h
  | none => cases t <;> simp_all [pushData, ParamType.width]

section Argument

variable {ty : EventType} {um : UserMem} {v : Value} {i room room' n : Nat}

/-- An argument that is laid down in some room is laid down wherever it does not lack room. -/
theorem argLen_of_not_lacksRoom (h : argLen ty um v i room = some n)
    (hno : ¬ LacksRoom ty v i room') : ∃ n', argLen ty um v i room' = some n' := by
  obtain ⟨-, t, pre, p, ht, hp, -⟩ := argLen_eq_some h
  have hi := (argType_cases ht).1
  have hroom : room' ≠ 0 := fun h0 => hno ⟨hi, Or.inl h0⟩
  rcases pushData_cases t um v (min room' nodMaxArgSize - pre) with
    ⟨hr, -⟩ | ⟨-, hbug⟩ | ⟨-, p', hp'⟩
  · exact absurd ⟨hi, Or.inr ⟨t, pre, ht, hr⟩⟩ hno
  · rw [pushData_bug hbug] at hp
    cases hp
  · exact ⟨pre + p'.1, by simp only [argLen, hroom, ht, hp', if_false]⟩

/-- An integer lacks room whatever its value. -/
theorem LacksRoom.of_scalar (h : LacksRoom ty v i room)
    (ht : (((gEventInfo ty).param i).type.width).isSome) (v' : Value) : LacksRoom ty v' i room := by
  obtain ⟨w, hw⟩ := Option.isSome_iff_exists.mp ht
  obtain ⟨hi, hroom⟩ := h
  refine ⟨hi, hroom.imp_right ?_⟩
  rintro ⟨t, pre, htype, hr⟩
  obtain ⟨-, ⟨rfl, rfl, hdyn⟩ | ⟨rfl, ⟨hd, -⟩, -⟩⟩ := argType_cases htype
  · refine ⟨_, 0, ?_, (refused_scalar v' _ hw).mpr ((refused_scalar v _ hw).mp hr)⟩
    simp only [argType]
    rw [if_neg (by omega), if_neg hdyn]
  · rw [hd] at hw
    cases hw

end Argument

namespace Filler

variable {ty : EventType} {um : UserMem} {f : Filler ty} {i room room' n : Nat}

theorem PushesFirst.lt_of_outOfRoom (hfirst : f.PushesFirst) (h : f.OutOfRoom um i room) :
    i < (gEventInfo ty).nparams := by
  induction f with
  | ret code => exact absurd hfirst id
  | push v next ih =>
    simp only [OutOfRoom] at h
    cases hl : argLen ty um v i room with
    | some n =>
      obtain ⟨-, t, pre, p, ht, -, -⟩ := argLen_eq_some hl
      exact (argType_cases ht).1
    | none =>
      rw [hl] at h
      exact h.1
  | pushAnyway v plain next ih => exact absurd hfirst id
  | store w inside next ih => exact ih hfirst h
  | runaway => exact absurd h id

/-- Where nothing fits, a filler that pushes first runs out of room, if it ever does. -/
theorem PushesFirst.outOfRoom (hfirst : f.PushesFirst) {j : Nat} (h : f.OutOfRoom um j room)
    (hlacks : ∀ v, LacksRoom ty v i room') : f.OutOfRoom um i room' := by
  induction f with
  | ret code => exact absurd hfirst id
  | push v next ih =>
    simp only [OutOfRoom, argLen_of_lacksRoom um (hlacks v)]
    exact hlacks v
  | pushAnyway v plain next ih => exact absurd hfirst id
  | store w inside next ih => exact ih hfirst h
  | runaway => exact absurd h id

/-- Room for the longest arguments from `i` on is room for one and for those behind it. -/
theorem wide_succ (hi : i < (gEventInfo ty).nparams)
    (hwide : ((gEventInfo ty).nparams - i) * nodMaxArgSize ≤ room) :
    ((gEventInfo ty).nparams - (i + 1)) * nodMaxArgSize + nodMaxArgSize ≤ room := by
  have hsucc : (gEventInfo ty).nparams - i = (gEventInfo ty).nparams - (i + 1) + 1 := by omega
  rwa [hsucc, Nat.succ_mul] at hwide

/-- Behind an argument there is still room for the longest ones. -/
theorem wide_rest {v : Value} {m : Nat} (hl : argLen ty um v i room = some m)
    (hwide : ((gEventInfo ty).nparams - i) * nodMaxArgSize ≤ room) :
    ((gEventInfo ty).nparams - (i + 1)) * nodMaxArgSize ≤ room - m := by
  obtain ⟨hi, hmax⟩ := argLen_le_max hl
  have := wide_succ hi hwide
  omega

/-- What lacks room where there was enough for any argument lacks it everywhere. -/
theorem lacksRoom_shrink {v : Value} (h : LacksRoom ty v i room)
    (hle : room' ≤ room ∨ ((gEventInfo ty).nparams - i) * nodMaxArgSize ≤ room) :
    LacksRoom ty v i room' := by
  refine h.anti ?_
  rcases hle with hle | hwide
  · omega
  · have := wide_succ h.1 hwide
    omega

/-- **A filler that runs out of room runs out of it in what it leaves**, and, if it had enough for
any record, in every room. -/
theorem OutOfRoom.shrink (h : f.OutOfRoom um i room) (hfills : f.Fills i n)
    (hle : room' + f.taken um i room ≤ room ∨
      ((gEventInfo ty).nparams - i) * nodMaxArgSize ≤ room) : f.OutOfRoom um i room' := by
  induction f generalizing i room room' n with
  | ret code => exact h
  | push v next ih =>
    simp only [OutOfRoom, taken] at h hle ⊢
    cases hl : argLen ty um v i room with
    | none =>
      simp only [hl] at h hle
      have hlacks := lacksRoom_shrink h (hle.imp_left (Nat.le_trans (Nat.le_add_right ..)))
      rwa [argLen_of_lacksRoom um hlacks]
    | some m =>
      simp only [hl] at h hle
      by_cases hlacks : LacksRoom ty v i room'
      · rwa [argLen_of_lacksRoom um hlacks]
      · obtain ⟨m', hl'⟩ := argLen_of_not_lacksRoom hl hlacks
        simp only [hl']
        exact ih h hfills.2 (hle.imp (by omega) (wide_rest hl))
  | pushAnyway v plain next ih =>
    obtain ⟨⟨-, hscalar⟩, hfirst, hnext⟩ := hfills
    simp only [OutOfRoom, taken] at h hle ⊢
    cases hl : argLen ty um v i room with
    | none =>
      simp only [hl] at h hle
      have hi := hfirst.lt_of_outOfRoom h
      obtain ⟨w, hw⟩ := Option.isSome_iff_exists.mp hscalar
      have hlacks := lacksRoom_shrink (lacksRoom_of_scalar hi hw hl)
        (hle.imp_left (Nat.le_trans (Nat.le_add_right ..)))
      rw [argLen_of_lacksRoom um hlacks]
      exact hfirst.outOfRoom h (hlacks.of_scalar hscalar)
    | some m =>
      simp only [hl] at h hle
      by_cases hlacks : LacksRoom ty v i room'
      · rw [argLen_of_lacksRoom um hlacks]
        exact hfirst.outOfRoom h (hlacks.of_scalar hscalar)
      · obtain ⟨m', hl'⟩ := argLen_of_not_lacksRoom hl hlacks
        simp only [hl']
        exact ih h hnext (hle.imp (by omega) (wide_rest hl))
  | store w inside next ih => exact ih h hfills hle
  | runaway => exact absurd h id

end Filler

/-! ## Rooms for any argument -/

section Argument

variable {ty : EventType} {um : UserMem} {v : Value} {i off room room' : Nat}

/-- From `NOD_MAX_ARG_SIZE` bytes on the room makes no difference to an argument. -/
theorem argLen_wide (h : i < (gEventInfo ty).nparams → nodMaxArgSize ≤ room)
    (h' : i < (gEventInfo ty).nparams → nodMaxArgSize ≤ room') :
    argLen ty um v i room = argLen ty um v i room' := by
  have hmax : 0 < nodMaxArgSize := by decide
  by_cases hi : i < (gEventInfo ty).nparams
  · have h := h hi
    have h' := h' hi
    simp only [argLen]
    rw [if_neg (by omega), if_neg (by omega), Nat.min_eq_right h, Nat.min_eq_right h']
  · have hnone : argType ty v i = none := by
      simp only [argType]
      rw [if_pos (by omega)]
    simp only [argLen, hnone, ite_self]

/-- Nor to what is stored, except that it is noted in `arg_data_size`. -/
theorem valToRing_wide (h : i < (gEventInfo ty).nparams → nodMaxArgSize ≤ room)
    (h' : i < (gEventInfo ty).nparams → nodMaxArgSize ≤ room') :
    (valToRing ty um v ⟨i, off, room⟩).res = (valToRing ty um v ⟨i, off, room'⟩).res ∧
      (valToRing ty um v ⟨i, off, room⟩).out = (valToRing ty um v ⟨i, off, room'⟩).out ∧
      (valToRing ty um v ⟨i, off, room⟩).args.curarg =
        (valToRing ty um v ⟨i, off, room'⟩).args.curarg ∧
      (valToRing ty um v ⟨i, off, room⟩).args.argDataOffset =
        (valToRing ty um v ⟨i, off, room'⟩).args.argDataOffset := by
  have hmax : 0 < nodMaxArgSize := by decide
  by_cases hi : (gEventInfo ty).nparams ≤ i
  · simp only [valToRing, if_pos hi, and_self]
  have h := h (by omega)
  have h' := h' (by omega)
  have hpush : ∀ (t : ParamType) (o r r' pre m : Nat),
      (pushArg t um v ⟨i, o, r⟩ pre m).res = (pushArg t um v ⟨i, o, r'⟩ pre m).res ∧
        (pushArg t um v ⟨i, o, r⟩ pre m).out = (pushArg t um v ⟨i, o, r'⟩ pre m).out ∧
        (pushArg t um v ⟨i, o, r⟩ pre m).args.curarg =
          (pushArg t um v ⟨i, o, r'⟩ pre m).args.curarg ∧
        (pushArg t um v ⟨i, o, r⟩ pre m).args.argDataOffset =
          (pushArg t um v ⟨i, o, r'⟩ pre m).args.argDataOffset := by
    intro t o r r' pre m
    simp only [pushArg]
    split <;> exact ⟨rfl, rfl, rfl, rfl⟩
  simp only [valToRing, Nat.min_eq_right h, Nat.min_eq_right h', if_neg hi,
    if_neg (show ¬ room = 0 by omega), if_neg (show ¬ room' = 0 by omega)]
  split
  · split
    · exact ⟨rfl, rfl, rfl, rfl⟩
    · rename_i t _
      obtain ⟨hres, hout, hargs⟩ := hpush t (u32 (off + 1)) (room - 1) (room' - 1) 1
        (nodMaxArgSize - 1)
      exact ⟨hres, by rw [hout], hargs⟩
  · obtain ⟨hres, hout, hargs⟩ := hpush ((gEventInfo ty).param i).type off room room' 0 nodMaxArgSize
    exact ⟨hres, by rw [hout], hargs⟩

end Argument

/-- Two runs that differ in what is left of their rooms. -/
structure FillerRun.SameButRoom (r r' : FillerRun) : Prop where
  res : r.res = r'.res
  out : r.out = r'.out
  curarg : r.args.curarg = r'.args.curarg
  offset : r.args.argDataOffset = r'.args.argDataOffset

namespace Filler

variable {ty : EventType} {um : UserMem}

/-- **Where there is room for the longest arguments, it makes no difference how much.** -/
theorem run_wide (f : Filler ty) {i off room room' : Nat}
    (h : ((gEventInfo ty).nparams - i) * nodMaxArgSize ≤ room)
    (h' : ((gEventInfo ty).nparams - i) * nodMaxArgSize ≤ room') :
    (f.run um ⟨i, off, room⟩).SameButRoom (f.run um ⟨i, off, room'⟩) ∧
      f.sizes um i room = f.sizes um i room' := by
  induction f generalizing i off room room' with
  | ret code => exact ⟨⟨rfl, rfl, rfl, rfl⟩, rfl⟩
  | push v next ih =>
    have hone := fun hi => Nat.le_trans (Nat.le_add_left ..) (wide_succ hi h)
    have hone' := fun hi => Nat.le_trans (Nat.le_add_left ..) (wide_succ hi h')
    have hl := @argLen_wide ty um v i room room' hone hone'
    obtain ⟨hres, hout, hcur, hoff⟩ := @valToRing_wide ty um v i off room room' hone hone'
    cases hn : argLen ty um v i room with
    | none =>
      have hfail := (valToRing_of_no_len (a := ⟨i, off, room⟩) hn).1
      rw [run_push_of_failure hfail, run_push_of_failure (hres ▸ hfail)]
      simp only [sizes, ← hl, hn]
      exact ⟨⟨congrArg some hres, hout, hcur, hoff⟩, trivial⟩
    | some n =>
      have hargs := valToRing_of_len (a := ⟨i, off, room⟩) hn
      have hargs' := valToRing_of_len (a := ⟨i, off, room'⟩) (hl ▸ hn)
      obtain ⟨⟨h1, h2, h3, h4⟩, h5⟩ := @ih (i + 1) (u32 (off + n)) (room - n) (room' - n)
        (wide_rest hn h) (wide_rest (hl ▸ hn) h')
      rw [run_push_of_success hargs.1, run_push_of_success hargs'.1, hargs.2, hargs'.2]
      simp only [sizes, ← hl, hn, h5]
      exact ⟨⟨h1, by simp only [hout, h2], h3, h4⟩, trivial⟩
  | pushAnyway v plain next ih =>
    have hone := fun hi => Nat.le_trans (Nat.le_add_left ..) (wide_succ hi h)
    have hone' := fun hi => Nat.le_trans (Nat.le_add_left ..) (wide_succ hi h')
    have hl := @argLen_wide ty um v i room room' hone hone'
    obtain ⟨hres, hout, -, -⟩ := @valToRing_wide ty um v i off room room' hone hone'
    cases hn : argLen ty um v i room with
    | none =>
      have hfail := (valToRing_of_no_len (a := ⟨i, off, room⟩) hn).1
      obtain ⟨⟨h1, h2, h3, h4⟩, h5⟩ := @ih i off room room' h h'
      simp only [run, sizes, ← hl, hn, valToRing_args_of_failed plain hfail,
        valToRing_args_of_failed plain (hres ▸ hfail)]
      exact ⟨⟨h1, by simp only [hout, h2], h3, h4⟩, h5⟩
    | some n =>
      have hargs := valToRing_of_len (a := ⟨i, off, room⟩) hn
      have hargs' := valToRing_of_len (a := ⟨i, off, room'⟩) (hl ▸ hn)
      obtain ⟨⟨h1, h2, h3, h4⟩, h5⟩ := @ih (i + 1) (u32 (off + n)) (room - n) (room' - n)
        (wide_rest hn h) (wide_rest (hl ▸ hn) h')
      simp only [run, sizes, ← hl, hn, hargs.2, hargs'.2, h5]
      exact ⟨⟨h1, by simp only [hout, h2], h3, h4⟩, trivial⟩
  | store w inside next ih =>
    obtain ⟨⟨hres, hout, hcur, hoff⟩, hsizes⟩ := @ih i off room room' h h'
    exact ⟨⟨hres, hout, hcur, hoff⟩, hsizes⟩
  | runaway => exact ⟨⟨rfl, rfl, rfl, rfl⟩, rfl⟩

end Filler

/-! ## Attempts in the page -/

section Attempts

variable {ev : Event} {b c : NodBuffer} {load : Int} {force restart : Bool} {off fuel n : Nat}
  {st : EventStatistic} {bs : List UInt8} {entryAddr : UInt64}

/-- Behind the end of the page `arg_data_size` has wrapped round. -/
theorem wide_of_past (hoff : Place.page.size < off)
    (hle : off ≤ 2 * ev.nargs + ev.nargs * nodMaxArgSize) :
    ev.nargs * nodMaxArgSize ≤ argDataSize Place.page.size off := by
  have hn := ev.nargs_le
  have hmax : nodMaxArgSize = 65000 := rfl
  have hparams : nodMaxEventParams = 32 := rfl
  have hpage : Place.page.size = 4068 := rfl
  have hmul : ev.nargs * nodMaxArgSize ≤ 32 * 65000 := Nat.mul_le_mul (by omega) (by omega)
  have hroom : argDataSize Place.page.size off = Place.page.size + 2 ^ 32 - off :=
    Nat.mod_eq_of_lt (by omega)
  omega

theorem attempts_record_of_runsAway (hres : (ev.attempt (c.place off restart).size off).res = none) :
    (ev.attempts load fuel force restart off c st).record = none := by
  cases fuel with
  | zero => rfl
  | succ fuel =>
    have hrun : (ev.tryOnce restart off c).run.res = none := by
      rw [Event.tryOnce_run, hres]
    simp only [Event.attempts, hrun]

/-- An event that has too little room everywhere leaves no record. -/
theorem attempts_record_of_never (h : ∀ room, ev.filler.OutOfRoom ev.um 0 room) :
    (ev.attempts load fuel force restart off c st).record = none := by
  induction fuel generalizing force restart off c with
  | zero => rfl
  | succ fuel ih =>
    have hfull : (ev.tryOnce restart off c).run.res = some nodFailureBufferFull :=
      (ev.attempt_outOfRoom _ _).mpr (h _)
    rw [Event.attempts_of_full hfull]
    exact ih

/-- **After an attempt in the page that runs out of room nothing is recorded.** -/
theorem attempts_record_of_full (hfills : ev.filler.Fills 0 n) (hp : c.place off restart = .page)
    (hle : off ≤ 2 * ev.nargs + ev.nargs * nodMaxArgSize)
    (hfull : ev.filler.OutOfRoom ev.um 0 (argDataSize Place.page.size off)) :
    (ev.attempts load fuel force restart off c st).record = none := by
  by_cases hoff : off ≤ Place.page.size
  · clear hle
    induction fuel generalizing force restart off c with
    | zero => rfl
    | succ fuel ih =>
      have hlt : Place.page.size < 2 ^ 32 := by decide
      have hrun : (ev.tryOnce restart off c).run = ev.attempt Place.page.size off := by
        rw [Event.tryOnce_run, hp]
      have hres := (ev.attempt_outOfRoom _ _).mpr hfull
      obtain ⟨hnext, hnextle⟩ := page_next ev hoff
      rw [Event.attempts_of_full (by rw [hrun]; exact hres)]
      simp only [hrun, hnext]
      refine ih (NodBuffer.place_restart ..) (hfull.shrink hfills (Or.inl ?_)) hnextle
      have hroom := argDataSize_eq hoff hlt
      rw [argDataSize_eq hnextle hlt]
      omega
  · exact attempts_record_of_never fun room =>
      hfull.shrink hfills (Or.inr (wide_of_past (by omega) hle))

theorem endsInPage_of_record (hfills : ev.filler.Fills 0 n) (hp : c.place off restart = .page)
    (hle : off ≤ 2 * ev.nargs + ev.nargs * nodMaxArgSize)
    (hrec : (ev.attempts load fuel force restart off c st).record = some bs) :
    ev.EndsInPage off := by
  constructor
  · intro hfull
    rw [attempts_record_of_full hfills hp hle hfull] at hrec
    cases hrec
  · intro haway
    rw [attempts_record_of_runsAway (by rw [hp]; exact (ev.attempt_runsAway _ _).mpr haway)] at hrec
    cases hrec

/-- **A call that leaves a record ends within its two attempts.** -/
theorem endsInTwo_of_record (hfills : ev.filler.Fills 0 n)
    (hrec : (doRecordOneEvent fuel entryAddr load ev b st).record = some bs) : EndsInTwo ev b := by
  simp only [doRecordOneEvent] at hrec
  refine ⟨fun hp => endsInPage_of_record hfills hp (Nat.le_add_right ..) hrec, fun hp => ⟨?_, ?_⟩⟩
  · intro haway
    rw [attempts_record_of_runsAway (by rw [hp]; exact (ev.attempt_runsAway _ _).mpr haway)] at hrec
    cases hrec
  · intro hfull
    have hrun : (ev.tryOnce false (2 * ev.nargs) b.flush).run =
        ev.attempt b.flush.atTail.size (2 * ev.nargs) := by
      rw [Event.tryOnce_run, hp]
    have htaken : ev.laidDown b ≤ ev.nargs * nodMaxArgSize := ev.filler.taken_le 0 _
    cases fuel with
    | zero => cases hrec
    | succ fuel =>
      rw [Event.attempts_of_full (by rw [hrun]; exact (ev.attempt_outOfRoom _ _).mpr hfull)] at hrec
      simp only [hrun, Event.restart_offset hp] at hrec
      exact endsInPage_of_record hfills (NodBuffer.place_restart ..) (by omega) hrec

end Attempts

/-! ## The lengths in a record -/

section Lengths

variable {ev : Event} {b : NodBuffer}

/-- Where the attempt that fills in the record starts: inside its room, or in the page and no
further behind it than the arguments reach. -/
theorem landing_start (ev : Event) (b : NodBuffer) :
    (ev.landing b).2 ≤ (ev.landing b).1 ∨
      ((ev.landing b).1 = Place.page.size ∧ Place.page.size < (ev.landing b).2 ∧
        (ev.landing b).2 ≤ 2 * ev.nargs + ev.nargs * nodMaxArgSize) := by
  have hin := landing_inside ev b
  have htaken : ev.laidDown b ≤ ev.nargs * nodMaxArgSize := ev.filler.taken_le 0 _
  rcases landing_cases ev b with ⟨-, hl⟩ | ⟨-, -, hl⟩ | ⟨-, -, hl⟩ <;> rw [hl] at hin ⊢
  · exact Or.inl hin
  · by_cases hpast : 2 * ev.nargs + ev.laidDown b ≤ Place.page.size
    · exact Or.inl hpast
    · exact Or.inr ⟨rfl, by simp only; omega, by simp only; omega⟩
  · exact Or.inl hin

/-- **The array of lengths of a record** holds the lengths of the arguments, wherever they
start. -/
theorem landing_hasLens (hs : ev.Succeeds (ev.attempt (ev.landing b).1 (ev.landing b).2)) :
    (ev.attempt (ev.landing b).1 (ev.landing b).2).HasLens
      ⟨0, (ev.landing b).2, (ev.landing b).1 - (ev.landing b).2⟩
      (ev.sizes (ev.landing b).1 (ev.landing b).2) := by
  obtain ⟨hn, hlt⟩ := landing_bounds ev b
  rcases landing_start ev b with hle | ⟨hsize, hpast, hle⟩
  · exact ev.attempt_hasLens hle hlt hn hs
  -- behind the page, in the room up to the end of `uint32_t`
  generalize ev.landing b = l at *
  obtain ⟨size, off⟩ := l
  subst hsize
  have hnargs := ev.nargs_le
  have hparams : nodMaxEventParams = 32 := rfl
  have hmax : nodMaxArgSize = 65000 := rfl
  have hmul : ev.nargs * nodMaxArgSize ≤ 32 * 65000 := Nat.mul_le_mul (by omega) (by omega)
  simp only at *
  obtain ⟨⟨hres, hout, hcur, hoff⟩, hsizes⟩ := @Filler.run_wide _ ev.um ev.filler 0 off
    (argDataSize Place.page.size off) (2 ^ 32 - 1 - off) (wide_of_past hpast hle)
    (show ev.nargs * nodMaxArgSize ≤ _ by omega)
  have hok : (ev.filler.run ev.um ⟨0, off, argDataSize Place.page.size off⟩).res =
      some nodSuccess := hs.1
  have hls := ev.filler.run_hasLens ⟨0, off, 2 ^ 32 - 1 - off⟩ (by simp only; omega) hn (hres ▸ hok)
  refine ⟨?_, ?_, ?_, ?_⟩
  · show _ = (ev.filler.run ev.um ⟨0, off, argDataSize Place.page.size off⟩).args.curarg
    rw [hcur, Event.sizes, hsizes]
    exact hls.curarg
  · show _ = (ev.filler.run ev.um ⟨0, off, argDataSize Place.page.size off⟩).args.argDataOffset
    rw [hoff, Event.sizes, hsizes]
    exact hls.offset
  · rw [Event.sizes, hsizes]
    exact hls.le
  · intro img
    show (img.writes (ev.filler.run ev.um ⟨0, off, argDataSize Place.page.size off⟩).out).read _ _ = _
    rw [hout, Event.sizes, hsizes]
    exact hls.read img

end Lengths

end NoDrop
