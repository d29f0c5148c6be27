import NoDrop.ValToRing

/-! # Filler programs

A filler turns one system call into the arguments of its record.  The fillers of
`kmodule/fillers.c` branch on the registers, on user memory and on kernel state, all of
which stand still during the call, but never on the record under construction:
`buf_ptr`, `arg_data_offset` and `arg_data_size` are used by `val_to_ring` alone, and a
code it returns is passed on at once.  For one system call a filler therefore is a
straight line of pushes and of stores into its `str_storage` page, ended by a return
code (`Filler`).  Running it against some room for the arguments (`Filler.run`) stops at
the first push that fails.

Two fillers step out of line.  `f_sys_socket_bind` and `f_sys_connect` drop the code of
their first push (`pushAnyway`).  And a loop over a count that is taken from a register
as `unsigned long` but counted in a `u32` may never end (`runaway`), as in
`poll_parse_fds`.
-/
namespace NoDrop

open Bytes

/-- What a filler does on one system call of type `ty`. -/
inductive Filler (ty : EventType) where
  /-- Return `code`. -/
  | ret (code : Int)
  /-- `val_to_ring`, whose code is returned unless it is `NOD_SUCCESS`. -/
  | push (v : Value) (next : Filler ty)
  /-- `val_to_ring`, whose code is dropped.  No event filled in this way has a `PT_DYN`
  parameter. -/
  | pushAnyway (v : Value) (plain : ∀ i, ((gEventInfo ty).param i).type ≠ .dyn) (next : Filler ty)
  /-- A store into `str_storage`, which is one page. -/
  | store (w : Write) (inside : w.stop ≤ pageSize) (next : Filler ty)
  /-- A loop that neither ends nor keeps to `str_storage`. -/
  | runaway

/-- What running a filler leaves: its code (`none` if it never returns), the arguments as
it advanced them, its stores relative to `buf_ptr` and its stores into `str_storage`. -/
structure FillerRun where
  res : Option Int
  args : RingArgs
  out : List Write
  scratch : List Write

namespace Filler

variable {ty : EventType}

/-- Running a filler from the arguments `a`. -/
def run (um : UserMem) : Filler ty → RingArgs → FillerRun
  | ret code, a => ⟨some code, a, [], []⟩
  | push v next, a =>
      let p := valToRing ty um v a
      if p.res = nodSuccess then
        let r := next.run um p.args
        { r with out := p.out ++ r.out }
      else ⟨some p.res, p.args, p.out, []⟩
  | pushAnyway v _ next, a =>
      let p := valToRing ty um v a
      let r := next.run um p.args
      { r with out := p.out ++ r.out }
  | store w _ next, a =>
      let r := next.run um a
      { r with scratch := w :: r.scratch }
  -- of its stores, only one past the page is noted
  | runaway, a => ⟨none, a, [], [⟨pageSize, [0]⟩]⟩

/-- One filler after another, the second only if the first returns `NOD_SUCCESS`. -/
def seq : Filler ty → Filler ty → Filler ty
  | ret code, g => if code = nodSuccess then g else ret code
  | push v next, g => push v (next.seq g)
  | pushAnyway v h next, g => pushAnyway v h (next.seq g)
  | store w h next, g => store w h (next.seq g)
  | runaway, _ => runaway

theorem run_push_of_success {um : UserMem} {v : Value} {next : Filler ty} {a : RingArgs}
    (h : (valToRing ty um v a).res = nodSuccess) :
    (push v next).run um a =
      { next.run um (valToRing ty um v a).args with
        out := (valToRing ty um v a).out ++ (next.run um (valToRing ty um v a).args).out } := by
  simp only [run, h, if_true]

theorem run_push_of_failure {um : UserMem} {v : Value} {next : Filler ty} {a : RingArgs}
    (h : (valToRing ty um v a).res ≠ nodSuccess) :
    (push v next).run um a =
      ⟨some (valToRing ty um v a).res, (valToRing ty um v a).args, (valToRing ty um v a).out, []⟩ := by
  simp only [run, h, if_false]

end Filler

/-! ## What a run does -/

/-- **What a run of a filler does**: what one push does (`Pushed.Sound`), over a whole
run. -/
structure FillerRun.Sound (ty : EventType) (a : RingArgs) (r : FillerRun) : Prop where
  room : r.args.argDataOffset + r.args.argDataSize = a.argDataOffset + a.argDataSize
  offset_le : a.argDataOffset ≤ r.args.argDataOffset
  curarg_le : a.curarg ≤ r.args.curarg ∧
    r.args.curarg ≤ max a.curarg (gEventInfo ty).nparams
  stores : ∀ w ∈ r.out, InRoom ty a.curarg a.argDataOffset (a.argDataOffset + a.argDataSize) w

theorem InRoom.mono {ty : EventType} {i i' lo lo' hi : Nat} {w : Write}
    (h : InRoom ty i' lo' hi w) (hi' : i ≤ i') (hlo : lo ≤ lo') : InRoom ty i lo hi w := by
  rcases h with ⟨j, len, hj, hn, rfl⟩ | ⟨h1, h2⟩
  · exact Or.inl ⟨j, len, Nat.le_trans hi' hj, hn, rfl⟩
  · exact Or.inr ⟨Nat.le_trans hlo h1, h2⟩

namespace Filler

variable {ty : EventType}

/-- A push that succeeds, in front of a run that is sound. -/
theorem sound_push {um : UserMem} {v : Value} {a : RingArgs} {r : FillerRun}
    (hw : a.argDataOffset + a.argDataSize < 2 ^ 32)
    (hok : (valToRing ty um v a).res = nodSuccess)
    (hr : r.Sound ty (valToRing ty um v a).args) :
    FillerRun.Sound ty a { r with out := (valToRing ty um v a).out ++ r.out } := by
  have hp := valToRing_sound ty um v hw
  obtain ⟨hn, hcur, -, -⟩ := hp.succeeded hok
  refine ⟨hr.room.trans hp.room, Nat.le_trans hp.offset_le hr.offset_le, ?_, ?_⟩
  · have := hr.curarg_le
    simp only
    omega
  · intro w hw
    rcases List.mem_append.mp hw with hw | hw
    · exact hp.stores w hw
    · have := hr.stores w hw
      rw [hp.room] at this
      exact this.mono (by omega) hp.offset_le

/-- A push that fails, in front of a run that is sound: the run sees the same arguments. -/
theorem sound_pushAnyway {um : UserMem} {v : Value} {a : RingArgs} {r : FillerRun}
    (hw : a.argDataOffset + a.argDataSize < 2 ^ 32) (hr : r.Sound ty a) :
    FillerRun.Sound ty a { r with out := (valToRing ty um v a).out ++ r.out } := by
  refine ⟨hr.room, hr.offset_le, hr.curarg_le, ?_⟩
  intro w hw'
  rcases List.mem_append.mp hw' with hw' | hw'
  · exact (valToRing_sound ty um v hw).stores w hw'
  · exact hr.stores w hw'

/-- Every filler, from every position in the argument area that does not reach past
`2 ^ 32`. -/
theorem run_sound (um : UserMem) (f : Filler ty) (a : RingArgs)
    (hw : a.argDataOffset + a.argDataSize < 2 ^ 32) : (f.run um a).Sound ty a := by
  induction f generalizing a with
  | ret code =>
    exact ⟨rfl, Nat.le_refl _, ⟨Nat.le_refl _, Nat.le_max_left ..⟩, by simp [run]⟩
  | push v next ih =>
    have hp := valToRing_sound ty um v hw
    by_cases hok : (valToRing ty um v a).res = nodSuccess
    · rw [run_push_of_success hok]
      exact sound_push hw hok (ih _ (by rw [hp.room]; exact hw))
    · rw [run_push_of_failure hok]
      have hcur := hp.failed hok
      refine ⟨hp.room, hp.offset_le, ?_, hp.stores⟩
      simp only
      omega
  | pushAnyway v plain next ih =>
    have hp := valToRing_sound ty um v hw
    by_cases hok : (valToRing ty um v a).res = nodSuccess
    · exact sound_push hw hok (ih _ (by rw [hp.room]; exact hw))
    · have hargs := valToRing_args_of_failed plain hok
      simp only [run, hargs]
      exact sound_pushAnyway hw (ih a hw)
  | store w inside next ih =>
    have hr := ih a hw
    exact ⟨hr.room, hr.offset_le, hr.curarg_le, hr.stores⟩
  | runaway =>
    exact ⟨rfl, Nat.le_refl _, ⟨Nat.le_refl _, Nat.le_max_left ..⟩, by simp [run]⟩

/-- A filler keeps to `str_storage` unless it runs away. -/
theorem run_scratch (um : UserMem) (f : Filler ty) (a : RingArgs) :
    reach (f.run um a).scratch ≤ pageSize ↔ (f.run um a).res ≠ none := by
  induction f generalizing a with
  | ret code => simp [run]
  | push v next ih =>
    by_cases hok : (valToRing ty um v a).res = nodSuccess
    · rw [run_push_of_success hok]
      exact ih _
    · rw [run_push_of_failure hok]
      simp
  | pushAnyway v plain next ih => exact ih _
  | store w inside next ih =>
    have hw : (if w.data = [] then 0 else w.stop) ≤ pageSize := by
      split
      · exact Nat.zero_le _
      · exact inside
    simp only [run, reach, Nat.max_le, hw, true_and]
    exact ih a
  | runaway => simp [run, reach, Write.stop]

end Filler

end NoDrop
