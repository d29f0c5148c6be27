import NoDrop.FillersTable
import NoDrop.Room

/-! # How many arguments a filler pushes

A record has as many arguments as `g_event_info` declares for its type, and nothing but the
length of a filler sees to it.  A filler on one system call is a straight line, so that the
number of its pushes is a property of its text (`Filler.Fills`), much as a type is: it is
found by going through the filler once, and it says what every run does, in whatever room
(`Filler.run_of_fills`).

The two fillers that drop a code are the delicate ones.  After a push that failed they would
go on with the argument before the one they mean.  They do not get far: the dropped push is
one of an integer, so that the room that refused it refuses the next one too.
-/
namespace NoDrop

open Bytes

/-! ## Too many arguments -/

/-- This call of `val_to_ring` fails because all arguments are there already. -/
def RingArgs.Full (ty : EventType) (a : RingArgs) : Prop := (gEventInfo ty).nparams ≤ a.curarg

theorem valToRing_curarg_le (ty : EventType) (um : UserMem) (v : Value) (a : RingArgs) :
    (valToRing ty um v a).args.curarg ≤ a.curarg + 1 := by
  have harg : ∀ (t : ParamType) (b : RingArgs) (pre max : Nat),
      (pushArg t um v b pre max).args.curarg ≤ b.curarg + 1 := by
    intro t b pre max
    unfold pushArg
    split
    · exact Nat.le_succ _
    · exact Nat.le_refl _
  unfold valToRing
  simp only
  split
  · exact Nat.le_succ _
  split
  · exact Nat.le_succ _
  split
  · split
    · exact Nat.le_succ _
    · exact harg ..
  · exact harg ..

theorem valToRing_curarg_of_success {ty : EventType} {um : UserMem} {v : Value} {a : RingArgs}
    (h : (valToRing ty um v a).res = nodSuccess) :
    (valToRing ty um v a).args.curarg = a.curarg + 1 := by
  cases hl : argLen ty um v a.curarg a.argDataSize with
  | none => exact absurd h (valToRing_of_no_len hl).1
  | some n => rw [(valToRing_of_len hl).2]

/-- Whether an integer fits does not depend on it. -/
theorem argLen_scalar {ty : EventType} {um : UserMem} {i room w : Nat}
    (ht : ((gEventInfo ty).param i).type.width = some w) (v : Value) :
    argLen ty um v i room = if room = 0 ∨ (gEventInfo ty).nparams ≤ i ∨
      min room nodMaxArgSize < w then none else some w := by
  have hdyn : ((gEventInfo ty).param i).type ≠ .dyn := by
    intro h
    simp [h, ParamType.width] at ht
  by_cases hroom : room = 0
  · simp [argLen, hroom]
  by_cases hn : (gEventInfo ty).nparams ≤ i
  · simp [argLen, argType, hroom, hn]
  have htype : argType ty v i = some (((gEventInfo ty).param i).type, 0) := by
    simp only [argType, hdyn, false_and, if_false, hn]
  simp only [argLen, hroom, htype, pushData_scalar um _ _ ht, pushScalar, if_false, hn, false_or]
  by_cases hw : w ≤ min room nodMaxArgSize
  · rw [Nat.sub_zero, if_pos hw, if_neg (by omega)]
    simp
  · rw [Nat.sub_zero, if_neg hw, if_pos (by omega)]

/-- A refused integer leaves no room for another in its place. -/
theorem valToRing_refused_of_scalar {ty : EventType} {um : UserMem} {a : RingArgs} {v v' : Value}
    (ht : (((gEventInfo ty).param a.curarg).type.width).isSome)
    (h : (valToRing ty um v a).res ≠ nodSuccess) : (valToRing ty um v' a).res ≠ nodSuccess := by
  obtain ⟨w, hw⟩ := Option.isSome_iff_exists.mp ht
  cases hl : argLen ty um v a.curarg a.argDataSize with
  | some n => exact absurd (valToRing_of_len hl).1 h
  | none =>
    rw [argLen_scalar hw v, ← argLen_scalar hw v'] at hl
    exact (valToRing_of_no_len hl).1

namespace Filler

variable {ty : EventType} {um : UserMem}

/-- Running the filler from `a` comes to a push for which there is no parameter. -/
def TooMany (um : UserMem) : Filler ty → RingArgs → Prop
  | ret _, _ => False
  | push v next, a => a.Full ty ∨
      ((valToRing ty um v a).res = nodSuccess ∧ next.TooMany um (valToRing ty um v a).args)
  | pushAnyway v _ next, a => a.Full ty ∨ next.TooMany um (valToRing ty um v a).args
  | store _ _ next, a => next.TooMany um a
  | runaway, _ => False

theorem tooMany_seq {f g : Filler ty} {a : RingArgs} :
    (f.seq g).TooMany um a ↔ f.TooMany um a ∨
      ((f.run um a).res = some nodSuccess ∧ g.TooMany um (f.run um a).args) := by
  induction f generalizing a with
  | ret code =>
    by_cases hc : code = nodSuccess
    · simp [seq, run, TooMany, hc]
    · simp [seq, run, TooMany, hc]
  | push v next ih =>
    by_cases hok : (valToRing ty um v a).res = nodSuccess
    · simp [seq, TooMany, run, hok, ih, or_assoc]
    · simp [seq, TooMany, run, hok]
  | pushAnyway v plain next ih =>
    show a.Full ty ∨ (next.seq g).TooMany um _ ↔ (a.Full ty ∨ next.TooMany um _) ∨ _
    rw [ih, or_assoc]
    rfl
  | store w inside next ih => exact ih
  | runaway => simp [seq, run, TooMany]

/-! ## The judgement -/

/-- The filler pushes an argument before it returns. -/
def PushesFirst : Filler ty → Prop
  | ret _ => False
  | push _ _ => True
  | pushAnyway _ _ _ => False
  | store _ _ next => next.PushesFirst
  | runaway => True

/-- From argument `i` on, the filler pushes at most `n` arguments, and `n` of them if it
succeeds. -/
def Fills : Filler ty → Nat → Nat → Prop
  | ret code, _, n => code = nodSuccess → n = 0
  | push _ next, i, n => 0 < n ∧ next.Fills (i + 1) (n - 1)
  | pushAnyway _ _ next, i, n =>
      (0 < n ∧ (((gEventInfo ty).param i).type.width).isSome) ∧
        next.PushesFirst ∧ next.Fills (i + 1) (n - 1)
  | store _ _ next, i, n => next.Fills i n
  | runaway, _, _ => True

theorem Fills.tooMany_le {f : Filler ty} {i n : Nat} (h : f.Fills i n) {a : RingArgs}
    (ht : f.TooMany um a) : (gEventInfo ty).nparams < a.curarg + n := by
  induction f generalizing a i n with
  | ret code => exact absurd ht id
  | push v next ih =>
    obtain ⟨hn, hnext⟩ := h
    rcases ht with ht | ⟨-, ht⟩
    · have : (gEventInfo ty).nparams ≤ a.curarg := ht
      omega
    · have := ih hnext ht
      have := valToRing_curarg_le ty um v a
      omega
  | pushAnyway v plain next ih =>
    obtain ⟨⟨hn, -⟩, -, hnext⟩ := h
    rcases ht with ht | ht
    · have : (gEventInfo ty).nparams ≤ a.curarg := ht
      omega
    · have := ih hnext ht
      have := valToRing_curarg_le ty um v a
      omega
  | store w inside next ih => exact ih h ht
  | runaway => exact absurd ht id

/-- Where nothing can be pushed, a filler that pushes first does not succeed. -/
theorem PushesFirst.run_ne_success {f : Filler ty} (h : f.PushesFirst) {a : RingArgs}
    (hstuck : ∀ v, (valToRing ty um v a).res ≠ nodSuccess) :
    (f.run um a).res ≠ some nodSuccess := by
  induction f generalizing a with
  | ret code => exact absurd h id
  | push v next ih =>
    rw [run_push_of_failure (hstuck v)]
    exact fun hres => hstuck v (Option.some.inj hres)
  | pushAnyway v plain next ih => exact absurd h id
  | store w inside next ih => exact ih h hstuck
  | runaway => simp [run]

/-- A dropped push of a filler that goes on to succeed succeeds too. -/
theorem pushAnyway_success {v : Value} {next : Filler ty} {a : RingArgs}
    (plain : ∀ i, ((gEventInfo ty).param i).type ≠ .dyn)
    (hscalar : (((gEventInfo ty).param a.curarg).type.width).isSome) (hnext : next.PushesFirst)
    (hok : (next.run um (valToRing ty um v a).args).res = some nodSuccess) :
    (valToRing ty um v a).res = nodSuccess := by
  by_contra hres
  rw [valToRing_args_of_failed plain hres] at hok
  exact hnext.run_ne_success (fun _ => valToRing_refused_of_scalar hscalar hres) hok

/-- **A filler that succeeds has pushed the arguments it fills.** -/
theorem Fills.run_curarg {f : Filler ty} {n : Nat} {a : RingArgs} (h : f.Fills a.curarg n)
    (hok : (f.run um a).res = some nodSuccess) :
    (f.run um a).args.curarg = a.curarg + n := by
  induction f generalizing a n with
  | ret code =>
    rw [h (Option.some.inj hok)]
    rfl
  | push v next ih =>
    obtain ⟨hn, hnext⟩ := h
    by_cases hres : (valToRing ty um v a).res = nodSuccess
    · have hcur := valToRing_curarg_of_success hres
      rw [run_push_of_success hres] at hok ⊢
      rw [← hcur] at hnext
      have := ih hnext hok
      simp only
      omega
    · rw [run_push_of_failure hres] at hok
      exact absurd (Option.some.inj hok) hres
  | pushAnyway v plain next ih =>
    obtain ⟨⟨hn, hscalar⟩, hfirst, hnext⟩ := h
    have hcur := valToRing_curarg_of_success (pushAnyway_success plain hscalar hfirst hok)
    rw [← hcur] at hnext
    have : (next.run um _).args.curarg = _ := ih hnext hok
    simp only [run]
    omega
  | store w inside next ih => exact ih h hok
  | runaway => cases hok

/-! ## The judgement, over the parts of a filler -/

@[simp] theorem fills_done {i n : Nat} : (done : Filler ty).Fills i n ↔ n = 0 :=
  ⟨fun h => h rfl, fun h _ => h⟩

@[simp] theorem fills_push {v : Value} {next : Filler ty} {i n : Nat} :
    (push v next).Fills i (n + 1) ↔ next.Fills (i + 1) n := by
  simp [Fills]

theorem fills_pushLast (v : Value) (i : Nat) : (pushLast v : Filler ty).Fills i 1 :=
  fills_push.mpr fun _ => rfl

theorem fills_ret {code : Int} (h : code ≠ nodSuccess) (i n : Nat) :
    (ret code : Filler ty).Fills i n := fun hc => absurd hc h

theorem fills_pushes {vs : List Value} {next : Filler ty} {i n m : Nat}
    (h : next.Fills (i + vs.length) n) (hm : vs.length + n = m) :
    (pushes vs next).Fills i m := by
  subst hm
  induction vs generalizing i with
  | nil => simpa [pushes] using h
  | cons v vs ih =>
    have hlen : (v :: vs).length + n = vs.length + n + 1 := by
      simp only [List.length_cons]
      omega
    rw [hlen]
    refine fills_push.mpr (ih ?_)
    rw [List.length_cons] at h
    have hi : i + 1 + vs.length = i + (vs.length + 1) := by omega
    rwa [hi]

theorem fills_pushes_done {vs : List Value} {i m : Nat} (hm : vs.length = m) :
    (pushes vs done : Filler ty).Fills i m :=
  fills_pushes (fills_done.mpr rfl) hm

theorem fills_fetch {um : UserMem} {addr : UInt64} {len : Nat} {next : List UInt8 → Filler ty}
    {i n : Nat} (h : ∀ bs, (next bs).Fills i n) : (fetch um addr len next).Fills i n := by
  unfold fetch
  split
  · exact fills_ret (by decide) i n
  · exact h _

theorem fills_scratch {w : Write} {next : Filler ty} {i n : Nat} (h : next.Fills i n) :
    (scratch w next).Fills i n := by
  unfold scratch
  split
  · exact h
  · trivial

theorem fills_scratches {ws : List Write} {next : Filler ty} {i n : Nat} (h : next.Fills i n) :
    (scratches ws next).Fills i n := by
  induction ws with
  | nil => exact h
  | cons w ws ih => exact fills_scratch ih

theorem PushesFirst.scratches {ws : List Write} {next : Filler ty} (h : next.PushesFirst) :
    (scratches ws next).PushesFirst := by
  induction ws with
  | nil => exact h
  | cons w ws ih =>
    show (scratch w _).PushesFirst
    unfold scratch
    split
    · exact ih
    · trivial

theorem PushesFirst.seq {f : Filler ty} (h : f.PushesFirst) (g : Filler ty) :
    (f.seq g).PushesFirst := by
  induction f with
  | ret code => exact absurd h id
  | push v next ih => trivial
  | pushAnyway v plain next ih => exact absurd h id
  | store w inside next ih => exact ih h
  | runaway => trivial

theorem Fills.seq {f g : Filler ty} {i m n l : Nat} (hf : f.Fills i m) (hg : g.Fills (i + m) n)
    (hl : m + n = l) : (f.seq g).Fills i l := by
  subst hl
  induction f generalizing i m with
  | ret code =>
    by_cases hc : code = nodSuccess
    · obtain rfl := hf hc
      simpa [Filler.seq, hc] using hg
    · simpa [Filler.seq, hc] using fills_ret hc i (m + n)
  | push v next ih =>
    obtain ⟨hm, hnext⟩ := hf
    have hi : i + 1 + (m - 1) = i + m := by omega
    have hn : m - 1 + n = m + n - 1 := by omega
    have := ih hnext (hi ▸ hg)
    exact ⟨by omega, hn ▸ this⟩
  | pushAnyway v plain next ih =>
    obtain ⟨⟨hm, hw⟩, hfirst, hnext⟩ := hf
    have hi : i + 1 + (m - 1) = i + m := by omega
    have hn : m - 1 + n = m + n - 1 := by omega
    have := ih hnext (hi ▸ hg)
    exact ⟨⟨by omega, hw⟩, hfirst.seq g, hn ▸ this⟩
  | store w inside next ih => exact ih hf hg
  | runaway => trivial

end Filler

theorem fills_nodAutofill {ty : EventType} (s : Syscall) (entries : List AutofillArg) (i : Nat) :
    (nodAutofill s entries : Filler ty).Fills i entries.length := by
  induction entries generalizing i with
  | nil => exact fun _ => rfl
  | cons entry entries ih => exact Filler.fills_push.mpr (ih (i + 1))

/-! ## Integers that fit -/

/-- The bytes of the `n` parameters from `i` on, if all of them are integers. -/
def scalarBytes (ty : EventType) : Nat → Nat → Option Nat
  | _, 0 => some 0
  | i, n + 1 =>
      match ((gEventInfo ty).param i).type.width, scalarBytes ty (i + 1) n with
      | some w, some m => some (w + m)
      | _, _ => none

theorem ParamType.width_bounds {t : ParamType} {w : Nat} (h : t.width = some w) :
    0 < w ∧ w ≤ 8 := by
  cases t <;> cases h <;> decide

namespace Filler

variable {ty : EventType} {um : UserMem} {next : Filler ty} {vs : List Value} {i off room m : Nat}

theorem scalarBytes_cons {n : Nat} (h : scalarBytes ty i (n + 1) = some m) :
    ∃ w m', ((gEventInfo ty).param i).type.width = some w ∧ scalarBytes ty (i + 1) n = some m' ∧
      m = w + m' := by
  simp only [scalarBytes] at h
  split at h
  · rename_i w m' hw hm
    exact ⟨w, m', hw, hm, (Option.some.inj h).symm⟩
  · cases h

/-- A push of an integer for which there is room. -/
theorem valToRing_of_room (um : UserMem) (v : Value) {w : Nat} (hn : i < (gEventInfo ty).nparams)
    (ht : ((gEventInfo ty).param i).type.width = some w) (hroom : w ≤ room)
    (hw : off + room < 2 ^ 32) :
    (valToRing ty um v ⟨i, off, room⟩).res = nodSuccess ∧
      (valToRing ty um v ⟨i, off, room⟩).args = ⟨i + 1, off + w, room - w⟩ := by
  have hbounds := ParamType.width_bounds ht
  have hmax : nodMaxArgSize = 65000 := rfl
  have hv : valToRing ty um v ⟨i, off, room⟩ = _ :=
    valToRing_scalar hn ht hbounds.1 (by simp only; omega) (by simp only; omega)
  rw [hv]
  exact ⟨rfl, rfl⟩

/-- Integers for which there is room are pushed, one after another. -/
theorem run_pushes_of_room (um : UserMem) (vs : List Value) (next : Filler ty) {n : Nat}
    (hn : i + n ≤ (gEventInfo ty).nparams) (hm : scalarBytes ty i n = some m) (hroom : m ≤ room)
    (hw : off + room < 2 ^ 32) (hlen : vs.length = n) :
    ((pushes vs next).run um ⟨i, off, room⟩).res =
        (next.run um ⟨i + n, off + m, room - m⟩).res ∧
      ((pushes vs next).run um ⟨i, off, room⟩).args =
        (next.run um ⟨i + n, off + m, room - m⟩).args := by
  subst hlen
  induction vs generalizing i off room m with
  | nil =>
    obtain rfl := Option.some.inj hm
    exact ⟨rfl, rfl⟩
  | cons v vs ih =>
    rw [List.length_cons] at hn hm ⊢
    obtain ⟨w, m', ht, hm', rfl⟩ := scalarBytes_cons hm
    obtain ⟨hres, hargs⟩ := valToRing_of_room um v (by omega) ht (by omega) hw
    have hpos : i + 1 + vs.length = i + (vs.length + 1) := by omega
    show ((push v (pushes vs next)).run um _).res = _ ∧ ((push v (pushes vs next)).run um _).args = _
    rw [run_push_of_success hres, hargs, ← hpos, ← Nat.add_assoc, ← Nat.sub_sub]
    exact ih (by omega) (by omega) (by omega) hm'

theorem tooMany_pushes_of_room {n : Nat} (hn : i + n ≤ (gEventInfo ty).nparams)
    (hm : scalarBytes ty i n = some m) (hroom : m ≤ room) (hw : off + room < 2 ^ 32)
    (h : next.TooMany um ⟨i + n, off + m, room - m⟩) (hlen : vs.length = n) :
    (pushes vs next).TooMany um ⟨i, off, room⟩ := by
  subst hlen
  induction vs generalizing i off room m with
  | nil =>
    obtain rfl := Option.some.inj hm
    exact h
  | cons v vs ih =>
    rw [List.length_cons] at hn hm h
    obtain ⟨w, m', ht, hm', rfl⟩ := scalarBytes_cons hm
    obtain ⟨hres, hargs⟩ := valToRing_of_room um v (by omega) ht (by omega) hw
    have hpos : i + 1 + vs.length = i + (vs.length + 1) := by omega
    refine Or.inr ⟨hres, ?_⟩
    rw [hargs]
    refine ih (by omega) (by omega) (by omega) hm' ?_
    rw [hpos, Nat.add_assoc, Nat.sub_sub]
    exact h

end Filler

/-! ## With ASSERTs -/

/-- Running the filler from `a` comes to a push for which there is no parameter. -/
def CheckedFiller.TooMany {ty : EventType} (um : UserMem) : CheckedFiller ty → RingArgs → Prop
  | plain f, a => f.TooMany um a
  | assert before cond next, a => before.TooMany um a ∨
      ((before.run um a).res = some nodSuccess ∧ cond = true ∧
        next.TooMany um (before.run um a).args)

theorem CheckedFiller.tooMany_filler {ty : EventType} {um : UserMem} {c : CheckedFiller ty}
    {a : RingArgs} (h : c.TooMany um a) : c.filler.TooMany um a := by
  induction c generalizing a with
  | plain f => exact h
  | assert before cond next ih =>
    refine Filler.tooMany_seq.mpr ?_
    rcases h with h | ⟨hok, -, h⟩
    · exact Or.inl h
    · exact Or.inr ⟨hok, ih h⟩

/-- Where no `ASSERT` stops it, the filler comes as far as without them. -/
theorem CheckedFiller.tooMany_of_filler {ty : EventType} {um : UserMem} {c : CheckedFiller ty}
    {a : RingArgs} (h : c.filler.TooMany um a) (ht : ¬ c.Trips um a) : c.TooMany um a := by
  induction c generalizing a with
  | plain f => exact h
  | assert before cond next ih =>
    rcases Filler.tooMany_seq.mp h with h | ⟨hok, h⟩
    · exact Or.inl h
    · have hcond : cond ≠ false := fun hc => ht (Or.inr ⟨hok, Or.inl hc⟩)
      have hnext : ¬ next.Trips um (before.run um a).args := fun hn => ht (Or.inr ⟨hok, Or.inr hn⟩)
      exact Or.inr ⟨hok, by simpa using hcond, ih h hnext⟩

end NoDrop
