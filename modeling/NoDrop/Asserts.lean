import NoDrop.Fillers

/-! # Fillers and their ASSERTs

`ASSERT(expr)` is `BUG_ON(!(expr))`: a false condition stops the kernel.  An `ASSERT` of a
filler stands between stretches of ordinary filler, and its condition depends on the
registers, on user memory and on kernel state like everything else a filler does.  So a
filler with `ASSERT`s is a list of stretches with a condition between each two
(`CheckedFiller`).  `CheckedFiller.filler` forgets the conditions.

`val_to_ring` ends in two `ASSERT`s of its own, about the length it is going to add.  They
hold whatever it is given (`Filler.not_trips`).
-/
namespace NoDrop

open Bytes

/-- The two `ASSERT`s at the end of `val_to_ring`, for the length `len` of an argument with
`max` bytes of room. -/
def lenAsserts (len max : Nat) : Bool := len ≤ nodMaxArgSize && len ≤ max

/-- This call of `val_to_ring` evaluates an `ASSERT` that is false. -/
def PushTrips (ty : EventType) (um : UserMem) (v : Value) (a : RingArgs) : Prop :=
  let max := min a.argDataSize nodMaxArgSize
  let p := (gEventInfo ty).param a.curarg
  a.curarg < (gEventInfo ty).nparams ∧ a.argDataSize ≠ 0 ∧
    if p.type = .dyn ∧ p.dyn ≠ [] then
      ∃ t piece, p.dyn[v.dynIdx.toNat]? = some t ∧ pushData t um v (max - 1) = .ok piece ∧
        lenAsserts piece.1 (max - 1) = false
    else ∃ piece, pushData p.type um v max = .ok piece ∧ lenAsserts piece.1 max = false

theorem lenAsserts_of_pushData {t : ParamType} {um : UserMem} {v : Value} {max : Nat}
    {piece : Piece} (h : pushData t um v max = .ok piece) (hmax : max ≤ nodMaxArgSize) :
    lenAsserts piece.1 max = true := by
  have hle := (pushData_within h).len_le
  simp only [lenAsserts, Bool.and_eq_true, decide_eq_true_eq]
  omega

theorem not_pushTrips (ty : EventType) (um : UserMem) (v : Value) (a : RingArgs) :
    ¬ PushTrips ty um v a := by
  rintro ⟨-, -, h⟩
  split at h
  · obtain ⟨t, piece, -, hp, hfalse⟩ := h
    rw [lenAsserts_of_pushData hp (by omega)] at hfalse
    cases hfalse
  · obtain ⟨piece, hp, hfalse⟩ := h
    rw [lenAsserts_of_pushData hp (by omega)] at hfalse
    cases hfalse

namespace Filler

variable {ty : EventType} {um : UserMem}

/-- Running the filler from `a` comes to an `ASSERT` of `val_to_ring` that is false. -/
def Trips (um : UserMem) : Filler ty → RingArgs → Prop
  | ret _, _ => False
  | push v next, a => PushTrips ty um v a ∨
      ((valToRing ty um v a).res = nodSuccess ∧ next.Trips um (valToRing ty um v a).args)
  | pushAnyway v _ next, a => PushTrips ty um v a ∨ next.Trips um (valToRing ty um v a).args
  | store _ _ next, a => next.Trips um a
  | runaway, _ => False

theorem not_trips (f : Filler ty) (a : RingArgs) : ¬ f.Trips um a := by
  induction f generalizing a with
  | ret code => exact id
  | push v next ih =>
    rintro (h | ⟨-, h⟩)
    · exact not_pushTrips ty um v a h
    · exact ih _ h
  | pushAnyway v plain next ih =>
    rintro (h | h)
    · exact not_pushTrips ty um v a h
    · exact ih _ h
  | store w inside next ih => exact ih a
  | runaway => exact id

/-! ## One filler after another -/

@[simp] theorem seq_ret_success (g : Filler ty) : (ret nodSuccess).seq g = g := by
  simp [seq]

@[simp] theorem seq_ret_right (f : Filler ty) : f.seq (ret nodSuccess) = f := by
  induction f with
  | ret code =>
    by_cases hc : code = nodSuccess
    · simp [seq, hc]
    · simp [seq, hc]
  | push v next ih => simp only [seq, ih]
  | pushAnyway v plain next ih => simp only [seq, ih]
  | store w inside next ih => simp only [seq, ih]
  | runaway => rfl

theorem seq_assoc (f g h : Filler ty) : (f.seq g).seq h = f.seq (g.seq h) := by
  induction f with
  | ret code =>
    by_cases hc : code = nodSuccess
    · simp [seq, hc]
    · simp [seq, hc]
  | push v next ih => simp only [seq, ih]
  | pushAnyway v plain next ih => simp only [seq, ih]
  | store w inside next ih => simp only [seq, ih]
  | runaway => rfl

/-- Where the first filler succeeds, the second runs on. -/
theorem run_seq_of_success {f : Filler ty} (g : Filler ty) {a : RingArgs}
    (h : (f.run um a).res = some nodSuccess) :
    (f.seq g).run um a =
      { g.run um (f.run um a).args with
        out := (f.run um a).out ++ (g.run um (f.run um a).args).out
        scratch := (f.run um a).scratch ++ (g.run um (f.run um a).args).scratch } := by
  induction f generalizing a with
  | ret code =>
    simp only [run, Option.some.injEq] at h
    simp [seq, run, h]
  | push v next ih =>
    by_cases hok : (valToRing ty um v a).res = nodSuccess
    · rw [run_push_of_success hok] at h ⊢
      simp only [seq, run_push_of_success hok, ih h, List.append_assoc]
    · rw [run_push_of_failure hok] at h
      exact absurd (Option.some.inj h) hok
  | pushAnyway v plain next ih =>
    have h' : (next.run um (valToRing ty um v a).args).res = some nodSuccess := h
    simp only [seq, run, ih h', List.append_assoc]
  | store w inside next ih =>
    have h' : (next.run um a).res = some nodSuccess := h
    simp only [seq, run, ih h', List.cons_append]
  | runaway => cases h

/-- Where the first filler fails, the second does not run. -/
theorem run_seq_of_failure {f : Filler ty} (g : Filler ty) {a : RingArgs}
    (h : (f.run um a).res ≠ some nodSuccess) : (f.seq g).run um a = f.run um a := by
  induction f generalizing a with
  | ret code =>
    have hc : code ≠ nodSuccess := fun hc => h (by rw [hc]; rfl)
    simp [seq, hc]
  | push v next ih =>
    by_cases hok : (valToRing ty um v a).res = nodSuccess
    · rw [run_push_of_success hok] at h
      simp only [seq, run_push_of_success hok, ih h]
    · simp only [seq, run_push_of_failure hok]
  | pushAnyway v plain next ih =>
    have h' : (next.run um (valToRing ty um v a).args).res ≠ some nodSuccess := h
    simp only [seq, run, ih h']
  | store w inside next ih =>
    have h' : (next.run um a).res ≠ some nodSuccess := h
    simp only [seq, run, ih h']
  | runaway => rfl

end Filler

/-! ## Conditions between stretches -/

/-- A filler with the `ASSERT`s it evaluates. -/
inductive CheckedFiller (ty : EventType) where
  /-- The last stretch. -/
  | plain (f : Filler ty)
  /-- A stretch, then `ASSERT(cond)` and what follows. -/
  | assert (before : Filler ty) (cond : Bool) (next : CheckedFiller ty)

namespace CheckedFiller

variable {ty : EventType} {um : UserMem}

/-- The filler without its `ASSERT`s. -/
def filler : CheckedFiller ty → Filler ty
  | plain f => f
  | assert before _ next => before.seq next.filler

/-- Running the filler.  An `ASSERT` that is false does not return. -/
def run (um : UserMem) : CheckedFiller ty → RingArgs → FillerRun
  | plain f, a => f.run um a
  | assert before cond next, a =>
      let r := before.run um a
      if r.res = some nodSuccess then
        if cond then
          let t := next.run um r.args
          { t with out := r.out ++ t.out, scratch := r.scratch ++ t.scratch }
        else { r with res := none }
      else r

/-- Running the filler from `a` comes to an `ASSERT` that is false. -/
def Trips (um : UserMem) : CheckedFiller ty → RingArgs → Prop
  | plain f, a => f.Trips um a
  | assert before cond next, a => before.Trips um a ∨
      ((before.run um a).res = some nodSuccess ∧
        (cond = false ∨ next.Trips um (before.run um a).args))

/-- A stretch in front. -/
def after (f : Filler ty) : CheckedFiller ty → CheckedFiller ty
  | plain g => plain (f.seq g)
  | assert before cond next => assert (f.seq before) cond next

/-- One filler after another. -/
def seq : CheckedFiller ty → CheckedFiller ty → CheckedFiller ty
  | plain f, d => d.after f
  | assert before cond next, d => assert before cond (next.seq d)

/-- `ASSERT(cond)` for each of the conditions, in turn. -/
def asserts (conds : List Bool) (next : CheckedFiller ty) : CheckedFiller ty :=
  conds.foldr (fun cond next => assert (.ret nodSuccess) cond next) next

@[simp] theorem filler_after (f : Filler ty) (c : CheckedFiller ty) :
    (c.after f).filler = f.seq c.filler := by
  cases c with
  | plain g => rfl
  | assert before cond next => simp only [after, filler, Filler.seq_assoc]

@[simp] theorem filler_seq (c d : CheckedFiller ty) : (c.seq d).filler = c.filler.seq d.filler := by
  induction c with
  | plain f => exact filler_after f d
  | assert before cond next ih => simp only [seq, filler, ih, Filler.seq_assoc]

@[simp] theorem filler_asserts (conds : List Bool) (c : CheckedFiller ty) :
    (asserts conds c).filler = c.filler := by
  induction conds with
  | nil => rfl
  | cons cond conds ih =>
    show (Filler.ret nodSuccess).seq (asserts conds c).filler = c.filler
    rw [Filler.seq_ret_success, ih]

/-- A run that comes to no false `ASSERT` is that of the filler without them. -/
theorem run_filler {c : CheckedFiller ty} {a : RingArgs} (h : ¬ c.Trips um a) :
    c.run um a = c.filler.run um a := by
  induction c generalizing a with
  | plain f => rfl
  | assert before cond next ih =>
    have hb : ¬ ((before.run um a).res = some nodSuccess ∧
        (cond = false ∨ next.Trips um (before.run um a).args)) := fun hb => h (Or.inr hb)
    by_cases hok : (before.run um a).res = some nodSuccess
    · have hc : cond = true := by
        by_contra hc
        exact hb ⟨hok, Or.inl (by simpa using hc)⟩
      have hn : ¬ next.Trips um (before.run um a).args := fun hn => hb ⟨hok, Or.inr hn⟩
      simp only [run, hok, hc, if_true, filler, Filler.run_seq_of_success _ hok, ih hn]
    · simp only [run, hok, if_false, filler, Filler.run_seq_of_failure _ hok]

/-- A run that comes to a false `ASSERT` does not return. -/
theorem run_of_trips {c : CheckedFiller ty} {a : RingArgs} (h : c.Trips um a) :
    (c.run um a).res = none := by
  induction c generalizing a with
  | plain f => exact absurd h (f.not_trips a)
  | assert before cond next ih =>
    rcases h with h | ⟨hok, h⟩
    · exact absurd h (before.not_trips a)
    · simp only [run, hok, if_true]
      rcases h with h | h
      · simp [h]
      · by_cases hc : cond = true
        · simp only [hc, if_true]
          exact ih h
        · simp [hc]

theorem run_eq_of_success {c : CheckedFiller ty} {a : RingArgs} {code : Int}
    (h : (c.run um a).res = some code) : c.run um a = c.filler.run um a := by
  refine run_filler fun ht => ?_
  rw [run_of_trips ht] at h
  cases h

/-! ## Where an ASSERT is false -/

/-- A stretch in front of a filler. -/
theorem trips_after {f : Filler ty} {c : CheckedFiller ty} {a : RingArgs} :
    (c.after f).Trips um a ↔
      (f.run um a).res = some nodSuccess ∧ c.Trips um (f.run um a).args := by
  have hseq : ∀ g : Filler ty, ((f.seq g).run um a).res = some nodSuccess ↔
      (f.run um a).res = some nodSuccess ∧ (g.run um (f.run um a).args).res = some nodSuccess := by
    intro g
    by_cases hok : (f.run um a).res = some nodSuccess
    · rw [Filler.run_seq_of_success g hok]
      simp [hok]
    · rw [Filler.run_seq_of_failure g hok]
      simp [hok]
  cases c with
  | plain g => simp [after, Trips, Filler.not_trips]
  | assert before cond next =>
    simp only [after, Trips, Filler.not_trips, false_or, hseq, and_assoc]
    constructor
    · rintro ⟨hok, hb, h⟩
      rw [Filler.run_seq_of_success before hok] at h
      exact ⟨hok, hb, h⟩
    · rintro ⟨hok, hb, h⟩
      rw [Filler.run_seq_of_success before hok]
      exact ⟨hok, hb, h⟩

theorem trips_seq {c d : CheckedFiller ty} {a : RingArgs} :
    (c.seq d).Trips um a ↔ c.Trips um a ∨
      ((c.run um a).res = some nodSuccess ∧ d.Trips um (c.run um a).args) := by
  induction c generalizing a with
  | plain f =>
    show (d.after f).Trips um a ↔ f.Trips um a ∨
      ((f.run um a).res = some nodSuccess ∧ d.Trips um (f.run um a).args)
    rw [trips_after]
    simp [Filler.not_trips]
  | assert before cond next ih =>
    by_cases hok : (before.run um a).res = some nodSuccess
    · cases cond with
      | false => simp [seq, Trips, run, hok, Filler.not_trips]
      | true => simp [seq, Trips, run, hok, Filler.not_trips, ih]
    · simp [seq, Trips, run, hok, Filler.not_trips]

end CheckedFiller

end NoDrop
