import NoDrop.Pushes

/-! # How a filler ends

On one system call a filler is a straight line, so that how it ends is a property of its text:
the code behind its last push, or a loop that never ends (`Filler.ending`).  Whether it gets
there is a matter of the lengths of its arguments: each has to find the bytes it needs in what
the ones before it leave (`argNeed`, `Filler.Fits`).  A filler that does not end in
`NOD_FAILURE_BUFFER_FULL` by itself runs out of room exactly if an argument does not fit
(`Filler.outOfRoom_iff`).

Fillers come to their `ASSERT`s and to the codes they return by themselves after a few small
arguments, integers and cut-off data.  Such a stretch gets through wherever a few hundred bytes
are left (`Filler.Small`).
-/
namespace NoDrop

open Bytes

/-! ## The bytes an argument needs -/

/-- The bytes an argument laid down as type `t` has to find left, if it needs any. -/
def ParamType.need (t : ParamType) (v : Value) : Nat :=
  match t with
  | .charbuf | .fspath | .fsrelpath => 0
  | .bytebuf =>
      if v.val = 0 then 0 else (if v.fromuser then v.lookahead else min v.len.toNat snaplen) + 1
  | .sockaddr | .socktuple | .fdlist => if v.val = 0 then 0 else v.len.toNat + 1
  | t => t.width.getD 0

theorem refused_iff (t : ParamType) (v : Value) (max : Nat) : Refused t v max ↔ max < t.need v := by
  cases hw : t.width with
  | some w =>
    have hneed : t.need v = w := by
      cases t <;> simp_all [ParamType.need, ParamType.width]
    rw [refused_scalar v max hw, hneed]
  | none =>
    cases t
    case charbuf | fspath | fsrelpath => simp [Refused, ParamType.need]
    case bytebuf | sockaddr | socktuple | fdlist =>
      simp only [Refused, ParamType.need]
      by_cases hv : v.val = 0
      · simp [hv]
      · simp only [hv, ne_eq, not_false_eq_true, true_and, if_false, Nat.lt_succ_iff]
    all_goals simp_all [Refused, ParamType.need, ParamType.width]

section Argument

variable {ty : EventType} {um : UserMem} {v : Value} {i room n : Nat}

/-- The bytes argument `i` has to find left: a byte at least, and those of its index. -/
def argNeed (ty : EventType) (v : Value) (i : Nat) : Nat :=
  match argType ty v i with
  | none => 1
  | some (t, pre) => max 1 (pre + t.need v)

theorem lacksRoom_iff : LacksRoom ty v i room ↔
    i < (gEventInfo ty).nparams ∧ min room nodMaxArgSize < argNeed ty v i := by
  have hmax : nodMaxArgSize = 65000 := rfl
  rw [LacksRoom, argNeed]
  refine and_congr_right fun hi => ?_
  cases ht : argType ty v i with
  | none =>
    simp only [reduceCtorEq, false_and, exists_false, or_false]
    omega
  | some tp =>
    obtain ⟨t, pre⟩ := tp
    have hpre : pre = 0 ∨ pre = 1 := (argType_cases ht).2.imp And.left And.left
    have hr : (∃ t' pre', some (t, pre) = some (t', pre') ∧
        Refused t' v (min room nodMaxArgSize - pre')) ↔
        min room nodMaxArgSize - pre < t.need v := by
      simp only [Option.some.injEq, Prod.mk.injEq, refused_iff]
      constructor
      · rintro ⟨t', pre', ⟨rfl, rfl⟩, h⟩
        exact h
      · exact fun h => ⟨t, pre, ⟨rfl, rfl⟩, h⟩
    rw [hr]
    simp only
    omega

/-- An argument that needs more than it finds is not laid down. -/
theorem argLen_of_lacksRoom (um : UserMem) (h : LacksRoom ty v i room) :
    argLen ty um v i room = none := by
  cases hl : argLen ty um v i room with
  | none => rfl
  | some n =>
    obtain ⟨hroom, t, pre, p, ht, hp, -⟩ := argLen_eq_some hl
    obtain ⟨-, h0 | ⟨t', pre', ht', href⟩⟩ := h
    · exact absurd h0 hroom
    · obtain ⟨rfl, rfl⟩ := Prod.mk.inj (Option.some.inj (ht.symm.trans ht'))
      rcases pushData_cases t um v (min room nodMaxArgSize - pre) with
        ⟨-, he⟩ | ⟨hno, -⟩ | ⟨hno, -⟩
      · rw [hp] at he
        cases he
      · exact absurd href hno
      · exact absurd href hno

/-- What lacks room in some room lacks it in less. -/
theorem LacksRoom.anti {room' : Nat} (h : LacksRoom ty v i room)
    (hle : min room' nodMaxArgSize ≤ room) : LacksRoom ty v i room' := by
  rw [lacksRoom_iff] at h ⊢
  omega

end Argument

/-! ## The end of a filler, and the way there -/

namespace Filler

variable {ty : EventType} {um : UserMem} {i room n : Nat}

/-- The code behind the last push, `none` for a loop that never ends. -/
def ending : Filler ty → Option Int
  | ret code => some code
  | push _ next => next.ending
  | pushAnyway _ _ next => next.ending
  | store _ _ next => next.ending
  | runaway => none

/-- Every argument finds the bytes it needs in what the ones before it leave. -/
def Fits (um : UserMem) : Filler ty → Nat → Nat → Prop
  | ret _, _, _ => True
  | push v next, i, room =>
      (i < (gEventInfo ty).nparams → argNeed ty v i ≤ min room nodMaxArgSize) ∧
        match argLen ty um v i room with
        | some n => next.Fits um (i + 1) (room - n)
        | none => True
  | pushAnyway v _ next, i, room =>
      match argLen ty um v i room with
      | some n => next.Fits um (i + 1) (room - n)
      | none => next.Fits um i room
  | store _ _ next, i, room => next.Fits um i room
  | runaway, _, _ => True

theorem not_lacksRoom_iff {v : Value} : ¬ LacksRoom ty v i room ↔
    (i < (gEventInfo ty).nparams → argNeed ty v i ≤ min room nodMaxArgSize) := by
  rw [lacksRoom_iff]
  omega

theorem outOfRoom_of_not_fits {f : Filler ty} (h : ¬ f.Fits um i room) :
    f.OutOfRoom um i room := by
  induction f generalizing i room with
  | ret code => exact absurd trivial h
  | push v next ih =>
    simp only [Fits, ← not_lacksRoom_iff] at h
    simp only [OutOfRoom]
    cases hl : argLen ty um v i room with
    | some n =>
      have hlacks : ¬ LacksRoom ty v i room := fun hlacks => by
        rw [argLen_of_lacksRoom um hlacks] at hl
        cases hl
      rw [hl] at h
      exact ih fun hn => h ⟨hlacks, hn⟩
    | none =>
      rw [hl] at h
      simpa using h
  | pushAnyway v plain next ih =>
    simp only [Fits] at h
    simp only [OutOfRoom]
    cases hl : argLen ty um v i room with
    | some n =>
      rw [hl] at h
      exact ih h
    | none =>
      rw [hl] at h
      exact ih h
  | store w inside next ih => exact ih h
  | runaway => exact absurd trivial h

theorem OutOfRoom.not_fits {f : Filler ty} (h : f.OutOfRoom um i room)
    (hend : f.ending ≠ some nodFailureBufferFull) : ¬ f.Fits um i room := by
  induction f generalizing i room with
  | ret code => exact absurd (congrArg some h) hend
  | push v next ih =>
    simp only [Fits, ← not_lacksRoom_iff]
    simp only [OutOfRoom] at h
    rintro ⟨hlacks, hfits⟩
    cases hl : argLen ty um v i room with
    | some n =>
      rw [hl] at h hfits
      exact ih h hend hfits
    | none =>
      rw [hl] at h
      exact hlacks h
  | pushAnyway v plain next ih =>
    simp only [Fits]
    simp only [OutOfRoom] at h
    cases hl : argLen ty um v i room with
    | some n =>
      rw [hl] at h
      exact ih h hend
    | none =>
      rw [hl] at h
      exact ih h hend
  | store w inside next ih => exact ih h hend
  | runaway => exact absurd h id

/-- **A filler runs out of room exactly if an argument does not fit**, unless it reports a full
buffer by itself. -/
theorem outOfRoom_iff {f : Filler ty} (hend : f.ending ≠ some nodFailureBufferFull) :
    f.OutOfRoom um i room ↔ ¬ f.Fits um i room :=
  ⟨fun h => h.not_fits hend, outOfRoom_of_not_fits⟩

theorem RunsAway.ending {f : Filler ty} (h : f.RunsAway um i room) : f.ending = none := by
  induction f generalizing i room with
  | ret code => exact absurd h id
  | push v next ih =>
    simp only [RunsAway] at h
    cases hl : argLen ty um v i room with
    | some n =>
      rw [hl] at h
      exact ih h
    | none =>
      rw [hl] at h
      exact absurd h id
  | pushAnyway v plain next ih =>
    simp only [RunsAway] at h
    cases hl : argLen ty um v i room with
    | some n =>
      rw [hl] at h
      exact ih h
    | none =>
      rw [hl] at h
      exact ih h
  | store w inside next ih => exact ih h
  | runaway => rfl

/-- A run that succeeds has come to the end. -/
theorem ending_of_success {f : Filler ty} {a : RingArgs}
    (h : (f.run um a).res = some nodSuccess) : f.ending = some nodSuccess := by
  induction f generalizing a with
  | ret code => exact h
  | push v next ih =>
    by_cases hres : (valToRing ty um v a).res = nodSuccess
    · rw [run_push_of_success hres] at h
      exact ih h
    · rw [run_push_of_failure hres] at h
      exact absurd (Option.some.inj h) hres
  | pushAnyway v plain next ih => exact ih h
  | store w inside next ih => exact ih h
  | runaway => cases h

/-- Where the first of two fillers runs out of room, both do. -/
theorem OutOfRoom.seq {f : Filler ty} (h : f.OutOfRoom um i room) (g : Filler ty) :
    (f.seq g).OutOfRoom um i room ∧ (f.seq g).taken um i room = f.taken um i room := by
  induction f generalizing i room with
  | ret code =>
    obtain rfl : code = nodFailureBufferFull := h
    exact ⟨rfl, rfl⟩
  | push v next ih =>
    simp only [OutOfRoom] at h
    simp only [Filler.seq, OutOfRoom, taken]
    cases hl : argLen ty um v i room with
    | some n =>
      rw [hl] at h
      exact ⟨(ih h).1, congrArg (n + ·) (ih h).2⟩
    | none =>
      rw [hl] at h
      exact ⟨h, rfl⟩
  | pushAnyway v plain next ih =>
    simp only [OutOfRoom] at h
    simp only [Filler.seq, OutOfRoom, taken]
    cases hl : argLen ty um v i room with
    | some n =>
      rw [hl] at h
      exact ⟨(ih h).1, congrArg (n + ·) (ih h).2⟩
    | none =>
      rw [hl] at h
      exact ih h
  | store w inside next ih => exact ih h
  | runaway => exact absurd h id

/-! ### The pieces a filler is made of -/

@[simp] theorem ending_ret (code : Int) : (ret code : Filler ty).ending = some code := rfl

@[simp] theorem ending_push (v : Value) (next : Filler ty) :
    (push v next).ending = next.ending := rfl

@[simp] theorem ending_done : (done : Filler ty).ending = some nodSuccess := rfl

@[simp] theorem ending_pushLast (v : Value) :
    (pushLast v : Filler ty).ending = some nodSuccess := rfl

@[simp] theorem ending_pushes (vs : List Value) (next : Filler ty) :
    (pushes vs next).ending = next.ending := by
  induction vs with
  | nil => rfl
  | cons v vs ih => exact ih

theorem ending_scratch (w : Write) (next : Filler ty) :
    (scratch w next).ending = if w.stop ≤ pageSize then next.ending else none := by
  unfold scratch
  split <;> rfl

@[simp] theorem ending_seq (f g : Filler ty) :
    (f.seq g).ending = if f.ending = some nodSuccess then g.ending else f.ending := by
  induction f with
  | ret code =>
    by_cases hc : code = nodSuccess
    · simp [seq, hc]
    · simp [seq, hc]
  | push v next ih => exact ih
  | pushAnyway v plain next ih => exact ih
  | store w inside next ih => exact ih
  | runaway => rfl

/-- The filler ends, and not with `NOD_FAILURE_BUFFER_FULL`. -/
def Settles (f : Filler ty) : Prop := f.ending ≠ none ∧ f.ending ≠ some nodFailureBufferFull

theorem settles_ret {code : Int} (h : code ≠ nodFailureBufferFull) :
    (ret code : Filler ty).Settles := by
  refine ⟨by simp, ?_⟩
  rw [ending_ret, Ne, Option.some.injEq]
  exact h

theorem settles_done : (done : Filler ty).Settles := settles_ret (by decide)

theorem settles_push {v : Value} {next : Filler ty} : (push v next).Settles ↔ next.Settles :=
  Iff.rfl

theorem settles_pushAnyway {v : Value} {plain : ∀ i, ((gEventInfo ty).param i).type ≠ .dyn}
    {next : Filler ty} : (pushAnyway v plain next).Settles ↔ next.Settles := Iff.rfl

theorem settles_store {w : Write} {inside : w.stop ≤ pageSize} {next : Filler ty} :
    (store w inside next).Settles ↔ next.Settles := Iff.rfl

theorem settles_pushLast (v : Value) : (pushLast v : Filler ty).Settles :=
  settles_push.mpr settles_done

theorem settles_pushes {vs : List Value} {next : Filler ty} :
    (pushes vs next).Settles ↔ next.Settles := by
  rw [Settles, ending_pushes]
  exact Iff.rfl

theorem settles_scratch {w : Write} {next : Filler ty} (hw : w.stop ≤ pageSize)
    (h : next.Settles) : (scratch w next).Settles := by
  rw [Settles, ending_scratch, if_pos hw]
  exact h

theorem settles_scratches {ws : List Write} {next : Filler ty} (hw : ∀ w ∈ ws, w.stop ≤ pageSize)
    (h : next.Settles) : (scratches ws next).Settles := by
  induction ws with
  | nil => exact h
  | cons w ws ih =>
    exact settles_scratch (hw w List.mem_cons_self)
      (ih fun w' hw' => hw w' (List.mem_cons_of_mem _ hw'))

theorem settles_fetch {um : UserMem} {addr : UInt64} {len : Nat} {next : List UInt8 → Filler ty}
    (h : ∀ bs, (next bs).Settles) : (fetch um addr len next).Settles := by
  unfold fetch
  split
  · exact settles_ret (by decide)
  · exact h _

theorem Settles.seq {f g : Filler ty} (hf : f.Settles) (hg : g.Settles) : (f.seq g).Settles := by
  rw [Settles, ending_seq]
  split
  · exact hg
  · exact hf

end Filler

theorem ending_nodAutofill {ty : EventType} (s : Syscall) (entries : List AutofillArg) :
    (nodAutofill s entries : Filler ty).ending = some nodSuccess := by
  induction entries with
  | nil => rfl
  | cons entry entries ih => exact ih

/-! ## Small arguments -/

/-- A type whose arguments are laid down in at most 80 bytes: an integer, or data that is cut
off at `snaplen`. -/
def ParamType.isSmall (t : ParamType) : Bool := t.width.isSome || t == .bytebuf

section Argument

variable {ty : EventType} {um : UserMem} {v : Value} {i room n : Nat}

theorem pushBytebuf_len_le {max : Nat} {p : Piece} (h : pushBytebuf um v max = .ok p) :
    p.1 ≤ 80 := by
  have hsnap : min v.len.toNat snaplen ≤ 80 := Nat.min_le_right ..
  have hinval : (strlcpy invalText max).1 ≤ 8 := Nat.min_le_left ..
  have hlook : v.lookahead ≤ 16 := Nat.min_le_left ..
  have hsnapped : v.snapped max ≤ 80 := Nat.le_trans (Nat.min_le_left ..) hsnap
  simp only [pushBytebuf, pushUserBytes] at h
  split at h
  · cases h
    exact Nat.zero_le _
  split at h
  · split at h
    · cases h
    split at h
    · cases h
      exact Nat.le_trans hinval (by decide)
    split at h
    · rename_i heq
      cases h
      simp only
      omega
    split at h
    · cases h
      exact hsnapped
    · cases h
      exact hsnapped
  · split at h
    · cases h
    · cases h
      exact hsnap

/-- A small argument is laid down in at most 80 bytes, or finds no more than that. -/
theorem argLen_of_isSmall (um : UserMem) (v : Value) (room : Nat)
    (hi : i < (gEventInfo ty).nparams) (ht : ((gEventInfo ty).param i).type.isSmall = true) :
    (∃ n ≤ 80, argLen ty um v i room = some n) ∨
      (argLen ty um v i room = none ∧ LacksRoom ty v i room ∧ room ≤ 80) := by
  have hmax : nodMaxArgSize = 65000 := rfl
  have hsnap : snaplen = 80 := rfl
  rcases Bool.or_eq_true .. ▸ ht with hw | hb
  · obtain ⟨w, hw⟩ := Option.isSome_iff_exists.mp hw
    obtain ⟨hpos, hle⟩ := ParamType.width_bounds hw
    cases hl : argLen ty um v i room with
    | some n =>
      rw [argLen_scalar hw] at hl
      split at hl
      · cases hl
      · obtain rfl := Option.some.inj hl
        exact Or.inl ⟨w, by omega, rfl⟩
    | none =>
      refine Or.inr ⟨rfl, lacksRoom_of_scalar hi hw hl, ?_⟩
      rw [argLen_scalar hw] at hl
      split at hl
      · omega
      · cases hl
  · have hb : ((gEventInfo ty).param i).type = .bytebuf := by simpa using hb
    have htype : argType ty v i = some (.bytebuf, 0) := by
      rw [argType, if_neg (by omega), hb]
      simp
    by_cases hroom : room = 0
    · exact Or.inr ⟨by simp [argLen, hroom], ⟨hi, Or.inl hroom⟩, by omega⟩
    rcases pushBytebuf_refused um v (min room nodMaxArgSize) with ⟨hr, hp⟩ | ⟨-, p, hp⟩
    · refine Or.inr ⟨?_, ⟨hi, Or.inr ⟨_, _, htype, hr⟩⟩, ?_⟩
      · have hdata : pushData .bytebuf um v (min room nodMaxArgSize) = .error _ := hp
        simp only [argLen, hroom, htype, Nat.sub_zero, hdata, if_false]
      · have hle := hr.2
        simp only [Value.lookahead] at hle
        split at hle <;> omega
    · refine Or.inl ⟨p.1, pushBytebuf_len_le hp, ?_⟩
      have hdata : pushData .bytebuf um v (min room nodMaxArgSize) = .ok p := hp
      simp only [argLen, hroom, htype, Nat.sub_zero, hdata, if_false, Nat.zero_add]

end Argument

namespace Filler

variable {ty : EventType} {um : UserMem} {i n off room : Nat}

/-- From argument `i` on, the filler pushes at most `n` arguments, and `n` of them if it succeeds;
all of them are small. -/
def Small : Filler ty → Nat → Nat → Prop
  | ret code, _, n => code = nodSuccess → n = 0
  | push _ next, i, n =>
      (0 < n ∧ i < (gEventInfo ty).nparams ∧ ((gEventInfo ty).param i).type.isSmall = true) ∧
        next.Small (i + 1) (n - 1)
  | pushAnyway _ _ _, _, _ => False
  | store _ _ next, i, n => next.Small i n
  | runaway, _, _ => True

/-- **Where 81 bytes for each argument are left, a filler with small arguments gets to its
end.** -/
theorem Small.run_res {f : Filler ty} (h : f.Small i n) (hroom : 81 * n ≤ room) :
    (f.run um ⟨i, off, room⟩).res = f.ending := by
  induction f generalizing i n off room with
  | ret code => rfl
  | push v next ih =>
    obtain ⟨⟨hn, hi, ht⟩, hnext⟩ := h
    rcases argLen_of_isSmall um v room hi ht with ⟨l, hl, hlen⟩ | ⟨-, -, hle⟩
    · obtain ⟨hres, hargs⟩ := valToRing_of_len (a := ⟨i, off, room⟩) hlen
      rw [run_push_of_success hres, hargs]
      exact ih hnext (by simp only; omega)
    · omega
  | pushAnyway v plain next ih => exact absurd h id
  | store w inside next ih => exact ih h hroom
  | runaway => rfl

/-- In less room it gets there too, or runs out of room after a few bytes. -/
theorem Small.run_or_outOfRoom {f : Filler ty} (h : f.Small i n) (um : UserMem)
    (off room : Nat) : (f.run um ⟨i, off, room⟩).res = f.ending ∨
      (f.OutOfRoom um i room ∧ f.taken um i room ≤ 80 * n) := by
  induction f generalizing i n off room with
  | ret code => exact Or.inl rfl
  | push v next ih =>
    obtain ⟨⟨hn, hi, ht⟩, hnext⟩ := h
    rcases argLen_of_isSmall um v room hi ht with ⟨l, hl, hlen⟩ | ⟨hnone, hlacks, -⟩
    · obtain ⟨hres, hargs⟩ := valToRing_of_len (a := ⟨i, off, room⟩) hlen
      rw [run_push_of_success hres, hargs]
      simp only [OutOfRoom, taken, hlen]
      rcases ih hnext (u32 (off + l)) (room - l) with hres' | ⟨hout, htaken⟩
      · exact Or.inl hres'
      · exact Or.inr ⟨hout, by omega⟩
    · refine Or.inr ⟨?_, ?_⟩
      · simp only [OutOfRoom, hnone]
        exact hlacks
      · simp only [taken, hnone, argIndex]
        split
        · exact Nat.zero_le _
        · have hpre : ((argType ty v i).map Prod.snd).getD 0 ≤ 1 := by
            cases hty : argType ty v i with
            | none => exact Nat.zero_le _
            | some tp =>
              obtain ⟨t, pre⟩ := tp
              have := (argType_cases hty).2.imp And.left And.left
              simp only [Option.map_some, Option.getD_some]
              omega
          omega
  | pushAnyway v plain next ih => exact absurd h id
  | store w inside next ih => exact ih h off room
  | runaway => exact Or.inl rfl

/-- One that reports a full buffer by itself does so in any room. -/
theorem Small.outOfRoom {f : Filler ty} (h : f.Small i n)
    (hend : f.ending = some nodFailureBufferFull) : f.OutOfRoom um i room := by
  rcases h.run_or_outOfRoom um 0 room with hres | ⟨hout, -⟩
  · rw [hend] at hres
    exact (f.run_outOfRoom ⟨i, 0, room⟩).mp hres
  · exact hout

/-- One filler after another. -/
theorem Small.seq {f g : Filler ty} {m : Nat} (hf : f.Small i n) (hg : g.Small (i + n) m) :
    (f.seq g).Small i (n + m) := by
  induction f generalizing i n with
  | ret code =>
    by_cases hc : code = nodSuccess
    · obtain rfl := hf hc
      simpa [Filler.seq, hc] using hg
    · simp [Filler.seq, hc, Small]
  | push v next ih =>
    obtain ⟨⟨hn, hi, ht⟩, hnext⟩ := hf
    have hin : i + 1 + (n - 1) = i + n := by omega
    have hnm : n - 1 + m = n + m - 1 := by omega
    have hrest := ih hnext (hin ▸ hg)
    exact ⟨⟨by omega, hi, ht⟩, hnm ▸ hrest⟩
  | pushAnyway v plain next ih => exact absurd hf id
  | store w inside next ih => exact ih hf hg
  | runaway => trivial

theorem small_push {v : Value} {next : Filler ty} (hi : i < (gEventInfo ty).nparams)
    (ht : ((gEventInfo ty).param i).type.isSmall = true) (h : next.Small (i + 1) n) :
    (push v next).Small i (n + 1) :=
  ⟨⟨Nat.succ_pos n, hi, ht⟩, h⟩

/-- The parameters of an event from `i` on, up to `n` of them, are small. -/
def smallParams (ty : EventType) (i n : Nat) : Bool :=
  (List.range n).all fun j =>
    decide (i + j < (gEventInfo ty).nparams) && ((gEventInfo ty).param (i + j)).type.isSmall

theorem smallParams_succ (h : smallParams ty i (n + 1) = true) :
    (i < (gEventInfo ty).nparams ∧ ((gEventInfo ty).param i).type.isSmall = true) ∧
      smallParams ty (i + 1) n = true := by
  have hall : ∀ j < n + 1, i + j < (gEventInfo ty).nparams ∧
      ((gEventInfo ty).param (i + j)).type.isSmall = true := by
    intro j hj
    have := List.all_eq_true.mp h j (List.mem_range.mpr hj)
    rwa [Bool.and_eq_true, decide_eq_true_eq] at this
  refine ⟨hall 0 (Nat.succ_pos n), List.all_eq_true.mpr fun j hj => ?_⟩
  rw [Bool.and_eq_true, decide_eq_true_eq, Nat.add_right_comm i 1 j]
  exact hall (j + 1) (Nat.succ_lt_succ (List.mem_range.mp hj))

theorem small_pushes {vs : List Value} {next : Filler ty} {m : Nat} (hlen : vs.length = m)
    (hp : smallParams ty i m = true) (h : next.Small (i + m) n) :
    (pushes vs next).Small i (m + n) := by
  subst hlen
  induction vs generalizing i with
  | nil => simpa [pushes] using h
  | cons v vs ih =>
    obtain ⟨⟨hi, ht⟩, hp⟩ := smallParams_succ hp
    have hpos : i + (vs.length + 1) = i + 1 + vs.length := by omega
    have hrest := ih hp (hpos ▸ h)
    rw [List.length_cons, Nat.add_right_comm]
    exact small_push hi ht hrest

theorem small_pushes_done {vs : List Value} {m : Nat} (hlen : vs.length = m)
    (hp : smallParams ty i m = true) : (pushes vs done : Filler ty).Small i m :=
  small_pushes (n := 0) hlen hp fun _ => rfl

theorem small_ret {code : Int} (h : code ≠ nodSuccess) : (ret code : Filler ty).Small i n :=
  fun hc => absurd hc h

theorem small_scratch {w : Write} {next : Filler ty} (h : next.Small i n) :
    (scratch w next).Small i n := by
  unfold scratch
  split
  · exact h
  · trivial

end Filler

theorem small_nodAutofill {ty : EventType} (s : Syscall) {entries : List AutofillArg} {i m : Nat}
    (hlen : entries.length = m) (hp : Filler.smallParams ty i m = true) :
    (nodAutofill s entries : Filler ty).Small i m := by
  subst hlen
  induction entries generalizing i with
  | nil => exact fun _ => rfl
  | cons entry entries ih =>
    obtain ⟨⟨hi, ht⟩, hp⟩ := Filler.smallParams_succ hp
    exact Filler.small_push hi ht (ih hp)

/-! ## Vectors of buffers -/

section Vector

variable {ty : EventType} (s : Syscall)

theorem mergeBufs_length_lt {um : UserMem} {retval room : Nat} {isWrite : Bool} {iov : List Iovec}
    {buf : List UInt8} (h : buf.length < room) :
    (mergeBufs um retval room isWrite iov buf).1.length < room := by
  induction iov generalizing buf with
  | nil => exact h
  | cons v iov ih =>
    have hgot : ∀ addr len, (buf ++ (um.nodCopyFromUser addr
        (min len (room - buf.length - 1))).1).length < room := by
      intro addr len
      have hle := um.nodCopyFromUser_length_le addr (min len (room - buf.length - 1))
      rw [List.length_append]
      omega
    simp only [mergeBufs]
    split
    · exact h
    generalize (if isWrite = true then v.2 else min v.2 (retval - buf.length)) = want
    split
    · exact hgot _ _
    split
    · exact hgot _ _
    · exact ih (hgot _ _)

/-- `parse_readv_writev_bufs` gets through: there are fewer than 256 buffers, their array can be
read, and so can what is to be recorded of their data. -/
def BuffersRead (iovsrc iovcnt retval : UInt64) (flags : PrbFlags) : Prop :=
  let got := s.um.nodCopyFromUser iovsrc.toNat (iovcnt.toNat * 16)
  iovcnt.toNat < 256 ∧ got.2 = 0 ∧
    (flags.pushData = true → 0 < signed retval ∧ 0 < iovcnt.toNat →
      (mergeBufs s.um retval.toNat (pageSize - iovcnt.toNat * 16) flags.isWrite
        (iovecs iovcnt.toNat got.1) []).2 = true)

instance (iovsrc iovcnt retval : UInt64) (flags : PrbFlags) :
    Decidable (BuffersRead s iovsrc iovcnt retval flags) := inferInstanceAs (Decidable (_ ∧ _))

/-- **How `parse_readv_writev_bufs` ends**: it reports a full buffer for an array of 256 buffers or
more, and invalid memory where something cannot be read. -/
theorem ending_parseReadvWritevBufs (iovsrc iovcnt retval : UInt64) (flags : PrbFlags) :
    (parseReadvWritevBufs s iovsrc iovcnt retval flags : Filler ty).ending =
      if 256 ≤ iovcnt.toNat then some nodFailureBufferFull
      else if BuffersRead s iovsrc iovcnt retval flags then some nodSuccess
      else some nodFailureInvalidUserMemory := by
  have hpage : pageSize = 4096 := rfl
  unfold parseReadvWritevBufs
  dsimp only
  by_cases hbig : 256 ≤ iovcnt.toNat
  · rw [if_pos hbig]
    split
    · rfl
    rw [if_pos (by omega)]
    rfl
  rw [if_neg hbig, if_neg (by omega), if_neg (by omega)]
  have hcopy := s.um.nodCopyFromUser_length_le iovsrc.toNat (iovcnt.toNat * 16)
  rw [Filler.ending_scratch, if_pos (by simp only [Write.stop]; omega)]
  by_cases hgot : (s.um.nodCopyFromUser iovsrc.toNat (iovcnt.toNat * 16)).2 = 0
  case neg =>
    rw [if_pos hgot, if_neg fun h => hgot h.2.1]
    rfl
  rw [if_neg (not_not.mpr hgot)]
  have hdata : (if flags.pushData = false then .ret nodSuccess
      else if 0 < signed retval ∧ 0 < iovcnt.toNat then
        .scratch ⟨iovcnt.toNat * 16, (mergeBufs s.um retval.toNat (pageSize - iovcnt.toNat * 16)
          flags.isWrite (iovecs iovcnt.toNat (s.um.nodCopyFromUser iovsrc.toNat
            (iovcnt.toNat * 16)).1) []).1⟩ <|
          if (mergeBufs s.um retval.toNat (pageSize - iovcnt.toNat * 16) flags.isWrite
              (iovecs iovcnt.toNat (s.um.nodCopyFromUser iovsrc.toNat
                (iovcnt.toNat * 16)).1) []).2 then
            .pushLast { val := s.strStorage + UInt64.ofNat (iovcnt.toNat * 16),
                        len := UInt32.ofNat (mergeBufs s.um retval.toNat
                          (pageSize - iovcnt.toNat * 16) flags.isWrite (iovecs iovcnt.toNat
                            (s.um.nodCopyFromUser iovsrc.toNat
                              (iovcnt.toNat * 16)).1) []).1.length,
                        mem := (mergeBufs s.um retval.toNat (pageSize - iovcnt.toNat * 16)
                          flags.isWrite (iovecs iovcnt.toNat (s.um.nodCopyFromUser iovsrc.toNat
                            (iovcnt.toNat * 16)).1) []).1 }
          else .ret nodFailureInvalidUserMemory
      else .pushLast { val := 0 } : Filler ty).ending =
      if BuffersRead s iovsrc iovcnt retval flags then some nodSuccess
      else some nodFailureInvalidUserMemory := by
    have hlen : (mergeBufs s.um retval.toNat (pageSize - iovcnt.toNat * 16) flags.isWrite
        (iovecs iovcnt.toNat (s.um.nodCopyFromUser iovsrc.toNat (iovcnt.toNat * 16)).1)
        []).1.length < pageSize - iovcnt.toNat * 16 :=
      mergeBufs_length_lt (by simp only [List.length_nil]; omega)
    have hread : BuffersRead s iovsrc iovcnt retval flags ↔
        (flags.pushData = true → 0 < signed retval ∧ 0 < iovcnt.toNat →
          (mergeBufs s.um retval.toNat (pageSize - iovcnt.toNat * 16) flags.isWrite
            (iovecs iovcnt.toNat (s.um.nodCopyFromUser iovsrc.toNat
              (iovcnt.toNat * 16)).1) []).2 = true) :=
      ⟨fun h => h.2.2, fun h => ⟨Nat.lt_of_not_le hbig, hgot, h⟩⟩
    rw [if_congr hread rfl rfl]
    generalize mergeBufs s.um retval.toNat _ _ _ _ = data at hlen ⊢
    cases hpd : flags.pushData with
    | false => simp
    | true =>
      by_cases hany : 0 < signed retval ∧ 0 < iovcnt.toNat
      · rw [if_neg (by decide), if_pos hany, Filler.ending_scratch,
          if_pos (by simp only [Write.stop]; omega)]
        cases hd : data.2 with
        | true => simp
        | false => simp [hany]
      · simp [hany]
  split
  · exact hdata
  · exact hdata

theorem small_parseReadvWritevBufs (iovsrc iovcnt retval : UInt64) (flags : PrbFlags) {i : Nat}
    (hp : Filler.smallParams ty i (flags.pushSize.toNat + flags.pushData.toNat) = true) :
    (parseReadvWritevBufs s iovsrc iovcnt retval flags : Filler ty).Small i
      (flags.pushSize.toNat + flags.pushData.toNat) := by
  have hdata : ∀ (j copylen : Nat) (data : List UInt8 × Bool),
      Filler.smallParams ty j flags.pushData.toNat = true →
      (if flags.pushData = false then .ret nodSuccess
        else if 0 < signed retval ∧ 0 < iovcnt.toNat then
          .scratch ⟨copylen, data.1⟩ <|
            if data.2 then
              .pushLast { val := s.strStorage + UInt64.ofNat copylen,
                          len := UInt32.ofNat data.1.length, mem := data.1 }
            else .ret nodFailureInvalidUserMemory
        else .pushLast { val := 0 } : Filler ty).Small j flags.pushData.toNat := by
    intro j copylen data hp
    cases hpd : flags.pushData with
    | false => exact fun _ => rfl
    | true =>
      rw [hpd] at hp
      obtain ⟨⟨hj, ht⟩, -⟩ := Filler.smallParams_succ hp
      have hlast : ∀ v, (Filler.pushLast v : Filler ty).Small j 1 := fun v =>
        Filler.small_push hj ht fun _ => rfl
      simp only [Bool.true_eq_false, if_false]
      split
      · refine Filler.small_scratch ?_
        split
        · exact hlast _
        · exact Filler.small_ret (by decide)
      · exact hlast _
  unfold parseReadvWritevBufs
  dsimp only
  split
  · exact Filler.small_ret (by decide)
  split
  · exact Filler.small_ret (by decide)
  refine Filler.small_scratch ?_
  split
  · exact Filler.small_ret (by decide)
  cases hps : flags.pushSize with
  | false =>
    rw [hps, Bool.toNat_false, Nat.zero_add] at hp
    simp only [Bool.false_eq_true, if_false, Bool.toNat_false, Nat.zero_add]
    exact hdata _ _ _ hp
  | true =>
    rw [hps, Bool.toNat_true, Nat.add_comm] at hp
    obtain ⟨⟨hi, ht⟩, hp⟩ := Filler.smallParams_succ hp
    simp only [if_true, Bool.toNat_true, Nat.add_comm 1]
    exact Filler.small_push hi ht (hdata _ _ _ hp)

end Vector

end NoDrop
