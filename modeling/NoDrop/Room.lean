import NoDrop.Filler

/-! # What fits in some room

How a filler fares depends on the free space only through the number of bytes left at
each argument.  This module says what becomes of an argument in `room` bytes
(`argLen`, `LacksRoom`) and follows a filler through its arguments: how many bytes it
takes before it stops (`Filler.taken`), whether it stops for want of room
(`Filler.OutOfRoom`) and whether it never stops (`Filler.RunsAway`).  None of this looks
at offsets or stores; that a run of the filler does exactly this is `Filler.run_outOfRoom`,
`Filler.run_runsAway` and `Filler.run_taken`.  After a run that succeeds the record's array
of lengths holds the lengths of its arguments (`Filler.run_hasLens`).
-/
namespace NoDrop

open Bytes

/-! ## One argument -/

section Argument

variable (ty : EventType) (um : UserMem) (v : Value) (i room : Nat)

/-- The type argument `i` is laid down as, and the bytes that go in front of it: a
`PT_DYN` parameter has an index byte and the type the index names. -/
def argType : Option (ParamType × Nat) :=
  let p := (gEventInfo ty).param i
  if (gEventInfo ty).nparams ≤ i then none
  else if p.type = .dyn ∧ p.dyn ≠ [] then p.dyn[v.dynIdx.toNat]?.map (·, 1)
  else some (p.type, 0)

/-- The bytes the argument takes, if it is laid down. -/
def argLen : Option Nat :=
  if room = 0 then none
  else
    match argType ty v i with
    | none => none
    | some (t, pre) =>
        match pushData t um v (min room nodMaxArgSize - pre) with
        | .ok p => some (pre + p.1)
        | .error _ => none

/-- The argument is refused because there is not enough room for it. -/
def LacksRoom : Prop :=
  i < (gEventInfo ty).nparams ∧
    (room = 0 ∨ ∃ t pre, argType ty v i = some (t, pre) ∧
      Refused t v (min room nodMaxArgSize - pre))

/-- What a refused argument takes all the same: the index byte. -/
def argIndex : Nat := if room = 0 then 0 else ((argType ty v i).map Prod.snd).getD 0

end Argument

section Call

variable {ty : EventType} {um : UserMem} {v : Value} {a : RingArgs}

/-- The two shapes of an argument: laid down as its parameter's type, or behind an index
byte. -/
theorem argType_cases {i : Nat} {t : ParamType} {pre : Nat} (h : argType ty v i = some (t, pre)) :
    i < (gEventInfo ty).nparams ∧
      ((pre = 0 ∧ t = ((gEventInfo ty).param i).type ∧
          ¬ (((gEventInfo ty).param i).type = .dyn ∧ ((gEventInfo ty).param i).dyn ≠ [])) ∨
        (pre = 1 ∧ (((gEventInfo ty).param i).type = .dyn ∧ ((gEventInfo ty).param i).dyn ≠ []) ∧
          ((gEventInfo ty).param i).dyn[v.dynIdx.toNat]? = some t)) := by
  simp only [argType] at h
  split at h
  · cases h
  rename_i hn
  refine ⟨by omega, ?_⟩
  split at h
  · rename_i hdyn
    obtain ⟨t', ht', he⟩ := Option.map_eq_some_iff.mp h
    cases he
    exact Or.inr ⟨rfl, hdyn, ht'⟩
  · rename_i hdyn
    cases h
    exact Or.inl ⟨rfl, rfl, hdyn⟩

/-- The arguments once the index byte, if there is one, is stored. -/
def RingArgs.afterIndex (a : RingArgs) (pre : Nat) : RingArgs :=
  ⟨a.curarg, if pre = 0 then a.argDataOffset else u32 (a.argDataOffset + 1), a.argDataSize - pre⟩

/-- What is stored ahead of the argument's own bytes. -/
def indexStores (a : RingArgs) (v : Value) (pre : Nat) : List Write :=
  if pre = 0 then [slot a.curarg 0] else [⟨a.argDataOffset, [v.dynIdx]⟩, slot a.curarg 1]

/-- The call, once the type is known. -/
theorem valToRing_eq {t : ParamType} {pre : Nat} (hroom : a.argDataSize ≠ 0)
    (h : argType ty v a.curarg = some (t, pre)) :
    valToRing ty um v a =
      let p := pushArg t um v (a.afterIndex pre) pre (min a.argDataSize nodMaxArgSize - pre)
      { p with out := indexStores a v pre ++ p.out } := by
  obtain ⟨hn, ⟨rfl, rfl, hdyn⟩ | ⟨rfl, hdyn, ht⟩⟩ := argType_cases h
  · simp only [valToRing]
    rw [if_neg (by omega), if_neg hroom, if_neg hdyn]
    rfl
  · simp only [valToRing]
    rw [if_neg (by omega), if_neg hroom, if_pos hdyn, ht]
    rfl

/-- An argument that is laid down. -/
theorem argLen_eq_some {i room n : Nat} (h : argLen ty um v i room = some n) :
    room ≠ 0 ∧ ∃ t pre p, argType ty v i = some (t, pre) ∧
      pushData t um v (min room nodMaxArgSize - pre) = .ok p ∧ n = pre + p.1 := by
  simp only [argLen] at h
  split at h
  · cases h
  rename_i hroom
  refine ⟨hroom, ?_⟩
  split at h
  · cases h
  rename_i t pre ht
  split at h
  · rename_i p hp
    cases h
    exact ⟨t, pre, p, ht, hp, rfl⟩
  · cases h

theorem argLen_le {i room n : Nat} (h : argLen ty um v i room = some n) : n ≤ room := by
  obtain ⟨hroom, t, pre, p, ht, hp, rfl⟩ := argLen_eq_some h
  have hpre : pre = 0 ∨ pre = 1 := (argType_cases ht).2.imp And.left And.left
  have hle := (pushData_within hp).len_le
  omega

/-- The call lays the argument down. -/
theorem valToRing_of_len {n : Nat} (h : argLen ty um v a.curarg a.argDataSize = some n) :
    (valToRing ty um v a).res = nodSuccess ∧
      (valToRing ty um v a).args =
        ⟨a.curarg + 1, u32 (a.argDataOffset + n), a.argDataSize - n⟩ := by
  obtain ⟨hroom, t, pre, p, ht, hp, rfl⟩ := argLen_eq_some h
  have hpre : pre = 0 ∨ pre = 1 := (argType_cases ht).2.imp And.left And.left
  rw [valToRing_eq hroom ht]
  simp only [pushArg, hp, RingArgs.afterIndex, true_and]
  rcases hpre with rfl | rfl
  · simp
  · simp only [RingArgs.mk.injEq, true_and, u32]
    refine ⟨?_, by omega⟩
    rw [if_neg (by decide), Nat.mod_add_mod, Nat.add_assoc]

/-- The call refuses the argument.  A code other than `NOD_FAILURE_BUFFER_FULL` means
that there is no such argument, or no case for its type. -/
theorem valToRing_of_no_len (h : argLen ty um v a.curarg a.argDataSize = none) :
    (valToRing ty um v a).res ≠ nodSuccess ∧
      ((valToRing ty um v a).res = nodFailureBufferFull ↔
        LacksRoom ty v a.curarg a.argDataSize) ∧
      (a.argDataOffset < 2 ^ 32 → (valToRing ty um v a).args.argDataOffset =
        u32 (a.argDataOffset + argIndex ty v a.curarg a.argDataSize)) := by
  by_cases hn : (gEventInfo ty).nparams ≤ a.curarg
  · have hv : valToRing ty um v a = ⟨nodFailureBug, a, []⟩ := by
      simp only [valToRing]
      rw [if_pos hn]
    have hnone : argType ty v a.curarg = none := by
      simp only [argType]
      rw [if_pos hn]
    simp only [hv]
    refine ⟨by decide, iff_of_false (by decide) fun hl => ?_, fun hlt => ?_⟩
    · exact absurd hl.1 (by omega)
    · simp [argIndex, hnone, u32_of_lt hlt]
  by_cases hroom : a.argDataSize = 0
  · have hv : valToRing ty um v a = ⟨nodFailureBufferFull, a, []⟩ := by
      simp only [valToRing]
      rw [if_neg hn, if_pos hroom]
    simp only [hv]
    refine ⟨by decide, iff_of_true trivial ⟨by omega, Or.inl hroom⟩, fun hlt => ?_⟩
    simp [argIndex, hroom, u32_of_lt hlt]
  cases ht : argType ty v a.curarg with
  | none =>
    -- an index out of the table's range
    have hv : valToRing ty um v a = ⟨nodFailureBug, a, []⟩ := by
      simp only [argType, hn, if_false] at ht
      simp only [valToRing]
      rw [if_neg hn, if_neg hroom]
      split at ht
      · rename_i hdyn
        rw [if_pos hdyn, Option.map_eq_none_iff.mp ht]
      · cases ht
    simp only [hv]
    refine ⟨by decide, iff_of_false (by decide) fun hl => ?_, fun hlt => ?_⟩
    · obtain ⟨-, h0 | ⟨t, pre, ht', -⟩⟩ := hl
      · exact hroom h0
      · rw [ht] at ht'
        cases ht'
    · simp [argIndex, ht, u32_of_lt hlt]
  | some tp =>
    obtain ⟨t, pre⟩ := tp
    have hpre : pre = 0 ∨ pre = 1 := (argType_cases ht).2.imp And.left And.left
    have hlacks : LacksRoom ty v a.curarg a.argDataSize ↔
        Refused t v (min a.argDataSize nodMaxArgSize - pre) := by
      simp [LacksRoom, hroom, ht, Nat.lt_of_not_le hn]
    have hoff : a.argDataOffset < 2 ^ 32 → (a.afterIndex pre).argDataOffset =
        u32 (a.argDataOffset + argIndex ty v a.curarg a.argDataSize) := by
      intro hlt
      simp only [RingArgs.afterIndex, argIndex, hroom, ht, if_false, Option.map_some,
        Option.getD_some]
      rcases hpre with rfl | rfl
      · exact (u32_of_lt hlt).symm
      · rfl
    rw [valToRing_eq hroom ht, hlacks]
    rcases pushData_cases t um v (min a.argDataSize nodMaxArgSize - pre) with
      ⟨hr, hp⟩ | ⟨hr, hp⟩ | ⟨hr, p, hp⟩
    · simp only [pushArg, hp]
      exact ⟨by decide, by simpa using hr, hoff⟩
    · simp only [pushArg, hp]
      exact ⟨by decide, iff_of_false (by decide) hr, hoff⟩
    · simp [argLen, hroom, ht, hp] at h

/-- An integer argument that is not laid down lacks room. -/
theorem lacksRoom_of_scalar {i room w : Nat} (hn : i < (gEventInfo ty).nparams)
    (ht : ((gEventInfo ty).param i).type.width = some w) (h : argLen ty um v i room = none) :
    LacksRoom ty v i room := by
  by_cases hroom : room = 0
  · exact ⟨hn, Or.inl hroom⟩
  have hdyn : ((gEventInfo ty).param i).type ≠ .dyn := by
    intro hd
    simp [hd, ParamType.width] at ht
  have htype : argType ty v i = some (((gEventInfo ty).param i).type, 0) := by
    simp only [argType, hdyn, false_and, if_false]
    rw [if_neg (by omega)]
  refine ⟨hn, Or.inr ⟨_, _, htype, ?_⟩⟩
  rw [refused_scalar _ _ ht]
  by_contra hw
  simp only [argLen, hroom, htype, pushData_scalar _ _ _ ht, pushScalar, if_false] at h
  rw [if_pos (by omega)] at h
  cases h

end Call

/-! ## A whole filler -/

namespace Filler

variable {ty : EventType} (um : UserMem)

/-- The filler stops for want of room: at an argument that lacks it in what the arguments
before it leave, or on its own account. -/
def OutOfRoom : Filler ty → Nat → Nat → Prop
  | ret code, _, _ => code = nodFailureBufferFull
  | push v next, i, room =>
      match argLen ty um v i room with
      | some n => next.OutOfRoom (i + 1) (room - n)
      | none => LacksRoom ty v i room
  | pushAnyway v _ next, i, room =>
      match argLen ty um v i room with
      | some n => next.OutOfRoom (i + 1) (room - n)
      | none => next.OutOfRoom i room
  | store _ _ next, i, room => next.OutOfRoom i room
  | runaway, _, _ => False

/-- The filler gets to a loop that never ends. -/
def RunsAway : Filler ty → Nat → Nat → Prop
  | ret _, _, _ => False
  | push v next, i, room =>
      match argLen ty um v i room with
      | some n => next.RunsAway (i + 1) (room - n)
      | none => False
  | pushAnyway v _ next, i, room =>
      match argLen ty um v i room with
      | some n => next.RunsAway (i + 1) (room - n)
      | none => next.RunsAway i room
  | store _ _ next, i, room => next.RunsAway i room
  | runaway, _, _ => True

/-- The bytes laid down before the filler stops. -/
def taken : Filler ty → Nat → Nat → Nat
  | ret _, _, _ => 0
  | push v next, i, room =>
      match argLen ty um v i room with
      | some n => n + next.taken (i + 1) (room - n)
      | none => argIndex ty v i room
  | pushAnyway v _ next, i, room =>
      match argLen ty um v i room with
      | some n => n + next.taken (i + 1) (room - n)
      | none => next.taken i room
  | store _ _ next, i, room => next.taken i room
  | runaway, _, _ => 0

variable {um}

theorem run_outOfRoom (f : Filler ty) (a : RingArgs) :
    (f.run um a).res = some nodFailureBufferFull ↔ f.OutOfRoom um a.curarg a.argDataSize := by
  induction f generalizing a with
  | ret code => simp [run, OutOfRoom]
  | push v next ih =>
    cases hl : argLen ty um v a.curarg a.argDataSize with
    | some n =>
      obtain ⟨hres, hargs⟩ := valToRing_of_len hl
      simp only [run_push_of_success hres, OutOfRoom, hl, ih, hargs]
    | none =>
      obtain ⟨hres, hfull, -⟩ := valToRing_of_no_len hl
      simp only [run_push_of_failure hres, OutOfRoom, hl, Option.some.injEq, hfull]
  | pushAnyway v plain next ih =>
    cases hl : argLen ty um v a.curarg a.argDataSize with
    | some n =>
      obtain ⟨-, hargs⟩ := valToRing_of_len hl
      simp only [run, OutOfRoom, hl, ih, hargs]
    | none =>
      obtain ⟨hres, -, -⟩ := valToRing_of_no_len hl
      simp only [run, OutOfRoom, hl, ih, valToRing_args_of_failed plain hres]
  | store w inside next ih => simp only [run, OutOfRoom, ih]
  | runaway => simp [run, OutOfRoom]

theorem run_runsAway (f : Filler ty) (a : RingArgs) :
    (f.run um a).res = none ↔ f.RunsAway um a.curarg a.argDataSize := by
  induction f generalizing a with
  | ret code => simp [run, RunsAway]
  | push v next ih =>
    cases hl : argLen ty um v a.curarg a.argDataSize with
    | some n =>
      obtain ⟨hres, hargs⟩ := valToRing_of_len hl
      simp only [run_push_of_success hres, RunsAway, hl, ih, hargs]
    | none =>
      obtain ⟨hres, -, -⟩ := valToRing_of_no_len hl
      simp only [run_push_of_failure hres, RunsAway, hl, reduceCtorEq]
  | pushAnyway v plain next ih =>
    cases hl : argLen ty um v a.curarg a.argDataSize with
    | some n =>
      obtain ⟨-, hargs⟩ := valToRing_of_len hl
      simp only [run, RunsAway, hl, ih, hargs]
    | none =>
      obtain ⟨hres, -, -⟩ := valToRing_of_no_len hl
      simp only [run, RunsAway, hl, ih, valToRing_args_of_failed plain hres]
  | store w inside next ih => simp only [run, RunsAway, ih]
  | runaway => simp [run, RunsAway]

theorem argIndex_le_room {v : Value} {i room : Nat} : argIndex ty v i room ≤ room := by
  unfold argIndex
  split
  · exact Nat.zero_le _
  · cases ht : argType ty v i with
    | none => exact Nat.zero_le _
    | some tp =>
      obtain ⟨t, pre⟩ := tp
      have hpre : pre = 0 ∨ pre = 1 := (argType_cases ht).2.imp And.left And.left
      simp only [Option.map_some, Option.getD_some]
      omega

theorem taken_le_room (f : Filler ty) (i room : Nat) : f.taken um i room ≤ room := by
  induction f generalizing i room with
  | ret code => exact Nat.zero_le _
  | push v next ih =>
    cases hl : argLen ty um v i room with
    | some n =>
      have hle := argLen_le hl
      have := ih (i + 1) (room - n)
      simp only [taken, hl]
      omega
    | none =>
      simp only [taken, hl]
      exact argIndex_le_room
  | pushAnyway v plain next ih =>
    cases hl : argLen ty um v i room with
    | some n =>
      have hle := argLen_le hl
      have := ih (i + 1) (room - n)
      simp only [taken, hl]
      omega
    | none =>
      simp only [taken, hl]
      exact ih i room
  | store w inside next ih => exact ih i room
  | runaway => exact Nat.zero_le _

/-- The offset a run ends at. -/
theorem run_offset (f : Filler ty) (a : RingArgs) (hlt : a.argDataOffset < 2 ^ 32) :
    (f.run um a).args.argDataOffset =
      u32 (a.argDataOffset + f.taken um a.curarg a.argDataSize) := by
  have hu32 : ∀ m n, u32 (u32 m + n) = u32 (m + n) := fun m n => Nat.mod_add_mod ..
  have hbelow : ∀ m, u32 m < 2 ^ 32 := fun m => Nat.mod_lt _ (by decide)
  induction f generalizing a with
  | ret code => exact (u32_of_lt hlt).symm
  | push v next ih =>
    cases hl : argLen ty um v a.curarg a.argDataSize with
    | some n =>
      obtain ⟨hres, hargs⟩ := valToRing_of_len hl
      rw [run_push_of_success hres, hargs]
      simp only [taken, hl]
      rw [ih _ (hbelow _)]
      simp only [hu32, Nat.add_assoc]
    | none =>
      obtain ⟨hres, -, hoff⟩ := valToRing_of_no_len hl
      simp only [run_push_of_failure hres, taken, hl, hoff hlt]
  | pushAnyway v plain next ih =>
    cases hl : argLen ty um v a.curarg a.argDataSize with
    | some n =>
      obtain ⟨-, hargs⟩ := valToRing_of_len hl
      simp only [run, taken, hl, hargs]
      rw [ih _ (hbelow _)]
      simp only [hu32, Nat.add_assoc]
    | none =>
      obtain ⟨hres, -, -⟩ := valToRing_of_no_len hl
      simp only [run, taken, hl, valToRing_args_of_failed plain hres, ih a hlt]
  | store w inside next ih => exact ih a hlt
  | runaway => exact (u32_of_lt hlt).symm

/-- It is the sum, unless that would pass `2 ^ 32`. -/
theorem run_taken (f : Filler ty) (a : RingArgs)
    (hw : a.argDataOffset + a.argDataSize < 2 ^ 32) :
    (f.run um a).args.argDataOffset = a.argDataOffset + f.taken um a.curarg a.argDataSize := by
  have hle := @taken_le_room ty um f a.curarg a.argDataSize
  rw [f.run_offset a (by omega), u32_of_lt (by omega)]

end Filler

/-! ## The lengths a run leaves -/

/-- The array of `u16` lengths. -/
def lensBytes (ls : List Nat) : List UInt8 := ls.flatMap (leBytes 2)

@[simp] theorem lensBytes_nil : lensBytes [] = [] := rfl

@[simp] theorem lensBytes_cons (l : Nat) (ls : List Nat) :
    lensBytes (l :: ls) = leBytes 2 l ++ lensBytes ls := rfl

@[simp] theorem lensBytes_length (ls : List Nat) : (lensBytes ls).length = 2 * ls.length := by
  induction ls with
  | nil => rfl
  | cons l ls ih =>
    simp only [lensBytes_cons, List.length_append, leBytes_length, ih, List.length_cons]
    omega

theorem lensBytes_inj {ls ls' : List Nat} (h : ∀ l ∈ ls, l ≤ nodMaxArgSize)
    (h' : ∀ l ∈ ls', l ≤ nodMaxArgSize) (he : lensBytes ls = lensBytes ls') : ls = ls' := by
  induction ls generalizing ls' with
  | nil =>
    cases ls' with
    | nil => rfl
    | cons l' ls' => simp [lensBytes_cons, leBytes] at he
  | cons l ls ih =>
    cases ls' with
    | nil => simp [lensBytes_cons, leBytes] at he
    | cons l' ls' =>
      rw [lensBytes_cons, lensBytes_cons] at he
      obtain ⟨hhead, htail⟩ := List.append_inj he (by simp)
      have hlt : ∀ l, l ≤ nodMaxArgSize → l < 256 ^ 2 :=
        fun l hl => Nat.lt_of_le_of_lt hl (by decide)
      have hl : l = l' := by
        rw [← leNat_leBytes_of_lt (hlt l (h l List.mem_cons_self)), hhead,
          leNat_leBytes_of_lt (hlt l' (h' l' List.mem_cons_self))]
      rw [hl, ih (fun l hl => h l (List.mem_cons_of_mem _ hl))
        (fun l hl => h' l (List.mem_cons_of_mem _ hl)) htail]

/-- Stores for later arguments leave an earlier length alone. -/
theorem InRoom.not_touches_slot {ty : EventType} {i j lo hi k : Nat} {w : Write}
    (h : InRoom ty j lo hi w) (hij : i < j) (hi' : 2 * i + 2 ≤ lo) (hk : k < 2) :
    ¬ w.Touches (2 * i + k) := by
  rcases h with ⟨j', len, hj, -, rfl⟩ | ⟨h1, -⟩
  · simp only [Write.Touches, slot]
    omega
  · simp only [Write.Touches]
    omega

theorem read_slot_last (img : Image) (front : List Write) (i len : Nat) :
    (img.writes (front ++ [slot i len])).read (2 * i) 2 = leBytes 2 len := by
  have h := Image.read_write_self (img.writes front) (slot i len)
  rw [Image.writes_append]
  simpa [slot] using h

/-- The run has pushed arguments of the lengths `ls`: that is how far it has advanced and
what the record's array of lengths holds for them. -/
structure FillerRun.HasLens (a : RingArgs) (r : FillerRun) (ls : List Nat) : Prop where
  curarg : a.curarg + ls.length = r.args.curarg
  offset : a.argDataOffset + ls.sum = r.args.argDataOffset
  le : ∀ l ∈ ls, l ≤ nodMaxArgSize
  read : ∀ img : Image, (img.writes r.out).read (2 * a.curarg) (2 * ls.length) = lensBytes ls

namespace Filler

variable {ty : EventType}

/-- The lengths of the arguments laid down. -/
def sizes (um : UserMem) : Filler ty → Nat → Nat → List Nat
  | ret _, _, _ => []
  | push v next, i, room =>
      match argLen ty um v i room with
      | some n => n :: next.sizes um (i + 1) (room - n)
      | none => []
  | pushAnyway v _ next, i, room =>
      match argLen ty um v i room with
      | some n => n :: next.sizes um (i + 1) (room - n)
      | none => next.sizes um i room
  | store _ _ next, i, room => next.sizes um i room
  | runaway, _, _ => []

variable {um : UserMem}

/-- An argument laid down in front of a run. -/
theorem hasLens_push {v : Value} {a : RingArgs} {r : FillerRun} {n : Nat} {ls : List Nat}
    (hw : a.argDataOffset + a.argDataSize < 2 ^ 32)
    (hstart : 2 * (gEventInfo ty).nparams ≤ a.argDataOffset)
    (hl : argLen ty um v a.curarg a.argDataSize = some n)
    (hr : r.Sound ty (valToRing ty um v a).args)
    (hls : r.HasLens (valToRing ty um v a).args ls) :
    FillerRun.HasLens a { r with out := (valToRing ty um v a).out ++ r.out } (n :: ls) := by
  obtain ⟨hok, hargs⟩ := valToRing_of_len hl
  have hle := argLen_le hl
  rw [u32_of_lt (by omega)] at hargs
  obtain ⟨hn, -, hmax, front, hout⟩ := (valToRing_sound ty um v hw).succeeded hok
  obtain ⟨h1, h2, h3, h4⟩ := hls
  have hst := hr.stores
  simp only [hargs, Nat.add_sub_cancel_left] at hmax hout h1 h2 h4 hst
  refine ⟨?_, ?_, ?_, ?_⟩
  · simp only [List.length_cons]
    omega
  · simp only [List.sum_cons]
    omega
  · intro l hl
    rcases List.mem_cons.mp hl with rfl | hl
    · omega
    · exact h3 l hl
  · intro img
    have hfst : (img.writes ((valToRing ty um v a).out ++ r.out)).read (2 * a.curarg) 2 =
        leBytes 2 n := by
      rw [Image.writes_append, Image.read_writes_of_untouched, hout, read_slot_last]
      intro w hw k hk
      exact (hst w hw).not_touches_slot (by omega) (by omega) hk
    have hrest := h4 (img.writes (valToRing ty um v a).out)
    rw [← Image.writes_append] at hrest
    have h2n : 2 * (ls.length + 1) = 2 + 2 * ls.length := by omega
    have h2c : 2 * a.curarg + 2 = 2 * (a.curarg + 1) := by omega
    simp only [List.length_cons, h2n, Image.read_add, hfst, h2c, hrest, lensBytes_cons]

/-- **The lengths a successful run leaves** are those of the arguments in the room it
had. -/
theorem run_hasLens (f : Filler ty) (a : RingArgs)
    (hw : a.argDataOffset + a.argDataSize < 2 ^ 32)
    (hstart : 2 * (gEventInfo ty).nparams ≤ a.argDataOffset)
    (hok : (f.run um a).res = some nodSuccess) :
    (f.run um a).HasLens a (f.sizes um a.curarg a.argDataSize) := by
  induction f generalizing a with
  | ret code => exact ⟨rfl, rfl, by simp [sizes], fun _ => rfl⟩
  | push v next ih =>
    have hp := valToRing_sound ty um v hw
    cases hl : argLen ty um v a.curarg a.argDataSize with
    | some n =>
      obtain ⟨hres, hargs⟩ := valToRing_of_len hl
      rw [run_push_of_success hres] at hok ⊢
      have hroom := hp.room
      have hoff := hp.offset_le
      have hnext := ih _ (by omega) (by omega) hok
      rw [hargs] at hnext
      simp only [sizes, hl]
      refine hasLens_push hw hstart hl (run_sound _ _ _ (by omega)) ?_
      rw [hargs]
      exact hnext
    | none =>
      obtain ⟨hres, -, -⟩ := valToRing_of_no_len hl
      rw [run_push_of_failure hres] at hok
      exact absurd (Option.some.inj hok) hres
  | pushAnyway v plain next ih =>
    have hp := valToRing_sound ty um v hw
    cases hl : argLen ty um v a.curarg a.argDataSize with
    | some n =>
      obtain ⟨hres, hargs⟩ := valToRing_of_len hl
      have hroom := hp.room
      have hoff := hp.offset_le
      have hnext := ih (valToRing ty um v a).args (by omega) (by omega) hok
      rw [hargs] at hnext
      simp only [sizes, hl]
      refine hasLens_push hw hstart hl (run_sound _ _ _ (by omega)) ?_
      rw [hargs]
      exact hnext
    | none =>
      -- the length stored for the argument is overwritten or left over
      obtain ⟨hres, -, -⟩ := valToRing_of_no_len hl
      have hargs := valToRing_args_of_failed plain hres
      simp only [run, hargs] at hok ⊢
      obtain ⟨h1, h2, h3, h4⟩ := ih a hw hstart hok
      simp only [sizes, hl]
      refine ⟨h1, h2, h3, fun img => ?_⟩
      rw [Image.writes_append]
      exact h4 _
  | store w inside next ih =>
    obtain ⟨h1, h2, h3, h4⟩ := ih a hw hstart hok
    exact ⟨h1, h2, h3, h4⟩
  | runaway => cases hok

end Filler

end NoDrop
