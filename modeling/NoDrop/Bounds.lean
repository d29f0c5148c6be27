import NoDrop.Restart

/-! # Where a recording writes

`do_record_one_event` computes its room from `tail` and `buffer_size`, which it reads from
a page that user space can write.  This module says exactly when all stores of a call stay
in the memory the thread owns, for every value of these two.

A call stores at most four kinds of things: the record moved from the overflow page, the
attempt at the tail, the attempts in the page, and what the fillers put in `str_storage`.
The attempt at the tail goes as far as the arguments do in the room it believes to have
(`Filler.stop`).  Attempts in the page stay there unless the first of them starts past its
end, which the bytes laid down in the buffer can make it do; and then they do not stay
there (`Filler.run_touches`).
-/
namespace NoDrop

open Bytes

/-! ## How far an attempt goes -/

section Argument

variable (ty : EventType) (um : UserMem) (v : Value) (i off room : Nat)

/-- The offset after the last byte stored for argument `i`, whose bytes start at `off`:
its length in the array, its index byte if it has one, its data. -/
def argStop : Nat :=
  if room = 0 then 0
  else
    match argType ty v i with
    | none => 0
    | some (t, pre) =>
        let ahead := max (2 * i + 2) (if pre = 0 then 0 else off + 1)
        match pushData t um v (min room nodMaxArgSize - pre) with
        | .error _ => ahead
        | .ok p => max ahead (if reach p.2 = 0 then 0 else off + pre + reach p.2)

end Argument

theorem reach_slot (i len : Nat) : reach [slot i len] = 2 * i + 2 := by
  rw [reach_singleton (by simp [slot, leBytes]), slot, Write.stop, leBytes_length]

theorem reach_indexStores (a : RingArgs) (v : Value) (pre : Nat) :
    reach (indexStores a v pre) =
      max (2 * a.curarg + 2) (if pre = 0 then 0 else a.argDataOffset + 1) := by
  unfold indexStores
  split
  · rw [reach_slot, Nat.max_zero]
  · rw [show [(⟨a.argDataOffset, [v.dynIdx]⟩ : Write), slot a.curarg 1] =
      [⟨a.argDataOffset, [v.dynIdx]⟩] ++ [slot a.curarg 1] from rfl, reach_append, reach_slot,
      reach_singleton (by simp), Nat.max_comm]
    rfl

/-- A call that stores nothing. -/
theorem valToRing_of_no_type {ty : EventType} {um : UserMem} {v : Value} {a : RingArgs}
    (h : a.argDataSize = 0 ∨ argType ty v a.curarg = none) : (valToRing ty um v a).out = [] := by
  simp only [valToRing]
  split
  · rfl
  rename_i hn
  split
  · rfl
  rename_i hroom
  have ht := h.resolve_left hroom
  simp only [argType, hn, if_false] at ht
  split
  · rename_i hdyn
    rw [if_pos hdyn] at ht
    rw [Option.map_eq_none_iff.mp ht]
  · rename_i hdyn
    rw [if_neg hdyn] at ht
    cases ht

theorem valToRing_reach (ty : EventType) (um : UserMem) (v : Value) {a : RingArgs}
    (hw : a.argDataSize ≠ 0 → a.argDataOffset + 1 < 2 ^ 32) :
    reach (valToRing ty um v a).out =
      argStop ty um v a.curarg a.argDataOffset a.argDataSize := by
  unfold argStop
  by_cases hroom : a.argDataSize = 0
  · rw [if_pos hroom, valToRing_of_no_type (Or.inl hroom), reach_nil]
  rw [if_neg hroom]
  split
  next ht => rw [valToRing_of_no_type (Or.inr ht), reach_nil]
  next t pre ht =>
    have hpre : pre = 0 ∨ pre = 1 := (argType_cases ht).2.imp And.left And.left
    have hoff : (a.afterIndex pre).argDataOffset = a.argDataOffset + pre := by
      rcases hpre with rfl | rfl
      · rfl
      · exact u32_of_lt (hw hroom)
    rw [valToRing_eq hroom ht]
    cases hp : pushData t um v (min a.argDataSize nodMaxArgSize - pre) with
    | error e => simp only [reach_append, reach_indexStores, pushArg, hp, reach_nil, Nat.max_zero]
    | ok p =>
      have hcur : (a.afterIndex pre).curarg = a.curarg := rfl
      simp only [reach_append, reach_indexStores, pushArg, hp, reach_map_shift, reach_slot, hoff,
        hcur]
      omega

namespace Filler

variable {ty : EventType} (um : UserMem)

/-- The offset after the last byte the filler stores, with the bytes of argument `i` from
`off` on. -/
def stop : Filler ty → Nat → Nat → Nat → Nat
  | ret _, _, _, _ => 0
  | push v next, i, off, room =>
      match argLen ty um v i room with
      | some n => max (argStop ty um v i off room) (next.stop (i + 1) (off + n) (room - n))
      | none => argStop ty um v i off room
  | pushAnyway v _ next, i, off, room =>
      match argLen ty um v i room with
      | some n => max (argStop ty um v i off room) (next.stop (i + 1) (off + n) (room - n))
      | none => max (argStop ty um v i off room) (next.stop i off room)
  | store _ _ next, i, off, room => next.stop i off room
  | runaway, _, _, _ => 0

variable {um}

theorem run_stop (f : Filler ty) (a : RingArgs) (hw : a.argDataOffset + a.argDataSize < 2 ^ 32) :
    reach (f.run um a).out = f.stop um a.curarg a.argDataOffset a.argDataSize := by
  induction f generalizing a with
  | ret code => rfl
  | push v next ih =>
    have hreach := valToRing_reach ty um v (a := a) fun _ => by omega
    cases hl : argLen ty um v a.curarg a.argDataSize with
    | some n =>
      obtain ⟨hres, hargs⟩ := valToRing_of_len hl
      have hle := argLen_le hl
      rw [u32_of_lt (by omega)] at hargs
      rw [run_push_of_success hres, hargs]
      simp only [stop, hl, reach_append, hreach]
      rw [ih _ (by simp only; omega)]
    | none =>
      obtain ⟨hres, -, -⟩ := valToRing_of_no_len hl
      simp only [run_push_of_failure hres, stop, hl, hreach]
  | pushAnyway v plain next ih =>
    have hreach := valToRing_reach ty um v (a := a) fun _ => by omega
    cases hl : argLen ty um v a.curarg a.argDataSize with
    | some n =>
      obtain ⟨-, hargs⟩ := valToRing_of_len hl
      have hle := argLen_le hl
      rw [u32_of_lt (by omega)] at hargs
      simp only [run, stop, hl, reach_append, hreach, hargs]
      rw [ih _ (by simp only; omega)]
    | none =>
      obtain ⟨hres, -, -⟩ := valToRing_of_no_len hl
      simp only [run, stop, hl, reach_append, hreach, valToRing_args_of_failed plain hres, ih a hw]
  | store w inside next ih => exact ih a hw
  | runaway => rfl

end Filler

/-! ## Attempts that believe to have all the room -/

theorem reach_strlcpy_pos (str : List UInt8) {max : Nat} (h : 0 < max) :
    0 < reach (strlcpy str max).2 := by
  have hne : str.take (max - 1) ++ [(0 : UInt8)] ≠ [] := by simp
  simp only [strlcpy, if_neg (Nat.pos_iff_ne_zero.mp h)]
  rw [reach_singleton hne]
  simp [Write.stop]

theorem reach_cons_pos {w : Write} {ws : List Write} (h : 0 < w.data.length ∨ 0 < reach ws) :
    0 < reach (w :: ws) := by
  rw [reach]
  rcases h with h | h
  · rw [if_neg (List.ne_nil_of_length_pos h), Write.stop]
    omega
  · omega

theorem reach_invalidUserMemory_pos (got : List UInt8) {max : Nat} (h : 0 < max) :
    0 < reach (invalidUserMemory got max).2 :=
  reach_cons_pos (Or.inr (reach_strlcpy_pos _ h))

theorem reach_pushCharbuf_pos (um : UserMem) (v : Value) {max : Nat} (h : 0 < max) :
    0 < reach (pushCharbuf um v max).2 := by
  unfold pushCharbuf
  split
  · exact reach_strlcpy_pos _ h
  · split
    · split
      · exact reach_invalidUserMemory_pos _ h
      · rename_i hneg
        rcases um.nodStrncpyFromUser_result v.val.toNat max with hr | ⟨k, -, hk, hle⟩
        · omega
        · exact reach_cons_pos (Or.inl (by simp only; omega))
    · exact reach_strlcpy_pos _ h

/-- What becomes of an argument in `max` bytes and in all the room there is: it stores
something in the latter, or it is refused in both, or it is empty in both. -/
def Widens (small large : Except Int Piece) : Prop :=
  (∃ p, large = .ok p ∧ 0 < reach p.2) ∨
    ((∃ e, small = .error e) ∧ ∃ e, large = .error e) ∨
    ((∃ p, small = .ok p ∧ p.1 = 0) ∧ ∃ p, large = .ok p ∧ p.1 = 0)

theorem pushUserBytes_widens (um : UserMem) (v : Value) {max : Nat} (h : 0 < max) :
    Widens (pushUserBytes um v max) (pushUserBytes um v nodMaxArgSize) := by
  have hmax : nodMaxArgSize = 65000 := rfl
  have hlook : v.lookahead ≤ 16 := Nat.min_le_left ..
  by_cases hlen : v.len.toNat = 0
  · -- nothing to copy, in any room
    have hl : v.lookahead = 0 := by simp [Value.lookahead, hlen]
    have hlarge := reach_invalidUserMemory_pos (um.nodCopyFromUser v.val.toNat 0).1
      (show 0 < nodMaxArgSize by omega)
    simp only [pushUserBytes, hl, hlen]
    rw [if_neg (show ¬ max ≤ 0 by omega), if_neg (show ¬ nodMaxArgSize ≤ 0 by omega)]
    split
    · exact Or.inl ⟨_, rfl, hlarge⟩
    · exact Or.inr (Or.inr ⟨⟨_, rfl, rfl⟩, _, rfl, rfl⟩)
  · refine Or.inl ?_
    have hpos : 0 < v.lookahead := by simp only [Value.lookahead]; omega
    have hhead := um.nodCopyFromUser_length (a := v.val.toNat) (n := v.lookahead)
    simp only [pushUserBytes]
    rw [if_neg (by omega)]
    split
    · exact ⟨_, rfl, reach_invalidUserMemory_pos _ (by omega)⟩
    · rename_i hok
      have hgot := hhead (by simpa using hok)
      split
      · exact ⟨_, rfl, reach_cons_pos (Or.inl (by simp only; omega))⟩
      · split
        · exact ⟨_, rfl, reach_cons_pos (Or.inl (by simp only; omega))⟩
        · exact ⟨_, rfl, reach_cons_pos (Or.inl (by simp only; omega))⟩

theorem pushBytebuf_widens (um : UserMem) (v : Value) {max : Nat} (h : 0 < max) :
    Widens (pushBytebuf um v max) (pushBytebuf um v nodMaxArgSize) := by
  have hmax : nodMaxArgSize = 65000 := rfl
  have hsnap : snaplen = 80 := rfl
  unfold pushBytebuf
  split
  · exact Or.inr (Or.inr ⟨⟨_, rfl, rfl⟩, _, rfl, rfl⟩)
  split
  · exact pushUserBytes_widens um v h
  rw [if_neg (show ¬ nodMaxArgSize ≤ min v.len.toNat snaplen by omega)]
  by_cases hlen : min v.len.toNat snaplen = 0
  · rw [if_neg (by omega)]
    exact Or.inr (Or.inr ⟨⟨_, rfl, hlen⟩, _, rfl, hlen⟩)
  · exact Or.inl ⟨_, rfl, reach_cons_pos (Or.inl (by simp only [Value.kread_length]; omega))⟩

theorem pushSockaddr_widens (um : UserMem) (v : Value) {max : Nat} (h : 0 < max)
    (hle : max ≤ nodMaxArgSize) :
    Widens (pushSockaddr um v max) (pushSockaddr um v nodMaxArgSize) := by
  have hgot := um.nodCopyFromUser_length (a := v.val.toNat) (n := v.len.toNat)
  simp only [pushSockaddr]
  split
  · exact Or.inr (Or.inr ⟨⟨_, rfl, rfl⟩, _, rfl, rfl⟩)
  by_cases hroom : nodMaxArgSize ≤ v.len.toNat
  · rw [if_pos hroom, if_pos (by omega)]
    exact Or.inr (Or.inl ⟨⟨_, rfl⟩, _, rfl⟩)
  rw [if_neg hroom]
  by_cases hlen : v.len.toNat = 0
  · rw [if_neg (by omega)]
    split
    · split
      · exact Or.inl ⟨_, rfl, reach_invalidUserMemory_pos _ (by decide)⟩
      · exact Or.inr (Or.inr ⟨⟨_, rfl, hlen⟩, _, rfl, hlen⟩)
    · exact Or.inr (Or.inr ⟨⟨_, rfl, hlen⟩, _, rfl, hlen⟩)
  · refine Or.inl ?_
    split
    · split
      · exact ⟨_, rfl, reach_invalidUserMemory_pos _ (by decide)⟩
      · rename_i hok
        have := hgot (by simpa using hok)
        exact ⟨_, rfl, reach_cons_pos (Or.inl (by simp only; omega))⟩
    · exact ⟨_, rfl, reach_cons_pos (Or.inl (by simp only [Value.kread_length]; omega))⟩

theorem pushData_widens (t : ParamType) (um : UserMem) (v : Value) {max : Nat} (h : 0 < max)
    (hle : max ≤ nodMaxArgSize) :
    Widens (pushData t um v max) (pushData t um v nodMaxArgSize) := by
  have hmax : nodMaxArgSize = 65000 := rfl
  cases hw : t.width with
  | some w =>
    have hpos : 0 < w ∧ w ≤ 8 := by
      cases t <;> simp_all [ParamType.width] <;> omega
    rw [pushData_scalar um v _ hw, pushData_scalar um v _ hw]
    refine Or.inl ⟨_, by rw [pushScalar, if_pos (by omega)], ?_⟩
    exact reach_cons_pos (Or.inl (by simp only [leBytes_length]; omega))
  | none =>
    have hfail : ∀ max, pushData t um v max = .error nodFailureBug →
        pushData t um v nodMaxArgSize = .error nodFailureBug →
        Widens (pushData t um v max) (pushData t um v nodMaxArgSize) :=
      fun _ he he' => Or.inr (Or.inl ⟨⟨_, he⟩, _, he'⟩)
    cases t with
    | charbuf | fspath | fsrelpath =>
      exact Or.inl ⟨_, rfl, reach_pushCharbuf_pos um v (by omega)⟩
    | bytebuf => exact pushBytebuf_widens um v h
    | sockaddr | socktuple | fdlist => exact pushSockaddr_widens um v h hle
    | _ => first | exact hfail _ rfl rfl | cases hw

/-- The same for a whole argument, in `room` bytes and in all the room there is. -/
theorem argStop_widens (ty : EventType) (um : UserMem) (v : Value) (i off : Nat) {room large : Nat}
    (h : 0 < room) (hlarge : nodMaxArgSize ≤ large) :
    off < argStop ty um v i off large ∨
      (argLen ty um v i room = none ∧ argLen ty um v i large = none ∧ argIndex ty v i room = 0) ∨
      (argLen ty um v i room = some 0 ∧ argLen ty um v i large = some 0) := by
  have hmax : nodMaxArgSize = 65000 := rfl
  have hmin : min large nodMaxArgSize = nodMaxArgSize := by omega
  simp only [argStop, argLen, argIndex, if_neg (Nat.pos_iff_ne_zero.mp h),
    if_neg (show large ≠ 0 by omega), hmin]
  cases ht : argType ty v i with
  | none => exact Or.inr (Or.inl ⟨rfl, rfl, rfl⟩)
  | some tp =>
    obtain ⟨t, pre⟩ := tp
    rcases (argType_cases ht).2.imp And.left And.left with rfl | rfl
    · simp only [Nat.sub_zero, Nat.add_zero, Nat.zero_add, if_true]
      rcases pushData_widens t um v (show 0 < min room nodMaxArgSize by omega)
        (Nat.min_le_right ..) with ⟨p, hp, hr⟩ | ⟨⟨e, he⟩, e', he'⟩ | ⟨⟨p, hp, hz⟩, p', hp', hz'⟩
      · refine Or.inl ?_
        simp only [hp, if_neg (Nat.pos_iff_ne_zero.mp hr)]
        omega
      · exact Or.inr (Or.inl (by simp [he, he']))
      · exact Or.inr (Or.inr (by simp [hp, hp', hz, hz']))
    · refine Or.inl ?_
      simp only [if_neg (show ¬ (1 : Nat) = 0 by omega)]
      split <;> omega

theorem argLen_le_max {ty : EventType} {um : UserMem} {v : Value} {i room n : Nat}
    (h : argLen ty um v i room = some n) : i < (gEventInfo ty).nparams ∧ n ≤ nodMaxArgSize := by
  obtain ⟨hroom, t, pre, p, ht, hp, rfl⟩ := argLen_eq_some h
  have hpre : pre = 0 ∨ pre = 1 := (argType_cases ht).2.imp And.left And.left
  have hle := (pushData_within hp).len_le
  have hmax : nodMaxArgSize = 65000 := rfl
  exact ⟨(argType_cases ht).1, by omega⟩

theorem argIndex_le {ty : EventType} {v : Value} {i room : Nat} :
    argIndex ty v i room ≤ ((gEventInfo ty).nparams - i) * nodMaxArgSize := by
  have hmax : nodMaxArgSize = 65000 := rfl
  unfold argIndex
  split
  · exact Nat.zero_le _
  · cases ht : argType ty v i with
    | none => exact Nat.zero_le _
    | some tp =>
      obtain ⟨t, pre⟩ := tp
      have hpre : pre = 0 ∨ pre = 1 := (argType_cases ht).2.imp And.left And.left
      have hn := (argType_cases ht).1
      have hone : 1 ≤ ((gEventInfo ty).nparams - i) * nodMaxArgSize := Nat.mul_pos (by omega) (by omega)
      simp only [Option.map_some, Option.getD_some]
      omega

/-- An empty argument. -/
theorem valToRing_of_empty {ty : EventType} {um : UserMem} {v : Value} {a : RingArgs}
    (hl : argLen ty um v a.curarg a.argDataSize = some 0) (hoff : a.argDataOffset < 2 ^ 32) :
    (valToRing ty um v a).res = nodSuccess ∧
      (valToRing ty um v a).args = ⟨a.curarg + 1, a.argDataOffset, a.argDataSize⟩ := by
  obtain ⟨hres, hargs⟩ := valToRing_of_len hl
  simp only [Nat.add_zero, Nat.sub_zero, u32_of_lt hoff] at hargs
  exact ⟨hres, hargs⟩

namespace Filler

variable {ty : EventType} {um : UserMem}

/-- In no room nothing is laid down. -/
theorem taken_zero (f : Filler ty) (i : Nat) : f.taken um i 0 = 0 := by
  induction f generalizing i with
  | ret code => rfl
  | push v next ih => simp [taken, argLen, argIndex]
  | pushAnyway v plain next ih => simp [taken, argLen, ih]
  | store w inside next ih => exact ih i
  | runaway => rfl

/-- A record has so many arguments, and each is so long at most. -/
theorem taken_le (f : Filler ty) (i room : Nat) :
    f.taken um i room ≤ ((gEventInfo ty).nparams - i) * nodMaxArgSize := by
  have hcons : ∀ {v i room n m}, argLen ty um v i room = some n →
      m ≤ ((gEventInfo ty).nparams - (i + 1)) * nodMaxArgSize →
      n + m ≤ ((gEventInfo ty).nparams - i) * nodMaxArgSize := by
    intro v i room n m hl hm
    obtain ⟨hn, hle⟩ := argLen_le_max hl
    have hsucc : (gEventInfo ty).nparams - i = (gEventInfo ty).nparams - (i + 1) + 1 := by omega
    rw [hsucc, Nat.succ_mul]
    omega
  induction f generalizing i room with
  | ret code => exact Nat.zero_le _
  | push v next ih =>
    simp only [taken]
    split
    next n hl => exact hcons hl (ih ..)
    next => exact argIndex_le
  | pushAnyway v plain next ih =>
    simp only [taken]
    split
    next n hl => exact hcons hl (ih ..)
    next => exact ih ..
  | store w inside next ih => exact ih ..
  | runaway => exact Nat.zero_le _

theorem room_pos_of_taken {f : Filler ty} {i room : Nat} (h : 0 < f.taken um i room) :
    0 < room := by
  rcases Nat.eq_zero_or_pos room with rfl | hroom
  · rw [taken_zero] at h
    cases h
  · exact hroom

/-- A filler that lays something down in some room stores something when it believes to
have all the room there is. -/
theorem run_touches (f : Filler ty) (a : RingArgs) {room : Nat}
    (hlarge : nodMaxArgSize ≤ a.argDataSize) (hoff : a.argDataOffset + 1 < 2 ^ 32)
    (h : 0 < f.taken um a.curarg room) : a.argDataOffset < reach (f.run um a).out := by
  induction f generalizing a with
  | ret code => cases h
  | push v next ih =>
    have hreach := valToRing_reach ty um v (a := a) fun _ => hoff
    rcases argStop_widens ty um v a.curarg a.argDataOffset (room_pos_of_taken h) hlarge with
      hstop | ⟨hl, -, hz⟩ | ⟨hl, hl'⟩
    · have hsub : reach (valToRing ty um v a).out ≤ reach ((push v next).run um a).out := by
        simp only [run]
        split
        · simp only [reach_append]
          omega
        · exact Nat.le_refl _
      omega
    · simp only [taken, hl, hz] at h
      cases h
    · obtain ⟨hres, hargs⟩ := valToRing_of_empty hl' (by omega)
      simp only [taken, hl, Nat.zero_add, Nat.sub_zero] at h
      have hnext : a.argDataOffset < _ :=
        ih ⟨a.curarg + 1, a.argDataOffset, a.argDataSize⟩ hlarge hoff h
      rw [run_push_of_success hres, hargs]
      simp only [reach_append]
      omega
  | pushAnyway v plain next ih =>
    have hreach := valToRing_reach ty um v (a := a) fun _ => hoff
    simp only [run, reach_append]
    rcases argStop_widens ty um v a.curarg a.argDataOffset (room_pos_of_taken h) hlarge with
      hstop | ⟨hl, hl', -⟩ | ⟨hl, hl'⟩
    · omega
    · obtain ⟨hres, -, -⟩ := valToRing_of_no_len hl'
      simp only [taken, hl] at h
      rw [valToRing_args_of_failed plain hres]
      have hnext := ih a hlarge hoff h
      omega
    · obtain ⟨-, hargs⟩ := valToRing_of_empty hl' (by omega)
      simp only [taken, hl, Nat.zero_add, Nat.sub_zero] at h
      have hnext : a.argDataOffset < _ :=
        ih ⟨a.curarg + 1, a.argDataOffset, a.argDataSize⟩ hlarge hoff h
      rw [hargs]
      omega
  | store w inside next ih => exact ih a hlarge hoff h
  | runaway => cases h

end Filler

/-! ## Staying inside -/

/-- The size of what the thread owns of a region: what `init_buffer` allocated. -/
def Region.size (b : NodBuffer) : Region → Nat
  | .buffer => b.allocated
  | .overflow | .strStorage => pageSize

/-- Every byte written is in the memory that `init_buffer` allocated. -/
def StaysInside (b : NodBuffer) (log : List (Region × Write)) : Prop :=
  ∀ x ∈ log, ∀ i, x.2.Touches i → i < x.1.size b

theorem staysInside_append {b : NodBuffer} {log log' : List (Region × Write)} :
    StaysInside b (log ++ log') ↔ StaysInside b log ∧ StaysInside b log' := by
  simp only [StaysInside, List.mem_append, or_imp, forall_and]

theorem staysInside_logAt (b : NodBuffer) (r : Region) (base : Nat) (ws : List Write) :
    StaysInside b (logAt r base ws) ↔ reach (ws.map (Write.shift base)) ≤ r.size b := by
  rw [reach_le_iff]
  simp only [StaysInside, logAt, List.mem_map, forall_exists_index, and_imp,
    forall_apply_eq_imp_iff₂]

section Attempts

variable {ev : Event} {b c : NodBuffer} {load : Int} {force restart : Bool} {off fuel : Nat}
  {st : EventStatistic}

theorem reach_header : reach ev.header = hdrSize := by
  have hle : ∀ n v, n ≠ 0 → leBytes n v ≠ [] := by
    intro n v hn h
    have := congrArg List.length h
    rw [leBytes_length] at this
    exact hn this
  simp [Event.header, reach, Write.stop, hle, hdrSize]

theorem reach_stores (r : FillerRun) : reach (ev.stores r) = hdrSize + reach r.out := by
  have hpos : hdrSize = 28 := rfl
  rw [Event.stores, reach_append, reach_header, reach_map_shift]
  split <;> omega

/-- An attempt stays inside if its stores end inside its region and its filler does not
run away. -/
theorem tryOnce_inside_iff : StaysInside b (ev.tryOnce restart off c).log ↔
    (c.place off restart).base +
        (hdrSize + reach (ev.attempt (c.place off restart).size off).out) ≤
      (c.place off restart).region.size b ∧
    (ev.attempt (c.place off restart).size off).res ≠ none := by
  have hpos : hdrSize = 28 := rfl
  have hscratch := Filler.run_scratch ev.um ev.filler
    ⟨0, off, ((c.place off restart).size + 2 ^ 32 - off) % 2 ^ 32⟩
  simp only [Event.tryOnce, staysInside_append, staysInside_logAt, Write.map_shift_zero]
  rw [reach_map_shift, reach_stores, if_neg (by omega)]
  exact and_congr_right fun _ => hscratch

/-- The attempt is part of the call. -/
theorem attempts_inside_first
    (h : StaysInside b (ev.attempts load (fuel + 1) force restart off c st).log) :
    StaysInside b (ev.tryOnce restart off c).log := by
  intro x hx
  refine h x ?_
  simp only [Event.attempts, Event.conclude]
  repeat' split
  all_goals simp [hx]

/-- What follows the last attempt stays where the attempt did. -/
theorem conclude_inside {t : Attempt} {code : Int} (ht : StaysInside b t.log)
    (hhdr : t.place.base + hdrSize ≤ t.place.region.size b) :
    StaysInside b (ev.conclude load force t code st).log := by
  have hlen : ∀ size, StaysInside b (logAt t.place.region t.place.base [lenStore size]) := by
    intro size
    have hstop : (lenStore size).stop = 20 := by simp [lenStore, Write.stop]
    have hpos : hdrSize = 28 := rfl
    rw [staysInside_logAt, reach_map_shift, reach_singleton (by simp [lenStore, leBytes]), hstop,
      if_neg (by decide)]
    omega
  have hnil : StaysInside b [] := by
    intro x hx
    cases hx
  simp only [Event.conclude]
  repeat' split
  all_goals simp only [staysInside_append]
  all_goals first | exact ⟨ht, hlen _⟩ | exact ⟨ht, hnil⟩

end Attempts

/-! ## Attempts in the page -/

/-- An attempt in the page from `off` on leads to one from `off'` on: each but the last
runs out of room. -/
inductive Event.LeadsTo (ev : Event) : Nat → Nat → Prop
  | here {off : Nat} : LeadsTo ev off off
  | again {off off' : Nat} :
      ev.filler.OutOfRoom ev.um 0 (argDataSize Place.page.size off) →
      LeadsTo ev (off + ev.filler.taken ev.um 0 (argDataSize Place.page.size off)) off' →
      LeadsTo ev off off'

/-- None of the attempts in the page, from `off` on, runs away. -/
def Event.NeverRunsAway (ev : Event) (off : Nat) : Prop :=
  ∀ off', ev.LeadsTo off off' → ¬ ev.filler.RunsAway ev.um 0 (argDataSize Place.page.size off')

section Page

variable {ev : Event} {b c : NodBuffer} {load : Int} {force : Bool} {off fuel : Nat}
  {st : EventStatistic}

/-- Where the attempt after one in the page starts. -/
theorem page_next (ev : Event) (hoff : off ≤ Place.page.size) :
    (ev.attempt Place.page.size off).args.argDataOffset =
        off + ev.filler.taken ev.um 0 (argDataSize Place.page.size off) ∧
      off + ev.filler.taken ev.um 0 (argDataSize Place.page.size off) ≤ Place.page.size := by
  have hlt : Place.page.size < 2 ^ 32 := by decide
  have htaken := ev.attempt_taken Place.page.size off hoff hlt
  have hroom := (ev.attempt_sound Place.page.size off hoff hlt).room
  simp only at hroom
  exact ⟨htaken, by omega⟩

/-- An attempt in the page that starts there and comes to an end. -/
theorem tryOnce_page_staysInside (hoff : off ≤ Place.page.size)
    (hres : (ev.attempt Place.page.size off).res ≠ none) :
    StaysInside b (ev.tryOnce true off c).log := by
  have hlt : Place.page.size < 2 ^ 32 := by decide
  have hsize : hdrSize + Place.page.size = pageSize := by decide
  have hsound := ev.attempt_sound Place.page.size off hoff hlt
  have hreach : reach (ev.stores (ev.attempt Place.page.size off)) ≤ pageSize := by
    rw [reach_le_iff]
    intro w hw i hi
    have := Event.stores_stop_le hsound hoff (nargs_le_page ev) w hw
    exact Nat.lt_of_lt_of_le hi.2 (by omega)
  rw [reach_stores] at hreach
  rw [tryOnce_inside_iff, NodBuffer.place_restart]
  refine ⟨?_, hres⟩
  simp only [Place.page, Region.size] at hreach ⊢
  omega

/-- All attempts in the page stay inside, if the first starts there. -/
theorem attempts_page_staysInside (hoff : off ≤ Place.page.size) (h : ev.NeverRunsAway off) :
    StaysInside b (ev.attempts load fuel force true off c st).log := by
  induction fuel generalizing off force c with
  | zero =>
    intro x hx
    cases hx
  | succ fuel ih =>
    have hres : (ev.attempt Place.page.size off).res ≠ none := by
      rw [Ne, ev.attempt_runsAway]
      exact h off .here
    have hfirst := tryOnce_page_staysInside (b := b) (c := c) hoff hres
    have hrun : (ev.tryOnce true off c).run = ev.attempt Place.page.size off := by
      rw [Event.tryOnce_run, NodBuffer.place_restart]
    obtain ⟨code, hcode⟩ := Option.ne_none_iff_exists'.mp hres
    by_cases hfull : code = nodFailureBufferFull
    · subst hfull
      obtain ⟨hnext, hle⟩ := page_next ev hoff
      rw [Event.attempts_of_full (hrun ▸ hcode)]
      refine staysInside_append.mpr ⟨hfirst, ?_⟩
      rw [hrun, hnext]
      refine ih hle ?_
      intro off' hlead
      exact h off' (.again ((ev.attempt_outOfRoom _ _).mp hcode) hlead)
    · rw [Event.attempts_of_done (hrun ▸ hcode) hfull]
      refine conclude_inside hfirst ?_
      rw [Event.tryOnce_place, NodBuffer.place_restart]
      show 0 + hdrSize ≤ pageSize
      decide

/-- They do not, if one of them runs away. -/
theorem exists_fuel_of_runsAway {off' : Nat} (h : ev.LeadsTo off off')
    (hoff : off ≤ Place.page.size)
    (hr : ev.filler.RunsAway ev.um 0 (argDataSize Place.page.size off')) :
    ∃ fuel, ∀ force c st, ¬ StaysInside b (ev.attempts load fuel force true off c st).log := by
  induction h with
  | here =>
    refine ⟨1, fun force c st hin => ?_⟩
    obtain ⟨-, hres⟩ := tryOnce_inside_iff.mp (attempts_inside_first hin)
    rw [NodBuffer.place_restart] at hres
    exact hres ((ev.attempt_runsAway _ _).mpr hr)
  | again hfull _ ih =>
    obtain ⟨hnext, hle⟩ := page_next ev hoff
    obtain ⟨fuel, hfuel⟩ := ih hle hr
    refine ⟨fuel + 1, fun force c st hin => ?_⟩
    have hres := (ev.attempt_outOfRoom _ _).mpr hfull
    rw [Event.attempts_of_full
      (by rw [Event.tryOnce_run, NodBuffer.place_restart]; exact hres)] at hin
    have hin' := (staysInside_append.mp hin).2
    rw [Event.tryOnce_run, NodBuffer.place_restart, hnext] at hin'
    exact hfuel _ _ _ hin'

/-- An attempt in the page that starts past its end, after some arguments were laid down
elsewhere, stores past the end. -/
theorem not_inside_of_past {room : Nat} (hoff : Place.page.size < off)
    (hle : off ≤ 2 * ev.nargs + ev.nargs * nodMaxArgSize)
    (htaken : 0 < ev.filler.taken ev.um 0 room) :
    ¬ StaysInside b (ev.tryOnce true off c).log := by
  have hn : ev.nargs ≤ nodMaxEventParams := ev.nargs_le
  have hmax : nodMaxArgSize = 65000 := rfl
  have hparams : nodMaxEventParams = 32 := rfl
  have hpage : Place.page.size = 4068 := rfl
  have hhdr : hdrSize = 28 := rfl
  have hmul : ev.nargs * nodMaxArgSize ≤ 32 * 65000 := Nat.mul_le_mul (by omega) (by omega)
  intro hin
  obtain ⟨hbound, -⟩ := tryOnce_inside_iff.mp hin
  rw [NodBuffer.place_restart] at hbound
  have htouch : off < reach (ev.attempt Place.page.size off).out :=
    Filler.run_touches ev.filler ⟨0, off, (Place.page.size + 2 ^ 32 - off) % 2 ^ 32⟩
      (by simp only; omega) (by simp only; omega) htaken
  have hsize : Place.page.region.size b = 4096 := rfl
  rw [hsize] at hbound
  omega

end Page

/-! ## The call -/

/-- The condition under which a call writes to its own memory only.  `main` is about an
attempt at the tail: the header, the lengths and the arguments, as they come out in the
room `buffer_size - tail` promises, end inside the buffer; and if they run out of that
room, the arguments laid down end inside the page, where the next attempt starts. -/
structure WritesInside (ev : Event) (b : NodBuffer) : Prop where
  flush : b.filled = true → hdrLen (b.mem .overflow) ≤ b.allocated
  main : b.flush.place (2 * ev.nargs) false = b.flush.atTail →
    b.flush.info.tail.toNat + (hdrSize + ev.filler.stop ev.um 0 (2 * ev.nargs)
        (argDataSize b.flush.atTail.size (2 * ev.nargs))) ≤ b.allocated ∧
      ¬ ev.filler.RunsAway ev.um 0 (argDataSize b.flush.atTail.size (2 * ev.nargs)) ∧
      (ev.filler.OutOfRoom ev.um 0 (argDataSize b.flush.atTail.size (2 * ev.nargs)) →
        2 * ev.nargs + ev.laidDown b ≤ Place.page.size ∧
          ev.NeverRunsAway (2 * ev.nargs + ev.laidDown b))
  page : b.flush.place (2 * ev.nargs) false = .page → ev.NeverRunsAway (2 * ev.nargs)

section Call

variable {ev : Event} {b : NodBuffer} {fuel : Nat} {entryAddr : UInt64} {load : Int}
  {st : EventStatistic}

theorem flushLog_inside_iff : StaysInside b b.flushLog ↔
    (b.filled = true → hdrLen (b.mem .overflow) ≤ b.allocated) := by
  have hlog : ∀ ws, StaysInside b [(.buffer, ⟨0, ws⟩)] ↔ ws.length ≤ b.allocated := by
    intro ws
    have h := staysInside_logAt b .buffer 0 [⟨0, ws⟩]
    simp only [logAt, List.map_cons, List.map_nil, Write.shift_zero] at h
    rw [h]
    simp only [reach, Region.size, Write.stop, Nat.zero_add, Nat.max_zero]
    split
    next hnil => simp [hnil]
    next => rfl
  unfold NodBuffer.flushLog
  split
  next hf => simp only [hlog, Image.read_length, hf, forall_const]
  next hf =>
    refine iff_of_true ?_ fun h => absurd h hf
    intro x hx
    cases hx

theorem record_inside_iff : StaysInside b (doRecordOneEvent fuel entryAddr load ev b st).log ↔
    (b.filled = true → hdrLen (b.mem .overflow) ≤ b.allocated) ∧
      StaysInside b (ev.attempts load fuel (ev.force || entryAddr = 0) false (2 * ev.nargs) b.flush
        (if b.filled then { st with nEvts := st.nEvts + 1 } else st)).log := by
  simp only [doRecordOneEvent, staysInside_append, flushLog_inside_iff]

/-- The attempt at the tail. -/
theorem tryOnce_main_iff (hp : b.flush.place (2 * ev.nargs) false = b.flush.atTail) :
    StaysInside b (ev.tryOnce false (2 * ev.nargs) b.flush).log ↔
      b.flush.info.tail.toNat + (hdrSize + ev.filler.stop ev.um 0 (2 * ev.nargs)
          (argDataSize b.flush.atTail.size (2 * ev.nargs))) ≤ b.allocated ∧
        ¬ ev.filler.RunsAway ev.um 0 (argDataSize b.flush.atTail.size (2 * ev.nargs)) := by
  have hlt := b.flush.freespace_lt
  have hsize : b.flush.atTail.size = b.flush.freespace - hdrSize := rfl
  have hoff : 2 * ev.nargs ≤ b.flush.atTail.size := by
    rcases b.flush.place_cases (2 * ev.nargs) false with hpage | ⟨-, hoff, -⟩
    · rw [hp] at hpage
      cases hpage
    · omega
  have hroom := argDataSize_eq hoff (by omega)
  have hreach : reach (ev.attempt b.flush.atTail.size (2 * ev.nargs)).out =
      ev.filler.stop ev.um 0 (2 * ev.nargs) (argDataSize b.flush.atTail.size (2 * ev.nargs)) := by
    refine Filler.run_stop ev.filler
      ⟨0, 2 * ev.nargs, argDataSize b.flush.atTail.size (2 * ev.nargs)⟩ ?_
    simp only [hroom]
    omega
  rw [tryOnce_inside_iff, hp, hreach, Ne, ev.attempt_runsAway]
  rfl

/-- A call that starts in the page. -/
theorem attempts_of_page {c : NodBuffer} {force : Bool} {off : Nat} (hp : c.place off false = .page) :
    ev.attempts load fuel force false off c st = ev.attempts load fuel force true off c st := by
  cases fuel with
  | zero => rfl
  | succ fuel =>
    have htry : ev.tryOnce false off c = ev.tryOnce true off c := by
      simp only [Event.tryOnce, hp, NodBuffer.place_restart]
    simp only [Event.attempts, htry]

theorem WritesInside.of_staysInside (h : ∀ fuel entryAddr load st,
    StaysInside b (doRecordOneEvent fuel entryAddr load ev b st).log) : WritesInside ev b := by
  have hattempts := fun fuel => (record_inside_iff.mp (h fuel 0 0 ⟨0, 0, 0⟩)).2
  refine ⟨(record_inside_iff.mp (h 0 0 0 ⟨0, 0, 0⟩)).1, ?_, ?_⟩
  · intro hp
    obtain ⟨hbound, haway⟩ := (tryOnce_main_iff hp).mp (attempts_inside_first (hattempts 1))
    refine ⟨hbound, haway, fun hfull => ?_⟩
    have hrun : (ev.tryOnce false (2 * ev.nargs) b.flush).run =
        ev.attempt b.flush.atTail.size (2 * ev.nargs) := by
      rw [Event.tryOnce_run, hp]
    have hres := (ev.attempt_outOfRoom _ _).mpr hfull
    -- what the call does after the attempt at the tail
    have hrest : ∀ fuel, ∃ force c st, StaysInside b
        (ev.attempts 0 fuel force true (2 * ev.nargs + ev.laidDown b) c st).log := by
      intro fuel
      have hin := hattempts (fuel + 1)
      rw [Event.attempts_of_full (by rw [hrun]; exact hres)] at hin
      have hin' := (staysInside_append.mp hin).2
      rw [hrun, Event.restart_offset hp] at hin'
      exact ⟨_, _, _, hin'⟩
    have hle : 2 * ev.nargs + ev.laidDown b ≤ Place.page.size := by
      by_contra hpast
      have hn := nargs_le_page ev
      have hlaid : ev.laidDown b ≤ ev.nargs * nodMaxArgSize := ev.filler.taken_le 0 _
      obtain ⟨force, c, st, hin⟩ := hrest 1
      exact not_inside_of_past (by omega) (by omega) (show 0 < ev.laidDown b by omega)
        (attempts_inside_first hin)
    refine ⟨hle, fun off' hlead hr => ?_⟩
    obtain ⟨fuel, hfuel⟩ := exists_fuel_of_runsAway hlead hle hr
    obtain ⟨force, c, st, hin⟩ := hrest fuel
    exact hfuel _ _ _ hin
  · intro hp off' hlead hr
    obtain ⟨fuel, hfuel⟩ := exists_fuel_of_runsAway hlead (nargs_le_page ev) hr
    have hin := hattempts fuel
    rw [attempts_of_page hp] at hin
    exact hfuel _ _ _ hin

theorem WritesInside.staysInside (h : WritesInside ev b) (fuel : Nat) (entryAddr : UInt64)
    (load : Int) (st : EventStatistic) :
    StaysInside b (doRecordOneEvent fuel entryAddr load ev b st).log := by
  refine record_inside_iff.mpr ⟨h.flush, ?_⟩
  rcases b.flush.place_cases (2 * ev.nargs) false with hp | ⟨-, -, hp⟩
  · rw [attempts_of_page hp]
    exact attempts_page_staysInside (nargs_le_page ev) (h.page hp)
  · obtain ⟨hbound, haway, hrest⟩ := h.main hp
    have hfirst := (tryOnce_main_iff hp).mpr ⟨hbound, haway⟩
    have hrun : (ev.tryOnce false (2 * ev.nargs) b.flush).run =
        ev.attempt b.flush.atTail.size (2 * ev.nargs) := by
      rw [Event.tryOnce_run, hp]
    cases fuel with
    | zero =>
      intro x hx
      cases hx
    | succ fuel =>
      have hres : (ev.attempt b.flush.atTail.size (2 * ev.nargs)).res ≠ none := by
        rw [Ne, ev.attempt_runsAway]
        exact haway
      obtain ⟨code, hcode⟩ := Option.ne_none_iff_exists'.mp hres
      by_cases hfull : code = nodFailureBufferFull
      · subst hfull
        obtain ⟨hle, hnever⟩ := hrest ((ev.attempt_outOfRoom _ _).mp hcode)
        rw [Event.attempts_of_full (hrun ▸ hcode)]
        refine staysInside_append.mpr ⟨hfirst, ?_⟩
        rw [hrun, Event.restart_offset hp]
        exact attempts_page_staysInside hle hnever
      · rw [Event.attempts_of_done (hrun ▸ hcode) hfull]
        refine conclude_inside hfirst ?_
        rw [Event.tryOnce_place, hp]
        show b.flush.info.tail.toNat + hdrSize ≤ b.allocated
        omega

/-- **When a call writes to its own memory only**, for every event, every value of the
shared page and every content of the overflow page. -/
theorem staysInside_iff (ev : Event) (b : NodBuffer) : (∀ fuel entryAddr load st,
    StaysInside b (doRecordOneEvent fuel entryAddr load ev b st).log) ↔ WritesInside ev b :=
  ⟨WritesInside.of_staysInside, fun h fuel entryAddr load st => h.staysInside fuel entryAddr load st⟩

/-- **A shared page may send the stores out of the buffer**: with `tail` at 8192 and
`buffer_size` at 16384, `close` is recorded past the 4096 bytes there are. -/
theorem forged_info_writes_outside : ¬ ∀ (ev : Event) (info : BufferInfo) (fuel : Nat)
    (entryAddr : UInt64) (load : Int) (st : EventStatistic),
    StaysInside smallBuffer
      (doRecordOneEvent fuel entryAddr load ev { smallBuffer with info := info } st).log := by
  intro hall
  have hin : WritesInside closeEvent { smallBuffer with info := ⟨0, 8192, 0, 16384⟩ } :=
    .of_staysInside (hall closeEvent ⟨0, 8192, 0, 16384⟩)
  obtain ⟨hbound, -⟩ := hin.main (place_eq_atTail (by decide))
  have htail : (8192 : Nat) ≤ 4096 := Nat.le_trans (Nat.le_add_right ..) hbound
  exact absurd htail (by decide)

end Call

end NoDrop
