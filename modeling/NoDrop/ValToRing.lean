import NoDrop.EventTable
import NoDrop.UserMem

/-! # Appending one argument to a record

`val_to_ring` of `kmodule/fillers.c` is the only function that puts argument data
into a record.  A record under construction is the array of `u16` lengths followed by
the arguments' bytes; `curarg`, `arg_data_offset` and `arg_data_size` say which
argument is next, where its bytes go and how many fit.

`valToRing` never reads what it has stored, so its effect is the list of its stores,
relative to `buf_ptr`.  What it lays down is decided by the parameter type, the value
and the room left (`pushData`), not by where in the record it goes.  All the later
comparisons of two recording attempts rest on that.
-/
namespace NoDrop

open Bytes

/-! ## Constants -/

/-- `PAGE_SIZE`, which is also `STR_STORAGE_SIZE`. -/
def pageSize : Nat := 4096

/-- `NOD_MAX_ARG_SIZE`. -/
def nodMaxArgSize : Nat := 65000

/-- `args.snaplen`, as `do_record_one_event` sets it. -/
def snaplen : Nat := 80

/-- `NOD_SUCCESS`. -/
def nodSuccess : Int := 0

/-- `NOD_SUCCESS_LOAD`. -/
def nodSuccessLoad : Int := 1

/-- `NOD_FAILURE_BUG`. -/
def nodFailureBug : Int := -1

/-- `NOD_FAILURE_BUFFER_FULL`. -/
def nodFailureBufferFull : Int := -2

/-- `NOD_FAILURE_INVALID_USER_MEMORY`. -/
def nodFailureInvalidUserMemory : Int := -4

/-- Truncation to `uint32_t`. -/
def u32 (n : Nat) : Nat := n % 2 ^ 32

theorem u32_of_lt {n : Nat} (h : n < 2 ^ 32) : u32 n = n := Nat.mod_eq_of_lt h

/-! ## The value pushed -/

/-- The arguments of `val_to_ring`, and for a kernel pointer the bytes it points to
at the time of the call. -/
structure Value where
  val : UInt64
  len : UInt32 := 0
  fromuser : Bool := false
  dynIdx : UInt8 := 0
  mem : List UInt8 := []

/-- The `n` bytes `memcpy` takes from the kernel pointer. -/
def Value.kread (v : Value) (n : Nat) : List UInt8 := (List.range n).map fun i => v.mem.getD i 0

@[simp] theorem Value.kread_length (v : Value) (n : Nat) : (v.kread n).length = n := by
  simp [Value.kread]

/-- The C string at the kernel pointer, without its terminator. -/
def Value.kstr (v : Value) : List UInt8 := v.mem.takeWhile (· ≠ 0)

/-- `"(NULL)"`. -/
def nullText : List UInt8 := [0x28, 0x4E, 0x55, 0x4C, 0x4C, 0x29]

/-- `"(INVAL)"`. -/
def invalText : List UInt8 := [0x28, 0x49, 0x4E, 0x56, 0x41, 0x4C, 0x29]

/-- The width of a parameter type that is stored as an integer. -/
def ParamType.width : ParamType → Option Nat
  | .flags8 | .uint8 | .sigtype | .int8 => some 1
  | .flags16 | .uint16 | .syscallid | .int16 => some 2
  | .flags32 | .uint32 | .mode | .uid | .gid | .sigset | .int32 => some 4
  | .reltime | .abstime | .uint64 | .int64 | .errno | .fd | .pid => some 8
  | _ => Option.none

/-- An argument as `val_to_ring` lays it down: its length, and the stores relative to
where its bytes start. -/
abbrev Piece := Nat × List Write

/-- What `strlcpy(dst, str, max)` stores, and the length `val_to_ring` makes of its
result: the string and its terminator, cut off at `max` bytes. -/
def strlcpy (str : List UInt8) (max : Nat) : Piece :=
  (min (str.length + 1) max, if max = 0 then [] else [⟨0, str.take (max - 1) ++ [0]⟩])

/-- The macro `INVALID_USER_MEMORY`, after a copy that stored `got`. -/
def invalidUserMemory (got : List UInt8) (max : Nat) : Piece :=
  ((strlcpy invalText max).1, ⟨0, got⟩ :: (strlcpy invalText max).2)

/-- The `PT_CHARBUF` case.  A user string that does not end within the room left is
treated as invalid memory. -/
def pushCharbuf (um : UserMem) (v : Value) (max : Nat) : Piece :=
  if v.val = 0 then strlcpy nullText max
  else if v.fromuser then
    if (um.nodStrncpyFromUser v.val.toNat max).2 < 0 then
      invalidUserMemory (um.nodStrncpyFromUser v.val.toNat max).1 max
    else
      ((um.nodStrncpyFromUser v.val.toNat max).2.toNat,
        [⟨0, (um.nodStrncpyFromUser v.val.toNat max).1⟩])
  else strlcpy v.kstr max

/-- The bytes of a `PT_BYTEBUF` that are copied ahead of the rest. -/
def Value.lookahead (v : Value) : Nat := min 16 v.len.toNat

/-- The length of a `PT_BYTEBUF` argument from user memory, cut off at `max` bytes. -/
def Value.snapped (v : Value) (max : Nat) : Nat := min (min v.len.toNat snaplen) max

/-- The user-memory part of the `PT_BYTEBUF` case: the lookahead, then the rest up to
`snaplen`.  A fault in the second copy still counts the whole length. -/
def pushUserBytes (um : UserMem) (v : Value) (max : Nat) : Except Int Piece :=
  let head := um.nodCopyFromUser v.val.toNat v.lookahead
  let tail := um.nodCopyFromUser (v.val.toNat + v.lookahead) (v.snapped max - v.lookahead)
  if max ≤ v.lookahead then .error nodFailureBufferFull
  else if head.2 ≠ 0 then .ok (invalidUserMemory head.1 max)
  else if v.lookahead = v.len.toNat then .ok (v.len.toNat, [⟨0, head.1⟩])
  else if v.lookahead < v.snapped max then
    .ok (v.snapped max, ⟨0, head.1⟩ :: ⟨v.lookahead, tail.1⟩ ::
      (if tail.2 ≠ 0 then (strlcpy invalText max).2 else []))
  else .ok (v.snapped max, [⟨0, head.1⟩])

/-- The `PT_BYTEBUF` case. -/
def pushBytebuf (um : UserMem) (v : Value) (max : Nat) : Except Int Piece :=
  if v.val = 0 then .ok (0, [])
  else if v.fromuser then pushUserBytes um v max
  else if max ≤ min v.len.toNat snaplen then .error nodFailureBufferFull
  else .ok (min v.len.toNat snaplen, [⟨0, v.kread (min v.len.toNat snaplen)⟩])

/-- The `PT_SOCKADDR`, `PT_SOCKTUPLE` and `PT_FDLIST` case. -/
def pushSockaddr (um : UserMem) (v : Value) (max : Nat) : Except Int Piece :=
  let got := um.nodCopyFromUser v.val.toNat v.len.toNat
  if v.val = 0 then .ok (0, [])
  else if max ≤ v.len.toNat then .error nodFailureBufferFull
  else if v.fromuser then
    if got.2 ≠ 0 then .ok (invalidUserMemory got.1 max) else .ok (v.len.toNat, [⟨0, got.1⟩])
  else .ok (v.len.toNat, [⟨0, v.kread v.len.toNat⟩])

/-- The integer cases. -/
def pushScalar (w : Nat) (v : Value) (max : Nat) : Except Int Piece :=
  if w ≤ max then .ok (w, [⟨0, leBytes w v.val.toNat⟩]) else .error nodFailureBufferFull

/-- The `switch` of `val_to_ring`: the argument laid down in at most `max` bytes, or the
code returned. -/
def pushData (t : ParamType) (um : UserMem) (v : Value) (max : Nat) : Except Int Piece :=
  match t with
  | .charbuf | .fspath | .fsrelpath => .ok (pushCharbuf um v max)
  | .bytebuf => pushBytebuf um v max
  | .sockaddr | .socktuple | .fdlist => pushSockaddr um v max
  | t =>
      match t.width with
      | some w => pushScalar w v max
      | none => .error nodFailureBug

/-! ## What one argument lays down -/

/-- The piece stays inside the room it was given: its length, which is what the two
`ASSERT`s at the end of `val_to_ring` are about, and its stores. -/
structure Piece.Within (p : Piece) (max : Nat) : Prop where
  len_le : p.1 ≤ max
  stop_le : ∀ w ∈ p.2, w.stop ≤ max

theorem strlcpy_within (str : List UInt8) (max : Nat) : (strlcpy str max).Within max := by
  refine ⟨Nat.min_le_right .., ?_⟩
  intro w hw
  simp only [strlcpy] at hw
  split at hw
  · simp at hw
  · obtain rfl := List.mem_singleton.mp hw
    simp only [Write.stop, List.length_append, List.length_take, List.length_singleton]
    omega

theorem invalidUserMemory_within {got : List UInt8} {max : Nat} (h : got.length ≤ max) :
    (invalidUserMemory got max).Within max := by
  have hs := strlcpy_within invalText max
  refine ⟨hs.len_le, ?_⟩
  intro w hw
  rcases List.mem_cons.mp hw with rfl | hw
  · simpa [Write.stop] using h
  · exact hs.stop_le w hw

theorem within_single {len max : Nat} {bs : List UInt8} (hl : len ≤ max) (hb : bs.length ≤ max) :
    Piece.Within (len, [⟨0, bs⟩]) max := by
  refine ⟨hl, ?_⟩
  intro w hw
  obtain rfl := List.mem_singleton.mp hw
  simpa [Write.stop] using hb

theorem pushCharbuf_within (um : UserMem) (v : Value) (max : Nat) :
    (pushCharbuf um v max).Within max := by
  have hle := um.nodStrncpyFromUser_length_le v.val.toNat max
  unfold pushCharbuf
  split
  · exact strlcpy_within ..
  · split
    · split
      · exact invalidUserMemory_within hle
      · rename_i hneg
        rcases um.nodStrncpyFromUser_result v.val.toNat max with h | ⟨k, hk, -, hkle⟩
        · omega
        · exact within_single (by omega) hle
    · exact strlcpy_within ..

theorem pushUserBytes_within {um : UserMem} {v : Value} {max : Nat} {p : Piece}
    (h : pushUserBytes um v max = .ok p) : p.Within max := by
  have hhead := um.nodCopyFromUser_length_le v.val.toNat v.lookahead
  have htail := um.nodCopyFromUser_length_le (v.val.toNat + v.lookahead)
    (v.snapped max - v.lookahead)
  have hsnap : v.snapped max ≤ max := Nat.min_le_right ..
  simp only [pushUserBytes] at h
  split at h
  · cases h
  rename_i hroom
  split at h
  · cases h
    exact invalidUserMemory_within (by omega)
  split at h
  · cases h
    exact within_single (by omega) (by omega)
  split at h
  · cases h
    refine ⟨hsnap, ?_⟩
    intro w hw
    rcases List.mem_cons.mp hw with rfl | hw
    · simp only [Write.stop]
      omega
    rcases List.mem_cons.mp hw with rfl | hw
    · simp only [Write.stop]
      omega
    · split at hw
      · exact (strlcpy_within _ _).stop_le w hw
      · simp at hw
  · cases h
    exact within_single hsnap (by omega)

theorem pushBytebuf_within {um : UserMem} {v : Value} {max : Nat} {p : Piece}
    (h : pushBytebuf um v max = .ok p) : p.Within max := by
  unfold pushBytebuf at h
  split at h
  · cases h
    exact ⟨Nat.zero_le _, by simp⟩
  split at h
  · exact pushUserBytes_within h
  split at h
  · cases h
  · cases h
    exact within_single (by omega) (by simp only [Value.kread_length]; omega)

theorem pushSockaddr_within {um : UserMem} {v : Value} {max : Nat} {p : Piece}
    (h : pushSockaddr um v max = .ok p) : p.Within max := by
  have hgot := um.nodCopyFromUser_length_le v.val.toNat v.len.toNat
  simp only [pushSockaddr] at h
  split at h
  · cases h
    exact ⟨Nat.zero_le _, by simp⟩
  split at h
  · cases h
  split at h
  · split at h
    · cases h
      exact invalidUserMemory_within (by omega)
    · cases h
      exact within_single (by omega) (by omega)
  · cases h
    exact within_single (by omega) (by simp only [Value.kread_length]; omega)

theorem pushScalar_within {w : Nat} {v : Value} {max : Nat} {p : Piece}
    (h : pushScalar w v max = .ok p) : p.Within max := by
  unfold pushScalar at h
  split at h
  · cases h
    exact within_single (by omega) (by rw [leBytes_length]; omega)
  · cases h

/-- Whatever the parameter type and the memory, an argument stays in its room. -/
theorem pushData_within {t : ParamType} {um : UserMem} {v : Value} {max : Nat} {p : Piece}
    (h : pushData t um v max = .ok p) : p.Within max := by
  unfold pushData at h
  split at h
  iterate 3 (cases h; exact pushCharbuf_within um v max)
  · exact pushBytebuf_within h
  iterate 3 exact pushSockaddr_within h
  · split at h
    · exact pushScalar_within h
    · cases h

/-- The argument does not go into `max` bytes at all.  Strings never are refused: they
are cut off, or replaced by a placeholder. -/
def Refused (t : ParamType) (v : Value) (max : Nat) : Prop :=
  match t with
  | .charbuf | .fspath | .fsrelpath => False
  | .bytebuf => v.val ≠ 0 ∧ max ≤ if v.fromuser then v.lookahead else min v.len.toNat snaplen
  | .sockaddr | .socktuple | .fdlist => v.val ≠ 0 ∧ max ≤ v.len.toNat
  | t => ∃ w, t.width = some w ∧ max < w

theorem pushData_scalar {t : ParamType} {w : Nat} (um : UserMem) (v : Value) (max : Nat)
    (ht : t.width = some w) : pushData t um v max = pushScalar w v max := by
  cases t <;> simp_all [pushData, ParamType.width]

theorem refused_scalar {t : ParamType} {w : Nat} (v : Value) (max : Nat)
    (ht : t.width = some w) : Refused t v max ↔ max < w := by
  cases t <;> simp_all [Refused, ParamType.width]

theorem pushBytebuf_refused (um : UserMem) (v : Value) (max : Nat) :
    (Refused .bytebuf v max ∧ pushBytebuf um v max = .error nodFailureBufferFull) ∨
      (¬ Refused .bytebuf v max ∧ ∃ p, pushBytebuf um v max = .ok p) := by
  by_cases hval : v.val = 0
  · exact Or.inr ⟨fun h => h.1 hval, (0, []), by simp [pushBytebuf, hval]⟩
  by_cases huser : v.fromuser
  · by_cases hroom : max ≤ v.lookahead
    · exact Or.inl ⟨⟨hval, by simpa [huser] using hroom⟩,
        by simp [pushBytebuf, pushUserBytes, hval, huser, hroom]⟩
    · refine Or.inr ⟨fun h => hroom (by simpa [huser] using h.2), ?_⟩
      simp only [pushBytebuf, pushUserBytes, hval, huser, hroom, if_true, if_false]
      repeat' split
      all_goals exact ⟨_, rfl⟩
  · by_cases hroom : max ≤ min v.len.toNat snaplen
    · exact Or.inl ⟨⟨hval, by simpa [huser] using hroom⟩,
        by simp only [pushBytebuf, hval, huser, hroom, if_true, if_false, Bool.false_eq_true]⟩
    · refine Or.inr ⟨fun h => hroom (by simpa [huser] using h.2), ?_⟩
      simp only [pushBytebuf, hval, huser, hroom, if_false, Bool.false_eq_true]
      exact ⟨_, rfl⟩

theorem pushSockaddr_refused (um : UserMem) (v : Value) (max : Nat) :
    (Refused .sockaddr v max ∧ pushSockaddr um v max = .error nodFailureBufferFull) ∨
      (¬ Refused .sockaddr v max ∧ ∃ p, pushSockaddr um v max = .ok p) := by
  simp only [Refused, pushSockaddr]
  split
  · exact Or.inr ⟨fun h => h.1 ‹_›, _, rfl⟩
  split
  · exact Or.inl ⟨⟨‹_›, ‹_›⟩, rfl⟩
  refine Or.inr ⟨fun h => absurd h.2 ‹_›, ?_⟩
  repeat' split
  all_goals exact ⟨_, rfl⟩

/-- What the `switch` can do: refuse the argument for want of room, stop at a type it
has no case for, or lay the argument down.  It never reports invalid user memory. -/
theorem pushData_cases (t : ParamType) (um : UserMem) (v : Value) (max : Nat) :
    (Refused t v max ∧ pushData t um v max = .error nodFailureBufferFull) ∨
      (¬ Refused t v max ∧ pushData t um v max = .error nodFailureBug) ∨
      (¬ Refused t v max ∧ ∃ p, pushData t um v max = .ok p) := by
  by_cases hb : t = .bytebuf
  · subst hb
    exact (pushBytebuf_refused um v max).imp_right Or.inr
  by_cases hs : t = .sockaddr ∨ t = .socktuple ∨ t = .fdlist
  · rcases hs with rfl | rfl | rfl
    all_goals exact (pushSockaddr_refused um v max).imp_right Or.inr
  by_cases hc : t = .charbuf ∨ t = .fspath ∨ t = .fsrelpath
  · rcases hc with rfl | rfl | rfl
    all_goals exact Or.inr (Or.inr ⟨id, _, rfl⟩)
  have hr : Refused t v max ↔ ∃ w, t.width = some w ∧ max < w := by
    cases t <;> first | rfl | simp_all
  have hp : pushData t um v max =
      match t.width with
      | some w => pushScalar w v max
      | none => .error nodFailureBug := by
    cases t <;> first | rfl | simp_all
  rw [hr, hp]
  cases t.width with
  | none => exact Or.inr (Or.inl ⟨by simp, rfl⟩)
  | some w =>
    simp only [pushScalar, Option.some.injEq, exists_eq_left']
    split
    · exact Or.inr (Or.inr ⟨by omega, _, rfl⟩)
    · exact Or.inl ⟨by omega, rfl⟩

/-! ## The call -/

/-- The part of `struct event_filler_arguments` that `val_to_ring` advances. -/
structure RingArgs where
  curarg : Nat
  argDataOffset : Nat
  argDataSize : Nat
deriving DecidableEq, Repr

/-- The store of `*psize` for argument `i`. -/
def slot (i len : Nat) : Write := ⟨2 * i, leBytes 2 len⟩

/-- What a call leaves: the code, the advanced arguments and the stores. -/
structure Pushed where
  res : Int
  args : RingArgs
  out : List Write

/-- The end of `val_to_ring` once the parameter type is known.  `pre` is the length
already in `*psize`: one for the index byte of a `PT_DYN` parameter. -/
def pushArg (t : ParamType) (um : UserMem) (v : Value) (a : RingArgs) (pre max : Nat) : Pushed :=
  match pushData t um v max with
  | .error e => ⟨e, a, []⟩
  | .ok (len, ws) =>
      ⟨nodSuccess, ⟨a.curarg + 1, u32 (a.argDataOffset + len), a.argDataSize - len⟩,
        ws.map (Write.shift a.argDataOffset) ++ [slot a.curarg (pre + len)]⟩

/-- `val_to_ring`. -/
def valToRing (ty : EventType) (um : UserMem) (v : Value) (a : RingArgs) : Pushed :=
  let max := min a.argDataSize nodMaxArgSize
  let p := (gEventInfo ty).param a.curarg
  if (gEventInfo ty).nparams ≤ a.curarg then ⟨nodFailureBug, a, []⟩
  else if a.argDataSize = 0 then ⟨nodFailureBufferFull, a, []⟩
  else if p.type = .dyn ∧ p.dyn ≠ [] then
    match p.dyn[v.dynIdx.toNat]? with
    | none => ⟨nodFailureBug, a, []⟩
    | some t =>
        -- the index byte stays accounted for even when the value then does not fit
        let r := pushArg t um v ⟨a.curarg, u32 (a.argDataOffset + 1), a.argDataSize - 1⟩ 1 (max - 1)
        { r with out := ⟨a.argDataOffset, [v.dynIdx]⟩ :: slot a.curarg 1 :: r.out }
  else
    let r := pushArg p.type um v a 0 max
    { r with out := slot a.curarg 0 :: r.out }

/-! ## What one call does -/

/-- A store of an attempt that has the room `[lo, hi)` for argument data: a length in
the array of lengths, from argument `i` on, or argument data. -/
def InRoom (ty : EventType) (i lo hi : Nat) (w : Write) : Prop :=
  (∃ j len, i ≤ j ∧ j < (gEventInfo ty).nparams ∧ w = slot j len) ∨ (lo ≤ w.off ∧ w.stop ≤ hi)

/-- **What a call of `val_to_ring` does**, whatever it is given: it keeps the end of the
argument area where it is, it stores only into its own length and that area, and it
moves on to the next argument exactly when it succeeds.  The length stored last is the
number of bytes the offset went up. -/
structure Pushed.Sound (ty : EventType) (a : RingArgs) (p : Pushed) : Prop where
  room : p.args.argDataOffset + p.args.argDataSize = a.argDataOffset + a.argDataSize
  offset_le : a.argDataOffset ≤ p.args.argDataOffset
  stores : ∀ w ∈ p.out, InRoom ty a.curarg a.argDataOffset (a.argDataOffset + a.argDataSize) w
  failed : p.res ≠ nodSuccess → p.args.curarg = a.curarg
  succeeded : p.res = nodSuccess → a.curarg < (gEventInfo ty).nparams ∧
    p.args.curarg = a.curarg + 1 ∧ p.args.argDataOffset ≤ a.argDataOffset + nodMaxArgSize ∧
    ∃ front, p.out = front ++ [slot a.curarg (p.args.argDataOffset - a.argDataOffset)]

theorem slot_inRoom {ty : EventType} {i len lo hi : Nat} (h : i < (gEventInfo ty).nparams) :
    InRoom ty i lo hi (slot i len) :=
  Or.inl ⟨i, len, Nat.le_refl _, h, rfl⟩

/-- The common end of the call, from the arguments as they stand after the index byte
of a `PT_DYN` parameter (`pre = 1`) or without one (`pre = 0`). -/
theorem pushArg_sound {ty : EventType} {t : ParamType} {um : UserMem} {v : Value} {a : RingArgs}
    (pre max : Nat) (hpre : pre ≤ a.argDataSize) (hmax : max ≤ a.argDataSize - pre)
    (harg : pre + max ≤ nodMaxArgSize) (hn : a.curarg < (gEventInfo ty).nparams)
    (hw : a.argDataOffset + a.argDataSize < 2 ^ 32) :
    (pushArg t um v ⟨a.curarg, a.argDataOffset + pre, a.argDataSize - pre⟩ pre max).Sound ty a := by
  unfold pushArg
  split
  · rename_i e he
    have hne : e ≠ nodSuccess := by
      rcases pushData_cases t um v max with ⟨-, h⟩ | ⟨-, h⟩ | ⟨-, p, h⟩ <;> rw [he] at h <;>
        cases h <;> decide
    exact ⟨by simp only; omega, by simp only; omega, by simp, fun _ => rfl, fun h => absurd h hne⟩
  · rename_i len ws hp
    obtain ⟨hlen, hstop⟩ := pushData_within hp
    have hu : u32 (a.argDataOffset + pre + len) = a.argDataOffset + pre + len :=
      u32_of_lt (by simp only at hlen; omega)
    simp only at hlen hstop
    refine ⟨by simp only [hu]; omega, by simp only [hu]; omega, ?_, fun h => absurd rfl h, ?_⟩
    · intro w hw
      rcases List.mem_append.mp hw with hw | hw
      · obtain ⟨w', hw', rfl⟩ := List.mem_map.mp hw
        have := hstop w' hw'
        refine Or.inr ⟨by simp only [Write.shift]; omega, ?_⟩
        simp only [Write.stop_shift]
        omega
      · obtain rfl := List.mem_singleton.mp hw
        exact slot_inRoom hn
    · intro _
      have hlast : a.argDataOffset + pre + len - a.argDataOffset = pre + len := by omega
      refine ⟨hn, rfl, by simp only [hu]; omega,
        ws.map (Write.shift (a.argDataOffset + pre)), ?_⟩
      simp only [hu, hlast]

theorem valToRing_sound (ty : EventType) (um : UserMem) (v : Value) {a : RingArgs}
    (hw : a.argDataOffset + a.argDataSize < 2 ^ 32) : (valToRing ty um v a).Sound ty a := by
  have stay : ∀ e, e ≠ nodSuccess → Pushed.Sound ty a ⟨e, a, []⟩ := fun e he =>
    ⟨rfl, Nat.le_refl _, by simp, fun _ => rfl, fun h => absurd h he⟩
  -- stores in front of those of `pushArg` keep the description
  have prepend : ∀ (p : Pushed) (ws : List Write), p.Sound ty a →
      (∀ w ∈ ws, InRoom ty a.curarg a.argDataOffset (a.argDataOffset + a.argDataSize) w) →
      Pushed.Sound ty a { p with out := ws ++ p.out } := by
    intro p ws hp hws
    refine ⟨hp.room, hp.offset_le, ?_, hp.failed, ?_⟩
    · intro w hw
      rcases List.mem_append.mp hw with hw | hw
      · exact hws w hw
      · exact hp.stores w hw
    · intro hres
      obtain ⟨h1, h2, h3, front, h4⟩ := hp.succeeded hres
      exact ⟨h1, h2, h3, ws ++ front, by simp only [h4, List.append_assoc]⟩
  simp only [valToRing]
  split
  · exact stay _ (by decide)
  rename_i hn
  split
  · exact stay _ (by decide)
  rename_i hsize
  have hslot : ∀ len, InRoom ty a.curarg a.argDataOffset (a.argDataOffset + a.argDataSize)
      (slot a.curarg len) := fun _ => slot_inRoom (by omega)
  split
  · split
    · exact stay _ (by decide)
    · rename_i t _
      rw [u32_of_lt (by omega)]
      refine prepend _ [⟨a.argDataOffset, [v.dynIdx]⟩, slot a.curarg 1]
        (pushArg_sound 1 _ (by omega) (by omega) ?_ (by omega) hw) ?_
      · simp only [nodMaxArgSize]
        omega
      · intro w hw
        rcases List.mem_cons.mp hw with rfl | hw
        · exact Or.inr ⟨Nat.le_refl _, by simp only [Write.stop, List.length_singleton]; omega⟩
        · obtain rfl := List.mem_singleton.mp hw
          exact hslot 1
  · refine prepend _ [slot a.curarg 0]
      (pushArg_sound 0 _ (by omega) (by omega) ?_ (by omega) hw) ?_
    · simp only [nodMaxArgSize]
      omega
    · intro w hw
      obtain rfl := List.mem_singleton.mp hw
      exact hslot 0

/-- Without a `PT_DYN` parameter a call that fails leaves the arguments as they were. -/
theorem valToRing_args_of_failed {ty : EventType} {um : UserMem} {v : Value} {a : RingArgs}
    (hdyn : ∀ i, ((gEventInfo ty).param i).type ≠ .dyn)
    (h : (valToRing ty um v a).res ≠ nodSuccess) : (valToRing ty um v a).args = a := by
  simp only [valToRing, hdyn, false_and, if_false] at h ⊢
  split
  · rfl
  rename_i hn
  split
  · rfl
  rename_i hsize
  simp only [hn, hsize, if_false, pushArg] at h ⊢
  split
  · rfl
  · rename_i heq
    rw [heq] at h
    exact absurd rfl h

/-- An integer argument with room for it. -/
theorem valToRing_scalar {ty : EventType} {um : UserMem} {v : Value} {a : RingArgs} {w : Nat}
    (hn : a.curarg < (gEventInfo ty).nparams)
    (ht : ((gEventInfo ty).param a.curarg).type.width = some w) (hpos : 0 < w)
    (hroom : w ≤ min a.argDataSize nodMaxArgSize) (hw : a.argDataOffset + w < 2 ^ 32) :
    valToRing ty um v a = ⟨nodSuccess, ⟨a.curarg + 1, a.argDataOffset + w, a.argDataSize - w⟩,
      [slot a.curarg 0, ⟨a.argDataOffset, leBytes w v.val.toNat⟩, slot a.curarg w]⟩ := by
  have hdyn : ((gEventInfo ty).param a.curarg).type ≠ .dyn := by
    intro h
    simp [h, ParamType.width] at ht
  have hdata : pushData ((gEventInfo ty).param a.curarg).type um v
      (min a.argDataSize nodMaxArgSize) = .ok (w, [⟨0, leBytes w v.val.toNat⟩]) := by
    rw [pushData_scalar _ _ _ ht, pushScalar, if_pos hroom]
  simp only [valToRing, hdyn, false_and, if_false, pushArg, hdata, u32_of_lt hw]
  rw [if_neg (by omega), if_neg (by omega)]
  simp [Write.shift]

end NoDrop
