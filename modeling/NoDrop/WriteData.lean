import NoDrop.Lib.Words
import NoDrop.SyscallFillers
import NoDrop.Walk

/-! # The data of a write

`f_sys_write` records the user's data up to the snapshot length.  The count is a register of 64
bits and the length that `val_to_ring` takes is one of 32: of a count from `2 ^ 32` on only the
low half counts.  `writeData_iff` says when the data is there all the same.
-/
namespace NoDrop

open Bytes Filler

/-! ## User data that is there -/

/-- The `n` bytes at `addr` can be copied. -/
structure UserMem.Readable (um : UserMem) (addr n : Nat) : Prop where
  access : addr + n ≤ um.limit
  bytes : (um.readable addr n).length = n

section Readable

variable {um : UserMem} {addr n k : Nat}

theorem UserMem.Readable.copy (h : um.Readable addr n) (hk : k ≤ n) :
    um.nodCopyFromUser addr k = (um.readable addr k, 0) := by
  have haccess : um.accessOk addr k = true := by
    have := h.access
    simp only [UserMem.accessOk, decide_eq_true_eq]
    omega
  unfold UserMem.nodCopyFromUser UserMem.copyFromUserInatomic
  rw [if_pos haccess, if_pos (um.readable_length_of_le h.bytes hk)]

theorem UserMem.Readable.mono (h : um.Readable addr n) (hk : k ≤ n) : um.Readable addr k :=
  ⟨Nat.le_trans (Nat.add_le_add_left hk addr) h.access, um.readable_length_of_le h.bytes hk⟩

/-- The rest of what can be copied. -/
theorem UserMem.Readable.drop (h : um.Readable addr n) (hk : k ≤ n) :
    um.Readable (addr + k) (n - k) := by
  have haccess := h.access
  have hsplit := um.readable_add (um.readable_length_of_le h.bytes hk) (n - k)
  rw [Nat.add_sub_cancel' hk] at hsplit
  have hlen := congrArg List.length hsplit
  rw [List.length_append, h.bytes, um.readable_length_of_le h.bytes hk] at hlen
  exact ⟨by omega, by omega⟩

/-- User data that can be read is laid down up to the snapshot length. -/
theorem pushBytebuf_readable {v : Value} {max : Nat} (hval : v.val ≠ 0) (huser : v.fromuser = true)
    (h : um.Readable v.val.toNat (min v.len.toNat snaplen)) (hmax : min v.len.toNat snaplen < max) :
    ∃ ws, pushBytebuf um v max = .ok (min v.len.toNat snaplen, ws) ∧
      ∀ img : Image, (img.writes ws).read 0 (min v.len.toNat snaplen) =
        um.readable v.val.toNat (min v.len.toNat snaplen) := by
  have hsnap : v.snapped max = min v.len.toNat snaplen := by
    unfold Value.snapped
    omega
  have hlook : v.lookahead ≤ min v.len.toNat snaplen := by
    unfold Value.lookahead snaplen
    omega
  have hhead := h.copy hlook
  have htail := (h.drop hlook).copy (Nat.le_refl _)
  unfold pushBytebuf pushUserBytes
  dsimp only
  rw [if_neg hval, if_pos huser, if_neg (by omega), hsnap, hhead, htail, if_neg (not_not.mpr rfl)]
  by_cases hall : v.lookahead = v.len.toNat
  · rw [if_pos hall]
    have hn : min v.len.toNat snaplen = v.len.toNat := by omega
    rw [hn]
    refine ⟨_, rfl, fun img => ?_⟩
    have hself := Image.read_write_self img ⟨0, um.readable v.val.toNat v.lookahead⟩
    rw [hall] at hself ⊢
    simpa [um.readable_length_of_le h.bytes (Nat.le_of_eq hn.symm)] using hself
  · rw [if_neg hall]
    have hmore : v.lookahead < min v.len.toNat snaplen := by
      unfold Value.lookahead snaplen at *
      omega
    rw [if_pos hmore, if_neg (not_not.mpr rfl)]
    refine ⟨_, rfl, fun img => ?_⟩
    have hsplit := um.readable_add (um.readable_length_of_le h.bytes hlook)
      (min v.len.toNat snaplen - v.lookahead)
    rw [Nat.add_sub_cancel' hlook] at hsplit
    have hlen := um.readable_length_of_le h.bytes hlook
    have hjoin : img.writes [⟨0, um.readable v.val.toNat v.lookahead⟩,
        ⟨v.lookahead, um.readable (v.val.toNat + v.lookahead)
          (min v.len.toNat snaplen - v.lookahead)⟩] =
        img.write ⟨0, um.readable v.val.toNat (min v.len.toNat snaplen)⟩ := by
      have happend := Image.write_append img 0 (um.readable v.val.toNat v.lookahead)
        (um.readable (v.val.toNat + v.lookahead) (min v.len.toNat snaplen - v.lookahead))
      rw [hlen, Nat.zero_add, ← hsplit] at happend
      exact happend
    have hself := Image.read_write_self img
      ⟨0, um.readable v.val.toNat (min v.len.toNat snaplen)⟩
    simp only [h.bytes] at hself
    rw [hjoin]
    exact hself

end Readable

/-! ## The record of a write -/

/-- A filler that pushes values one after another is the sequence of the calls. -/
theorem run_pushes_done {ty : EventType} {um : UserMem} {vs : List Value} {a : RingArgs}
    (h : AllSucceed ty (vs.map (um, ·)) a) :
    (pushes vs done : Filler ty).run um a =
      ⟨some nodSuccess, (pushAll ty (vs.map (um, ·)) a).1, (pushAll ty (vs.map (um, ·)) a).2, []⟩ := by
  induction vs generalizing a with
  | nil => rfl
  | cons v vs ih =>
    obtain ⟨hres, hrest⟩ := h
    show (push v (pushes vs done)).run um a = _
    rw [run_push_of_success hres, ih hrest]
    rfl

/-- A filler with one push, if it succeeds, does what the push does. -/
theorem run_pushLast {ty : EventType} {um : UserMem} {v : Value} {a : RingArgs}
    (h : ((pushLast v : Filler ty).run um a).res = some nodSuccess) :
    (valToRing ty um v a).res = nodSuccess ∧ (pushLast v : Filler ty).run um a =
      ⟨some nodSuccess, (valToRing ty um v a).args, (valToRing ty um v a).out, []⟩ := by
  unfold pushLast at h ⊢
  by_cases hres : (valToRing ty um v a).res = nodSuccess
  · refine ⟨hres, ?_⟩
    rw [run_push_of_success hres]
    simp only [run, List.append_nil]
  · rw [run_push_of_failure hres] at h
    exact absurd (Option.some.inj h) hres

/-- Integers for which there is room are pushed. -/
theorem pushAll_of_room {ty : EventType} (um : UserMem) (vs : List Value) {i off room m : Nat}
    (hn : i + vs.length ≤ (gEventInfo ty).nparams) (hm : scalarBytes ty i vs.length = some m)
    (hroom : m ≤ room) (hw : off + room < 2 ^ 32) :
    AllSucceed ty (vs.map (um, ·)) ⟨i, off, room⟩ ∧
      (pushAll ty (vs.map (um, ·)) ⟨i, off, room⟩).1 = ⟨i + vs.length, off + m, room - m⟩ := by
  induction vs generalizing i off room m with
  | nil =>
    obtain rfl := Option.some.inj hm
    exact ⟨trivial, rfl⟩
  | cons v vs ih =>
    rw [List.length_cons] at hn hm ⊢
    obtain ⟨w, m', ht, hm', rfl⟩ := scalarBytes_cons hm
    obtain ⟨hres, hargs⟩ := valToRing_of_room um v (by omega) ht (by omega) hw
    have hpos : i + 1 + vs.length = i + (vs.length + 1) := by omega
    have hrest : AllSucceed ty (vs.map (um, ·)) ⟨i + 1, off + w, room - w⟩ ∧
        (pushAll ty (vs.map (um, ·)) ⟨i + 1, off + w, room - w⟩).1 =
          ⟨i + 1 + vs.length, off + w + m', room - w - m'⟩ :=
      ih (by omega) hm' (by omega) (by omega)
    obtain ⟨hall, hend⟩ := hrest
    rw [hpos, Nat.add_assoc, Nat.sub_sub] at hend
    rw [← hargs] at hall hend
    exact ⟨⟨hres, hall⟩, hend⟩

/-- One more call. -/
theorem allSucceed_concat {ty : EventType} {calls : List (UserMem × Value)} {um : UserMem}
    {v : Value} {a : RingArgs} (h : AllSucceed ty calls a)
    (hres : (valToRing ty um v (pushAll ty calls a).1).res = nodSuccess) :
    AllSucceed ty (calls ++ [(um, v)]) a := by
  induction calls generalizing a with
  | nil => exact ⟨hres, trivial⟩
  | cons call calls ih => exact ⟨h.1, ih h.2 hres⟩

/-- What the last call has appended. -/
theorem appended_concat {ty : EventType} (calls : List (UserMem × Value)) (um : UserMem)
    (v : Value) (a : RingArgs) (img : Image) :
    ∃ img' : Image, (appended ty (calls ++ [(um, v)]) a img)[calls.length]? =
      some ((pushAll ty calls a).1.argDataOffset,
        (img'.writes (valToRing ty um v (pushAll ty calls a).1).out).read
          (pushAll ty calls a).1.argDataOffset
          ((valToRing ty um v (pushAll ty calls a).1).args.argDataOffset -
            (pushAll ty calls a).1.argDataOffset)) := by
  induction calls generalizing a img with
  | nil => exact ⟨img, rfl⟩
  | cons call calls ih => exact ih _ _

/-- The bytes of an argument, without an index byte, are those of its piece. -/
theorem read_piece {ty : EventType} {um : UserMem} {v : Value} {i off room len : Nat}
    {ws : List Write} (hn : i < (gEventInfo ty).nparams)
    (hdyn : ((gEventInfo ty).param i).type ≠ .dyn) (hroom : room ≠ 0)
    (hw : off + room < 2 ^ 32) (hstart : 2 * (gEventInfo ty).nparams ≤ off)
    (hp : pushData ((gEventInfo ty).param i).type um v (min room nodMaxArgSize) =
      .ok (len, ws)) :
    (valToRing ty um v ⟨i, off, room⟩).res = nodSuccess ∧
      (valToRing ty um v ⟨i, off, room⟩).args.argDataOffset = off + len ∧
      ∀ img : Image, ∃ img' : Image,
        (img.writes (valToRing ty um v ⟨i, off, room⟩).out).read off len =
          (img'.writes ws).read 0 len := by
  have ht : argType ty v i = some (((gEventInfo ty).param i).type, 0) := by
    simp only [argType, hdyn, false_and, if_false]
    rw [if_neg (by omega)]
  have hl : argLen ty um v i room = some len := by
    simp only [argLen, hroom, ht, if_false, Nat.sub_zero, hp, Nat.zero_add]
  have hle := argLen_le hl
  obtain ⟨t, pre, p, ht', -, hp', hlen, hout⟩ := valToRing_out hw hl
  rw [ht] at ht'
  cases ht'
  rw [Nat.sub_zero, hp] at hp'
  cases hp'
  have hcall := valToRing_of_len (a := ⟨i, off, room⟩) hl
  have hslot : ∀ x ∈ [slot i len], ∀ k < len, ¬x.Touches (off + k) := by
    intro x hx k hk
    obtain rfl := List.mem_singleton.mp hx
    simp only [Write.Touches, slot, Write.stop, leBytes_length]
    omega
  refine ⟨hcall.1, ?_, fun img => ?_⟩
  · rw [hcall.2]
    exact u32_of_lt (by simp only; omega)
  · refine ⟨fun k => (img.writes (indexStores ⟨i, off, room⟩ v 0)) (off + k), ?_⟩
    rw [hout, Image.writes_append, Image.writes_append, Image.read_writes_of_untouched hslot,
      Nat.add_zero]
    refine Image.read_congr fun k _ => ?_
    rw [Image.writes_shift, Nat.zero_add]

/-- User data as `f_sys_write` pushes it. -/
def userData (buf : UInt64) (len : UInt32) : Value := { val := buf, len := len, fromuser := true }

/-- The data of a write, as it is recorded. -/
def recordedData (um : UserMem) (buf : UInt64) (len : UInt32) : List UInt8 :=
  if buf = 0 then [] else um.readable buf.toNat (min len.toNat snaplen)

/-- The push of the data. -/
theorem read_data {ty : EventType} {um : UserMem} {buf : UInt64} {len : UInt32}
    {i off room : Nat} (hn : i < (gEventInfo ty).nparams)
    (ht : ((gEventInfo ty).param i).type = .bytebuf) (hw : off + room < 2 ^ 32)
    (hstart : 2 * (gEventInfo ty).nparams ≤ off)
    (hread : um.Readable buf.toNat (min len.toNat snaplen))
    (hroom : min len.toNat snaplen < room) :
    (valToRing ty um (userData buf len) ⟨i, off, room⟩).res = nodSuccess ∧
      ∀ img : Image, (img.writes (valToRing ty um (userData buf len) ⟨i, off, room⟩).out).read off
        ((valToRing ty um (userData buf len) ⟨i, off, room⟩).args.argDataOffset - off) =
          recordedData um buf len := by
  have hdyn : ((gEventInfo ty).param i).type ≠ .dyn := by
    rw [ht]
    decide
  have hmax : min len.toNat snaplen < min room nodMaxArgSize := by
    unfold nodMaxArgSize snaplen at *
    omega
  obtain ⟨n, ws, hp, hbytes⟩ : ∃ n ws,
      pushData ((gEventInfo ty).param i).type um (userData buf len)
        (min room nodMaxArgSize) = .ok (n, ws) ∧
      ∀ img : Image, (img.writes ws).read 0 n = recordedData um buf len := by
    rw [ht]
    unfold recordedData
    by_cases hval : buf = 0
    · rw [if_pos hval]
      exact ⟨0, [], if_pos hval, fun img => rfl⟩
    · rw [if_neg hval]
      obtain ⟨ws, hp, hbytes⟩ := pushBytebuf_readable
        (v := (userData buf len)) hval rfl hread hmax
      exact ⟨_, ws, hp, hbytes⟩
  obtain ⟨hres, hend, hpiece⟩ := read_piece hn hdyn (by omega) hw hstart hp
  refine ⟨hres, fun img => ?_⟩
  obtain ⟨img', hpiece⟩ := hpiece img
  rw [hend, Nat.add_sub_cancel_left, hpiece]
  exact hbytes img'

theorem Value.kread_self {v : Value} : v.kread v.mem.length = v.mem := by
  refine List.ext_getElem? fun i => ?_
  by_cases hi : i < v.mem.length
  · simp [Value.kread, hi]
  · rw [List.getElem?_eq_none (by simpa [Value.kread] using hi),
      List.getElem?_eq_none (Nat.not_lt.mp hi)]

/-- A list or an address that lies in kernel memory is recorded as it is, or not at all. -/
theorem read_kernel {ty : EventType} {um : UserMem} {v : Value} {i off room : Nat}
    (ht : ∀ max, pushData ((gEventInfo ty).param i).type um v max = pushSockaddr um v max)
    (hdyn : ((gEventInfo ty).param i).type ≠ .dyn) (hw : off + room < 2 ^ 32)
    (hstart : 2 * (gEventInfo ty).nparams ≤ off) (hval : v.val ≠ 0) (huser : v.fromuser = false)
    (hmem : v.len.toNat = v.mem.length)
    (hres : (valToRing ty um v ⟨i, off, room⟩).res = nodSuccess) (img : Image) :
    (img.writes (valToRing ty um v ⟨i, off, room⟩).out).read off
      ((valToRing ty um v ⟨i, off, room⟩).args.argDataOffset - off) = v.mem := by
  have hlen : (argLen ty um v i room).isSome := by
    cases hl : argLen ty um v i room with
    | none => exact absurd hres (valToRing_of_no_len (a := ⟨i, off, room⟩) hl).1
    | some n => rfl
  obtain ⟨n, hn⟩ := Option.isSome_iff_exists.mp hlen
  obtain ⟨hroom, t, pre, p, htype, hp, rfl⟩ := argLen_eq_some hn
  have hcur := (argType_cases htype).1
  have hplain : argType ty v i = some (((gEventInfo ty).param i).type, 0) := by
    simp only [argType, hdyn, false_and, if_false]
    rw [if_neg (by omega)]
  rw [hplain] at htype
  cases htype
  rw [ht, Nat.sub_zero] at hp
  have hp' : pushSockaddr um v (min room nodMaxArgSize) =
      .ok (v.mem.length, [⟨0, v.mem⟩]) := by
    simp only [pushSockaddr, hval, huser, if_false, Bool.false_eq_true] at hp ⊢
    split at hp
    · cases hp
    · rename_i hfits
      rw [if_neg hfits, hmem, Value.kread_self]
  obtain ⟨-, hend, hpiece⟩ := read_piece hcur hdyn hroom hw hstart ((ht _).trans hp')
  obtain ⟨img', hpiece⟩ := hpiece img
  rw [hend, Nat.add_sub_cancel_left, hpiece]
  exact Image.read_write_self img' ⟨0, v.mem⟩

section Write

variable {ev : Event} {size : Nat}

theorem pushAll_curarg {ty : EventType} {calls : List (UserMem × Value)} {a : RingArgs}
    (h : AllSucceed ty calls a) : (pushAll ty calls a).1.curarg = a.curarg + calls.length := by
  induction calls generalizing a with
  | nil => rfl
  | cons call calls ih =>
    have hrest : (pushAll ty calls (valToRing ty call.1 call.2 a).args).1.curarg = _ := ih h.2
    have hcur := valToRing_curarg_of_success h.1
    show (pushAll ty calls (valToRing ty call.1 call.2 a).args).1.curarg = _
    rw [hrest, hcur, List.length_cons]
    omega

/-- An event whose filler pushes values one after another leaves their record. -/
theorem Event.attempt_of_pushes {values : List Value} (hfiller : ev.filler = pushes values done)
    (hcount : values.length = ev.nargs) (hstart : 2 * ev.nargs ≤ size) (hsize : size < 2 ^ 32)
    (hok : AllSucceed ev.type (values.map (ev.um, ·)) (freshArgs ev.type size)) :
    ev.Succeeds (ev.attempt size (2 * ev.nargs)) ∧
      ∀ img, ev.imageOf (ev.attempt size (2 * ev.nargs)) img =
        ev.closed (values.map (ev.um, ·)) size img := by
  have hattempt : ev.attempt size (2 * ev.nargs) =
      (pushes values done : Filler ev.type).run ev.um (freshArgs ev.type size) := by
    have hsub : (size + 2 ^ 32 - 2 * ev.nargs) % 2 ^ 32 = size - 2 * ev.nargs :=
      argDataSize_eq hstart hsize
    rw [Event.attempt, hsub, hfiller]
    rfl
  have hcur := pushAll_curarg hok
  rw [List.length_map, hcount] at hcur
  rw [hattempt, run_pushes_done hok]
  exact ⟨⟨rfl, hcur.trans (Nat.zero_add _)⟩, fun img => rfl⟩

/-- The bytes that a reader finds for argument `j` of the record of an attempt in `size` bytes,
if the memory was `img`. -/
def Event.found (ev : Event) (size j : Nat) (img : Image) : Option (List UInt8) :=
  (decoded (ev.imageOf (ev.attempt size (2 * ev.nargs)) img) ev.type)[j]?.map Prod.snd

/-- An event whose last argument is user data that can be read, behind integers. -/
theorem Event.found_data (ev : Event) (vs : List Value) {buf : UInt64} {len : UInt32} {m : Nat}
    (hfiller : ev.filler = pushes (vs ++ [userData buf len]) done)
    (hcount : vs.length + 1 = ev.nargs) (hm : scalarBytes ev.type 0 vs.length = some m)
    (ht : ((gEventInfo ev.type).param vs.length).type = .bytebuf)
    (hsize : hdrSize + size < 2 ^ 32) (hread : ev.um.Readable buf.toNat (min len.toNat snaplen))
    (hroom : 2 * ev.nargs + m + min len.toNat snaplen < size) :
    ev.Succeeds (ev.attempt size (2 * ev.nargs)) ∧
      ∀ img, ev.found size vs.length img = some (recordedData ev.um buf len) := by
  have hnargs : (gEventInfo ev.type).nparams = ev.nargs := rfl
  obtain ⟨hall, hend⟩ : AllSucceed ev.type (vs.map (ev.um, ·)) (freshArgs ev.type size) ∧
      (pushAll ev.type (vs.map (ev.um, ·)) (freshArgs ev.type size)).1 =
        ⟨0 + vs.length, 2 * ev.nargs + m, size - 2 * ev.nargs - m⟩ :=
    pushAll_of_room ev.um vs (by omega) hm (by omega) (by omega)
  rw [Nat.zero_add] at hend
  obtain ⟨hres, hbytes⟩ := read_data (show vs.length < (gEventInfo ev.type).nparams by omega) ht
    (show 2 * ev.nargs + m + (size - 2 * ev.nargs - m) < 2 ^ 32 by omega)
    (show 2 * (gEventInfo ev.type).nparams ≤ 2 * ev.nargs + m by omega) hread (by omega)
  have hcalls : AllSucceed ev.type ((vs ++ [userData buf len]).map (ev.um, ·))
      (freshArgs ev.type size) := by
    rw [List.map_append]
    refine allSucceed_concat hall ?_
    rw [hend]
    exact hres
  have hlen : (vs ++ [userData buf len]).length = ev.nargs := by
    rw [List.length_append, List.length_singleton, hcount]
  obtain ⟨hs, himage⟩ := ev.attempt_of_pushes hfiller hlen (by omega) (by omega) hcalls
  refine ⟨hs, fun img => ?_⟩
  rw [Event.found, himage img, decoded_closed (by omega) (by omega)
    ((List.length_map _).trans hlen) hcalls img, List.map_append]
  obtain ⟨img', hlast⟩ := appended_concat (vs.map (ev.um, ·)) ev.um (userData buf len)
    (freshArgs ev.type size) (ev.body img)
  rw [List.length_map, hend, hbytes img'] at hlast
  rw [List.getElem?_map]
  show Option.map Prod.snd (Option.map _ (appended _ (_ ++ [(ev.um, userData buf len)]) _ _)[_]?) = _
  rw [hlast]
  rfl

end Write

/-- The event of a system call, as the thread `tid` records it on `cpuid` at `ts`. -/
def Syscall.recordedBy (s : Syscall) (ty : EventType) (force : Bool) (ts : UInt64) (tid : UInt32)
    (cpuid : UInt16) : Event :=
  { s.event ty force with ts := ts, tid := tid, cpuid := cpuid }

/-- The bytes of the arguments of a write other than the data. -/
def otherBytes : EventType → Nat
  | .syscallPwrite => 28
  | _ => 20

/-- The data that should be there: the first `min(count, snaplen)` bytes of the buffer. -/
def Syscall.firstBytes (s : Syscall) : List UInt8 :=
  s.um.readable (s.arg 1).toNat (min (s.arg 2).toNat snaplen)

/-- The recording of a write succeeds, and what a reader finds for the data argument are the
first bytes of the user's buffer. -/
def WriteRecorded (s : Syscall) (ev : Event) (size : Nat) : Prop :=
  ev.Succeeds (ev.attempt size (2 * ev.nargs)) ∧
    ∀ img, ev.found size (ev.nargs - 1) img = some s.firstBytes

theorem low_le (count : UInt64) : count.toUInt32.toNat ≤ count.toNat := by
  rw [UInt64.toNat_toUInt32]
  exact Nat.mod_le _ _

/-- What is recorded, by the low half of the count. -/
theorem recordedBy_found (s : Syscall) {ty : EventType} (force : Bool) (ts : UInt64)
    (tid : UInt32) (cpuid : UInt16) {size : Nat} (hty : ty = .syscallWrite ∨ ty = .syscallPwrite)
    (hsize : hdrSize + size < 2 ^ 32)
    (hread : s.um.Readable (s.arg 1).toNat (min (s.arg 2).toNat snaplen))
    (hroom : 2 * (gEventInfo ty).nparams + otherBytes ty + min (s.arg 2).toNat snaplen < size) :
    let ev := s.recordedBy ty force ts tid cpuid
    ev.Succeeds (ev.attempt size (2 * ev.nargs)) ∧ ∀ img, ev.found size (ev.nargs - 1) img =
      some (recordedData s.um (s.arg 1) (s.arg 2).toUInt32) := by
  have hlow := low_le (s.arg 2)
  have hread' := hread.mono (show min (s.arg 2).toUInt32.toNat snaplen ≤ _ by omega)
  rcases hty with rfl | rfl
  · have hroom' : 2 * (gEventInfo .syscallWrite).nparams + 20 +
        min (s.arg 2).toUInt32.toNat snaplen < size := by
      simp only [otherBytes] at hroom
      omega
    exact (s.recordedBy .syscallWrite force ts tid cpuid).found_data
      [(AutofillArg.arg 0).value s, (AutofillArg.arg 2).value s, .imm s.ret]
      rfl rfl rfl rfl hsize hread' hroom'
  · have hroom' : 2 * (gEventInfo .syscallPwrite).nparams + 28 +
        min (s.arg 2).toUInt32.toNat snaplen < size := by
      simp only [otherBytes] at hroom
      omega
    exact (s.recordedBy .syscallPwrite force ts tid cpuid).found_data
      [.imm (s.arg 0), .imm (s.arg 2), .imm (pos64 s), .imm s.ret]
      rfl rfl rfl rfl hsize hread' hroom'

/-- The low half of a count gives as much as the count, up to the snapshot length. -/
theorem snapped_low_iff (count : UInt64) :
    min count.toUInt32.toNat snaplen = min count.toNat snaplen ↔
      count.toNat < 2 ^ 32 ∨ snaplen ≤ count.toNat % 2 ^ 32 := by
  rw [UInt64.toNat_toUInt32]
  unfold snaplen
  omega

/-- **The data of a write** is recorded as far as the snapshot length exactly if the buffer is
not at address zero, or nothing is written, and the low half of the count, which is all that
`val_to_ring` is told, does not cut it short. -/
theorem writeData_iff (s : Syscall) {ty : EventType} (force : Bool) (ts : UInt64) (tid : UInt32)
    (cpuid : UInt16) {size : Nat} (hty : ty = .syscallWrite ∨ ty = .syscallPwrite)
    (hsize : hdrSize + size < 2 ^ 32)
    (hread : s.um.Readable (s.arg 1).toNat (min (s.arg 2).toNat snaplen))
    (hroom : 2 * (gEventInfo ty).nparams + otherBytes ty + min (s.arg 2).toNat snaplen < size) :
    WriteRecorded s (s.recordedBy ty force ts tid cpuid) size ↔
      (s.arg 1 ≠ 0 ∨ s.arg 2 = 0) ∧
        ((s.arg 2).toNat < 2 ^ 32 ∨ snaplen ≤ (s.arg 2).toNat % 2 ^ 32) := by
  obtain ⟨hs, hfound⟩ := recordedBy_found s force ts tid cpuid hty hsize hread hroom
  have hlow := snapped_low_iff (s.arg 2)
  have hlen : s.firstBytes.length = min (s.arg 2).toNat snaplen := hread.bytes
  constructor
  · rintro ⟨-, h⟩
    have hdata : recordedData s.um (s.arg 1) (s.arg 2).toUInt32 = s.firstBytes :=
      Option.some.inj ((hfound fun _ => 0).symm.trans (h fun _ => 0))
    by_cases hbuf : s.arg 1 = 0
    · rw [recordedData, if_pos hbuf] at hdata
      rw [← hdata] at hlen
      have hzero : (s.arg 2).toNat = 0 := by
        unfold snaplen at hlen
        simp only [List.length_nil] at hlen
        omega
      exact ⟨.inr (UInt64.toNat.inj hzero), .inl (by omega)⟩
    · rw [recordedData, if_neg hbuf] at hdata
      have hle := low_le (s.arg 2)
      have hshort := (hread.mono (show min (s.arg 2).toUInt32.toNat snaplen ≤ _ by omega)).bytes
      rw [hdata, hlen] at hshort
      exact ⟨.inl hbuf, hlow.mp hshort.symm⟩
  · rintro ⟨hbuf, hcount⟩
    refine ⟨hs, fun img => ?_⟩
    rw [hfound img, recordedData, hlow.mpr hcount]
    congr 1
    by_cases h : s.arg 1 = 0
    · have hzero : s.arg 2 = 0 := hbuf.resolve_left (not_not.mpr h)
      rw [if_pos h, Syscall.firstBytes, hzero]
      rfl
    · rw [if_neg h]
      rfl

/-- `write(1, buf, count)` with result `count`, from memory in which 80 bytes are readable. -/
def writeCall (count : UInt64) : Syscall where
  arg i := if i = 0 then 1 else if i = 1 then 0x1000 else if i = 2 then count else 0
  ret := count
  nr := 1
  um := shortMem 80
  strStorage := 0xffff888000000000

theorem writeCall_readable (count : UInt64) :
    (writeCall count).um.Readable ((writeCall count).arg 1).toNat (min count.toNat snaplen) := by
  have hall : (shortMem 80).Readable 0x1000 snaplen := ⟨by decide, by decide +kernel⟩
  exact hall.mono (Nat.min_le_right ..)

theorem writeData_iff_forty :
    WriteRecorded (writeCall 40) ((writeCall 40).recordedBy .syscallWrite false 0 1 0) 200 :=
  (writeData_iff (writeCall 40) false 0 1 0 (.inl rfl) (by decide) (writeCall_readable 40)
    (by decide)).mpr ⟨.inl (by decide), .inl (by decide)⟩

/-- **A write of 4 GiB**: the recording succeeds, the data is there to be read, and none of it is
recorded. -/
theorem writeData_four_gib :
    (writeCall 0x100000000).um.Readable 0x1000 snaplen ∧
      ¬WriteRecorded (writeCall 0x100000000)
        ((writeCall 0x100000000).recordedBy .syscallWrite false 0 1 0) 200 := by
  have hread := writeCall_readable 0x100000000
  refine ⟨hread, fun h => ?_⟩
  have hfound := (recordedBy_found (writeCall 0x100000000) false 0 1 0 (.inl rfl)
    (show hdrSize + 200 < 2 ^ 32 by decide) hread (by decide)).2 fun _ => 0
  have hdata := Option.some.inj (hfound.symm.trans (h.2 fun _ => 0))
  exact absurd hdata (by decide +kernel)

end NoDrop
