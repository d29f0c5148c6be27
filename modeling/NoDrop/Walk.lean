import NoDrop.Decode
import NoDrop.Encoder
import NoDrop.Events

/-! # Walking over the arguments

The readers of the monitor know the parameter table and the record, nothing of how it was made.
They take the array of lengths behind the header, start right after it and go from argument to
argument by the lengths (`push_arg_as_string` and `get_whole_event` of
`monitor/src/lua_field.c`).  `walk_encoded` says that they come by what each call of
`val_to_ring` has appended, and end where the record ends.
-/
namespace NoDrop

open Bytes

/-! ## The walk -/

/-- `args[i]` of the record at the front of an image. -/
def lenAt (img : Image) (i : Nat) : Nat := leNat (img.read (hdrSize + 2 * i) 2)

/-- The loop of the readers over `n` arguments from number `i` on: where the bytes of each are
and how many, and where `data` points in the end. -/
def walkFrom (img : Image) : Nat → Nat → Nat → List (Nat × Nat) × Nat
  | 0, _, data => ([], data)
  | n + 1, i, data =>
    let rest := walkFrom img n (i + 1) (data + lenAt img i)
    ((data, lenAt img i) :: rest.1, rest.2)

/-- The walk over the record at the front of an image, of an event of type `ty`. -/
def walk (img : Image) (ty : EventType) : List (Nat × Nat) × Nat :=
  walkFrom img (gEventInfo ty).nparams 0 (hdrSize + 2 * (gEventInfo ty).nparams)

/-! ## A sequence of calls -/

/-- What the calls of `val_to_ring` with these values leave: the arguments after each of them,
and the stores of all. -/
def pushAll (ty : EventType) : List (UserMem × Value) → RingArgs → RingArgs × List Write
  | [], a => (a, [])
  | (um, v) :: calls, a =>
    let rest := pushAll ty calls (valToRing ty um v a).args
    (rest.1, (valToRing ty um v a).out ++ rest.2)

/-- The arguments before the first call, in `size` bytes for lengths and arguments. -/
def freshArgs (ty : EventType) (size : Nat) : RingArgs :=
  ⟨0, 2 * (gEventInfo ty).nparams, size - 2 * (gEventInfo ty).nparams⟩

/-- The memory at the header's address once the record of the calls is closed. -/
def Event.closed (ev : Event) (calls : List (UserMem × Value)) (size : Nat) (img : Image) : Image :=
  let made := pushAll ev.type calls (freshArgs ev.type size)
  ev.imageOf ⟨some nodSuccess, made.1, made.2, []⟩ img

/-- All of them succeed. -/
def AllSucceed (ty : EventType) : List (UserMem × Value) → RingArgs → Prop
  | [], _ => True
  | (um, v) :: calls, a =>
    (valToRing ty um v a).res = nodSuccess ∧ AllSucceed ty calls (valToRing ty um v a).args

/-- What each call has appended, where and which bytes, if the memory was `img` before the first
one. -/
def appended (ty : EventType) : List (UserMem × Value) → RingArgs → Image →
    List (Nat × List UInt8)
  | [], _, _ => []
  | (um, v) :: calls, a, img =>
    let p := valToRing ty um v a
    (a.argDataOffset,
        (img.writes p.out).read a.argDataOffset (p.args.argDataOffset - a.argDataOffset)) ::
      appended ty calls p.args (img.writes p.out)

/-- What the walk comes by: where, and which bytes. -/
def decoded (img : Image) (ty : EventType) : List (Nat × List UInt8) :=
  (walk img ty).1.map fun x => (x.1, img.read x.1 x.2)

/-- The number of bytes that `evt_arg_to_string` reads of an integer. -/
def ParamType.readWidth : ParamType → Option Nat
  | .flags8 | .uint8 | .sigtype => some 1
  | .flags16 | .uint16 | .syscallid => some 2
  | .flags32 | .uint32 | .mode | .uid | .gid | .sigset => some 4
  | .reltime | .abstime | .uint64 => some 8
  | .int8 => some 1
  | .int16 => some 2
  | .int32 => some 4
  | .int64 | .errno | .fd | .pid => some 8
  | _ => Option.none

/-- The readers take an integer for as wide as the encoder makes it. -/
theorem ParamType.readWidth_eq (t : ParamType) : t.readWidth = t.width := by
  cases t <;> rfl

/-! ## One call -/

section Call

variable {ty : EventType} {um : UserMem} {v : Value} {a : RingArgs} {bufferSize : Nat}

/-- The next call finds the arguments as it needs them. -/
theorem RingArgs.Ready.next (h : a.Ready ty bufferSize) (um : UserMem) (v : Value) :
    (valToRing ty um v a).args.Ready ty bufferSize := by
  have hsound := valToRing_sound ty um v (show a.argDataOffset + a.argDataSize < 2 ^ 32 from
    h.size ▸ h.lt)
  exact ⟨Nat.le_trans h.start hsound.offset_le, hsound.room.trans h.size, h.lt⟩

/-- An integer is laid down as its bytes. -/
theorem read_scalar (h : a.Ready ty bufferSize) (hres : (valToRing ty um v a).res = nodSuccess)
    {w : Nat} (hw : ((gEventInfo ty).param a.curarg).type.width = some w) (img : Image) :
    (img.writes (valToRing ty um v a).out).read a.argDataOffset
      ((valToRing ty um v a).args.argDataOffset - a.argDataOffset) = leBytes w v.val.toNat := by
  have hlt : a.argDataOffset + a.argDataSize < 2 ^ 32 := h.size ▸ h.lt
  cases hl : argLen ty um v a.curarg a.argDataSize with
  | none => exact absurd hres (valToRing_of_no_len hl).1
  | some n =>
    have hle := argLen_le hl
    have hstart := h.start
    obtain ⟨-, t, pre, p, ht, -, -⟩ := argLen_eq_some hl
    have hn := (argType_cases ht).1
    have hend : (valToRing ty um v a).args.argDataOffset - a.argDataOffset = n := by
      rw [(valToRing_of_len hl).2]
      simp only
      rw [u32_of_lt (by omega)]
      omega
    have hbuf : ((gEventInfo ty).param a.curarg).type ≠ .bytebuf := by
      intro hb
      rw [hb] at hw
      cases hw
    have hdyn : ((gEventInfo ty).param a.curarg).type ≠ .dyn := by
      intro hd
      rw [hd] at hw
      cases hw
    rw [hend]
    exact (laidDown_read hlt (by omega) hl hbuf hdyn img).scalar hw

end Call

/-! ## All calls -/

section Calls

variable {ty : EventType} {bufferSize : Nat}

/-- The arguments after the calls. -/
theorem pushAll_ready (calls : List (UserMem × Value)) {a : RingArgs} (h : a.Ready ty bufferSize) :
    (pushAll ty calls a).1.Ready ty bufferSize := by
  induction calls generalizing a with
  | nil => exact h
  | cons call calls ih => exact ih (h.next call.1 call.2)

/-- The stores of the calls go to lengths from `curarg` on, and to their room. -/
theorem pushAll_stores {calls : List (UserMem × Value)} {a : RingArgs} (h : a.Ready ty bufferSize)
    (hok : AllSucceed ty calls a) :
    ∀ w ∈ (pushAll ty calls a).2, InRoom ty a.curarg a.argDataOffset bufferSize w := by
  induction calls generalizing a with
  | nil => exact fun w hw => by cases hw
  | cons call calls ih =>
    obtain ⟨um, v⟩ := call
    obtain ⟨hres, hrest⟩ := hok
    have hsound := valToRing_sound ty um v (show a.argDataOffset + a.argDataSize < 2 ^ 32 from
      h.size ▸ h.lt)
    intro w hw
    rcases List.mem_append.mp hw with hw | hw
    · rw [← h.size]
      exact hsound.stores w hw
    · have hcur := (hsound.succeeded hres).2.1
      exact (ih (h.next um v) hrest w hw).mono (by omega) hsound.offset_le

/-- What the walk over the rest of the arguments comes by.  `record` is the finished record, with
the memory behind its header as the calls have left it. -/
theorem walkFrom_eq {calls : List (UserMem × Value)} {a : RingArgs} {img record : Image}
    (h : a.Ready ty bufferSize) (hok : AllSucceed ty calls a)
    (hrecord : ∀ off n, record.read (hdrSize + off) n =
      (img.writes (pushAll ty calls a).2).read off n) :
    walkFrom record calls.length a.curarg (hdrSize + a.argDataOffset) =
        ((appended ty calls a img).map fun x => (hdrSize + x.1, x.2.length),
          hdrSize + (pushAll ty calls a).1.argDataOffset) ∧
      ∀ x ∈ appended ty calls a img, record.read (hdrSize + x.1) x.2.length = x.2 := by
  induction calls generalizing a img with
  | nil => exact ⟨rfl, fun x hx => by cases hx⟩
  | cons call calls ih =>
    obtain ⟨um, v⟩ := call
    obtain ⟨hres, hrest⟩ := hok
    have hsound := valToRing_sound ty um v (show a.argDataOffset + a.argDataSize < 2 ^ 32 from
      h.size ▸ h.lt)
    have hbooks := valToRing_keepsBooks ty um v h
    obtain ⟨hn, hcur, -, -⟩ := hsound.succeeded hres
    have hle := hsound.offset_le
    have hstart := h.start
    have hlater := pushAll_stores (h.next um v) hrest
    have happ : ∀ off n, record.read (hdrSize + off) n =
        ((img.writes (valToRing ty um v a).out).writes
          (pushAll ty calls (valToRing ty um v a).args).2).read off n := by
      intro off n
      rw [hrecord]
      exact congrArg (fun m : Image => m.read off n) (Image.writes_append ..)
    -- later calls leave the length and the bytes of this one alone
    have hlen : lenAt record a.curarg =
        (valToRing ty um v a).args.argDataOffset - a.argDataOffset := by
      have hkeep := hbooks.length hres img
      have hread : record.read (hdrSize + 2 * a.curarg) 2 =
          (img.writes (valToRing ty um v a).out).read (2 * a.curarg) 2 := by
        rw [happ]
        refine Image.read_writes_of_untouched fun w hw k hk => ?_
        exact (hlater w hw).not_touches_slot (by omega) (by omega) hk
      rw [lenAt, hread]
      omega
    have hbytes : record.read (hdrSize + a.argDataOffset)
        ((valToRing ty um v a).args.argDataOffset - a.argDataOffset) =
        (img.writes (valToRing ty um v a).out).read a.argDataOffset
          ((valToRing ty um v a).args.argDataOffset - a.argDataOffset) := by
      rw [happ]
      refine Image.read_writes_of_untouched fun w hw k hk => ?_
      rcases hlater w hw with ⟨j, len, -, hj, rfl⟩ | ⟨hlo, -⟩
      · simp only [Write.Touches, slot, Write.stop, leBytes_length]
        omega
      · simp only [Write.Touches]
        omega
    obtain ⟨hwalk, hread⟩ := ih (h.next um v) hrest happ
    have hnext : hdrSize + a.argDataOffset +
        ((valToRing ty um v a).args.argDataOffset - a.argDataOffset) =
        hdrSize + (valToRing ty um v a).args.argDataOffset := by omega
    refine ⟨?_, fun x hx => ?_⟩
    · rw [List.length_cons, walkFrom, hlen, hnext, ← hcur, hwalk]
      simp only [appended, List.map_cons, Image.read_length]
      rfl
    · rcases List.mem_cons.mp hx with rfl | hx
      · simp only [Image.read_length]
        exact hbytes
      · exact hread x hx

/-- What an integer argument is laid down as. -/
theorem appended_scalar {calls : List (UserMem × Value)} {a : RingArgs} (img : Image)
    (h : a.Ready ty bufferSize) (hok : AllSucceed ty calls a) {i w : Nat} {um : UserMem}
    {v : Value} (hi : calls[i]? = some (um, v))
    (hw : ((gEventInfo ty).param (a.curarg + i)).type.width = some w) :
    ∃ off, (appended ty calls a img)[i]? = some (off, leBytes w v.val.toNat) := by
  induction calls generalizing a img i with
  | nil => cases hi
  | cons call calls ih =>
    obtain ⟨um', v'⟩ := call
    obtain ⟨hres, hrest⟩ := hok
    cases i with
    | zero =>
      cases hi
      exact ⟨a.argDataOffset, congrArg (fun bs => some (a.argDataOffset, bs))
        (read_scalar h hres hw img)⟩
    | succ i =>
      have hcur := ((valToRing_sound ty um' v' (show a.argDataOffset + a.argDataSize < 2 ^ 32 from
        h.size ▸ h.lt)).succeeded hres).2.1
      have hnext : a.curarg + (i + 1) = (valToRing ty um' v' a).args.curarg + i := by omega
      rw [hnext] at hw
      exact ih _ (h.next um' v') hrest hi hw

end Calls

/-! ## The record -/

section Record

variable {ev : Event} {size : Nat} {calls : List (UserMem × Value)}

/-- The memory behind the header, before the first call. -/
def Event.body (ev : Event) (img : Image) : Image := fun j => (img.writes ev.header) (hdrSize + j)

theorem freshArgs_ready (hstart : 2 * ev.nargs ≤ size) (hsize : size < 2 ^ 32) :
    (freshArgs ev.type size).Ready ev.type size :=
  ⟨Nat.le_refl _, Nat.add_sub_cancel' hstart, hsize⟩

/-- The walk over a closed record. -/
theorem walk_closed (hstart : 2 * ev.nargs ≤ size) (hsize : size < 2 ^ 32)
    (hcount : calls.length = ev.nargs)
    (hok : AllSucceed ev.type calls (freshArgs ev.type size)) (img : Image) :
    walk (ev.closed calls size img) ev.type =
        ((appended ev.type calls (freshArgs ev.type size) (ev.body img)).map
            fun x => (hdrSize + x.1, x.2.length),
          hdrSize + (pushAll ev.type calls (freshArgs ev.type size)).1.argDataOffset) ∧
      ∀ x ∈ appended ev.type calls (freshArgs ev.type size) (ev.body img),
        (ev.closed calls size img).read (hdrSize + x.1) x.2.length = x.2 := by
  have hbody : ∀ off n, (ev.closed calls size img).read (hdrSize + off) n =
      ((ev.body img).writes (pushAll ev.type calls (freshArgs ev.type size)).2).read off n :=
    Event.read_imageOf _ img
  obtain ⟨hwalk, hread⟩ := walkFrom_eq (freshArgs_ready hstart hsize) hok hbody
  rw [hcount] at hwalk
  exact ⟨hwalk, hread⟩

theorem decoded_closed (hstart : 2 * ev.nargs ≤ size) (hsize : size < 2 ^ 32)
    (hcount : calls.length = ev.nargs)
    (hok : AllSucceed ev.type calls (freshArgs ev.type size)) (img : Image) :
    decoded (ev.closed calls size img) ev.type =
      (appended ev.type calls (freshArgs ev.type size) (ev.body img)).map
        fun x => (hdrSize + x.1, x.2) := by
  obtain ⟨hwalk, hread⟩ := walk_closed hstart hsize hcount hok img
  rw [decoded, hwalk]
  dsimp only
  rw [List.map_map]
  refine List.map_congr_left fun x hx => ?_
  exact congrArg (Prod.mk (hdrSize + x.1)) (hread x hx)

/-- **The arguments decode to what was encoded.**  The walk comes by what each call has appended,
reads the integers as the values pushed, truncated to their width, and ends where the record
ends. -/
theorem walk_encoded (ev : Event) {size : Nat} {calls : List (UserMem × Value)}
    (hstart : 2 * ev.nargs ≤ size) (hsize : hdrSize + size < 2 ^ 32)
    (hcount : calls.length = ev.nargs)
    (hok : AllSucceed ev.type calls (freshArgs ev.type size)) (img : Image) :
    let record := ev.closed calls size img
    decoded record ev.type = (appended ev.type calls (freshArgs ev.type size)
      (ev.body img)).map (fun x => (hdrSize + x.1, x.2)) ∧
    (∀ i um v w, calls[i]? = some (um, v) →
      ((gEventInfo ev.type).param i).type.readWidth = some w →
      ∃ data, (walk record ev.type).1[i]? = some (data, w) ∧
        leNat (record.read data w) = v.val.toNat % 256 ^ w) ∧
    (walk record ev.type).2 = hdrLen record := by
  dsimp only
  have hlt : size < 2 ^ 32 := Nat.lt_of_le_of_lt (Nat.le_add_left ..) hsize
  have hready := freshArgs_ready hstart hlt
  obtain ⟨hwalk, hread⟩ := walk_closed hstart hlt hcount hok img
  refine ⟨decoded_closed hstart hlt hcount hok img, ?_, ?_⟩
  · intro i um v w hi hw
    rw [ParamType.readWidth_eq] at hw
    obtain ⟨off, hoff⟩ := appended_scalar (ev.body img) hready hok hi
      (by rw [show (freshArgs ev.type size).curarg + i = i from Nat.zero_add i]; exact hw)
    have hbytes := hread _ (List.mem_of_getElem? hoff)
    simp only [leBytes_length] at hbytes
    refine ⟨hdrSize + off, ?_, ?_⟩
    · rw [hwalk]
      simp only [List.getElem?_map, hoff, Option.map_some, leBytes_length]
    · rw [hbytes, leNat_leBytes]
  · have hend := (pushAll_ready calls hready).size
    have hbound : (256 : Nat) ^ 4 = 2 ^ 32 := by decide
    rw [hwalk, hdrLen, Event.closed, Event.read_imageOf_len, leNat_leBytes_of_lt]
    rw [hbound]
    dsimp only
    omega

end Record

/-- `close(3)` with result 0. -/
def closeCalls : List (UserMem × Value) :=
  [(closeEvent.um, { val := 3, fromuser := true }), (closeEvent.um, { val := 0 })]

theorem walk_encoded_close :
    (∃ data, (walk (closeEvent.closed closeCalls 100 fun _ => 0) closeEvent.type).1[0]? =
        some (data, 8) ∧
      leNat ((closeEvent.closed closeCalls 100 fun _ => 0).read data 8) = 3 % 256 ^ 8) ∧
    (walk (closeEvent.closed closeCalls 100 fun _ => 0) closeEvent.type).2 =
      hdrLen (closeEvent.closed closeCalls 100 fun _ => 0) := by
  have hok : AllSucceed closeEvent.type closeCalls (freshArgs closeEvent.type 100) :=
    ⟨by decide, by decide, trivial⟩
  obtain ⟨-, hscalar, hend⟩ := walk_encoded closeEvent (by decide) (by decide) rfl hok fun _ => 0
  exact ⟨hscalar 0 _ { val := 3, fromuser := true } 8 rfl rfl, hend⟩

end NoDrop
