import NoDrop.FreeSpace
import NoDrop.Pushes
import NoDrop.UserStrings

/-! # What is at a place of a record

A record is decoded by position: the array of lengths says where the bytes of an argument are,
and `g_event_info` what they mean.  So which value a decoder finds for a parameter is decided by
the order of the filler's pushes.  `Filler.Puts` says what the filler pushes at a place, as
`Filler.Fills` says how much it pushes, and `Event.argBytes_of_puts` that the bytes there are
those of that value.
-/
namespace NoDrop

open Bytes

/-- The bytes of argument `j` of a record with `n` arguments, as its array of lengths has
them. -/
def argBytes (bs : List UInt8) (n j : Nat) : List UInt8 :=
  (bs.drop (hdrSize + 2 * n + ((argLens bs n).take j).sum)).take ((argLens bs n).getD j 0)

/-- The bytes are those that `val_to_ring` lays down for the value as a parameter of type `t` in
at most `max` bytes, whatever the memory held before. -/
def LaidDown (t : ParamType) (um : UserMem) (v : Value) (max : Nat) (bytes : List UInt8) : Prop :=
  ∃ piece : Piece, pushData t um v max = .ok piece ∧
    ∀ img : Image, (img.writes piece.2).read 0 piece.1 = bytes

/-! ## The value at a place -/

namespace Filler

variable {ty : EventType} {um : UserMem}

/-- If the filler succeeds, its push number `j` is that of `v`. -/
def Puts : Filler ty → Nat → Value → Prop
  | ret code, _, _ => code ≠ nodSuccess
  | push w _, 0, v => w = v
  | push _ next, j + 1, v => next.Puts j v
  | pushAnyway w _ _, 0, v => w = v
  | pushAnyway _ _ next, j + 1, v => next.Puts j v
  | store _ _ next, j, v => next.Puts j v
  | runaway, _, _ => True

theorem puts_fetch_copied {um : UserMem} {addr : UInt64} {len j : Nat}
    {next : List UInt8 → Filler ty} {v : Value}
    (h : (next (um.nodCopyFromUser addr.toNat len).1).Puts j v) :
    (fetch um addr len next).Puts j v := by
  by_cases hc : (um.nodCopyFromUser addr.toNat len).2 ≠ 0
  · rw [fetch, if_pos hc]
    show nodFailureInvalidUserMemory ≠ nodSuccess
    decide
  · rw [fetch, if_neg hc]
    exact h

theorem puts_fetch {um : UserMem} {addr : UInt64} {len j : Nat} {next : List UInt8 → Filler ty}
    {v : Value} (h : ∀ bs, (next bs).Puts j v) : (fetch um addr len next).Puts j v :=
  puts_fetch_copied (h _)

theorem puts_scratch {w : Write} {next : Filler ty} {j : Nat} {v : Value} (h : next.Puts j v) :
    (scratch w next).Puts j v := by
  unfold scratch
  split
  · exact h
  · trivial

theorem puts_scratches {ws : List Write} {next : Filler ty} {j : Nat} {v : Value}
    (h : next.Puts j v) : (scratches ws next).Puts j v := by
  induction ws with
  | nil => exact h
  | cons w ws ih => exact puts_scratch ih

theorem Puts.seq {f : Filler ty} {j : Nat} {v : Value} (h : f.Puts j v) (g : Filler ty) :
    (f.seq g).Puts j v := by
  induction f generalizing j with
  | ret code =>
    have hc : code ≠ nodSuccess := h
    simpa [Filler.seq, hc] using h
  | push w next ih =>
    cases j with
    | zero => exact h
    | succ j => exact ih h
  | pushAnyway w plain next ih =>
    cases j with
    | zero => exact h
    | succ j => exact ih h
  | store w inside next ih => exact ih h
  | runaway => trivial

/-- The second of two fillers, behind the arguments the first fills. -/
theorem Fills.seq_puts {f g : Filler ty} {i n j m : Nat} {v : Value} (hf : f.Fills i n)
    (hg : g.Puts j v) (hm : n + j = m) : (f.seq g).Puts m v := by
  subst hm
  induction f generalizing i n with
  | ret code =>
    by_cases hc : code = nodSuccess
    · obtain rfl := hf hc
      simpa [Filler.seq, hc] using hg
    · simp [Filler.seq, hc, Puts]
  | push w next ih =>
    obtain ⟨hn, hnext⟩ := hf
    have hj : n + j = n - 1 + j + 1 := by omega
    rw [hj]
    exact ih hnext
  | pushAnyway w plain next ih =>
    obtain ⟨⟨hn, -⟩, -, hnext⟩ := hf
    have hj : n + j = n - 1 + j + 1 := by omega
    rw [hj]
    exact ih hnext
  | store w inside next ih => exact ih hf
  | runaway => trivial

end Filler

theorem puts_nodAutofill {ty : EventType} {s : Syscall} {entries : List AutofillArg} {j : Nat}
    {entry : AutofillArg} (h : entries[j]? = some entry) :
    (nodAutofill s entries : Filler ty).Puts j (entry.value s) := by
  induction entries generalizing j with
  | nil => simp at h
  | cons e entries ih =>
    cases j with
    | zero => exact congrArg (AutofillArg.value s) (Option.some.inj h)
    | succ j => exact ih (by simpa using h)

/-! ## The bytes at a place -/

namespace Filler

variable {ty : EventType} {um : UserMem} {v w : Value} {next : Filler ty} {i j off room : Nat}

/-- After the run of the filler from argument `i` at `off`, in `room` bytes, the bytes of its
argument number `j` are those of a call of `val_to_ring` with `v`, in what the arguments before it
have left of the room. -/
def Finds (um : UserMem) (f : Filler ty) (i off room j : Nat) (v : Value) : Prop :=
  ∃ before len, before = ((f.sizes um i room).take j).sum ∧
    (f.sizes um i room)[j]? = some len ∧ before ≤ room ∧
    argLen ty um v (i + j) (room - before) = some len ∧
    ∀ img : Image, ∃ img' : Image,
      (img.writes (f.run um ⟨i, off, room⟩).out).read (off + before) len =
        (img'.writes (valToRing ty um v ⟨i + j, off + before, room - before⟩).out).read
          (off + before) len

theorem finds_push {n : Nat} (hw : off + room < 2 ^ 32)
    (hstart : 2 * (gEventInfo ty).nparams ≤ off) (hl : argLen ty um w i room = some n)
    (h : match j with
      | 0 => w = v
      | j + 1 => next.Finds um (i + 1) (off + n) (room - n) j v) :
    (push w next).Finds um i off room j v := by
  have hle := argLen_le hl
  have hsizes : (push w next).sizes um i room = n :: next.sizes um (i + 1) (room - n) := by
    simp only [sizes, hl]
  rw [Finds, hsizes, run_push_of_len hw hl]
  cases j with
  | zero =>
    obtain rfl : w = v := h
    refine ⟨0, n, rfl, rfl, Nat.zero_le room, hl, fun img => ⟨img, ?_⟩⟩
    -- what follows goes to later lengths or past the argument
    have hst := (run_sound um next ⟨i + 1, off + n, room - n⟩ (by simp only; omega)).stores
    simp only [Nat.sub_zero, Nat.add_zero, Image.writes_append]
    refine Image.read_writes_of_untouched fun x hx k hk => ?_
    rcases hst x hx with ⟨j', len, -, hj', rfl⟩ | ⟨hlo, -⟩
    · simp only [Write.Touches, slot, Write.stop, leBytes_length]
      omega
    · simp only [Write.Touches]
      simp only at hlo
      omega
  | succ j =>
    obtain ⟨before, len, hsum, hlen, hbefore, hroom, hread⟩ := h
    have hij : i + 1 + j = i + (j + 1) := by omega
    rw [hij, Nat.sub_sub] at hroom
    rw [hij, Nat.sub_sub, Nat.add_assoc] at hread
    refine ⟨n + before, len, ?_, by simpa using hlen, by omega, hroom, fun img => ?_⟩
    · rw [hsum, List.take_succ_cons, List.sum_cons]
    · rw [Image.writes_append]
      exact hread _

/-- **The argument at a place is the one the filler puts there.** -/
theorem Fills.finds {f : Filler ty} {n : Nat} (hfills : f.Fills i n) (hputs : f.Puts j v)
    (hw : off + room < 2 ^ 32) (hstart : 2 * (gEventInfo ty).nparams ≤ off)
    (hok : (f.run um ⟨i, off, room⟩).res = some nodSuccess) : f.Finds um i off room j v := by
  induction f generalizing i n j off room with
  | ret code => exact absurd (Option.some.inj hok) hputs
  | push w next ih =>
    obtain ⟨l, hl⟩ := argLen_of_success hok
    have hle := argLen_le hl
    rw [run_push_of_len hw hl] at hok
    refine finds_push hw hstart hl ?_
    cases j with
    | zero => exact hputs
    | succ j => exact ih hfills.2 hputs (by omega) (by omega) hok
  | pushAnyway w plain next ih =>
    obtain ⟨⟨-, hscalar⟩, hfirst, hnext⟩ := hfills
    have hres := pushAnyway_success plain hscalar hfirst hok
    have hpush : (pushAnyway w plain next).run um ⟨i, off, room⟩ =
        (push w next).run um ⟨i, off, room⟩ := by
      rw [run_push_of_success hres]
      rfl
    rw [hpush] at hok
    obtain ⟨l, hl⟩ := argLen_of_success hok
    have hle := argLen_le hl
    have hsizes : (pushAnyway w plain next).sizes um i room = (push w next).sizes um i room := by
      simp only [sizes, hl]
    rw [run_push_of_len hw hl] at hok
    rw [Finds, hpush, hsizes]
    refine finds_push hw hstart hl ?_
    cases j with
    | zero => exact hputs
    | succ j => exact ih hnext hputs (by omega) (by omega) hok
  | store x inside next ih => exact ih hfills hputs hw hstart hok
  | runaway => cases hok

end Filler

/-! ## In a record -/

/-- An argument that is no user data covers the bytes it counts. -/
theorem pushData_covered {t : ParamType} {um : UserMem} {v : Value} {max : Nat} {piece : Piece}
    (ht : t ≠ .bytebuf) (hp : pushData t um v max = .ok piece) (img img' : Image) :
    (img.writes piece.2).read 0 piece.1 = (img'.writes piece.2).read 0 piece.1 := by
  refine read_writes_of_agree (fun k hk => ?_) img img'
  rw [Nat.zero_add]
  exact pushData_agree hp hp rfl hk fun htorn => absurd htorn.1 ht

theorem LaidDown.scalar {t : ParamType} {um : UserMem} {v : Value} {max : Nat} {bytes : List UInt8}
    {w : Nat} (h : LaidDown t um v max bytes) (hw : t.width = some w) :
    bytes = leBytes w v.val.toNat := by
  obtain ⟨piece, hp, hread⟩ := h
  rw [pushData_scalar um v max hw, pushScalar] at hp
  split at hp
  · obtain rfl := Except.ok.inj hp
    have hself := Image.read_write_self (fun _ => 0) ⟨0, leBytes w v.val.toNat⟩
    rw [← hread fun _ => 0]
    simpa using hself
  · cases hp

/-- The bytes a call of `val_to_ring` leaves where it lays its argument down. -/
theorem laidDown_read {ty : EventType} {um : UserMem} {v : Value} {i off room len : Nat}
    (hw : off + room < 2 ^ 32) (hstart : 2 * i + 2 ≤ off)
    (hl : argLen ty um v i room = some len)
    (hbuf : ((gEventInfo ty).param i).type ≠ .bytebuf)
    (hdyn : ((gEventInfo ty).param i).type ≠ .dyn) (img : Image) :
    LaidDown ((gEventInfo ty).param i).type um v (min room nodMaxArgSize)
      ((img.writes (valToRing ty um v ⟨i, off, room⟩).out).read off len) := by
  obtain ⟨t, pre, p, htype, -, hp, hn, hout⟩ := valToRing_out hw hl
  obtain ⟨-, ⟨rfl, rfl, -⟩ | ⟨-, ⟨hd, -⟩, -⟩⟩ := argType_cases htype
  case inr => exact absurd hd hdyn
  have hslot : ∀ x ∈ [slot i len], ∀ k < len, ¬ x.Touches (off + k) := by
    intro x hx k hk
    obtain rfl := List.mem_singleton.mp hx
    simp only [Write.Touches, slot, Write.stop, leBytes_length]
    omega
  refine ⟨p, hp, fun img' => ?_⟩
  rw [Nat.zero_add] at hn
  rw [hout, Image.writes_append, Image.writes_append, Image.read_writes_of_untouched hslot, hn,
    Nat.add_zero]
  have hshift : ((img.writes (indexStores ⟨i, off, room⟩ v 0)).writes
      (p.2.map (Write.shift off))).read off p.1 =
      (Image.writes (fun k => (img.writes (indexStores ⟨i, off, room⟩ v 0)) (off + k)) p.2).read
        0 p.1 := by
    apply Image.read_congr
    intro k hk
    rw [Image.writes_shift, Nat.zero_add]
  rw [hshift]
  exact pushData_covered hbuf hp _ _

/-- The same for an argument whose type its index chooses: the index comes first.  Bytes that are
user data may be those the memory held before. -/
theorem laidDown_read_dyn {ty : EventType} {um : UserMem} {v : Value} {i off room len : Nat}
    {t : ParamType} (hw : off + room < 2 ^ 32) (hstart : 2 * i + 2 ≤ off)
    (hl : argLen ty um v i room = some len) (hdyn : ((gEventInfo ty).param i).type = .dyn)
    (ht : ((gEventInfo ty).param i).dyn[v.dynIdx.toNat]? = some t) (img : Image) :
    ∃ bytes, (img.writes (valToRing ty um v ⟨i, off, room⟩).out).read off len =
        v.dynIdx :: bytes ∧
      (t ≠ .bytebuf → LaidDown t um v (min room nodMaxArgSize - 1) bytes) := by
  have hne : ((gEventInfo ty).param i).dyn ≠ [] := by
    intro hnil
    rw [hnil] at ht
    cases ht
  obtain ⟨t', pre, p, htype, -, hp, hn, hout⟩ := valToRing_out hw hl
  obtain ⟨-, ⟨-, -, hno⟩ | ⟨rfl, -, ht'⟩⟩ := argType_cases htype
  case inl => exact absurd ⟨hdyn, hne⟩ hno
  obtain rfl := Option.some.inj (ht.symm.trans ht')
  have hslots : ∀ n, ∀ x ∈ [slot i n], ∀ k < len, ¬ x.Touches (off + k) := by
    intro n x hx k hk
    obtain rfl := List.mem_singleton.mp hx
    simp only [Write.Touches, slot, Write.stop, leBytes_length]
    omega
  have hidx : indexStores ⟨i, off, room⟩ v 1 = [⟨off, [v.dynIdx]⟩] ++ [slot i 1] := rfl
  rw [hout, hidx, Image.writes_append, Image.writes_append, Image.writes_append,
    Image.read_writes_of_untouched (hslots len), hn, Image.read_add]
  generalize hbase : (img.writes [⟨off, [v.dynIdx]⟩]).writes [slot i 1] = base
  have hshift : ∀ k, base.writes (p.2.map (Write.shift (off + 1))) (off + 1 + k) =
      Image.writes (fun k => base (off + 1 + k)) p.2 k := fun k => Image.writes_shift base _ p.2 k
  refine ⟨(base.writes (p.2.map (Write.shift (off + 1)))).read (off + 1) p.1, ?_, fun hbuf => ?_⟩
  · -- the index byte is in front of everything that follows
    have hfirst : (base.writes (p.2.map (Write.shift (off + 1)))).read off 1 = [v.dynIdx] := by
      have hkeep : ∀ x ∈ p.2.map (Write.shift (off + 1)), ∀ k < 1, ¬ x.Touches (off + k) := by
        intro x hx k hk
        obtain ⟨y, -, rfl⟩ := List.mem_map.mp hx
        simp only [Write.Touches, Write.shift]
        omega
      rw [Image.read_writes_of_untouched hkeep, ← hbase]
      rw [Image.read_writes_of_untouched fun x hx k hk => hslots 1 x hx k (by omega)]
      exact Image.read_write_self img ⟨off, [v.dynIdx]⟩
    rw [hfirst]
    rfl
  · refine ⟨p, hp, fun img' => ?_⟩
    have hread : (base.writes (p.2.map (Write.shift (off + 1)))).read (off + 1) p.1 =
        (Image.writes (fun k => base (off + 1 + k)) p.2).read 0 p.1 := by
      apply Image.read_congr
      intro k hk
      rw [hshift, Nat.zero_add]
    rw [hread]
    exact pushData_covered hbuf hp _ _

/-- The bytes that an attempt lays down for argument `j`, wherever its arguments start. -/
def Event.laid (ev : Event) (size off j : Nat) (img : Image) : List UInt8 :=
  (img.writes (ev.attempt size off).out).read (off + ((ev.sizes size off).take j).sum)
    ((ev.sizes size off).getD j 0)

/-- What the arguments before number `j` leave of an attempt's room, in the limit that
`val_to_ring` has for one argument. -/
def Event.maxArgSize (ev : Event) (size off j : Nat) : Nat :=
  min (argDataSize size off - ((ev.sizes size off).take j).sum) nodMaxArgSize

/-- They are what one call of `val_to_ring` leaves, in that room. -/
theorem Event.laid_eq {ev : Event} {size off j n : Nat} {v : Value}
    (hs : ev.Succeeds (ev.attempt size off)) (hstart : 2 * ev.nargs ≤ off) (hoff : off ≤ size)
    (hsize : size < 2 ^ 32) (hfills : ev.filler.Fills 0 n) (hputs : ev.filler.Puts j v)
    (img : Image) :
    j < ev.nargs ∧ ∃ pos room len img', 2 * j + 2 ≤ pos ∧ pos + room < 2 ^ 32 ∧
      min room nodMaxArgSize = ev.maxArgSize size off j ∧
      argLen ev.type ev.um v j room = some len ∧
      ev.laid size off j img =
        (Image.writes img' (valToRing ev.type ev.um v ⟨j, pos, room⟩).out).read pos len := by
  have hrun : ev.attempt size off = ev.filler.run ev.um ⟨0, off, size - off⟩ := by
    have hsub : (size + 2 ^ 32 - off) % 2 ^ 32 = size - off := argDataSize_eq hoff hsize
    rw [Event.attempt, hsub]
  have hsizes : ev.sizes size off = ev.filler.sizes ev.um 0 (size - off) := by
    rw [Event.sizes, argDataSize_eq hoff hsize]
  obtain ⟨before, len, hsum, hj, hbefore, hl, hread⟩ :=
    hfills.finds hputs (by omega) hstart (hrun ▸ hs.1)
  obtain ⟨img', himg⟩ := hread img
  rw [Nat.zero_add] at hl himg
  have hjlt : j < ev.nargs := by
    obtain ⟨-, t, pre, p, htype, -⟩ := argLen_eq_some hl
    exact (argType_cases htype).1
  refine ⟨hjlt, off + before, size - off - before, len, img', by omega, by omega, ?_, hl, ?_⟩
  · rw [Event.maxArgSize, hsizes, argDataSize_eq hoff hsize, hsum]
  · have hgetD : (ev.filler.sizes ev.um 0 (size - off)).getD j 0 = len := by
      rw [List.getD_eq_getElem?_getD, hj]
      rfl
    rw [Event.laid, hsizes, hrun, hgetD, ← hsum]
    exact himg

/-- **What is laid down for a parameter of fixed type.** -/
theorem Event.laid_of_puts {ev : Event} {size off j n : Nat} {v : Value}
    (hs : ev.Succeeds (ev.attempt size off)) (hstart : 2 * ev.nargs ≤ off) (hoff : off ≤ size)
    (hsize : size < 2 ^ 32) (hfills : ev.filler.Fills 0 n) (hputs : ev.filler.Puts j v)
    (hbuf : ((gEventInfo ev.type).param j).type ≠ .bytebuf)
    (hdyn : ((gEventInfo ev.type).param j).type ≠ .dyn) (img : Image) :
    LaidDown ((gEventInfo ev.type).param j).type ev.um v (ev.maxArgSize size off j)
      (ev.laid size off j img) := by
  obtain ⟨-, pos, room, len, img', hpos, hbound, hmax, hl, heq⟩ :=
    Event.laid_eq hs hstart hoff hsize hfills hputs img
  rw [heq, ← hmax]
  exact laidDown_read hbound hpos hl hbuf hdyn img'

/-- A decoder finds what was laid down, in a record that starts behind its array of lengths. -/
theorem Event.argBytes_eq_laid {ev : Event} {size j : Nat}
    (hs : ev.Succeeds (ev.attempt size (2 * ev.nargs))) (hoff : 2 * ev.nargs ≤ size)
    (hsize : size < 2 ^ 32) (hj : j < ev.nargs) (img : Image) :
    argBytes ((ev.imageOf (ev.attempt size (2 * ev.nargs)) img).read 0
        (hdrSize + (ev.attempt size (2 * ev.nargs)).args.argDataOffset)) ev.nargs j =
      ev.laid size (2 * ev.nargs) j fun k => (img.writes ev.header) (hdrSize + k) := by
  have hls := ev.attempt_hasLens hoff hsize (Nat.le_refl _) hs
  obtain ⟨hlen, -⟩ := Event.read_imageOf_lens hls rfl hs
  have hend := hls.offset
  simp only at hend
  have hin : ((ev.sizes size (2 * ev.nargs)).take j).sum +
      (ev.sizes size (2 * ev.nargs)).getD j 0 ≤ (ev.sizes size (2 * ev.nargs)).sum := by
    have hget : (ev.sizes size (2 * ev.nargs))[j]? =
        some ((ev.sizes size (2 * ev.nargs)).getD j 0) := by
      rw [List.getD_eq_getElem?_getD, List.getElem?_eq_getElem (by omega)]
      rfl
    have hcut := List.take_append_drop (j + 1) (ev.sizes size (2 * ev.nargs))
    have hsucc := List.take_add_one (l := ev.sizes size (2 * ev.nargs)) (i := j)
    rw [hget] at hsucc
    have hsum := congrArg List.sum hcut
    rw [hsucc] at hsum
    simp only [List.sum_append, Option.toList_some, List.sum_singleton] at hsum
    omega
  rw [argBytes, Event.argLens_imageOf hoff hsize (Nat.le_refl _) hs, Image.drop_read _ _ (by omega),
    Image.take_read _ _ (by omega), Nat.zero_add, Nat.add_assoc, Event.read_imageOf]
  rfl

/-- **What a decoder finds at a place of a record** that starts behind its array of lengths. -/
theorem Event.argBytes_of_puts {ev : Event} {size j : Nat} {v : Value}
    (hs : ev.Succeeds (ev.attempt size (2 * ev.nargs))) (hoff : 2 * ev.nargs ≤ size)
    (hsize : size < 2 ^ 32) (hfills : ev.filler.Fills 0 ev.nargs) (hputs : ev.filler.Puts j v)
    (hbuf : ((gEventInfo ev.type).param j).type ≠ .bytebuf)
    (hdyn : ((gEventInfo ev.type).param j).type ≠ .dyn) (img : Image) :
    LaidDown ((gEventInfo ev.type).param j).type ev.um v (ev.maxArgSize size (2 * ev.nargs) j)
      (argBytes ((ev.imageOf (ev.attempt size (2 * ev.nargs)) img).read 0
        (hdrSize + (ev.attempt size (2 * ev.nargs)).args.argDataOffset)) ev.nargs j) := by
  have hj := (Event.laid_eq hs (Nat.le_refl _) hoff hsize hfills hputs img).1
  rw [Event.argBytes_eq_laid hs hoff hsize hj]
  exact Event.laid_of_puts hs (Nat.le_refl _) hoff hsize hfills hputs hbuf hdyn _

/-! ## Strings of the user -/

/-- What a record is to have for the string at an address of the user: the string with its
terminator, `"(NULL)"` for no address, and `"(INVAL)"` where no string can be read. -/
inductive UserText (um : UserMem) (arg : UInt64) : List UInt8 → Prop
  | null (h : arg = 0) : UserText um arg (nullText ++ [0])
  | str {k : Nat} (h : arg ≠ 0) (hs : um.StrAt arg.toNat k) :
      UserText um arg (um.readable arg.toNat k ++ [0])
  | inval (h : arg ≠ 0) (hno : ∀ k, ¬ um.StrAt arg.toNat k) : UserText um arg (invalText ++ [0])

/-- The text of the argument is copied whole into `max` bytes: it fits, and for a string the
chunks up to its terminator can be read. -/
structure TextFits (um : UserMem) (arg : UInt64) (max : Nat) : Prop where
  null : arg = 0 → nullText.length < max
  str : arg ≠ 0 → ∀ k, um.StrAt arg.toNat k →
    k < max ∧ um.CanRead arg.toNat (UserMem.chunkEnd k max)
  inval : arg ≠ 0 → (∀ k, ¬ um.StrAt arg.toNat k) → invalText.length < max

/-- What `strlcpy` leaves of a text. -/
def cutText (str : List UInt8) (max : Nat) : List UInt8 :=
  if max = 0 then [] else str.take (max - 1) ++ [0]

theorem cutText_length (str : List UInt8) (max : Nat) :
    (cutText str max).length = min (str.length + 1) max := by
  unfold cutText
  split
  · simp only [List.length_nil]
    omega
  · simp only [List.length_append, List.length_take, List.length_singleton]
    omega

theorem cutText_eq_iff {str : List UInt8} {max : Nat} :
    cutText str max = str ++ [0] ↔ str.length < max := by
  constructor
  · intro h
    have hlen := congrArg List.length h
    rw [cutText_length, List.length_append, List.length_singleton] at hlen
    omega
  · intro h
    rw [cutText, if_neg (by omega), List.take_of_length_le (by omega)]

theorem read_strlcpy (img : Image) (str : List UInt8) (max : Nat) :
    (img.writes (strlcpy str max).2).read 0 (strlcpy str max).1 = cutText str max := by
  by_cases hmax : max = 0
  · simp only [strlcpy, cutText, hmax, Nat.min_zero, Image.read_zero, if_true]
  · simp only [strlcpy, cutText, hmax, if_false]
    rw [Image.read_writes_of_behind img (by simp; omega) (fun w hw => absurd hw List.not_mem_nil)]
    refine List.take_of_length_le ?_
    simp only [List.length_append, List.length_take, List.length_singleton]
    omega

section UserText

variable {t : ParamType} {um : UserMem} {arg : UInt64} {max k : Nat} {bytes : List UInt8}

theorem LaidDown.charbuf {v : Value} (h : LaidDown t um v max bytes)
    (ht : t = .charbuf ∨ t = .fspath ∨ t = .fsrelpath) (img : Image) :
    bytes = (img.writes (pushCharbuf um v max).2).read 0 (pushCharbuf um v max).1 := by
  obtain ⟨piece, hp, hread⟩ := h
  have hpiece : piece = pushCharbuf um v max := by
    rcases ht with rfl | rfl | rfl <;> exact (Except.ok.inj hp).symm
  rw [← hread img, hpiece]

theorem LaidDown.null_text (h : LaidDown t um { val := 0, fromuser := true } max bytes)
    (ht : t = .charbuf ∨ t = .fspath ∨ t = .fsrelpath) : bytes = cutText nullText max :=
  (h.charbuf ht fun _ => 0).trans (read_strlcpy _ _ _)

/-- A string that is refused is replaced. -/
theorem LaidDown.inval_text (h : LaidDown t um { val := arg, fromuser := true } max bytes)
    (ht : t = .charbuf ∨ t = .fspath ∨ t = .fsrelpath) (harg : arg ≠ 0)
    (hfail : (um.nodStrncpyFromUser arg.toNat max).2 < 0) : bytes = cutText invalText max := by
  rw [h.charbuf ht fun _ => 0, pushCharbuf, if_neg harg, if_pos rfl, if_pos hfail]
  exact read_strlcpy _ _ _

/-- A string that is copied is there, with its terminator. -/
theorem LaidDown.str_text (h : LaidDown t um { val := arg, fromuser := true } max bytes)
    (ht : t = .charbuf ∨ t = .fspath ∨ t = .fsrelpath) (harg : arg ≠ 0)
    (hs : um.StrAt arg.toNat k) (hk : k < max)
    (hread : um.CanRead arg.toNat (UserMem.chunkEnd k max)) :
    bytes = um.readable arg.toNat k ++ [0] := by
  have hres := (UserMem.nodStrncpyFromUser_of_strAt hs hk).1 hread
  have hneg : ¬ (um.nodStrncpyFromUser arg.toNat max).2 < 0 := by omega
  obtain ⟨k', hs', -, hlen, -, htake⟩ := UserMem.nodStrncpyFromUser_string (a := arg.toNat) rfl
    (show ¬ (um.nodStrncpyFromUser arg.toNat max).2 - 1 < 0 by omega)
  obtain rfl := hs.unique hs'
  have hle : k + 1 ≤ (um.nodStrncpyFromUser arg.toNat max).1.length := by
    have hcut := congrArg List.length htake
    rw [List.length_take, List.length_append, UserMem.length_readable
      (hs.canRead.mono (Nat.le_succ k)), List.length_singleton] at hcut
    omega
  rw [h.charbuf ht fun _ => 0, pushCharbuf, if_neg harg, if_pos rfl, if_neg hneg, hlen]
  rw [Image.read_writes_of_behind _ hle fun w hw => absurd hw List.not_mem_nil, htake]

/-- A string that the copy does not reach the end of. -/
theorem LaidDown.cut_text (h : LaidDown t um { val := arg, fromuser := true } max bytes)
    (ht : t = .charbuf ∨ t = .fspath ∨ t = .fsrelpath) (harg : arg ≠ 0)
    (hs : um.StrAt arg.toNat k)
    (hcut : ¬ (k < max ∧ um.CanRead arg.toNat (UserMem.chunkEnd k max))) :
    bytes = cutText invalText max := by
  refine h.inval_text ht harg ?_
  rcases um.nodStrncpyFromUser_result arg.toNat max with hfail | ⟨j, hj, hpos, -⟩
  · omega
  · obtain ⟨j, rfl⟩ := Nat.exists_eq_add_of_le' hpos
    obtain ⟨hs', hlt⟩ := UserMem.nodStrncpyFromUser_sound hj
    obtain rfl := hs.unique hs'
    have hread := not_and.mp hcut hlt
    have hfail := (UserMem.nodStrncpyFromUser_of_strAt hs hlt).2 hread
    omega

/-- The placeholder does not pass for a string that it replaces: where the two have one length,
the chunk of the terminator ends with it. -/
theorem cutText_inval_ne (hs : um.StrAt arg.toNat k)
    (hcut : ¬ (k < max ∧ um.CanRead arg.toNat (UserMem.chunkEnd k max))) :
    cutText invalText max ≠ um.readable arg.toNat k ++ [0] := by
  intro he
  have hlen := congrArg List.length he
  have hinval : invalText.length = 7 := rfl
  rw [cutText_length, List.length_append, List.length_singleton,
    UserMem.length_readable (hs.canRead.mono (Nat.le_succ k)), hinval] at hlen
  refine hcut ⟨by omega, ?_⟩
  have hend : UserMem.chunkEnd k max = k + 1 := by
    rw [UserMem.chunkEnd]
    omega
  rw [hend]
  exact hs.canRead

/-- **What is laid down for a string of the user is its text exactly if that fits.** -/
theorem LaidDown.userText_iff (h : LaidDown t um { val := arg, fromuser := true } max bytes)
    (ht : t = .charbuf ∨ t = .fspath ∨ t = .fsrelpath) :
    UserText um arg bytes ↔ TextFits um arg max := by
  by_cases harg : arg = 0
  · subst harg
    obtain rfl := h.null_text ht
    constructor
    · intro htext
      refine ⟨fun _ => ?_, fun hne => absurd rfl hne, fun hne => absurd rfl hne⟩
      generalize he : cutText nullText max = bytes at htext
      cases htext with
      | null => exact cutText_eq_iff.mp he
      | str hne => exact absurd rfl hne
      | inval hne => exact absurd rfl hne
    · intro hfits
      rw [cutText_eq_iff.mpr (hfits.null rfl)]
      exact .null rfl
  by_cases hstr : ∃ k, um.StrAt arg.toNat k
  · obtain ⟨k, hs⟩ := hstr
    have hno : ¬ ∀ k, ¬ um.StrAt arg.toNat k := fun hno => hno k hs
    by_cases hcut : k < max ∧ um.CanRead arg.toNat (UserMem.chunkEnd k max)
    · obtain rfl := h.str_text ht harg hs hcut.1 hcut.2
      refine ⟨fun _ => ⟨fun h0 => absurd h0 harg, fun _ k' hs' => ?_, fun _ hn => absurd hn hno⟩,
        fun _ => .str harg hs⟩
      obtain rfl := hs.unique hs'
      exact hcut
    · obtain rfl := h.cut_text ht harg hs hcut
      constructor
      · intro htext
        generalize he : cutText invalText max = bytes at htext
        cases htext with
        | null h0 => exact absurd h0 harg
        | str _ hs' =>
          obtain rfl := hs.unique hs'
          exact absurd he (cutText_inval_ne hs hcut)
        | inval _ hn => exact absurd hn hno
      · exact fun hfits => absurd (hfits.str harg k hs) hcut
  · have hno : ∀ k, ¬ um.StrAt arg.toNat k := fun k hs => hstr ⟨k, hs⟩
    have hfail : (um.nodStrncpyFromUser arg.toNat max).2 < 0 := by
      rcases um.nodStrncpyFromUser_result arg.toNat max with hfail | ⟨j, hj, hpos, -⟩
      · omega
      · obtain ⟨j, rfl⟩ := Nat.exists_eq_add_of_le' hpos
        exact absurd (UserMem.nodStrncpyFromUser_sound hj).1 (hno j)
    obtain rfl := h.inval_text ht harg hfail
    constructor
    · intro htext
      refine ⟨fun h0 => absurd h0 harg, fun _ k hs => absurd hs (hno k), fun _ _ => ?_⟩
      generalize he : cutText invalText max = bytes at htext
      cases htext with
      | null h0 => exact absurd h0 harg
      | str _ hs => exact absurd hs (hno _)
      | inval => exact cutText_eq_iff.mp he
    · intro hfits
      rw [cutText_eq_iff.mpr (hfits.inval harg hno)]
      exact .inval harg hno

end UserText

end NoDrop
