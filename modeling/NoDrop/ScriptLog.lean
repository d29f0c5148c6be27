import NoDrop.Delivery
import NoDrop.LuaFields
import NoDrop.ResParam

/-! # From the system call to the script's log

What a Lua script gets to see of a system call.  `nod_monitor_main` makes each record of the buffer
the current event and calls the script's `on_event`; with `evt.save` of `monitor/src/lua_field.c`
the script has the whole event rendered into a local buffer and appended to a file.

The two ends never meet: the kernel module pushes values, and the monitor goes over bytes with the
parameter table in its hand.  `log_complete` is about both ends: the log has one line for each event
handed over, in the order of the system calls, and a line shows the values that were pushed for its
call.
-/
namespace NoDrop

open Bytes Filler Numerals Runs Snprintf

/-! ## The monitor's end -/

/-- What is read of a record's `struct nod_event_hdr`, if its type is one of the table. -/
def readHdr (bs : List UInt8) : Option EventHdr :=
  if field bs 14 2 < nodeEventMax then
    some ⟨UInt64.ofNat (field bs 0 8), UInt32.ofNat (field bs 8 4), UInt16.ofNat (field bs 12 2),
      EventType.ofNat (field bs 14 2)⟩
  else none

/-- `hdr + 1`. -/
def bodyOf (bs : List UInt8) : Image := fun i => (bs.drop hdrSize).getD i 0

/-- `lua_evt_save`: what it appends to the file, if that opens.  The local buffer is `out`, as it
happens to be. -/
def luaEvtSave (out : Image) (opens : Bool) (bs : List UInt8) : List UInt8 :=
  match readHdr bs with
  | none => []
  | some hdr =>
      let s := getWholeEvent hdr (bodyOf bs) 2048
      if opens then (s.out out).read 0 s.off else []

/-- The loop of `nod_monitor_main` with a script that saves every event: what all its rounds
append. -/
def saveAll (out : Nat → Image) (opens : Nat → Bool) (evts : List (List UInt8)) : List UInt8 :=
  (evts.mapIdx fun i bs => luaEvtSave (out i) (opens i) bs).flatten

/-! ## What a line is to be -/

/-- The header of a system call's record. -/
def Event.hdr (ev : Event) : EventHdr := ⟨ev.ts, ev.tid, ev.cpuid, ev.type⟩

/-- Parameter `j` of a type. -/
def EventType.paramAt (ty : EventType) (j : Nat) : Param :=
  ⟨((gEventInfo ty).param j).type, (gEventText ty).param j⟩

/-- A line of the log, by the texts of its arguments. -/
def lineText (hdr : EventHdr) (text : Nat → List UInt8) : List UInt8 :=
  headerText hdr ++ (ascii ", ").intercalate ((List.range (gEventInfo hdr.type).nparams).map fun j =>
    ascii (hdr.type.paramAt j).text.name ++ ascii "=" ++ text j) ++ ascii ")\n"

/-- The text shows a value that was pushed for the parameter in `max` bytes: a number as its low
bytes, as the parameter's format has it; of a string what is copied into the room, up to 255
characters; of user data only how long they are there; and of everything else, nothing. -/
structure Shows (p : Param) (um : UserMem) (v : Value) (max : Nat) (text : List UInt8) : Prop where
  number : ∀ row, p.type.intRow = some row →
    text = printInt row p.text.fmt (v.val.toNat % 256 ^ row.bytes)
  string : p.type.isString = true → ∃ bytes, LaidDown p.type um v max bytes ∧
    text = cString (bytes.take 255)
  binary : p.type = .bytebuf → ∃ piece, pushData p.type um v max = .ok piece ∧
    text = ascii "<binary:" ++ numeral 10 piece.1 ++ ascii ">"
  other : p.type.intRow = none → p.type.isString = false → p.type ≠ .bytebuf →
    text = ascii "<unknown>"

/-- The line of an event whose record lands in `size` bytes: its header, and for each parameter the
value that its filler pushes, in what the parameters before it leave of them. -/
def LineIn (ev : Event) (size : Nat) (line : List UInt8) : Prop :=
  ∃ text : Nat → List UInt8, line = lineText ev.hdr text ∧
    ∀ j < ev.nargs, (∃ v, ev.filler.Puts j v) ∧
      ∀ v, ev.filler.Puts j v → Shows (ev.type.paramAt j) ev.um v
        (ev.maxArgSize size (2 * ev.nargs) j) (text j)

/-- The line of an event that is recorded in a state of the buffer. -/
def LineOf (x : Event × NodBuffer) (line : List UInt8) : Prop :=
  LineIn x.1 (x.1.landing x.2).1 line

/-! ## The text of an argument -/

section Texts

theorem ParamType.width_of_intRow {t : ParamType} {row : IntRow} (h : t.intRow = some row) :
    t.width = some row.bytes ∧ t.isString = false ∧ t ≠ .bytebuf ∧ t ≠ .dyn := by
  cases t <;> cases h <;> decide

theorem ParamType.ne_of_isString {t : ParamType} (h : t.isString = true) :
    t ≠ .bytebuf ∧ t ≠ .dyn := by
  cases t <;> cases h <;> decide

variable {p : Param} {img : Image} {data len : Nat}

/-- What `snprintf` prints of an argument fits and has no `NUL`. -/
theorem tmpText_printed (hstr : p.type.isString = false) (hlen : len < 2 ^ 16)
    (hnul : ∀ c ∈ argText p img data len, c ≠ 0) :
    tmpText p img data len = argText p img data len := by
  have h := argText_length_le p img data hlen
  rw [tmpText, evtArgToString, if_neg (by decide), hstr, if_neg (by decide),
    stored_of_lt (by omega)]
  exact cString_append_zero hnul []

theorem tmpText_number {row : IntRow} (hrow : p.type.intRow = some row) (hlen : len < 2 ^ 16) :
    tmpText p img data len = printInt row p.text.fmt (leNat (img.read data row.bytes)) := by
  obtain ⟨-, hstr, hbuf, -⟩ := ParamType.width_of_intRow hrow
  have htext : argText p img data len =
      printInt row p.text.fmt (leNat (img.read data row.bytes)) := by
    rw [argText, if_neg hbuf, hrow]
  rw [tmpText_printed hstr hlen, htext]
  intro c hc
  rw [htext] at hc
  exact printInt_ne_zero hc

theorem tmpText_string (hstr : p.type.isString = true) :
    tmpText p img data len = cString ((img.read data len).take 255) := by
  rw [tmpText, evtArgToString, if_neg (by decide), if_pos hstr]
  dsimp only
  rw [cString_append_end]
  split
  · rename_i h
    rw [List.take_of_length_le (by rw [Image.read_length]; omega)]
  · rename_i h
    rw [Image.take_read _ _ (by omega)]

theorem tmpText_binary (hbuf : p.type = .bytebuf) (hlen : len < 2 ^ 16) :
    tmpText p img data len = ascii "<binary:" ++ numeral 10 len ++ ascii ">" := by
  have htext : argText p img data len = ascii "<binary:" ++ numeral 10 len ++ ascii ">" := by
    rw [argText, if_pos hbuf]
  rw [tmpText_printed (by rw [hbuf]; rfl) hlen, htext]
  intro c hc
  rw [htext, List.mem_append, List.mem_append] at hc
  rcases hc with (hc | hc) | hc
  · exact ascii_ne_zero (by decide : nameOk "<binary:") hc
  · exact (numeral_chars (by decide) (by decide) hc).1
  · exact ascii_ne_zero (by decide : nameOk ">") hc

theorem tmpText_other (hrow : p.type.intRow = none) (hstr : p.type.isString = false)
    (hbuf : p.type ≠ .bytebuf) (hlen : len < 2 ^ 16) :
    tmpText p img data len = ascii "<unknown>" := by
  have htext : argText p img data len = ascii "<unknown>" := by
    rw [argText, if_neg hbuf, hrow]
  rw [tmpText_printed hstr hlen, htext]
  intro c hc
  rw [htext] at hc
  exact ascii_ne_zero (by decide : nameOk "<unknown>") hc

end Texts

/-! ## The line of a record -/

section Lines

/-- What a call of `get_whole_event` with a buffer of 2048 bytes leaves there. -/
theorem getWholeEvent_read (hdr : EventHdr) (img out : Image) :
    ((getWholeEvent hdr img 2048).out out).read 0 (getWholeEvent hdr img 2048).off =
      (eventPieces hdr img).flatten := by
  have hlen := eventPieces_length_lt hdr img
  have hfits : (Printing.start.printAll 2048 (eventPieces hdr img)).Fits 2048 := by
    refine (Printing.Fits.start 2048).printAll (by decide) ?_
    rw [show Printing.start.off = 0 from rfl, Nat.zero_add]
    exact hlen
  rw [getWholeEvent_eq hlen, hfits.out out, Printing.text_printAll]
  rfl

/-- The pieces of the loop, argument by argument. -/
theorem paramPieces_flatten (ty : EventType) (img : Image) (i n : Nat) :
    (paramPieces img ((List.range' i n).map ty.paramAt) i (argData ty img i)).flatten =
      ((List.range' i n).map fun j => (if 0 < j then ascii ", " else []) ++
        (ascii (ty.paramAt j).text.name ++ ascii "=" ++
          tmpText (ty.paramAt j) img (argData ty img j) (argAt img j))).flatten := by
  induction n generalizing i with
  | zero => rfl
  | succ n ih =>
    have hnext : argData ty img i + argAt img i = argData ty img (i + 1) := by
      simp [argData, List.range_succ, Nat.add_assoc]
    have hsep : (if 0 < i then [ascii ", "] else []).flatten = if 0 < i then ascii ", " else [] := by
      split <;> simp
    rw [List.range'_succ, List.map_cons, List.map_cons, paramPieces, hnext, List.flatten_append,
      hsep, List.flatten_cons, List.flatten_cons, List.flatten_cons, ih (i + 1)]
    simp only [List.append_assoc]

/-- Texts with something between them. -/
theorem intercalate_cons {α : Type} (sep t : List α) (ts : List (List α)) :
    sep.intercalate (t :: ts) = t ++ (ts.map (sep ++ ·)).flatten := by
  induction ts generalizing t with
  | nil => simp
  | cons u us ih =>
    rw [List.intercalate_cons_cons, ih, List.map_cons, List.flatten_cons]
    simp only [List.append_assoc]

/-- Only the first has nothing before it. -/
theorem flatten_separated {α : Type} (sep : List α) (f : Nat → List α) (n : Nat) :
    ((List.range n).map fun j => (if 0 < j then sep else []) ++ f j).flatten =
      sep.intercalate ((List.range n).map f) := by
  cases n with
  | zero => rfl
  | succ n =>
    rw [List.range_succ_eq_map, List.map_cons, List.map_cons, intercalate_cons, List.flatten_cons,
      List.map_map, List.map_map, List.map_map]
    rfl

/-- **The text of an event is a line.** -/
theorem eventPieces_flatten (hdr : EventHdr) (img : Image) :
    (eventPieces hdr img).flatten = lineText hdr fun j =>
      tmpText (hdr.type.paramAt j) img (argData hdr.type img j) (argAt img j) := by
  have hloop := paramPieces_flatten hdr.type img 0 (gEventInfo hdr.type).nparams
  rw [← List.range_eq_range', flatten_separated] at hloop
  rw [eventPieces, List.cons_append, List.flatten_cons, List.flatten_append, lineText, ← hloop,
    List.append_assoc, List.flatten_singleton]
  rfl

end Lines

/-! ## The record of an event -/

/-- A filler that fills `n` parameters has a value for each of them. -/
theorem Filler.Fills.exists_puts {ty : EventType} {f : Filler ty} {i n j : Nat} (h : f.Fills i n)
    (hj : j < n) : ∃ v, f.Puts j v := by
  induction f generalizing i n j with
  | ret code =>
    refine ⟨.imm 0, fun hc => ?_⟩
    rw [h hc] at hj
    exact absurd hj (Nat.not_lt_zero j)
  | push w next ih =>
    cases j with
    | zero => exact ⟨w, rfl⟩
    | succ j => exact ih h.2 (by omega)
  | pushAnyway w plain next ih =>
    cases j with
    | zero => exact ⟨w, rfl⟩
    | succ j => exact ih h.2.2 (by omega)
  | store x inside next ih => exact ih h hj
  | runaway => exact ⟨.imm 0, trivial⟩

namespace RecordOf

variable {ev : Event} {size : Nat} {bs : List UInt8}

/-- Its length, and the lengths it gives. -/
theorem length_eq (h : RecordOf ev size bs) : (argLens bs ev.nargs).length = ev.nargs ∧
    bs.length = hdrSize + 2 * ev.nargs + (argLens bs ev.nargs).sum := by
  obtain ⟨hs, hoff, hsize, img, rfl⟩ := h
  have hls := ev.attempt_hasLens hoff hsize (Nat.le_refl _) hs
  have hend := hls.offset
  rw [Event.argLens_imageOf hoff hsize (Nat.le_refl _) hs, Image.read_length]
  simp only at hend
  exact ⟨(Event.read_imageOf_lens hls rfl hs).1, by omega⟩

theorem field_eq (h : RecordOf ev size bs) (pre post : List Write) {off n v : Nat}
    (hh : ev.header = pre ++ ⟨off, leBytes n v⟩ :: post)
    (hpost : ∀ w ∈ post, w.stop ≤ off ∨ off + n ≤ w.off) (hlen : off + n ≤ 16 ∨ 20 ≤ off)
    (hoff : off + n ≤ hdrSize) (hv : v < 256 ^ n) : field bs off n = v := by
  obtain ⟨-, -, -, img, rfl⟩ := h
  have hread := Event.read_imageOf_header pre post ⟨off, leBytes n v⟩
    (ev.attempt size (2 * ev.nargs)) img hh (by simpa [Write.stop] using hpost)
    (by simpa [Write.stop] using hlen)
  rw [leBytes_length] at hread
  rw [field_read _ (by omega), hread, leNat_leBytes_of_lt hv]

/-- The monitor reads the header that was written. -/
theorem readHdr_eq (h : RecordOf ev size bs) : readHdr bs = some ev.hdr := by
  have hts : field bs 0 8 = ev.ts.toNat := h.field_eq [] _ rfl (by simp [Write.stop])
    (by decide) (by decide) ev.ts.toNat_lt
  have htid : field bs 8 4 = ev.tid.toNat := h.field_eq [_] _ rfl (by simp [Write.stop])
    (by decide) (by decide) ev.tid.toNat_lt
  have htype : field bs 14 2 = ev.type.toNat := h.field_eq [_, _] _ rfl (by simp [Write.stop])
    (by decide) (by decide) (Nat.lt_trans ev.type.toNat_lt (by decide))
  have hcpu : field bs 12 2 = ev.cpuid.toNat := h.field_eq [_, _, _] _ rfl (by simp [Write.stop])
    (by decide) (by decide) ev.cpuid.toNat_lt
  have hof : EventType.ofNat ev.type.toNat = ev.type := EventType.ofNat_ctorIdx ev.type
  rw [readHdr, htype, if_pos ev.type.toNat_lt, hts, htid, hcpu, hof, UInt64.ofNat_toNat,
    UInt32.ofNat_toNat, UInt16.ofNat_toNat]
  rfl

/-- `hdr + 1`, inside the record. -/
theorem read_bodyOf {off n : Nat} (h : hdrSize + off + n ≤ bs.length) :
    (bodyOf bs).read off n = (bs.drop (hdrSize + off)).take n := by
  unfold bodyOf
  rw [Image.read_getD (by rw [List.length_drop]; omega), List.drop_drop]

theorem argAt_eq (h : RecordOf ev size bs) {j : Nat} (hj : j < ev.nargs) :
    argAt (bodyOf bs) j = (argLens bs ev.nargs).getD j 0 := by
  obtain ⟨hn, hlen⟩ := h.length_eq
  rw [argAt, read_bodyOf (by omega), List.getD_eq_getElem?_getD,
    List.getElem?_eq_getElem (by omega)]
  simp only [argLens, List.getElem_map, List.getElem_range, Option.getD_some, field]

theorem argData_eq (h : RecordOf ev size bs) {j : Nat} (hj : j ≤ ev.nargs) :
    argData ev.type (bodyOf bs) j = 2 * ev.nargs + ((argLens bs ev.nargs).take j).sum := by
  have hmap : (List.range j).map (argAt (bodyOf bs)) = (argLens bs ev.nargs).take j := by
    obtain ⟨hn, -⟩ := h.length_eq
    apply List.ext_getElem
    · rw [List.length_map, List.length_range, List.length_take]
      omega
    · intro i hi hi'
      rw [List.length_map, List.length_range] at hi
      rw [List.getElem_map, List.getElem_range, List.getElem_take, h.argAt_eq (by omega),
        List.getD_eq_getElem?_getD, List.getElem?_eq_getElem (by omega)]
      rfl
  rw [argData, hmap]
  rfl

/-- **The monitor goes over the arguments as they were laid down.** -/
theorem read_argData (h : RecordOf ev size bs) {j : Nat} (hj : j < ev.nargs) :
    (bodyOf bs).read (argData ev.type (bodyOf bs) j) (argAt (bodyOf bs) j) =
      argBytes bs ev.nargs j := by
  obtain ⟨hn, hlen⟩ := h.length_eq
  have hsum : ((argLens bs ev.nargs).take j).sum + (argLens bs ev.nargs).getD j 0 ≤
      (argLens bs ev.nargs).sum := by
    have hcut := congrArg List.sum (List.take_append_drop j (argLens bs ev.nargs))
    rw [List.sum_append, List.drop_eq_getElem_cons (by omega), List.sum_cons] at hcut
    rw [List.getD_eq_getElem?_getD, List.getElem?_eq_getElem (by omega), Option.getD_some]
    omega
  rw [h.argData_eq (Nat.le_of_lt hj), h.argAt_eq hj, read_bodyOf (by omega), argBytes,
    ← Nat.add_assoc]

/-- **The text of every argument shows the value that was pushed.** -/
theorem shows_tmpText (h : RecordOf ev size bs) (hfills : ev.filler.Fills 0 ev.nargs) {j : Nat}
    (hj : j < ev.nargs) {v : Value} (hputs : ev.filler.Puts j v) :
    Shows (ev.type.paramAt j) ev.um v (ev.maxArgSize size (2 * ev.nargs) j)
      (tmpText (ev.type.paramAt j) (bodyOf bs) (argData ev.type (bodyOf bs) j)
        (argAt (bodyOf bs) j)) := by
  have hread := h.read_argData hj
  have hlt := argAt_lt (bodyOf bs) j
  obtain ⟨hs, hoff, hsize, img, rfl⟩ := h
  generalize argData ev.type _ j = data at *
  generalize argAt _ j = len at *
  -- as long as what was laid down
  have hbytes := Event.argBytes_eq_laid hs hoff hsize hj img
  obtain ⟨-, pos, room, n, img', -, -, hmax, hl, hlaid⟩ :=
    Event.laid_eq hs (Nat.le_refl _) hoff hsize hfills hputs
      fun k => (img.writes ev.header) (hdrSize + k)
  have hlen : len = n := by
    have hlength := congrArg List.length ((hread.trans hbytes).trans hlaid)
    rwa [Image.read_length, Image.read_length] at hlength
  subst hlen
  have hfound := Event.argBytes_of_puts hs hoff hsize hfills hputs
  refine ⟨fun row hrow => ?_, fun hstr => ?_, fun hbuf => ?_, fun hrow hstr hbuf => ?_⟩
  · obtain ⟨hwidth, -, hbuf, hdyn⟩ := ParamType.width_of_intRow hrow
    have hbytes := (hfound hbuf hdyn img).scalar hwidth
    rw [argLen_scalar hwidth] at hl
    split at hl
    · cases hl
    · obtain rfl := Option.some.inj hl
      rw [tmpText_number hrow hlt, hread, hbytes, leNat_leBytes]
  · obtain ⟨hbuf, hdyn⟩ := ParamType.ne_of_isString hstr
    refine ⟨_, hfound hbuf hdyn img, ?_⟩
    rw [tmpText_string hstr, hread]
  · obtain ⟨-, t, pre, piece, htype, hp, rfl⟩ := argLen_eq_some hl
    obtain ⟨-, ⟨rfl, rfl, -⟩ | ⟨-, ⟨hdyn, -⟩, -⟩⟩ := argType_cases htype
    · rw [hmax] at hp
      refine ⟨piece, hp, ?_⟩
      rw [tmpText_binary hbuf hlt, Nat.zero_add]
    · exact ParamType.noConfusion (hbuf.symm.trans hdyn)
  · exact tmpText_other hrow hstr hbuf hlt

/-- **What the script appends is the line of the event.** -/
theorem luaEvtSave_eq (h : RecordOf ev size bs) (hfills : ev.filler.Fills 0 ev.nargs) :
    ∃ line, LineIn ev size line ∧
      ∀ out opens, luaEvtSave out opens bs = if opens then line else [] := by
  refine ⟨(eventPieces ev.hdr (bodyOf bs)).flatten, ⟨_, eventPieces_flatten _ _, ?_⟩, ?_⟩
  · intro j hj
    exact ⟨hfills.exists_puts hj, fun v hputs => h.shows_tmpText hfills hj hputs⟩
  · intro out opens
    simp only [luaEvtSave, h.readHdr_eq, getWholeEvent_read]

end RecordOf

/-! ## A thread and its log -/

/-- The event is that of a system call. -/
def OfSyscall (ev : Event) : Prop :=
  ∃ (k : Kernel) (s : Syscall) (ts : UInt64) (tid : UInt32) (cpuid : UInt16) (force : Bool),
    s.nr.toNat < tableSize ∧ ev = s.traced k ts tid cpuid force

/-- The condition on a step: it loses no record, and records without a gap. -/
def KeepsLines (t : Thread) (a : ThreadAct) : Prop :=
  KeepsEvents t a ∧
    match a with
    | .syscall _ ev _ | .exit _ ev _ => OfSyscall ev ∧ ev.Gapless t.buf
    | _ => True

/-- The last part of it, which can be decided. -/
def GaplessIn (t : Thread) : ThreadAct → Prop
  | .syscall _ ev _ | .exit _ ev _ => ev.Gapless t.buf
  | _ => True

instance : ∀ (t : Thread) (a : ThreadAct), Decidable (GaplessIn t a)
  | t, .syscall _ ev _ => inferInstanceAs (Decidable ((ev.landing t.buf).2 = 2 * ev.nargs))
  | t, .exit _ ev _ => inferInstanceAs (Decidable ((ev.landing t.buf).2 = 2 * ev.nargs))
  | _, .drain _ => inferInstanceAs (Decidable True)
  | _, .release => inferInstanceAs (Decidable True)

/-- The event of a step, with the buffer that it is recorded in, if its record was filled in. -/
def completedBy (t : Thread) : ThreadAct → List (Event × NodBuffer)
  | .syscall fuel ev load | .exit fuel ev load =>
      if (doRecordOneEvent fuel t.entryAddr load.ret ev t.buf t.stat).record.isSome then
        [(ev, t.buf)]
      else []
  | _ => []

/-- The events of a run whose records were filled in. -/
def completed (tr : List (Thread × ThreadAct)) : List (Event × NodBuffer) :=
  tr.flatMap fun x => completedBy x.1 x.2

/-- The record of a system call's event. -/
def TracedRecord (x : Event × NodBuffer) (bs : List UInt8) : Prop :=
  x.1.filler.Fills 0 x.1.nargs ∧ RecordOf x.1 (x.1.landing x.2).1 bs

theorem tracedRecord_of_gapless {ev : Event} (hev : OfSyscall ev) {b : NodBuffer}
    (hgap : ev.Gapless b) {fuel : Nat} {entryAddr : UInt64} {load : Int} {st : EventStatistic}
    {bs : List UInt8} (hrec : (doRecordOneEvent fuel entryAddr load ev b st).record = some bs) :
    TracedRecord (ev, b) bs := by
  obtain ⟨k, s, ts, tid, cpuid, force, hnr, rfl⟩ := hev
  have hrecord := recordOf_traced hnr hgap hrec
  obtain ⟨row, hrow, n, hfills, hn⟩ := traced_fills hnr hrecord.1
  have hall := fillerCallback_fills hrow hfills
  rw [hn] at hall
  exact ⟨hall, hrecord⟩

/-- A recording. -/
theorem record_completed {t t' : Thread} {fuel : Nat} {ev : Event} {load : LoadOutcome}
    {leaving : Bool} (hev : OfSyscall ev) (hgap : ev.Gapless t.buf)
    (hrec : t.record fuel ev load leaving = some t') :
    ∃ new, t'.recorded = t.recorded ++ new ∧ List.Forall₂ TracedRecord
      (if (doRecordOneEvent fuel t.entryAddr load.ret ev t.buf t.stat).record.isSome then
        [(ev, t.buf)]
      else []) new := by
  obtain ⟨ret, -, rfl⟩ := Option.map_eq_some_iff.mp hrec
  refine ⟨_, rfl, ?_⟩
  cases h : (doRecordOneEvent fuel t.entryAddr load.ret ev t.buf t.stat).record with
  | none => exact List.Forall₂.nil
  | some bs => exact List.Forall₂.cons (tracedRecord_of_gapless hev hgap h) List.Forall₂.nil

/-- A step adds the record of its event, if that was filled in. -/
theorem step_completed {t t' : Thread} {a : ThreadAct} (hc : KeepsLines t a)
    (hs : stepOf threadStep t a t') :
    ∃ new, t'.recorded = t.recorded ++ new ∧ List.Forall₂ TracedRecord (completedBy t a) new := by
  obtain ⟨-, hev⟩ := hc
  cases a with
  | syscall fuel ev load =>
    simp only [stepOf, threadStep] at hs
    split at hs
    · exact record_completed hev.1 hev.2 hs
    · cases hs
  | exit fuel ev load =>
    simp only [stepOf, threadStep] at hs
    split at hs
    · exact record_completed hev.1 hev.2 hs
    · cases hs
  | drain fuel =>
    simp only [stepOf, threadStep] at hs
    split at hs
    · obtain ⟨r, -, rfl⟩ := Option.map_eq_some_iff.mp hs
      exact ⟨[], (List.append_nil _).symm, List.Forall₂.nil⟩
    · cases hs
  | release =>
    simp only [stepOf, threadStep] at hs
    split at hs
    · cases hs
      exact ⟨[], (List.append_nil _).symm, List.Forall₂.nil⟩
    · cases hs

/-- What was recorded in a run are the records of its completed events, in their order. -/
theorem recorded_of_run {b₀ : NodBuffer} {t : Thread} {tr : List (Thread × ThreadAct)}
    (hrun : Run (stepOf threadStep) (Thread.start b₀) tr t) (hc : Meets KeepsLines tr) :
    List.Forall₂ TracedRecord (completed tr) t.recorded := by
  induction hrun with
  | nil => exact List.Forall₂.nil
  | snoc hrun hs ih =>
    obtain ⟨hc, hca⟩ := meets_snoc.mp hc
    obtain ⟨new, hnew, hlast⟩ := step_completed hca hs
    rw [hnew, completed, List.flatMap_append, List.flatMap_singleton]
    exact List.rel_append (ih hc) hlast

/-- The lines of some records. -/
theorem lines_of_records {evs : List (Event × NodBuffer)} {recs : List (List UInt8)}
    (h : List.Forall₂ TracedRecord evs recs) : ∃ lines, List.Forall₂ LineOf evs lines ∧
      List.Forall₂ (fun line bs => ∀ out opens, luaEvtSave out opens bs =
        if opens then line else []) lines recs := by
  induction h with
  | nil => exact ⟨[], List.Forall₂.nil, List.Forall₂.nil⟩
  | cons hhead _ ih =>
    obtain ⟨lines, h1, h2⟩ := ih
    obtain ⟨line, hline, hsave⟩ := hhead.2.luaEvtSave_eq hhead.1
    exact ⟨line :: lines, List.Forall₂.cons hline h1, List.Forall₂.cons hsave h2⟩

/-- What is appended for them. -/
theorem saveAll_eq {lines recs : List (List UInt8)}
    (h : List.Forall₂ (fun line bs => ∀ out opens, luaEvtSave out opens bs =
      if opens then line else []) lines recs) (out : Nat → Image) (opens : Nat → Bool) :
    saveAll out opens recs =
      (lines.mapIdx fun i line => if opens i then line else []).flatten := by
  unfold saveAll
  induction h generalizing out opens with
  | nil => rfl
  | cons hhead _ ih =>
    rw [List.mapIdx_cons, List.mapIdx_cons, List.flatten_cons, List.flatten_cons, hhead,
      ih (fun i => out (i + 1)) fun i => opens (i + 1)]

/-- **From the system call to the log**: over every life of a thread that loses no record, a script
that saves every event appends one line for each system call whose record was filled in, in the order
of the calls, up to the records that are counted in `n_drop_evts_unsolved` in the end; and each line
shows the values that were pushed for its call. -/
theorem log_complete {size : UInt64} {pages : Region → Image} {b₀ : NodBuffer} {t : Thread}
    {tr : List (Thread × ThreadAct)} (hinit : NodBuffer.initBuffer size pages = some b₀)
    (hrun : Run (stepOf threadStep) (Thread.start b₀) tr t) (hc : Meets KeepsLines tr)
    (hrel : t.phase = .released) (out : Nat → Image) (opens : Nat → Bool) :
    ∃ lines lost, List.Forall₂ LineOf (completed tr) (lines ++ lost) ∧
      lines.length = t.delivered.length ∧ lost.length = t.stat.nDropEvtsUnsolved ∧
      saveAll out opens t.delivered =
        (lines.mapIdx fun i line => if opens i then line else []).flatten := by
  have h₀ : Flowing (Thread.start b₀) := by
    refine ⟨fun _ => ⟨_, initBuffer_holds hinit, rfl, fun _ => rfl⟩, fun _ => rfl, ?_⟩
    intro hr
    cases hr
  have hflow : Flowing t := hrun.invariant (fun h hc hs => h.step hc hs) h₀ fun x hx => (hc x hx).1
  obtain ⟨rest, hrecs, hrest⟩ := hflow.accounted hrel
  obtain ⟨lines, hlines, hsaved⟩ := lines_of_records (recorded_of_run hrun hc)
  -- the lines of the records that were handed over, and of those that were not
  rw [hrecs] at hsaved
  have hdelivered := List.forall₂_take_append lines t.delivered rest hsaved
  have hlost := List.forall₂_drop_append lines t.delivered rest hsaved
  refine ⟨lines.take t.delivered.length, lines.drop t.delivered.length, ?_, ?_, ?_, ?_⟩
  · rwa [List.take_append_drop]
  · exact hdelivered.length_eq
  · rw [hlost.length_eq, hrest]
  · exact saveAll_eq hdelivered out opens

/-- `exit_group(0)`. -/
def exitGroupCall : Syscall := { Syscall.idle with nr := 231 }

/-- Its event in thread 7 on CPU 1, with the monitor to be loaded. -/
def exitGroupEvent : Event := exitGroupCall.traced Kernel.idle 5 7 1 true

/-- A thread that changes its directory to "/usr/lib" and exits.  The monitor is loaded, drains the
buffer, and the thread is released: the log has the two lines. -/
theorem log_complete_chdir : ∃ tr t, Run (stepOf threadStep) (Thread.start smallBuffer) tr t ∧
    (t.phase = .released ∧ t.delivered.length = 2) ∧
    ∃ lines lost, List.Forall₂ LineOf (completed tr) (lines ++ lost) ∧
      lines.length = t.delivered.length ∧ lost.length = t.stat.nDropEvtsUnsolved ∧
      saveAll (fun _ _ => 0xFF) (fun _ => true) t.delivered =
        (lines.mapIdx fun _ line => if true then line else []).flatten := by
  have hexec : (execMeeting (fun t a => KeepsEvents t a ∧ GaplessIn t a) threadStep
      (Thread.start smallBuffer)
      [.syscall 1 chdirEvent notLoaded, .exit 1 exitGroupEvent (loadedAt 4096), .drain 3,
        .release]).map (fun t => (t.phase, t.delivered.length)) = some (.released, 2) := by
    decide +kernel
  obtain ⟨t, ht, hend⟩ := Option.map_eq_some_iff.mp hexec
  obtain ⟨hrel, hlength⟩ := Prod.mk.inj hend
  obtain ⟨tr, hacts, hrun, hmeets⟩ := exists_run_of_execMeeting ht
  have hchdir : OfSyscall chdirEvent := ⟨_, _, _, _, _, _, by decide, rfl⟩
  have hexit : OfSyscall exitGroupEvent := ⟨_, _, _, _, _, _, by decide, rfl⟩
  refine ⟨tr, t, hrun, ⟨hrel, hlength⟩, log_complete initBuffer_small hrun ?_ hrel _ _⟩
  intro x hx
  obtain ⟨hkeeps, hgap⟩ := hmeets x hx
  have ha : x.2 ∈ [ThreadAct.syscall 1 chdirEvent notLoaded,
      .exit 1 exitGroupEvent (loadedAt 4096), .drain 3, .release] :=
    hacts ▸ List.mem_map_of_mem hx
  refine ⟨hkeeps, ?_⟩
  simp only [List.mem_cons, List.not_mem_nil, or_false] at ha
  rcases ha with h | h | h | h <;> rw [h] at hgap ⊢
  · exact ⟨hchdir, hgap⟩
  · exact ⟨hexit, hgap⟩
  · trivial
  · trivial

end NoDrop
