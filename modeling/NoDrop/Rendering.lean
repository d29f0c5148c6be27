import NoDrop.EventNames
import NoDrop.Lib.Numerals
import NoDrop.Lib.Words
import NoDrop.Lib.Snprintf

/-! # Rendering events

`monitor/src/lua_field.c` shows events to Lua scripts as text.  `evt_arg_to_string` renders one
argument, by the type and the format its parameter declares, into a buffer of 256 bytes.
`get_whole_event` puts the text of a record together in a buffer of 2048 bytes, piece by
piece, and looks at how far it has come only after each argument.

No event comes that far (`getWholeEvent_fits`): with the longest name, the longest arguments and
the largest numbers, every event type stays below.  That is a fact about the whole table
(`eventBound_lt`).

A number can be read back from its text, unless its parameter's format is `PF_NA`, for which
the text is empty (`numberKept_iff`).  Seven parameters of the table are like that
(`fmt_na_iff`).
-/
namespace NoDrop

open Bytes Numerals Snprintf

/-! ## Data -/

/-- A literal of the source. -/
def ascii (s : String) : List UInt8 := s.toList.map fun c => UInt8.ofNat c.toNat

/-- How `__print_format` treats a parameter: the size of the number, and whether it has a
sign. -/
structure IntRow where
  bytes : Nat
  signed : Bool
deriving DecidableEq, Repr

/-- The cases of `evt_arg_to_string` for numbers. -/
def ParamType.intRow : ParamType → Option IntRow
  | .flags8 | .uint8 | .sigtype => some ⟨1, false⟩
  | .flags16 | .uint16 | .syscallid => some ⟨2, false⟩
  | .flags32 | .uint32 | .mode | .uid | .gid | .sigset => some ⟨4, false⟩
  | .reltime | .abstime | .uint64 => some ⟨8, false⟩
  | .int8 => some ⟨1, true⟩
  | .int16 => some ⟨2, true⟩
  | .int32 => some ⟨4, true⟩
  | .int64 | .errno | .fd | .pid => some ⟨8, true⟩
  | _ => Option.none

/-- Its case for strings. -/
def ParamType.isString : ParamType → Bool
  | .fspath | .fsrelpath | .charbuf => true
  | _ => false

/-- What is read of a `struct nod_param_info`. -/
structure Param where
  type : ParamType
  text : ParamText

/-- The parameters that a record of a type has. -/
def eventParams (ty : EventType) : List Param :=
  (List.range (gEventInfo ty).nparams).map fun i =>
    ⟨((gEventInfo ty).param i).type, (gEventText ty).param i⟩

/-- What is read of a `struct nod_event_hdr`. -/
structure EventHdr where
  ts : UInt64
  tid : UInt32
  cpuid : UInt16
  type : EventType

/-! ## `monitor/src/lua_field.c` -/

/-- The integer that the low bytes of a word stand for. -/
def signedVal (bytes n : Nat) : Int := if n < 2 ^ (8 * bytes - 1) then n else n - 2 ^ (8 * bytes)

/-- What an unsigned conversion prints: the argument is promoted to `int` at least, so that a
short negative number keeps its sign in all the bits of an `int`. -/
def promoted (row : IntRow) (n : Nat) : Nat :=
  if row.signed then (signedVal row.bytes n % (2 ^ (8 * max row.bytes 4) : Nat)).toNat else n

/-- `__print_format`, applied to a number.  The row of `PT_UINT8` has a signed conversion for
the padded format, but a byte without a sign is never negative as an `int`. -/
def printInt (row : IntRow) (fmt : PrintFormat) (n : Nat) : List UInt8 :=
  match fmt with
  | .na => []
  | .dec => decimal 0 (if row.signed then signedVal row.bytes n else n)
  | .hex => ascii "0x" ++ numeral 16 (promoted row n)
  | .paddedDec => decimal 10 (if row.signed then signedVal row.bytes n else n)
  | .oct => ascii "0" ++ numeral 8 (promoted row n)

/-- What `evt_arg_to_string` prints where it does not copy. -/
def argText (p : Param) (img : Image) (data len : Nat) : List UInt8 :=
  if p.type = .bytebuf then ascii "<binary:" ++ numeral 10 len ++ ascii ">"
  else
    match p.type.intRow with
    | some row => printInt row p.text.fmt (leNat (img.read data row.bytes))
    | none => ascii "<unknown>"

/-- `evt_arg_to_string`: what it stores at `buf`, and its return value. -/
def evtArgToString (p : Param) (img : Image) (data len bufsz : Nat) : List UInt8 × Int :=
  if bufsz = 0 then ([], -1)
  else if p.type.isString then
    let n := if len < bufsz - 1 then len else bufsz - 1
    (img.read data n ++ [0], n)
  else (stored bufsz (argText p img data len), (argText p img data len).length)

/-- `args[i]`, where `img` is the record from after its header. -/
def argAt (img : Image) (i : Nat) : Nat := leNat (img.read (2 * i) 2)

/-- The beginning of an event's text. -/
def headerText (hdr : EventHdr) : List UInt8 :=
  numeral 10 hdr.ts.toNat ++ ascii " " ++ numeral 10 hdr.tid.toNat ++ ascii " (" ++
    numeral 10 hdr.cpuid.toNat ++ ascii "): " ++ ascii (gEventText hdr.type).name ++ ascii "("

/-- An argument as it is in `tmp`. -/
def tmpText (p : Param) (img : Image) (data len : Nat) : List UInt8 :=
  cString (evtArgToString p img data len 256).1

/-- The loop of `get_whole_event`, from parameter `i` on. -/
def renderParams (mxSize : Nat) (img : Image) : List Param → Nat → Nat → Printing → Printing
  | [], _, _, s => s
  | p :: ps, i, data, s =>
      let s := if 0 < i then s.print mxSize (ascii ", ") else s
      let s := s.print mxSize (ascii p.text.name ++ ascii "=")
      let s := s.print mxSize (tmpText p img data (argAt img i))
      if mxSize ≤ s.off then s
      else renderParams mxSize img ps (i + 1) (data + argAt img i) s

/-- `get_whole_event`: the calls it makes, and in the end `off`, which it returns. -/
def getWholeEvent (hdr : EventHdr) (img : Image) (mxSize : Nat) : Printing :=
  let s := Printing.start.print mxSize (headerText hdr)
  let s := renderParams mxSize img (eventParams hdr.type) 0 (2 * (gEventInfo hdr.type).nparams) s
  s.print mxSize (ascii ")\n")

/-! ## The text of an event -/

/-- The pieces of the loop. -/
def paramPieces (img : Image) : List Param → Nat → Nat → List (List UInt8)
  | [], _, _ => []
  | p :: ps, i, data =>
      (if 0 < i then [ascii ", "] else []) ++
        (ascii p.text.name ++ ascii "=") :: tmpText p img data (argAt img i) ::
          paramPieces img ps (i + 1) (data + argAt img i)

/-- All pieces. -/
def eventPieces (hdr : EventHdr) (img : Image) : List (List UInt8) :=
  headerText hdr :: paramPieces img (eventParams hdr.type) 0 (2 * (gEventInfo hdr.type).nparams) ++
    [ascii ")\n"]

section Loop

variable {mxSize : Nat} {img : Image}

/-- As long as there is room, the loop prints all its pieces. -/
theorem renderParams_eq {ps : List Param} {i data : Nat} {s : Printing}
    (h : s.off + (paramPieces img ps i data).flatten.length < mxSize) :
    renderParams mxSize img ps i data s = s.printAll mxSize (paramPieces img ps i data) := by
  induction ps generalizing i data s with
  | nil => rfl
  | cons p ps ih =>
    -- what this round prints
    obtain ⟨sep, hsep⟩ : ∃ sep : List (List UInt8), (if 0 < i then [ascii ", "] else []) = sep :=
      ⟨_, rfl⟩
    have hs : (if 0 < i then s.print mxSize (ascii ", ") else s) = s.printAll mxSize sep := by
      rw [← hsep]
      split <;> rfl
    rw [paramPieces, hsep, List.flatten_append, List.flatten_cons, List.flatten_cons] at h
    simp only [List.length_append] at h
    rw [renderParams, paramPieces, hsep, hs, Printing.printAll_append]
    have hoff := Printing.printAll_off mxSize s sep
    rw [if_neg]
    · rw [ih]
      · rfl
      · simp only [Printing.print, hoff, List.length_append]
        omega
    · simp only [Printing.print, hoff, List.length_append]
      omega

/-- An event whose text is shorter than the buffer. -/
theorem getWholeEvent_eq {hdr : EventHdr} (h : (eventPieces hdr img).flatten.length < mxSize) :
    getWholeEvent hdr img mxSize = Printing.start.printAll mxSize (eventPieces hdr img) := by
  unfold eventPieces at h ⊢
  rw [List.cons_append, List.flatten_cons, List.flatten_append] at h
  simp only [List.length_append] at h
  unfold getWholeEvent
  dsimp only
  rw [renderParams_eq]
  · rw [List.cons_append, Printing.printAll_cons, Printing.printAll_append]
    rfl
  · show 0 + _ + _ < mxSize
    omega

end Loop

/-! ## How long it gets -/

section Bounds

/-- A word of some bytes. -/
theorem leNat_lt_two_pow (bs : List UInt8) : leNat bs < 2 ^ (8 * bs.length) := by
  rw [Nat.pow_mul]
  exact Image.leNat_lt bs

theorem intRow_bytes {t : ParamType} {row : IntRow} (h : t.intRow = some row) :
    0 < row.bytes ∧ row.bytes ≤ 8 := by
  cases t <;> cases h <;> decide

/-- A number of up to eight bytes is below `10 ^ 20`, with or without a sign. -/
theorem signedVal_natAbs_lt {bytes n : Nat} (hb : bytes ≤ 8) (hn : n < 2 ^ (8 * bytes)) :
    (signedVal bytes n).natAbs < 10 ^ 20 := by
  have hpow : 2 ^ (8 * bytes) ≤ 2 ^ 64 := Nat.pow_le_pow_right (by decide) (by omega)
  have hcast : (2 : Int) ^ (8 * bytes) = (2 ^ (8 * bytes) : Nat) := by push_cast; rfl
  unfold signedVal
  rw [hcast]
  split <;> omega

/-- The low bits of a promoted number are the number. -/
theorem promoted_mod (row : IntRow) {n : Nat} (hn : n < 2 ^ (8 * row.bytes)) :
    promoted row n % 2 ^ (8 * row.bytes) = n := by
  unfold promoted
  split
  · have hcast : (2 : Int) ^ (8 * row.bytes) = (2 ^ (8 * row.bytes) : Nat) := by push_cast; rfl
    have hsigned : signedVal row.bytes n % (2 ^ (8 * row.bytes) : Nat) = n := by
      unfold signedVal
      rw [hcast]
      split
      · exact Int.emod_eq_of_lt (by omega) (by omega)
      · rw [Int.sub_emod_right]
        exact Int.emod_eq_of_lt (by omega) (by omega)
    have hdvd : ((2 ^ (8 * row.bytes) : Nat) : Int) ∣ (2 ^ (8 * max row.bytes 4) : Nat) :=
      Int.natCast_dvd_natCast.mpr (Nat.pow_dvd_pow 2 (by omega))
    have hnonneg : 0 ≤ signedVal row.bytes n % (2 ^ (8 * max row.bytes 4) : Nat) :=
      Int.emod_nonneg _ (by positivity)
    apply Int.ofNat.inj
    show ((_ % _ : Nat) : Int) = n
    rw [Int.natCast_mod, Int.toNat_of_nonneg hnonneg, Int.emod_emod_of_dvd _ hdvd, hsigned]
  · exact Nat.mod_eq_of_lt hn

theorem promoted_lt {row : IntRow} (hb : row.bytes ≤ 8) {n : Nat} (hn : n < 2 ^ (8 * row.bytes)) :
    promoted row n < 2 ^ 64 := by
  have hle : ∀ k ≤ 8, 2 ^ (8 * k) ≤ 2 ^ 64 := fun k hk => Nat.pow_le_pow_right (by decide) (by omega)
  unfold promoted
  split
  · have hlt := Int.emod_lt_of_pos (signedVal row.bytes n)
      (show (0 : Int) < (2 ^ (8 * max row.bytes 4) : Nat) by positivity)
    have := hle (max row.bytes 4) (by omega)
    omega
  · have := hle row.bytes hb
    omega

theorem printInt_length_le {row : IntRow} (hb : row.bytes ≤ 8) (fmt : PrintFormat) {n : Nat}
    (hn : n < 2 ^ (8 * row.bytes)) : (printInt row fmt n).length ≤ 23 := by
  have hpow : 2 ^ (8 * row.bytes) ≤ 2 ^ 64 := Nat.pow_le_pow_right (by decide) (by omega)
  have habs : ∀ P : Prop, ∀ _ : Decidable P,
      (if P then signedVal row.bytes n else (n : Int)).natAbs < 10 ^ 20 := by
    intro P _
    split
    · exact signedVal_natAbs_lt hb hn
    · omega
  have hprom := promoted_lt hb hn
  cases fmt with
  | na => exact Nat.zero_le _
  | dec => exact (decimal_length_le 0 (by decide) (habs _ _)).trans (by decide)
  | hex =>
    have hlen := numeral_length_le (show 1 < 16 by decide) (k := 16) (by decide)
      (n := promoted row n) (by omega)
    show (ascii "0x" ++ numeral 16 (promoted row n)).length ≤ 23
    rw [List.length_append]
    have : (ascii "0x").length = 2 := by decide
    omega
  | paddedDec => exact (decimal_length_le 10 (by decide) (habs _ _)).trans (by decide)
  | oct =>
    have hlen := numeral_length_le (show 1 < 8 by decide) (k := 22) (by decide)
      (n := promoted row n) (by omega)
    show (ascii "0" ++ numeral 8 (promoted row n)).length ≤ 23
    rw [List.length_append]
    have : (ascii "0").length = 1 := by decide
    omega

theorem argAt_lt (img : Image) (i : Nat) : argAt img i < 2 ^ 16 := by
  have h := leNat_lt_two_pow (img.read (2 * i) 2)
  rw [Image.read_length] at h
  exact h

theorem argText_length_le (p : Param) (img : Image) (data : Nat) {len : Nat} (hlen : len < 2 ^ 16) :
    (argText p img data len).length ≤ 23 := by
  unfold argText
  split
  · have h := numeral_length_le (show 1 < 10 by decide) (k := 5) (by decide) (n := len) (by omega)
    rw [List.length_append, List.length_append]
    have h1 : (ascii "<binary:").length = 8 := by decide
    have h2 : (ascii ">").length = 1 := by decide
    omega
  · split
    · rename_i row hrow
      have h := leNat_lt_two_pow (img.read data row.bytes)
      rw [Image.read_length] at h
      exact printInt_length_le (intRow_bytes hrow).2 _ h
    · decide

/-- **`evt_arg_to_string` stays inside its buffer.** -/
theorem evtArgToString_length_le (p : Param) (img : Image) (data len bufsz : Nat) :
    (evtArgToString p img data len bufsz).1.length ≤ bufsz := by
  unfold evtArgToString
  split
  · exact Nat.zero_le _
  · split
    · rw [List.length_append, Image.read_length, List.length_singleton]
      split <;> omega
    · exact stored_length_le ..

/-- How long an argument's text may be. -/
def Param.bound (p : Param) : Nat := if p.type.isString then 255 else 23

theorem tmpText_length_le (p : Param) (img : Image) (data : Nat) {len : Nat} (hlen : len < 2 ^ 16) :
    (tmpText p img data len).length ≤ p.bound := by
  unfold tmpText evtArgToString Param.bound
  rw [if_neg (by decide)]
  split
  · rw [cString_append_end]
    refine (cString_length_le _).trans ?_
    rw [Image.read_length]
    split <;> omega
  · have h := argText_length_le p img data hlen
    rw [stored_of_lt (by omega), cString_append_end]
    exact (cString_length_le _).trans h

/-- How long the text of an event may be. -/
def eventBound (ty : EventType) : Nat := 59 + ((eventParams ty).map fun p => 18 + p.bound).sum

/-- No event type comes up to the size of the buffer. -/
theorem eventBound_lt (ty : EventType) : eventBound ty < 2048 := by
  cases ty <;> decide

theorem ascii_length_le {name : String} (h : nameOk name) : (ascii name).length ≤ 15 := by
  rw [nameOk, Bool.and_eq_true] at h
  rw [ascii, List.length_map]
  exact of_decide_eq_true h.1

theorem ascii_ne_zero {name : String} (h : nameOk name) {c : UInt8} (hc : c ∈ ascii name) :
    c ≠ 0 := by
  rw [nameOk, Bool.and_eq_true, List.all_eq_true] at h
  obtain ⟨d, hd, rfl⟩ := List.mem_map.mp hc
  have hlt := h.2 d hd
  rw [Bool.and_eq_true, decide_eq_true_eq, decide_eq_true_eq] at hlt
  intro h0
  have hnat := congrArg UInt8.toNat h0
  rw [UInt8.toNat_ofNat', Nat.mod_eq_of_lt (by omega)] at hnat
  exact absurd hnat (Nat.ne_of_gt hlt.1)

theorem eventParams_nameOk (ty : EventType) : ∀ p ∈ eventParams ty, nameOk p.text.name := by
  intro p hp
  obtain ⟨i, -, rfl⟩ := List.mem_map.mp hp
  exact gEventText_param_nameOk ty i

theorem headerText_length_le (hdr : EventHdr) : (headerText hdr).length ≤ 57 := by
  have hts := numeral_length_le (show 1 < 10 by decide) (k := 20) (by decide) (n := hdr.ts.toNat)
    (Nat.lt_trans hdr.ts.toNat_lt (by decide))
  have htid := numeral_length_le (show 1 < 10 by decide) (k := 10) (by decide) (n := hdr.tid.toNat)
    (Nat.lt_trans hdr.tid.toNat_lt (by decide))
  have hcpu := numeral_length_le (show 1 < 10 by decide) (k := 5) (by decide)
    (n := hdr.cpuid.toNat) (Nat.lt_trans hdr.cpuid.toNat_lt (by decide))
  have hname := ascii_length_le (gEventText_nameOk hdr.type).1
  have hlit : (ascii " ").length = 1 ∧ (ascii " (").length = 2 ∧ (ascii "): ").length = 3 ∧
      (ascii "(").length = 1 := by decide
  simp only [headerText, List.length_append]
  omega

theorem paramPieces_length_le (img : Image) {ps : List Param} (hps : ∀ p ∈ ps, nameOk p.text.name)
    (i data : Nat) :
    (paramPieces img ps i data).flatten.length ≤ (ps.map fun p => 18 + p.bound).sum := by
  induction ps generalizing i data with
  | nil => exact Nat.le_refl 0
  | cons p ps ih =>
    have hrest := ih (fun q hq => hps q (List.mem_cons_of_mem _ hq)) (i + 1) (data + argAt img i)
    have hname := ascii_length_le (hps p List.mem_cons_self)
    have hval := tmpText_length_le p img data (argAt_lt img i)
    have hlit : (ascii ", ").length = 2 ∧ (ascii "=").length = 1 := by decide
    have hsep : (if 0 < i then [ascii ", "] else []).flatten.length ≤ 2 := by
      split
      · exact Nat.le_of_eq hlit.1
      · exact Nat.zero_le 2
    rw [paramPieces, List.flatten_append, List.flatten_cons, List.flatten_cons, List.map_cons,
      List.sum_cons]
    simp only [List.length_append]
    omega

/-- **Every event is shorter than the buffer of the callers.** -/
theorem eventPieces_length_lt (hdr : EventHdr) (img : Image) :
    (eventPieces hdr img).flatten.length < 2048 := by
  have hbound := eventBound_lt hdr.type
  have hhdr := headerText_length_le hdr
  have hps := paramPieces_length_le img (eventParams_nameOk hdr.type) 0
    (2 * (gEventInfo hdr.type).nparams)
  have hlit : (ascii ")\n").length = 2 := by decide
  unfold eventBound at hbound
  rw [eventPieces, List.cons_append, List.flatten_cons, List.flatten_append]
  simp only [List.length_append, List.flatten_cons, List.flatten_nil, List.length_nil]
  omega

end Bounds

/-! ## Its characters -/

section Chars

theorem tmpText_ne_zero {p : Param} {img : Image} {data len : Nat} {c : UInt8}
    (hc : c ∈ tmpText p img data len) : c ≠ 0 := cString_ne_zero hc

theorem headerText_ne_zero {hdr : EventHdr} {c : UInt8} (hc : c ∈ headerText hdr) : c ≠ 0 := by
  have hnum : ∀ {n}, c ∈ numeral 10 n → c ≠ 0 := fun h =>
    (numeral_chars (by decide) (by decide) h).1
  have hlit : ∀ {lit}, nameOk lit → c ∈ ascii lit → c ≠ 0 := fun hok h => ascii_ne_zero hok h
  simp only [headerText, List.mem_append] at hc
  rcases hc with ((((((hc | hc) | hc) | hc) | hc) | hc) | hc) | hc
  · exact hnum hc
  · exact hlit (by decide) hc
  · exact hnum hc
  · exact hlit (by decide) hc
  · exact hnum hc
  · exact hlit (by decide) hc
  · exact hlit (gEventText_nameOk hdr.type).1 hc
  · exact hlit (by decide) hc

theorem paramPieces_ne_zero {img : Image} {ps : List Param} (hps : ∀ p ∈ ps, nameOk p.text.name)
    {i data : Nat} {c : UInt8} (hc : c ∈ (paramPieces img ps i data).flatten) : c ≠ 0 := by
  induction ps generalizing i data with
  | nil => cases hc
  | cons p ps ih =>
    rw [paramPieces, List.flatten_append, List.flatten_cons, List.flatten_cons] at hc
    simp only [List.mem_append] at hc
    rcases hc with hc | (hc | hc) | hc | hc
    · split at hc
      · exact ascii_ne_zero (by decide : nameOk ", ") (by simpa using hc)
      · cases hc
    · exact ascii_ne_zero (hps p List.mem_cons_self) hc
    · exact ascii_ne_zero (by decide : nameOk "=") hc
    · exact tmpText_ne_zero hc
    · exact ih (fun q hq => hps q (List.mem_cons_of_mem _ hq)) hc

/-- An event's text has no `NUL` in it. -/
theorem eventPieces_ne_zero {hdr : EventHdr} {img : Image} {c : UInt8}
    (hc : c ∈ (eventPieces hdr img).flatten) : c ≠ 0 := by
  rw [eventPieces, List.cons_append, List.flatten_cons, List.flatten_append] at hc
  simp only [List.mem_append] at hc
  rcases hc with hc | hc | hc
  · exact headerText_ne_zero hc
  · exact paramPieces_ne_zero (eventParams_nameOk hdr.type) hc
  · exact ascii_ne_zero (by decide : nameOk ")\n") (by simpa using hc)

end Chars

/-! ## Events and arguments in their buffers -/

/-- **Rendering an event stays inside the buffer, and the text is whole**: after every
`snprintf` the offset is below 2048, and no call stores anything outside; the buffer then holds
the text of the event, which ends with a parenthesis and a newline and is as long as what is
returned.  The buffer of an argument is not left either. -/
theorem getWholeEvent_fits (hdr : EventHdr) (img buf : Image) :
    (∀ call ∈ (getWholeEvent hdr img 2048).calls,
      call.next < 2048 ∧ call.size = 2048 - call.off ∧ call.write.stop ≤ 2048) ∧
    (∃ body, cString (((getWholeEvent hdr img 2048).out buf).read 0 2048) = body ++ ascii ")\n") ∧
    (getWholeEvent hdr img 2048).off =
      (cString (((getWholeEvent hdr img 2048).out buf).read 0 2048)).length ∧
    ∀ p data len, (evtArgToString p img data len 256).1.length ≤ 256 := by
  have hlen := eventPieces_length_lt hdr img
  rw [getWholeEvent_eq hlen]
  obtain ⟨s, hs⟩ : ∃ s, Printing.start.printAll 2048 (eventPieces hdr img) = s := ⟨_, rfl⟩
  have hfits : s.Fits 2048 := by
    rw [← hs]
    refine (Printing.Fits.start 2048).printAll (by decide) ?_
    rw [show Printing.start.off = 0 from rfl, Nat.zero_add]
    exact hlen
  have htext : s.text = (eventPieces hdr img).flatten := by
    rw [← hs, Printing.text_printAll]
    rfl
  have hend : ∃ body, s.text = body ++ ascii ")\n" := by
    rw [htext, eventPieces, List.flatten_append, List.flatten_singleton]
    exact ⟨_, rfl⟩
  have hcalls : s.calls ≠ [] := by
    intro hnil
    obtain ⟨body, hbody⟩ := hend
    have hlit : ascii ")\n" ≠ [] := by decide
    rw [Printing.text, hnil] at hbody
    exact hlit (List.append_eq_nil_iff.mp hbody.symm).2
  have hoff : s.off < 2048 := by
    rw [hfits.off, htext]
    exact hlen
  -- behind the text there is a `NUL`, and in it there is none
  have hstr : cString ((s.out buf).read 0 2048) = s.text := by
    obtain ⟨k, hk⟩ : ∃ k, 2048 = s.off + (1 + k) := ⟨2047 - s.off, by omega⟩
    rw [hk, Image.read_add, hfits.out buf, Image.read_add]
    have hnul : (s.out buf).read (0 + s.off) 1 = [0] := by
      rw [Nat.zero_add]
      show [s.out buf (s.off + 0)] = [0]
      rw [Nat.add_zero, hfits.ends buf hcalls]
    rw [hnul]
    refine cString_append_zero (fun c hc => ?_) _
    rw [htext] at hc
    exact eventPieces_ne_zero hc
  rw [hs, hstr]
  refine ⟨fun call hcall => ?_, hend, hfits.off, fun p data len => evtArgToString_length_le ..⟩
  obtain ⟨hsize, hnext, hstop⟩ := hfits.calls call hcall
  exact ⟨hnext, hsize, hstop⟩

/-! ## Numbers -/

section Numbers

theorem signedVal_inj {bytes n m : Nat} (hn : n < 2 ^ (8 * bytes)) (hm : m < 2 ^ (8 * bytes))
    (h : signedVal bytes n = signedVal bytes m) : n = m := by
  have hcast : (2 : Int) ^ (8 * bytes) = (2 ^ (8 * bytes) : Nat) := by push_cast; rfl
  unfold signedVal at h
  rw [hcast] at h
  split at h <;> split at h <;> omega

/-- Whatever the format, but for `PF_NA`, the number can be read back. -/
theorem printInt_inj {row : IntRow} {fmt : PrintFormat} (hfmt : fmt ≠ .na) {n m : Nat}
    (hn : n < 2 ^ (8 * row.bytes)) (hm : m < 2 ^ (8 * row.bytes))
    (h : printInt row fmt n = printInt row fmt m) : n = m := by
  have hdec : ∀ width, ∀ P : Prop, ∀ _ : Decidable P,
      decimal width (if P then signedVal row.bytes n else n) =
        decimal width (if P then signedVal row.bytes m else m) → n = m := by
    intro width P _ h
    have hval := congrArg readDecimal h
    rw [readDecimal_decimal, readDecimal_decimal] at hval
    split at hval
    · exact signedVal_inj hn hm hval
    · exact Int.ofNat.inj hval
  have hnum : ∀ base lit, 1 < base → base ≤ 16 →
      ascii lit ++ numeral base (promoted row n) = ascii lit ++ numeral base (promoted row m) →
        n = m := by
    intro base lit hb hb' h
    have hval := congrArg (readNumeral base) (List.append_cancel_left h)
    rw [readNumeral_numeral hb hb', readNumeral_numeral hb hb'] at hval
    rw [← promoted_mod row hn, hval, promoted_mod row hm]
  cases fmt with
  | na => exact absurd rfl hfmt
  | dec => exact hdec 0 _ _ h
  | hex => exact hnum 16 "0x" (by decide) (by decide) h
  | paddedDec => exact hdec 10 _ _ h
  | oct => exact hnum 8 "0" (by decide) (by decide) h

/-- The text of a parameter tells two numbers of its size apart. -/
def NumberKept (p : Param) (row : IntRow) : Prop :=
  ∀ (img img' : Image) (data data' len len' : Nat),
    cString (evtArgToString p img data len 256).1 = cString (evtArgToString p img' data' len' 256).1 →
    leNat (img.read data row.bytes) = leNat (img'.read data' row.bytes)

theorem printInt_ne_zero {row : IntRow} {fmt : PrintFormat} {n : Nat} {c : UInt8}
    (hc : c ∈ printInt row fmt n) : c ≠ 0 := by
  have hnum : ∀ base lit, 1 < base → base ≤ 16 → nameOk lit →
      c ∈ ascii lit ++ numeral base (promoted row n) → c ≠ 0 := by
    intro base lit hb hb' hlit hc
    rcases List.mem_append.mp hc with hc | hc
    · exact ascii_ne_zero hlit hc
    · exact (numeral_chars hb hb' hc).1
  cases fmt with
  | na => cases hc
  | dec => exact decimal_ne_zero hc
  | hex => exact hnum 16 "0x" (by decide) (by decide) (by decide) hc
  | paddedDec => exact decimal_ne_zero hc
  | oct => exact hnum 8 "0" (by decide) (by decide) (by decide) hc

/-- A number's text is what its format gives. -/
theorem cString_evtArgToString {p : Param} {row : IntRow} (hrow : p.type.intRow = some row)
    (img : Image) (data len : Nat) :
    cString (evtArgToString p img data len 256).1 =
      printInt row p.text.fmt (leNat (img.read data row.bytes)) := by
  have hstr : p.type.isString = false := by
    cases ht : p.type <;> rw [ht] at hrow <;> first | rfl | cases hrow
  have hbuf : p.type ≠ .bytebuf := by
    intro ht
    rw [ht] at hrow
    cases hrow
  have htext : argText p img data len =
      printInt row p.text.fmt (leNat (img.read data row.bytes)) := by
    rw [argText, if_neg hbuf, hrow]
  have hlt := leNat_lt_two_pow (img.read data row.bytes)
  rw [Image.read_length] at hlt
  have hlen := printInt_length_le (intRow_bytes hrow).2 p.text.fmt hlt
  rw [evtArgToString, if_neg (by decide), hstr, if_neg Bool.false_ne_true, htext]
  show cString (stored 256 _) = _
  rw [stored_of_lt (by omega), cString_append_zero fun c hc => printInt_ne_zero hc]

/-- **A number of the table can be read back from its text exactly when its format is not
`PF_NA`.** -/
theorem numberKept_iff (ty : EventType) : ∀ p ∈ eventParams ty, ∀ row : IntRow,
    p.type.intRow = some row → (NumberKept p row ↔ p.text.fmt ≠ .na) := by
  intro p _ row hrow
  constructor
  · intro h hna
    -- the texts of 0 and 1 are both empty
    have heq := h (fun _ => 0) (fun i => if i = 0 then 1 else 0) 0 0 0 0 (by
      rw [cString_evtArgToString hrow, cString_evtArgToString hrow, hna]
      rfl)
    obtain ⟨hpos, -⟩ := intRow_bytes hrow
    obtain ⟨k, hk⟩ : ∃ k, row.bytes = 1 + k := ⟨row.bytes - 1, by omega⟩
    rw [hk, Image.read_add, Image.read_add] at heq
    have hlow : ∀ (b : UInt8) bs, leNat ([b] ++ bs) = b.toNat + 256 * leNat bs := fun _ _ => rfl
    have hzero : Image.read (fun _ => (0 : UInt8)) 0 1 = [0] := rfl
    have hone : Image.read (fun i => if i = 0 then (1 : UInt8) else 0) 0 1 = [1] := rfl
    rw [hzero, hone, hlow, hlow] at heq
    have h0 : (0 : UInt8).toNat = 0 := rfl
    have h1 : (1 : UInt8).toNat = 1 := rfl
    omega
  · intro hfmt img img' data data' len len' h
    rw [cString_evtArgToString hrow, cString_evtArgToString hrow] at h
    have hlt := leNat_lt_two_pow (img.read data row.bytes)
    have hlt' := leNat_lt_two_pow (img'.read data' row.bytes)
    rw [Image.read_length] at hlt hlt'
    exact printInt_inj hfmt hlt hlt' h

/-- The descriptor of `close` is kept. -/
theorem numberKept_close : NumberKept ⟨.fd, ⟨"fd", .dec⟩⟩ ⟨8, true⟩ :=
  (numberKept_iff .syscallClose _ (List.mem_map.mpr ⟨0, by decide, rfl⟩) _ rfl).mpr (by decide)

/-- **The descriptor of `fstat` is lost**: its text is empty. -/
theorem fstat_fd_lost : ¬ ∀ (ty : EventType) (p : Param), p ∈ eventParams ty → ∀ row : IntRow,
    p.type.intRow = some row → NumberKept p row := by
  intro hall
  have hkept := hall .syscallFstat ⟨.fd, ⟨"fd", .na⟩⟩ (List.mem_map.mpr ⟨0, by decide, rfl⟩)
    ⟨8, true⟩ rfl
  have heq := hkept (fun _ => 0) (fun i => if i = 0 then 1 else 0) 0 0 8 8 (by decide)
  exact absurd heq (by decide)

/-- The numbers without a format: the descriptor of `fstat`, `fstat64`, `fchdir`, `getdents`,
`getdents64`, `setns` and `flock`. -/
theorem fmt_na_iff (ty : EventType) (i : Nat) (hi : i < (gEventInfo ty).nparams) :
    ((((gEventInfo ty).param i).type.intRow).isSome ∧ ((gEventText ty).param i).fmt = .na) ↔
      i = 0 ∧ ty ∈ [EventType.syscallFstat, .syscallFstat64, .syscallFchdir, .syscallGetdents,
        .syscallGetdents64, .syscallSetns, .syscallFlock] := by
  revert i
  cases ty <;> decide

end Numbers

end NoDrop
