import NoDrop.ResParam
import NoDrop.WriteData

/-! # Offsets and durations

Two kinds of quantities are put together by the fillers before they are recorded.

The offset of a positioned read or write is one 64-bit register on x86-64.  The fillers for that
convention are compiled in by `_64BIT_ARGS_SINGLE_REGISTER`, which nothing defines, so the other
convention is used: the low words of arguments 3 and 4 are merged.

Durations come from a `struct timespec` or `struct timeval` of the caller, two 64-bit numbers.
From 5.6 on the module has its own structures of these names, with two 32-bit numbers, so it reads
the two halves of the seconds.
-/
namespace NoDrop

open Bytes Filler

section

variable {k : Kernel} {s : Syscall} {ts : UInt64} {tid : UInt32} {cpuid : UInt16} {force : Bool}
  {size off j : Nat}

/-- An attempt to record a system call that succeeds fills in some number of arguments. -/
theorem traced_filler_fills (hnr : s.nr.toNat < tableSize)
    (hs : (s.traced k ts tid cpuid force).Succeeds
      ((s.traced k ts tid cpuid force).attempt size off)) :
    ∃ n, (s.traced k ts tid cpuid force).filler.Fills 0 n := by
  obtain ⟨row, hrow, n, hfills, -⟩ := traced_fills hnr hs
  exact ⟨_, fillerCallback_fills hrow hfills⟩

/-- The bytes of an integer parameter are those of the number pushed for it. -/
theorem traced_laid (hnr : s.nr.toNat < tableSize)
    (hstart : 2 * (s.traced k ts tid cpuid force).nargs ≤ off) (hoff : off ≤ size)
    (hsize : size < 2 ^ 32)
    (hs : (s.traced k ts tid cpuid force).Succeeds
      ((s.traced k ts tid cpuid force).attempt size off)) {v : Value} {w : Nat}
    (hputs : (fillerCallback k s (gSyscallEventTable s.nr.toNat)).filler.Puts j v)
    (hw : ((gEventInfo (gSyscallEventTable s.nr.toNat)).param j).type.width = some w)
    (img : Image) :
    (s.traced k ts tid cpuid force).laid size off j img = leBytes w v.val.toNat := by
  obtain ⟨n, hfills⟩ := traced_filler_fills hnr hs
  obtain ⟨hbuf, hdyn⟩ := ParamType.ne_of_width hw
  exact (Event.laid_of_puts hs hstart hoff hsize hfills hputs hbuf hdyn img).scalar hw

theorem leBytes_inj {v v' : UInt64} : leBytes 8 v.toNat = leBytes 8 v'.toNat ↔ v = v' := by
  constructor
  · intro h
    have hnat := congrArg leNat h
    rw [leNat_leBytes_of_lt (UInt64.toNat_lt v), leNat_leBytes_of_lt (UInt64.toNat_lt v')] at hnat
    exact UInt64.toNat_inj.mp hnat
  · intro h
    rw [h]

/-! ## Offsets -/

/-- The parameter `pos` of `pread64`, `pwrite64`, `preadv` and `pwritev`. -/
def posParam (nr : UInt32) : Option Nat :=
  if nr = 17 ∨ nr = 18 ∨ nr = 296 then some 2 else if nr = 295 then some 1 else none

theorem merge64_toNat (hi lo : UInt64) :
    (merge64 hi lo).toNat = hi.toNat % 2 ^ 32 * 2 ^ 32 + lo.toNat % 2 ^ 32 := by
  have hlo : (lo &&& 0xffffffff).toNat = lo.toNat % 2 ^ 32 := by
    rw [UInt64.toNat_and]
    exact Nat.and_two_pow_sub_one_eq_mod lo.toNat 32
  have hhi : (hi <<< 32).toNat = hi.toNat % 2 ^ 32 * 2 ^ 32 := by
    rw [UInt64.toNat_shiftLeft, Nat.shiftLeft_eq]
    show hi.toNat * 2 ^ 32 % 2 ^ 64 = _
    omega
  rw [merge64, UInt64.toNat_add, hhi, hlo]
  omega

theorem merge64_eq_iff (hi lo : UInt64) :
    merge64 hi lo = lo ↔ hi.toNat % 2 ^ 32 = lo.toNat / 2 ^ 32 := by
  rw [← UInt64.toNat_inj, merge64_toNat]
  have := UInt64.toNat_lt lo
  omega

/-- Each of the four fillers pushes the merged offset. -/
theorem pos_puts (hpos : posParam s.nr = some j) :
    s.nr.toNat < tableSize ∧
      (fillerCallback k s (gSyscallEventTable s.nr.toNat)).filler.Puts j (.imm (pos64 s)) ∧
      ((gEventInfo (gSyscallEventTable s.nr.toNat)).param j).type.width = some 8 := by
  unfold posParam at hpos
  split at hpos
  case isTrue h =>
    obtain rfl := Option.some.inj hpos
    rcases h with h | h | h
    · rw [h]
      exact ⟨by decide, rfl, rfl⟩
    · rw [h]
      exact ⟨by decide, rfl, rfl⟩
    · rw [h]
      refine ⟨by decide, ?_, rfl⟩
      exact (fills_pushes (i := 0) (m := 2) (parseReadvWritevBufs_fills _ _ _ _) rfl).seq_puts
        (j := 0) rfl rfl
  case isFalse =>
    split at hpos
    case isTrue h =>
      obtain rfl := Option.some.inj hpos
      rw [h]
      exact ⟨by decide, rfl, rfl⟩
    case isFalse => cases hpos

/-- **The offset of a positioned read or write is recorded exactly if the low word of argument 4
happens to be the high word of argument 3.** -/
theorem posRecorded_iff (hpos : posParam s.nr = some j)
    (hstart : 2 * (s.traced k ts tid cpuid force).nargs ≤ off) (hoff : off ≤ size)
    (hsize : size < 2 ^ 32)
    (hs : (s.traced k ts tid cpuid force).Succeeds
      ((s.traced k ts tid cpuid force).attempt size off)) (img : Image) :
    (s.traced k ts tid cpuid force).laid size off j img = leBytes 8 (s.arg 3).toNat ↔
      (s.arg 4).toNat % 2 ^ 32 = (s.arg 3).toNat / 2 ^ 32 := by
  obtain ⟨hnr, hputs, hw⟩ := pos_puts (k := k) hpos
  rw [traced_laid hnr hstart hoff hsize hs hputs hw img, Value.imm, leBytes_inj]
  exact merge64_eq_iff _ _

end

/-- `pwrite64` of nothing at `pos`, with a word left in the fifth register. -/
def pwriteCall (pos left : UInt64) : Syscall :=
  { Syscall.idle with
    nr := 18
    arg := fun i => if i = 3 then pos else if i = 4 then left else 0 }

theorem pwriteCall_succeeds (pos left : UInt64) :
    ((pwriteCall pos left).traced Kernel.idle 0 0 0 false).Succeeds
      (((pwriteCall pos left).traced Kernel.idle 0 0 0 false).attempt 4068 10) := by
  have hev : (pwriteCall pos left).traced Kernel.idle 0 0 0 false =
      (pwriteCall pos left).recordedBy .syscallPwrite false 0 0 0 := rfl
  rw [hev]
  have hty : EventType.syscallPwrite = .syscallWrite ∨ EventType.syscallPwrite = .syscallPwrite :=
    Or.inr rfl
  refine (recordedBy_found (pwriteCall pos left) false 0 0 0 hty (by decide) ?_ ?_).1
  · exact ⟨Nat.le_refl 0, rfl⟩
  · show 2 * 5 + 28 + min 0 snaplen < 4068
    decide

theorem posRecorded_five :
    ((pwriteCall 5 0).traced Kernel.idle 0 0 0 false).laid 4068 10 2 (fun _ => 0) = leBytes 8 5 :=
  (posRecorded_iff (by decide) (by decide) (by decide) (by decide) (pwriteCall_succeeds 5 0) _).mpr
    (by decide)

/-- An offset of 4 GiB is recorded as zero. -/
theorem pos_not_recorded :
    posParam (pwriteCall 0x100000000 0).nr = some 2 ∧
      ((pwriteCall 0x100000000 0).traced Kernel.idle 0 0 0 false).Succeeds
        (((pwriteCall 0x100000000 0).traced Kernel.idle 0 0 0 false).attempt 4068 10) ∧
      ((pwriteCall 0x100000000 0).traced Kernel.idle 0 0 0 false).laid 4068 10 2 (fun _ => 0) ≠
        leBytes 8 ((pwriteCall 0x100000000 0).arg 3).toNat := by
  have hs := pwriteCall_succeeds 0x100000000 0
  refine ⟨by decide, hs, ?_⟩
  obtain ⟨hnr, hputs, hw⟩ := pos_puts (k := Kernel.idle) (s := pwriteCall 0x100000000 0) (j := 2)
    (by decide)
  rw [traced_laid hnr (by decide) (by decide) (by decide) hs hputs hw _]
  decide

/-! ## Durations -/

/-- A duration that a filler records: the parameter, the address of the caller's structure, the
nanoseconds in the unit of its second number, and the index byte of a `PT_DYN` parameter. -/
structure Duration where
  param : Nat
  addr : UInt64
  unit : UInt64
  index : List UInt8

/-- The interval of `nanosleep`, the timeout of `ppoll` if there is one, and the value of
`SO_RCVTIMEO` and `SO_SNDTIMEO` in `setsockopt` and `getsockopt`. -/
def Syscall.duration (s : Syscall) : Option Duration :=
  if s.nr = 35 then some ⟨0, s.arg 0, 1, []⟩
  else if s.nr = 271 ∧ s.arg 2 ≠ 0 then some ⟨1, s.arg 2, 1, []⟩
  else if (s.nr = 54 ∨ s.nr = 55) ∧ (s.arg 1).toUInt32 = solSocket ∧
      ((s.arg 2).toUInt32 = 20 ∨ (s.arg 2).toUInt32 = 21) then some ⟨4, s.arg 3, 1000, [4]⟩
  else none

/-- A `struct timespec` or `struct timeval` of the caller: seconds and nano- or microseconds. -/
structure TimeAt (um : UserMem) (addr sec sub : UInt64) : Prop where
  readable : um.Readable addr.toNat 16
  bytes : um.readable addr.toNat 16 = leBytes 8 sec.toNat ++ leBytes 8 sub.toNat

/-- The words that the module's structures take for the seconds and the rest. -/
def lowHalf (v : UInt64) : UInt32 := v.toUInt32

def highHalf (v : UInt64) : UInt32 := (v >>> 32).toUInt32

/-- What `timespec_parse` makes of the seconds. -/
def timespecNs (sec : UInt64) : UInt64 := sext (lowHalf sec) * 1000000000 + sext (highHalf sec)

/-- What `parse_sockopt` makes of them, as a product of `int`s. -/
def timevalNs (sec : UInt64) : UInt64 := sext (lowHalf sec * 1000000000 + highHalf sec * 1000)

theorem TimeAt.copy {um : UserMem} {addr sec sub : UInt64} (h : TimeAt um addr sec sub) :
    um.nodCopyFromUser addr.toNat 8 = (leBytes 8 sec.toNat, 0) := by
  rw [h.readable.copy (by decide), ← um.readable_take addr.toNat (show 8 ≤ 16 by decide), h.bytes]
  rw [List.take_left' (leBytes_length 8 _)]

theorem field32_low (v : UInt64) : field32 (leBytes 8 v.toNat) 0 = lowHalf v := by
  apply UInt32.toNat_inj.mp
  have hbytes : ((leBytes 8 v.toNat).drop 0).take 4 = leBytes 4 v.toNat := rfl
  rw [field32, hbytes, leNat_leBytes, lowHalf, UInt64.toNat_toUInt32, UInt32.toNat_ofNat']
  omega

theorem field32_high (v : UInt64) : field32 (leBytes 8 v.toNat) 4 = highHalf v := by
  apply UInt32.toNat_inj.mp
  have hbytes : ((leBytes 8 v.toNat).drop 4).take 4 =
      leBytes 4 (v.toNat / 256 / 256 / 256 / 256) := rfl
  rw [field32, hbytes, leNat_leBytes, highHalf, UInt64.toNat_toUInt32, UInt32.toNat_ofNat',
    UInt64.toNat_shiftRight, Nat.shiftRight_eq_div_pow]
  show _ = v.toNat / 2 ^ 32 % 2 ^ 32
  omega

/-! ### What is pushed -/

section

variable {ty : EventType} {k : Kernel} {s : Syscall} {sec sub : UInt64} {n : Nat} {next : Filler ty}

theorem timespecParse_puts {addr : UInt64} (h : TimeAt s.um addr sec sub) :
    (timespecParse s addr next).Puts 0 (.imm (timespecNs sec)) := by
  rw [timespecParse, h.copy]
  refine puts_scratch ?_
  simp only [ne_eq, not_true, if_false, field32_low, field32_high]
  rfl

/-- What `parse_sockopt` pushes for a time: without the names of the options, what it pushes for
an unknown one. -/
def timeoutValue (k : Kernel) (sec optval : UInt64) (optlen : UInt32) : Value :=
  if k.timeNames then { val := timevalNs sec, dynIdx := 4 }
  else { val := optval, len := optlen, fromuser := true }

theorem parseSockopt_puts {level optname optlen : UInt32} {optval : UInt64}
    (h : TimeAt s.um optval sec sub) (hlevel : level = solSocket)
    (hopt : optname = 20 ∨ optname = 21) :
    (parseSockopt k s level optname optval optlen next).Puts 0
      (timeoutValue k sec optval optlen) := by
  have h4 : optname ≠ 4 := by rcases hopt with rfl | rfl <;> decide
  have h57 : optname ≠ 57 := by rcases hopt with rfl | rfl <;> decide
  unfold parseSockopt timeoutValue
  simp only [hlevel, ne_eq, not_true, if_false, h4, h57]
  by_cases hk : k.timeNames = true
  · rw [if_pos ⟨hk, hopt⟩, if_pos hk, fetch, h.copy]
    simp only [ne_eq, not_true, if_false, field32_low, field32_high]
    rfl
  · have hwords : optname ∉ sockoptWords k.timeNames := by
      rw [Bool.not_eq_true] at hk
      rw [hk]
      rcases hopt with rfl | rfl <;> decide
    rw [if_neg fun hc => hk hc.1, if_neg hwords, if_neg hk]
    rfl

theorem sockoptHead_puts {rest : CheckedFiller ty} {v : Value} (h : rest.filler.Puts 0 v) :
    (sockoptHead k s rest).filler.Puts 4 v := by
  simp only [sockoptHead, CheckedFiller.filler, CheckedFiller.filler_after]
  refine (fills_pushes_done (i := 0) (m := 3) rfl).seq_puts (j := 1) ?_ rfl
  exact (fills_pushes_done (i := 0) (m := 1) rfl).seq_puts h rfl

theorem fSysPpoll_puts_timeout (hnull : s.arg 2 ≠ 0) (h : TimeAt s.um (s.arg 2) sec sub) :
    (fSysPpoll s : Filler ty).Puts 1 (.imm (timespecNs sec)) := by
  refine (pollParseFds_fills (i := 0) true).seq_puts (j := 0) ?_ rfl
  rw [if_neg hnull]
  exact timespecParse_puts h

end

/-! ### What is recorded -/

/-- The second number makes up for what the module reads in its place: the high half of the
seconds, and the seconds cut down to their low half. -/
def DurationKept (k : Kernel) (s : Syscall) (sec sub : UInt64) : Prop :=
  if s.nr = 35 ∨ s.nr = 271 then
    sub = sext (highHalf sec) + (sext (lowHalf sec) - sec) * 1000000000
  else k.timeNames = true ∧ sub * 1000 = timevalNs sec - sec * 1000000000

instance (k : Kernel) (s : Syscall) (sec sub : UInt64) : Decidable (DurationKept k s sec sub) :=
  inferInstanceAs (Decidable (ite _ _ _))

section

variable {k : Kernel} {s : Syscall} {ts : UInt64} {tid : UInt32} {cpuid : UInt16} {force : Bool}
  {size off : Nat} {d : Duration} {sec sub : UInt64}

theorem timespecNs_eq_iff (sec sub : UInt64) : timespecNs sec = sec * 1000000000 + sub * 1 ↔
    sub = sext (highHalf sec) + (sext (lowHalf sec) - sec) * 1000000000 := by
  unfold timespecNs
  grind

theorem timevalNs_eq_iff (sec sub : UInt64) : timevalNs sec = sec * 1000000000 + sub * 1000 ↔
    sub * 1000 = timevalNs sec - sec * 1000000000 := by
  grind

/-- The value of a socket option in a record: the index byte, and behind a time the nanoseconds.
Without the option names `sockopt_optname_to_scap` has no name for a timeout either, and its
`ASSERT` trips before the value is pushed; what is stored there is the filler's without its
`ASSERT`s. -/
theorem traced_laid_sockopt (hnr : s.nr = 54 ∨ s.nr = 55)
    (hstart : 2 * (s.traced k ts tid cpuid force).nargs ≤ off) (hoff : off ≤ size)
    (hsize : size < 2 ^ 32)
    (hs : (s.traced k ts tid cpuid force).Succeeds
      ((s.traced k ts tid cpuid force).attempt size off)) {optval : UInt64} {optlen : UInt32}
    (hputs : (fillerCallback k s (gSyscallEventTable s.nr.toNat)).filler.Puts 4
      (timeoutValue k sec optval optlen)) (img : Image) :
    (k.timeNames = true → (s.traced k ts tid cpuid force).laid size off 4 img =
      4 :: leBytes 8 (timevalNs sec).toNat) ∧
    (k.timeNames ≠ true → ∃ bytes,
      (s.traced k ts tid cpuid force).laid size off 4 img = 0 :: bytes) := by
  have htable : s.nr.toNat < tableSize ∧
      (gEventInfo (gSyscallEventTable s.nr.toNat)).param 4 = ⟨.dyn, sockoptDynamicParam⟩ := by
    rcases hnr with h | h
    · rw [h]
      exact ⟨by decide, rfl⟩
    · rw [h]
      exact ⟨by decide, rfl⟩
  have htype : ((gEventInfo (s.traced k ts tid cpuid force).type).param 4) =
      ⟨.dyn, sockoptDynamicParam⟩ := htable.2
  obtain ⟨n, hfills⟩ := traced_filler_fills htable.1 hs
  obtain ⟨-, pos, room, len, img', hpos, hbound, -, hl, heq⟩ :=
    Event.laid_eq hs hstart hoff hsize hfills hputs img
  rw [heq]
  constructor
  · intro hk
    have hv : timeoutValue k sec optval optlen = { val := timevalNs sec, dynIdx := 4 } := if_pos hk
    rw [hv] at hl ⊢
    obtain ⟨bytes, hread, hlaid⟩ := laidDown_read_dyn (t := .reltime) hbound hpos hl
      (by rw [htype]) (by rw [htype]; rfl) img'
    rw [hread, (hlaid (by decide)).scalar rfl]
  · intro hk
    have hv : timeoutValue k sec optval optlen = { val := optval, len := optlen, fromuser := true } :=
      if_neg hk
    rw [hv] at hl ⊢
    obtain ⟨bytes, hread, -⟩ := laidDown_read_dyn (t := .bytebuf) hbound hpos hl
      (by rw [htype]) (by rw [htype]; rfl) img'
    exact ⟨bytes, hread⟩

/-- **A duration is recorded in nanoseconds exactly if the second number makes up for what the
module reads in its place**, and for a socket option the headers name it. -/
theorem durationRecorded_iff (hd : s.duration = some d) (htime : TimeAt s.um d.addr sec sub)
    (hstart : 2 * (s.traced k ts tid cpuid force).nargs ≤ off) (hoff : off ≤ size)
    (hsize : size < 2 ^ 32)
    (hs : (s.traced k ts tid cpuid force).Succeeds
      ((s.traced k ts tid cpuid force).attempt size off)) (img : Image) :
    (s.traced k ts tid cpuid force).laid size off d.param img =
        d.index ++ leBytes 8 (sec * 1000000000 + sub * d.unit).toNat ↔
      DurationKept k s sec sub := by
  unfold Syscall.duration at hd
  split at hd
  case isTrue hnr =>
    obtain rfl := Option.some.inj hd
    have hputs : (fillerCallback k s (gSyscallEventTable s.nr.toNat)).filler.Puts 0
        (.imm (timespecNs sec)) := by
      rw [hnr]
      have hrow : eventRow k s (gSyscallEventTable 35) = some ⟨.plain (fSysNanosleep s), [.retval]⟩ :=
        rfl
      exact fillerCallback_puts_callback (c := 0) hrow (timespecParse_puts htime) rfl
    rw [traced_laid (by rw [hnr]; decide) hstart hoff hsize hs hputs (w := 8) (by rw [hnr]; rfl),
      DurationKept, if_pos (Or.inl hnr)]
    exact leBytes_inj.trans (timespecNs_eq_iff sec sub)
  case isFalse hnr =>
  split at hd
  case isTrue hpoll =>
    obtain ⟨hnr', hnull⟩ := hpoll
    obtain rfl := Option.some.inj hd
    have hputs : (fillerCallback k s (gSyscallEventTable s.nr.toNat)).filler.Puts 1
        (.imm (timespecNs sec)) := by
      rw [hnr']
      exact fSysPpoll_puts_timeout hnull htime
    rw [traced_laid (by rw [hnr']; decide) hstart hoff hsize hs hputs (w := 8) (by rw [hnr']; rfl),
      DurationKept, if_pos (Or.inr hnr')]
    exact leBytes_inj.trans (timespecNs_eq_iff sec sub)
  case isFalse hpoll =>
  split at hd
  case isTrue hopt =>
    obtain ⟨hnr', hlevel, hname⟩ := hopt
    obtain rfl := Option.some.inj hd
    have hother : ¬ (s.nr = 35 ∨ s.nr = 271) := by
      rcases hnr' with h | h <;> rw [h] <;> decide
    have hputs : ∃ optlen, (fillerCallback k s (gSyscallEventTable s.nr.toNat)).filler.Puts 4
        (timeoutValue k sec (s.arg 3) optlen) := by
      rcases hnr' with h | h
      · rw [h]
        exact ⟨_, sockoptHead_puts (parseSockopt_puts htime hlevel hname)⟩
      · rw [h]
        exact ⟨_, sockoptHead_puts (puts_fetch_copied (parseSockopt_puts htime hlevel hname))⟩
    obtain ⟨optlen, hputs⟩ := hputs
    obtain ⟨hnamed, hunnamed⟩ := traced_laid_sockopt hnr' hstart hoff hsize hs hputs img
    rw [DurationKept, if_neg hother]
    by_cases hk : k.timeNames = true
    · rw [hnamed hk, and_iff_right hk, ← timevalNs_eq_iff]
      simp only [List.cons_append, List.nil_append, List.cons.injEq, true_and]
      exact leBytes_inj
    · obtain ⟨bytes, hbytes⟩ := hunnamed hk
      rw [hbytes]
      constructor
      · intro heq
        cases List.cons.inj heq |>.1
      · intro h
        exact absurd h.1 hk
  case isFalse => cases hd

end

/-- A filler that stores into its page and then pushes integers fills in its record. -/
theorem traced_succeeds_of_pushes {k : Kernel} {s : Syscall} (w : Write) (hw : w.stop ≤ pageSize)
    (vs : List Value) {m size : Nat}
    (hf : (fillerCallback k s (gSyscallEventTable s.nr.toNat)).filler =
      store w hw (pushes vs done))
    (hn : vs.length = (gEventInfo (gSyscallEventTable s.nr.toNat)).nparams)
    (hm : scalarBytes (gSyscallEventTable s.nr.toNat) 0
      (gEventInfo (gSyscallEventTable s.nr.toNat)).nparams = some m)
    (hroom : 2 * (gEventInfo (gSyscallEventTable s.nr.toNat)).nparams + m ≤ size)
    (hsize : size < 2 ^ 32) :
    (s.traced k 0 0 0 false).Succeeds ((s.traced k 0 0 0 false).attempt size
      (2 * (s.traced k 0 0 0 false).nargs)) := by
  have hnargs : (s.traced k 0 0 0 false).nargs =
      (gEventInfo (gSyscallEventTable s.nr.toNat)).nparams := rfl
  have hfiller : (s.traced k 0 0 0 false).filler = store w hw (pushes vs done) := hf
  have hdata : (size + 2 ^ 32 - 2 * (s.traced k 0 0 0 false).nargs) % 2 ^ 32 =
      size - 2 * (s.traced k 0 0 0 false).nargs := argDataSize_eq (by omega) hsize
  have hw' : 2 * (s.traced k 0 0 0 false).nargs +
      (size - 2 * (s.traced k 0 0 0 false).nargs) < 2 ^ 32 := by omega
  obtain ⟨hres, hargs⟩ := run_pushes_of_room (i := 0) (s.traced k 0 0 0 false).um vs done
    (by omega) hm (by omega) hw' hn
  rw [Event.attempt, hfiller, hdata]
  refine ⟨hres, ?_⟩
  refine (congrArg RingArgs.curarg hargs).trans ?_
  exact Nat.zero_add _

/-- `nanosleep` of a time at address 4096. -/
def sleepCall (sec nsec : UInt64) : Syscall :=
  { Syscall.idle with
    nr := 35
    arg := fun i => if i = 0 then 4096 else 0
    um := ⟨fun a => if 4096 ≤ a then (leBytes 8 sec.toNat ++ leBytes 8 nsec.toNat)[a - 4096]?
      else none, 8192, fun _ _ => 0⟩ }

theorem sleepCall_timeAt (sec nsec : UInt64) : TimeAt (sleepCall sec nsec).um 4096 sec nsec :=
  ⟨⟨show 4096 + 16 ≤ 8192 by decide, rfl⟩, rfl⟩

theorem sleepCall_succeeds (sec nsec : UInt64) :
    ((sleepCall sec nsec).traced Kernel.idle 0 0 0 false).Succeeds
      (((sleepCall sec nsec).traced Kernel.idle 0 0 0 false).attempt 4068 4) := by
  have hstop : (Write.mk 0 (leBytes 8 sec.toNat)).stop ≤ pageSize := by
    simp only [Write.stop, leBytes_length]
    decide
  refine traced_succeeds_of_pushes (s := sleepCall sec nsec) (k := Kernel.idle)
    ⟨0, leBytes 8 sec.toNat⟩ hstop [.imm (timespecNs sec), .imm 0] ?_ rfl rfl
    (show 2 * 2 + 16 ≤ 4068 by decide) (by decide)
  have hcopy : (sleepCall sec nsec).um.nodCopyFromUser ((sleepCall sec nsec).arg 0).toNat 8 = _ :=
    (sleepCall_timeAt sec nsec).copy
  have hrow : eventRow Kernel.idle (sleepCall sec nsec)
      (gSyscallEventTable (sleepCall sec nsec).nr.toNat) =
      some ⟨.plain (fSysNanosleep (sleepCall sec nsec)), [.retval]⟩ := rfl
  rw [fillerCallback_filler hrow]
  simp only [CheckedFiller.filler]
  rw [fSysNanosleep, timespecParse, hcopy]
  simp only [scratch, hstop, dif_pos, ne_eq, not_true, if_false, field32_low, field32_high]
  rfl

/-- Five seconds are recorded as such. -/
theorem durationRecorded_five :
    ((sleepCall 5 0).traced Kernel.idle 0 0 0 false).laid 4068 4 0 (fun _ => 0) =
      leBytes 8 5000000000 :=
  (durationRecorded_iff (d := ⟨0, 4096, 1, []⟩) rfl (sleepCall_timeAt 5 0) (by decide) (by decide)
    (by decide) (sleepCall_succeeds 5 0) _).mpr (by decide)

/-- A second and a half is recorded as a second. -/
theorem duration_not_recorded :
    (sleepCall 1 500000000).duration = some ⟨0, 4096, 1, []⟩ ∧
      TimeAt (sleepCall 1 500000000).um 4096 1 500000000 ∧
      ((sleepCall 1 500000000).traced Kernel.idle 0 0 0 false).Succeeds
        (((sleepCall 1 500000000).traced Kernel.idle 0 0 0 false).attempt 4068 4) ∧
      ((sleepCall 1 500000000).traced Kernel.idle 0 0 0 false).laid 4068 4 0 (fun _ => 0) ≠
        leBytes 8 1500000000 := by
  have htime := sleepCall_timeAt 1 500000000
  have hs := sleepCall_succeeds 1 500000000
  refine ⟨rfl, htime, hs, ?_⟩
  have hputs : (fillerCallback Kernel.idle (sleepCall 1 500000000)
      (gSyscallEventTable (sleepCall 1 500000000).nr.toNat)).filler.Puts 0
      (.imm (timespecNs 1)) := (timespecParse_puts htime).seq _
  rw [traced_laid (by decide) (by decide) (by decide) (by decide) hs hputs (w := 8) rfl]
  decide

theorem sext_toNat (v : UInt32) :
    (sext v).toNat = v.toNat + if v.toNat < 2 ^ 31 then 0 else 2 ^ 64 - 2 ^ 32 := by
  show (v.toBitVec.signExtend 64).toNat = _
  rw [BitVec.toNat_signExtend, BitVec.toNat_setWidth, BitVec.msb_eq_decide]
  show v.toNat % 2 ^ 64 + _ = _
  have := UInt32.toNat_lt v
  have hlow : v.toNat % 2 ^ 64 = v.toNat := Nat.mod_eq_of_lt (by omega)
  rw [hlow]
  by_cases h : v.toNat < 2 ^ 31
  · rw [if_pos h, if_neg]
    simpa using h
  · rw [if_neg h, if_pos]
    simpa using h

theorem highHalf_of_lt {sec : UInt64} (hsec : sec.toNat < 2 ^ 32) : highHalf sec = 0 := by
  apply UInt32.toNat_inj.mp
  rw [highHalf, UInt64.toNat_toUInt32, UInt64.toNat_shiftRight, Nat.shiftRight_eq_div_pow]
  show sec.toNat / 2 ^ 32 % 2 ^ 32 = 0
  omega

theorem sext_lowHalf_of_lt {sec : UInt64} (hsec : sec.toNat < 2 ^ 31) :
    sext (lowHalf sec) = sec := by
  apply UInt64.toNat_inj.mp
  have hlow : (lowHalf sec).toNat = sec.toNat := by
    rw [lowHalf, UInt64.toNat_toUInt32]
    omega
  rw [sext_toNat, hlow, if_pos hsec, Nat.add_zero]

theorem timevalNs_toNat {sec : UInt64} (hsec : sec.toNat < 2 ^ 31) :
    (timevalNs sec).toNat = sec.toNat * 1000000000 % 2 ^ 32 +
      if sec.toNat * 1000000000 % 2 ^ 32 < 2 ^ 31 then 0 else 2 ^ 64 - 2 ^ 32 := by
  have hprod : (lowHalf sec * 1000000000 + highHalf sec * 1000).toNat =
      sec.toNat * 1000000000 % 2 ^ 32 := by
    rw [highHalf_of_lt (by omega), UInt32.toNat_add, UInt32.toNat_mul, lowHalf,
      UInt64.toNat_toUInt32]
    show (sec.toNat % 2 ^ 32 * 1000000000 % 2 ^ 32 + 0) % 2 ^ 32 = _
    omega
  rw [timevalNs, sext_toNat, hprod]

/-- A number that is cut down to an `int` is off by far, unless it is one. -/
theorem wrapped_eq_iff {n m : Nat} (hn : n < 2 ^ 61) (hm : m < 2 ^ 31) :
    (n % 2 ^ 32 + if n % 2 ^ 32 < 2 ^ 31 then 0 else 2 ^ 64 - 2 ^ 32) = n + m ↔
      m = 0 ∧ n < 2 ^ 31 := by
  have hcut : n % 2 ^ 32 < 2 ^ 32 := Nat.mod_lt _ (by decide)
  by_cases hfit : n < 2 ^ 31
  · rw [Nat.mod_eq_of_lt (by omega), if_pos hfit]
    omega
  · split
    · omega
    · omega

/-- For the times there are, below 2^31 seconds and with less than a second of the rest: of a
`timespec` whole seconds are kept, of a `timeval` only up to two of them. -/
theorem durationKept_of_valid {k : Kernel} {s : Syscall} {sec sub : UInt64}
    (hsec : sec.toNat < 2 ^ 31) (hsub : sub.toNat < 1000000000)
    (husec : ¬ (s.nr = 35 ∨ s.nr = 271) → sub.toNat < 1000000) :
    DurationKept k s sec sub ↔
      sub = 0 ∧ (s.nr = 35 ∨ s.nr = 271 ∨ k.timeNames = true ∧ sec.toNat ≤ 2) := by
  unfold DurationKept
  by_cases hspec : s.nr = 35 ∨ s.nr = 271
  · rw [if_pos hspec, highHalf_of_lt (by omega), sext_lowHalf_of_lt hsec, UInt64.sub_self]
    rcases hspec with h | h
    · simp [h, sext]
    · simp [h, sext]
  · have hsub' := husec hspec
    have hns := timevalNs_toNat hsec
    have hsum : (sec * 1000000000 + sub * 1000).toNat =
        sec.toNat * 1000000000 + sub.toNat * 1000 := by
      rw [UInt64.toNat_add, UInt64.toNat_mul, UInt64.toNat_mul]
      show (sec.toNat * 1000000000 % 2 ^ 64 + sub.toNat * 1000 % 2 ^ 64) % 2 ^ 64 = _
      rw [Nat.mod_eq_of_lt (show sec.toNat * 1000000000 < 2 ^ 64 by omega),
        Nat.mod_eq_of_lt (show sub.toNat * 1000 < 2 ^ 64 by omega)]
      exact Nat.mod_eq_of_lt (by omega)
    have heq : sub * 1000 = timevalNs sec - sec * 1000000000 ↔ sub = 0 ∧ sec.toNat ≤ 2 := by
      have hzero : sub = 0 ↔ sub.toNat = 0 := UInt64.toNat_inj.symm
      rw [← timevalNs_eq_iff, ← UInt64.toNat_inj, hns, hsum, hzero]
      rw [wrapped_eq_iff (by omega) (by omega)]
      omega
    rw [if_neg hspec, heq]
    rw [not_or] at hspec
    simp only [hspec.1, hspec.2, false_or]
    tauto

end NoDrop
