import NoDrop.Arity
import NoDrop.Decode
import NoDrop.EventNames
import NoDrop.LastAttempt

/-! # The result in a record

In most events the parameter that holds the return value is called `res`.  That it gets the
return value rests on three tables by position: the names in `g_event_info`, the automatic
arguments in `g_nod_events`, and the order of pushes in the filler.

Three rows have something else there.  `fstat` declares the descriptor first and fills in the
return value first; `signalfd` leaves out the last of four automatic arguments, and what is left
out is zero-initialised, hence argument 0; `getresuid` and `getresgid` keep the return value in
16 bits.  And a string that is filled in from a register depends on the room: one that does not fit
is replaced (`faithful_iff`).
-/
namespace NoDrop

open Bytes Filler

/-- The first parameter of an event that is named `res`. -/
def resParam : EventType → Option Nat
  | .syscallClone_11 | .socketSetsockopt | .socketGetsockopt | .syscallPipe | .syscallStat
  | .syscallLstat | .syscallStat64 | .syscallLstat64 | .syscallSelect | .syscallGetcwd
  | .syscallChdir | .syscallExecve_14 | .syscallRename | .syscallRenameat | .syscallSymlink
  | .syscallSymlinkat | .syscallFork | .syscallVfork | .syscallGetresuid | .syscallGetresgid
  | .syscallExecve_15 | .syscallClone_17 | .syscallFork_17 | .syscallVfork_17 | .syscallClone_20
  | .syscallFork_20 | .syscallVfork_20 | .syscallExecve_16 | .syscallChroot | .syscallSetsid
  | .syscallRmdir_2 | .syscallExecve_17 | .syscallUnlink_2 | .syscallUnlinkat_2 | .syscallMkdirat
  | .syscallLink_2 | .syscallLinkat_2 | .syscallFchmodat | .syscallChmod | .syscallFchmod
  | .syscallRenameat2 | .syscallUserfaultfd | .syscallClone3 => some 0
  | .syscallClose | .syscallBrk_1 | .syscallExecve_8 | .socketBind | .socketConnect
  | .socketRecvmsg | .syscallFstat | .syscallFstat64 | .syscallEpollwait | .syscallFchdir
  | .syscallRmdir | .syscallUnlink | .syscallReadv | .syscallDup | .syscallNanosleep
  | .syscallInotifyInit | .syscallGetrlimit | .syscallSetrlimit | .syscallBrk_4 | .syscallSetuid
  | .syscallSetgid | .syscallGetdents | .syscallGetdents64 | .syscallSemop | .syscallMount
  | .syscallUmount | .syscallAccess | .syscallMkdir_2 | .syscallUnshare | .syscallExecve_18
  | .syscallExecve_19 => some 1
  | .syscallRead | .syscallWrite | .socketListen | .socketSend | .socketRecv | .socketRecvfrom
  | .socketShutdown | .syscallEventfd | .syscallPoll | .syscallMkdir | .syscallLink
  | .syscallUnlinkat | .syscallWritev | .syscallPreadv | .syscallKill | .syscallTkill
  | .syscallTimerfdCreate | .syscallPrlimit | .syscallFcntl | .syscallMunmap | .syscallPtrace
  | .syscallSetns | .syscallFlock | .syscallSetpgid | .syscallSeccomp => some 2
  | .socketSendto | .socketSocketpair | .socketSendmsg | .syscallFutex | .syscallLseek
  | .syscallLlseek | .syscallPread | .syscallPwrite | .syscallPwritev | .syscallSignalfd
  | .syscallTgkill | .syscallIoctl_3 | .syscallSetresuid | .syscallSetresgid | .syscallPpoll
  | .syscallSemget | .syscallMprotect | .syscallExecveat | .syscallCopyFileRange => some 3
  | .syscallOpenat | .syscallLinkat | .syscallSplice | .syscallSendfile | .syscallQuotactl
  | .syscallSemctl => some 4
  | .syscallMmap | .syscallMmap2 => some 6
  | _ => none

/-- It is the one that the names of the table give. -/
theorem resParam_eq_findIdx (t : EventType) :
    resParam t = (gEventText t).params.findIdx? fun p => p.name == "res" := by
  cases t <;> rfl

theorem ParamType.ne_of_width {t : ParamType} {w : Nat} (h : t.width = some w) :
    t ≠ .bytebuf ∧ t ≠ .dyn := by
  constructor
  · rintro rfl
    cases h
  · rintro rfl
    cases h

theorem resParam_width {ty : EventType} {j : Nat} (h : resParam ty = some j) :
    ((gEventInfo ty).param j).type.width = some 8 := by
  cases ty <;> cases h <;> rfl

/-- The parameter that entry `p` of the automatic arguments fills: the leading registers come
first, the others after what the callback pushes. -/
def autofillParam (ty : EventType) (autofill : List AutofillArg) (p : Nat) : Nat :=
  if p < (autofill.takeWhile AutofillArg.isArg).length then p
  else p + ((gEventInfo ty).nparams - autofill.length)

/-- What stands in for the return value. -/
def resValue (s : Syscall) : EventType → UInt64
  | .syscallFstat | .syscallSignalfd => s.arg 0
  | .syscallGetresuid | .syscallGetresgid => sext16 s.ret.toUInt16
  | _ => s.ret

section

variable {ty : EventType} {k : Kernel} {s : Syscall} {row : EventRow ty}

/-! ## Where the automatic arguments go -/

theorem fillerCallback_puts_callback (hrow : eventRow k s ty = some row) {c j : Nat} {v : Value}
    (h : row.callback.filler.Puts c v)
    (hj : (row.autofill.takeWhile AutofillArg.isArg).length + c = j) :
    (fillerCallback k s ty).filler.Puts j v := by
  rw [fillerCallback_filler hrow]
  exact (fills_nodAutofill s _ 0).seq_puts (h.seq _) hj

theorem fillerCallback_puts_autofill (hrow : eventRow k s ty = some row) {n p : Nat}
    {entry : AutofillArg}
    (hfills : row.callback.filler.Fills (row.autofill.takeWhile AutofillArg.isArg).length n)
    (hn : row.autofill.length + n = (gEventInfo ty).nparams)
    (h : row.autofill[p]? = some entry) :
    (fillerCallback k s ty).filler.Puts (autofillParam ty row.autofill p) (entry.value s) := by
  have hsplit := List.takeWhile_append_dropWhile (p := AutofillArg.isArg) (l := row.autofill)
  rw [← hsplit] at h
  rw [fillerCallback_filler hrow, autofillParam]
  split
  case isTrue hp =>
    rw [List.getElem?_append_left hp] at h
    exact (puts_nodAutofill h).seq _
  case isFalse hp =>
    rw [List.getElem?_append_right (by omega)] at h
    have htail := hfills.seq_puts (puts_nodAutofill (s := s) h) rfl
    exact (fills_nodAutofill s _ 0).seq_puts htail (by omega)

/-! ## Where the result is put -/

theorem fSysSocketBind_puts (plain : ∀ i, ((gEventInfo ty).param i).type ≠ .dyn) :
    (fSysSocketBind k s plain).filler.Puts 0 (.imm s.ret) := by
  simp only [fSysSocketBind, CheckedFiller.filler_after]
  rfl

theorem fSysConnect_puts (plain : ∀ i, ((gEventInfo ty).param i).type ≠ .dyn) :
    (fSysConnect k s plain).filler.Puts 0 (.imm s.ret) := by
  simp only [fSysConnect, CheckedFiller.filler_after]
  rfl

theorem fSysSendto_puts : (fSysSendto k s : CheckedFiller ty).filler.Puts 3 (.imm s.ret) := by
  simp only [fSysSendto, CheckedFiller.filler_after, CheckedFiller.filler_asserts,
    CheckedFiller.filler]
  exact (fills_scratch (i := 0) (fills_pushes_done (m := 2) rfl)).seq_puts (j := 1)
    (puts_scratches rfl) rfl

theorem fSysRecvfrom_puts : (fSysRecvfrom k s : CheckedFiller ty).filler.Puts 0 (.imm s.ret) := by
  simp only [fSysRecvfrom]
  split
  · rfl
  · simp only [CheckedFiller.filler_after]
    rfl

theorem fSysSendmsg_puts : (fSysSendmsg k s : CheckedFiller ty).filler.Puts 3 (.imm s.ret) := by
  simp only [fSysSendmsg]
  split
  · show nodFailureInvalidUserMemory ≠ nodSuccess
    decide
  · simp only [CheckedFiller.filler_after, CheckedFiller.filler_asserts, CheckedFiller.filler]
    exact (fills_pushes (i := 0) (m := 2) (parseReadvWritevBufs_fills _ _ _ _) rfl).seq_puts
      (j := 1) (puts_scratches rfl) rfl

theorem fSysRecvmsg_puts : (fSysRecvmsg k s : CheckedFiller ty).filler.Puts 0 (.imm s.ret) := by
  simp only [fSysRecvmsg]
  split
  · rfl
  · simp only [CheckedFiller.filler_after]
    rfl

theorem fSysWritev_puts : (fSysWritev s : Filler ty).Puts 2 (.imm s.ret) :=
  (fills_pushes (i := 0) (m := 2) (parseReadvWritevBufs_fills _ _ _ _) rfl).seq_puts (j := 0) rfl rfl

theorem fSysPwritev_puts : (fSysPwritev s : Filler ty).Puts 3 (.imm s.ret) :=
  (fills_pushes (i := 0) (m := 2) (parseReadvWritevBufs_fills _ _ _ _) rfl).seq_puts (j := 1) rfl rfl

theorem fSysPoll_puts : (fSysPoll s : Filler ty).Puts 2 (.imm s.ret) :=
  (pollParseFds_fills (i := 0) true).seq_puts (j := 1) rfl rfl

theorem fSysPpoll_puts : (fSysPpoll s : Filler ty).Puts 3 (.imm s.ret) := by
  have hsig : (if s.arg 3 = 0 then pushes [.imm 0] <| fSysPollXCommon s
      else fetch s.um (s.arg 3) 8 fun mask =>
        pushes [.imm (field64 mask 0)] <| fSysPollXCommon s : Filler ty).Puts 1 (.imm s.ret) := by
    split
    · rfl
    · exact puts_fetch fun _ => rfl
  refine (pollParseFds_fills (i := 0) true).seq_puts (j := 2) ?_ rfl
  split
  · exact hsig
  · refine puts_scratch ?_
    split
    · show nodFailureInvalidUserMemory ≠ nodSuccess
      decide
    · exact hsig

theorem fProcStartupdate_puts :
    (fProcStartupdate k s : CheckedFiller ty).filler.Puts 0 (.imm s.ret) := by
  simp only [fProcStartupdate, CheckedFiller.filler_after]
  rfl

theorem fSysExecve_puts : (fSysExecve k s : CheckedFiller ty).filler.Puts 1 (.imm s.ret) := by
  simp only [fSysExecve, CheckedFiller.filler_after]
  exact (fills_pushes_done (i := 0) (m := 1) rfl).seq_puts fProcStartupdate_puts rfl

theorem fSysExecveat_puts : (fSysExecveat k s : CheckedFiller ty).filler.Puts 3 (.imm s.ret) := by
  simp only [fSysExecveat, CheckedFiller.filler_after]
  exact (fills_pushes_done (i := 0) (m := 3) rfl).seq_puts fProcStartupdate_puts rfl

/-- **Where the result of every row comes from**: an automatic argument, or a push of the
callback. -/
theorem eventRow_res (hrow : eventRow k s ty = some row) {j : Nat} (hj : resParam ty = some j) :
    (∃ p entry, row.autofill[p]? = some entry ∧ (entry.value s).val = resValue s ty ∧
      autofillParam ty row.autofill p = j) ∨
    (∃ c, row.callback.filler.Puts c (.imm (resValue s ty)) ∧
      (row.autofill.takeWhile AutofillArg.isArg).length + c = j) := by
  cases ty <;> cases hj
  case socketBind => cases hrow; exact Or.inr ⟨0, fSysSocketBind_puts _, rfl⟩
  case socketConnect => cases hrow; exact Or.inr ⟨0, fSysConnect_puts _, rfl⟩
  case socketSendto => cases hrow; exact Or.inr ⟨3, fSysSendto_puts, rfl⟩
  case socketRecvfrom => cases hrow; exact Or.inr ⟨0, fSysRecvfrom_puts, rfl⟩
  case socketSendmsg => cases hrow; exact Or.inr ⟨3, fSysSendmsg_puts, rfl⟩
  case socketRecvmsg => cases hrow; exact Or.inr ⟨0, fSysRecvmsg_puts, rfl⟩
  case syscallWritev => cases hrow; exact Or.inr ⟨2, fSysWritev_puts, rfl⟩
  case syscallPwritev => cases hrow; exact Or.inr ⟨3, fSysPwritev_puts, rfl⟩
  case syscallPoll => cases hrow; exact Or.inr ⟨2, fSysPoll_puts, rfl⟩
  case syscallPpoll => cases hrow; exact Or.inr ⟨3, fSysPpoll_puts, rfl⟩
  case socketSend => cases hrow; exact Or.inr ⟨2, rfl, rfl⟩
  case syscallPread => cases hrow; exact Or.inr ⟨3, rfl, rfl⟩
  case syscallPwrite => cases hrow; exact Or.inr ⟨3, rfl, rfl⟩
  case syscallPreadv => cases hrow; exact Or.inr ⟨2, rfl, rfl⟩
  case syscallGetrlimit => cases hrow; exact Or.inr ⟨1, rfl, rfl⟩
  case syscallSetrlimit => cases hrow; exact Or.inr ⟨1, rfl, rfl⟩
  case syscallPrlimit => cases hrow; exact Or.inr ⟨2, rfl, rfl⟩
  case syscallMmap => cases hrow; exact Or.inr ⟨6, rfl, rfl⟩
  case syscallMmap2 => cases hrow; exact Or.inr ⟨6, rfl, rfl⟩
  case syscallPtrace => cases hrow; exact Or.inr ⟨2, rfl, rfl⟩
  case syscallSendfile => cases hrow; exact Or.inr ⟨4, rfl, rfl⟩
  case syscallQuotactl => cases hrow; exact Or.inr ⟨4, rfl, rfl⟩
  case syscallExecve_8 => cases hrow; exact Or.inr ⟨1, fSysExecve_puts, rfl⟩
  case syscallExecve_19 => cases hrow; exact Or.inr ⟨1, fSysExecve_puts, rfl⟩
  case syscallMprotect => cases hrow; exact Or.inr ⟨3, rfl, rfl⟩
  case syscallExecveat => cases hrow; exact Or.inr ⟨3, fSysExecveat_puts, rfl⟩
  case syscallCopyFileRange => cases hrow; exact Or.inr ⟨3, rfl, rfl⟩
  case syscallSplice => cases hrow; exact Or.inl ⟨4, _, rfl, rfl, rfl⟩
  case syscallClone_20 => cases hrow; exact Or.inr ⟨0, fProcStartupdate_puts, rfl⟩
  case syscallFork_20 => cases hrow; exact Or.inr ⟨0, fProcStartupdate_puts, rfl⟩
  case syscallVfork_20 => cases hrow; exact Or.inr ⟨0, fProcStartupdate_puts, rfl⟩
  case syscallClone3 => cases hrow; exact Or.inr ⟨0, fProcStartupdate_puts, rfl⟩
  -- the others have it among their automatic arguments or push it first
  all_goals cases hrow
  all_goals first
    | exact Or.inl ⟨0, _, rfl, rfl, rfl⟩
    | exact Or.inl ⟨1, _, rfl, rfl, rfl⟩
    | exact Or.inl ⟨2, _, rfl, rfl, rfl⟩
    | exact Or.inl ⟨3, _, rfl, rfl, rfl⟩
    | exact Or.inr ⟨0, rfl, rfl⟩

/-- Every automatic argument is an integer or a string. -/
theorem eventRow_autofill_plain (hrow : eventRow k s ty = some row) :
    (List.range row.autofill.length).all (fun p =>
      ((gEventInfo ty).param (autofillParam ty row.autofill p)).type.width.isSome ||
        ((gEventInfo ty).param (autofillParam ty row.autofill p)).type = .charbuf ||
          ((gEventInfo ty).param (autofillParam ty row.autofill p)).type = .fspath) = true := by
  cases ty <;> cases hrow <;> rfl

theorem ParamType.ne_of_text {t : ParamType} (h : t = .charbuf ∨ t = .fspath) :
    t ≠ .bytebuf ∧ t ≠ .dyn := by
  rcases h with rfl | rfl <;> decide

theorem autofill_type (hrow : eventRow k s ty = some row) {p : Nat} {entry : AutofillArg}
    (hp : row.autofill[p]? = some entry) :
    (∃ w, ((gEventInfo ty).param (autofillParam ty row.autofill p)).type.width = some w) ∨
      ((gEventInfo ty).param (autofillParam ty row.autofill p)).type = .charbuf ∨
      ((gEventInfo ty).param (autofillParam ty row.autofill p)).type = .fspath := by
  have hplt : p < row.autofill.length := (List.getElem?_eq_some_iff.mp hp).1
  have hplain := List.all_eq_true.mp (eventRow_autofill_plain hrow) p (List.mem_range.mpr hplt)
  rw [Bool.or_eq_true, Bool.or_eq_true, decide_eq_true_eq, decide_eq_true_eq, or_assoc] at hplain
  exact hplain.imp_left Option.isSome_iff_exists.mp

end

/-! ## Recording -/

/-- The arguments of the call's record start behind the array of lengths. -/
def Event.Gapless (ev : Event) (b : NodBuffer) : Prop := (ev.landing b).2 = 2 * ev.nargs

/-- The record of an event in `size` bytes, with its arguments right behind the array of
lengths. -/
def RecordOf (ev : Event) (size : Nat) (bs : List UInt8) : Prop :=
  ev.Succeeds (ev.attempt size (2 * ev.nargs)) ∧ 2 * ev.nargs ≤ size ∧ size < 2 ^ 32 ∧
    ∃ img, bs = (ev.imageOf (ev.attempt size (2 * ev.nargs)) img).read 0
      (hdrSize + (ev.attempt size (2 * ev.nargs)).args.argDataOffset)

/-- A parameter of type `t` that holds an argument: the number in the width of the type, or the
text of the string that the argument points to. -/
structure DecodesTo (um : UserMem) (t : ParamType) (arg : UInt64) (bytes : List UInt8) : Prop where
  number : ∀ w, t.width = some w → leNat bytes = arg.toNat % 256 ^ w
  text : t.width = none → UserText um arg bytes

/-- **A record of the system call gives its return value for `res`**, and the arguments for the
parameters that are filled in from them. -/
structure Faithful (k : Kernel) (s : Syscall) (bs : List UInt8) : Prop where
  res : ∀ j, resParam (gSyscallEventTable s.nr.toNat) = some j →
    ∃ w, ((gEventInfo (gSyscallEventTable s.nr.toNat)).param j).type.width = some w ∧
      leNat (argBytes bs (gEventInfo (gSyscallEventTable s.nr.toNat)).nparams j) =
        s.ret.toNat % 256 ^ w
  autofilled : ∀ row, eventRow k s (gSyscallEventTable s.nr.toNat) = some row →
    ∀ p i, row.autofill[p]? = some (.arg i) →
      let j := autofillParam (gSyscallEventTable s.nr.toNat) row.autofill p
      DecodesTo s.um ((gEventInfo (gSyscallEventTable s.nr.toNat)).param j).type (s.arg i)
        (argBytes bs (gEventInfo (gSyscallEventTable s.nr.toNat)).nparams j)

/-- The return value is what is recorded for it: in `fstat` and `signalfd` argument 0, in
`getresuid` and `getresgid` its low 16 bits. -/
def ResKept (s : Syscall) : Prop :=
  (s.nr = 5 ∨ s.nr = 282 ∨ s.nr = 289 → s.ret = s.arg 0) ∧
  (s.nr = 118 ∨ s.nr = 120 → sext16 s.ret.toUInt16 = s.ret)

instance (s : Syscall) : Decidable (ResKept s) := inferInstanceAs (Decidable (_ ∧ _))

/-- Every string that is filled in from an argument is copied whole into what the arguments before
it leave of the room, where the event's record lands. -/
def StringsFit (k : Kernel) (s : Syscall) (ev : Event) (b : NodBuffer) : Prop :=
  ∀ row, eventRow k s (gSyscallEventTable s.nr.toNat) = some row →
    ∀ p i, row.autofill[p]? = some (.arg i) →
      let j := autofillParam (gSyscallEventTable s.nr.toNat) row.autofill p
      ((gEventInfo (gSyscallEventTable s.nr.toNat)).param j).type.width = none →
        TextFits s.um (s.arg i) (ev.maxArgSize (ev.landing b).1 (2 * ev.nargs) j)

section

variable {k : Kernel} {s : Syscall} {ts : UInt64} {tid : UInt32} {cpuid : UInt16} {force : Bool}
  {b : NodBuffer} {fuel : Nat} {entryAddr : UInt64} {load : Int} {st : EventStatistic}
  {bs : List UInt8}

/-- The attempt that leaves a record without a gap. -/
theorem Event.Gapless.record {ev : Event} {n : Nat} (h : ev.Gapless b)
    (hfills : ev.filler.Fills 0 n)
    (hrec : (doRecordOneEvent fuel entryAddr load ev b st).record = some bs) :
    RecordOf ev (ev.landing b).1 bs := by
  obtain ⟨hs, hbs, -⟩ := record_landing (endsInTwo_of_record hfills hrec) hrec
  obtain ⟨-, hlt⟩ := landing_bounds ev b
  rw [h] at hs hbs
  exact ⟨hs, landing_inside ev b, hlt, _, hbs⟩

/-- Every row with a filler pushes some number of arguments. -/
theorem eventRow_fills_some {row : EventRow (gSyscallEventTable s.nr.toNat)}
    (hrow : eventRow k s (gSyscallEventTable s.nr.toNat) = some row)
    (hnr : s.nr.toNat < tableSize) :
    ∃ n, row.callback.filler.Fills (row.autofill.takeWhile AutofillArg.isArg).length n := by
  obtain ⟨hexecve, -, -⟩ := gSyscallEventTable_unfillable hnr
  generalize gSyscallEventTable s.nr.toNat = ty at *
  by_cases hsplice : ty = .syscallSplice
  · subst hsplice
    cases hrow
    exact ⟨0, fun _ => rfl⟩
  by_cases hsemop : ty = .syscallSemop → s.arg 2 ≠ 0 ∧ s.arg 1 ≠ 0
  · obtain ⟨n, hfills, -⟩ := eventRow_fills hrow hnr hexecve hsplice hsemop
    exact ⟨n, hfills⟩
  · obtain ⟨rfl, hnone⟩ := Classical.not_imp.mp hsemop
    cases hrow
    refine ⟨2, ?_⟩
    simp only [CheckedFiller.filler, fSysSemop, hnone, if_false]
    exact fills_pushes_done rfl

theorem traced_fills_some (hnr : s.nr.toNat < tableSize) (ts : UInt64) (tid : UInt32)
    (cpuid : UInt16) (force : Bool) : ∃ n, (s.traced k ts tid cpuid force).filler.Fills 0 n := by
  show ∃ n, (fillerCallback k s (gSyscallEventTable s.nr.toNat)).filler.Fills 0 n
  cases hrow : eventRow k s (gSyscallEventTable s.nr.toNat) with
  | none =>
    refine ⟨0, ?_⟩
    simp only [fillerCallback, hrow, CheckedFiller.filler]
    exact fun h => absurd h (by decide)
  | some row =>
    obtain ⟨n, hfills⟩ := eventRow_fills_some hrow hnr
    exact ⟨_, fillerCallback_fills hrow hfills⟩

/-- A record has the arguments of its row. -/
theorem traced_fills (hnr : s.nr.toNat < tableSize) {size off : Nat}
    (hs : (s.traced k ts tid cpuid force).Succeeds
      ((s.traced k ts tid cpuid force).attempt size off)) :
    ∃ row, eventRow k s (gSyscallEventTable s.nr.toNat) = some row ∧
      ∃ n, row.callback.filler.Fills (row.autofill.takeWhile AutofillArg.isArg).length n ∧
        row.autofill.length + n = (gEventInfo (gSyscallEventTable s.nr.toNat)).nparams := by
  obtain ⟨hres, hcur⟩ := hs
  cases hrow : eventRow k s (gSyscallEventTable s.nr.toNat) with
  | none =>
    have hbug : (s.traced k ts tid cpuid force).filler = ret nodFailureBug := by
      simp only [Syscall.traced, fillerCallback, hrow, CheckedFiller.filler]
    rw [Event.attempt, hbug] at hres
    cases hres
  | some row =>
    obtain ⟨n, hfills⟩ := eventRow_fills_some hrow hnr
    refine ⟨row, rfl, n, hfills, ?_⟩
    have hall := fillerCallback_fills hrow hfills
    have hrun := Fills.run_curarg (a := ⟨0, off, (size + 2 ^ 32 - off) % 2 ^ 32⟩) hall hres
    rw [Nat.zero_add] at hrun
    exact hrun.symm.trans hcur

section Record

variable (hnr : s.nr.toNat < tableSize) (hgap : (s.traced k ts tid cpuid force).Gapless b)
  (hrec : (doRecordOneEvent fuel entryAddr load (s.traced k ts tid cpuid force) b st).record =
    some bs)

include hnr hgap hrec

theorem recordOf_traced : RecordOf (s.traced k ts tid cpuid force)
    ((s.traced k ts tid cpuid force).landing b).1 bs := by
  obtain ⟨n, hfills⟩ := traced_fills_some (k := k) hnr ts tid cpuid force
  exact hgap.record hfills hrec

/-- What a decoder finds for an argument that the filler puts at a place of the record. -/
theorem record_laidDown {j : Nat} {v : Value}
    (hputs : (s.traced k ts tid cpuid force).filler.Puts j v)
    (hbuf : ((gEventInfo (gSyscallEventTable s.nr.toNat)).param j).type ≠ .bytebuf)
    (hdyn : ((gEventInfo (gSyscallEventTable s.nr.toNat)).param j).type ≠ .dyn) :
    LaidDown ((gEventInfo (gSyscallEventTable s.nr.toNat)).param j).type s.um v
      ((s.traced k ts tid cpuid force).maxArgSize ((s.traced k ts tid cpuid force).landing b).1
        (2 * (s.traced k ts tid cpuid force).nargs) j)
      (argBytes bs (gEventInfo (gSyscallEventTable s.nr.toNat)).nparams j) := by
  obtain ⟨hs, hoff, hsize, img, rfl⟩ := recordOf_traced hnr hgap hrec
  obtain ⟨row, hrow, n, hfills, hn⟩ := traced_fills hnr hs
  have hall : (s.traced k ts tid cpuid force).filler.Fills 0
      (s.traced k ts tid cpuid force).nargs := by
    have := fillerCallback_fills hrow hfills
    rwa [hn] at this
  exact Event.argBytes_of_puts hs hoff hsize hall hputs hbuf hdyn img

/-- The result that a record without a gap gives. -/
theorem record_res {j : Nat} (hj : resParam (gSyscallEventTable s.nr.toNat) = some j) :
    leNat (argBytes bs (gEventInfo (gSyscallEventTable s.nr.toNat)).nparams j) =
      (resValue s (gSyscallEventTable s.nr.toNat)).toNat := by
  obtain ⟨hs, -, -, -⟩ := recordOf_traced hnr hgap hrec
  obtain ⟨row, hrow, n, hfills, hn⟩ := traced_fills hnr hs
  have hputs : ∃ v : Value, v.val = resValue s (gSyscallEventTable s.nr.toNat) ∧
      (s.traced k ts tid cpuid force).filler.Puts j v := by
    rcases eventRow_res hrow hj with ⟨p, entry, hp, hval, rfl⟩ | ⟨c, hc, hcj⟩
    · exact ⟨_, hval, fillerCallback_puts_autofill hrow hfills hn hp⟩
    · exact ⟨_, rfl, fillerCallback_puts_callback hrow hc hcj⟩
  obtain ⟨v, hval, hputs⟩ := hputs
  have hw := resParam_width hj
  obtain ⟨hbuf, hdyn⟩ := ParamType.ne_of_width hw
  have hbytes := (record_laidDown hnr hgap hrec hputs hbuf hdyn).scalar hw
  rw [hbytes, hval, leNat_leBytes_of_lt (UInt64.toNat_lt _)]

/-- The parameters that are filled in from the registers, in the room where they are. -/
theorem record_autofilled {row : EventRow (gSyscallEventTable s.nr.toNat)}
    (hrow : eventRow k s (gSyscallEventTable s.nr.toNat) = some row) {p : Nat} {i : Fin 6}
    (hp : row.autofill[p]? = some (.arg i)) :
    let j := autofillParam (gSyscallEventTable s.nr.toNat) row.autofill p
    LaidDown ((gEventInfo (gSyscallEventTable s.nr.toNat)).param j).type s.um
      { val := s.arg i, fromuser := true }
      ((s.traced k ts tid cpuid force).maxArgSize ((s.traced k ts tid cpuid force).landing b).1
        (2 * (s.traced k ts tid cpuid force).nargs) j)
      (argBytes bs (gEventInfo (gSyscallEventTable s.nr.toNat)).nparams j) := by
  obtain ⟨hs, -, -, -⟩ := recordOf_traced hnr hgap hrec
  obtain ⟨row', hrow', n, hfills, hn⟩ := traced_fills hnr hs
  obtain rfl := Option.some.inj (hrow.symm.trans hrow')
  obtain ⟨hbuf, hdyn⟩ := (autofill_type hrow hp).elim (fun ⟨_, hw⟩ => ParamType.ne_of_width hw)
    ParamType.ne_of_text
  exact record_laidDown hnr hgap hrec (fillerCallback_puts_autofill hrow hfills hn hp) hbuf hdyn

theorem decodesTo_iff {row : EventRow (gSyscallEventTable s.nr.toNat)}
    (hrow : eventRow k s (gSyscallEventTable s.nr.toNat) = some row) {p : Nat} {i : Fin 6}
    (hp : row.autofill[p]? = some (.arg i)) :
    let j := autofillParam (gSyscallEventTable s.nr.toNat) row.autofill p
    DecodesTo s.um ((gEventInfo (gSyscallEventTable s.nr.toNat)).param j).type (s.arg i)
        (argBytes bs (gEventInfo (gSyscallEventTable s.nr.toNat)).nparams j) ↔
      (((gEventInfo (gSyscallEventTable s.nr.toNat)).param j).type.width = none →
        TextFits s.um (s.arg i) ((s.traced k ts tid cpuid force).maxArgSize
          ((s.traced k ts tid cpuid force).landing b).1
          (2 * (s.traced k ts tid cpuid force).nargs) j)) := by
  intro j
  have hlaid := record_autofilled hnr hgap hrec hrow hp
  rcases autofill_type hrow hp with ⟨w, hw⟩ | htext
  · have hnone : ((gEventInfo (gSyscallEventTable s.nr.toNat)).param j).type.width ≠ none := by
      rw [hw]
      exact Option.some_ne_none w
    refine ⟨fun _ hno => absurd hno hnone, fun _ => ⟨fun w' hw' => ?_, fun hno => absurd hno hnone⟩⟩
    rw [hlaid.scalar hw', leNat_leBytes]
  · have hiff := hlaid.userText_iff (htext.imp_right Or.inl)
    refine ⟨fun h hno => hiff.mp (h.text hno), fun h => ⟨fun w hw => ?_, fun hno => hiff.mpr (h hno)⟩⟩
    rcases htext with ht | ht <;> · rw [ht] at hw; cases hw

end Record

/-! ## The three rows -/

/-- Where the event types without the return value come from. -/
theorem gSyscallEventTable_unkept {n : Nat} (hn : n < tableSize) :
    (gSyscallEventTable n = .syscallFstat ↔ n = 5) ∧
    (gSyscallEventTable n = .syscallSignalfd ↔ n = 282 ∨ n = 289) ∧
    (gSyscallEventTable n = .syscallGetresuid ↔ n = 118) ∧
    (gSyscallEventTable n = .syscallGetresgid ↔ n = 120) := by
  revert n
  decide +kernel

theorem resValue_of_ne {ty : EventType} (h1 : ty ≠ .syscallFstat) (h2 : ty ≠ .syscallSignalfd)
    (h3 : ty ≠ .syscallGetresuid) (h4 : ty ≠ .syscallGetresgid) : resValue s ty = s.ret := by
  unfold resValue
  split <;> first | contradiction | rfl

/-- What stands in for the return value is the return value. -/
theorem resValue_eq_ret_iff (hnr : s.nr.toNat < tableSize) :
    resValue s (gSyscallEventTable s.nr.toNat) = s.ret ↔ ResKept s := by
  obtain ⟨hfstat, hsignalfd, huid, hgid⟩ := gSyscallEventTable_unkept hnr
  constructor
  · intro hval
    constructor
    · rintro (hc | hc | hc)
      all_goals
        rw [hc] at hval
        exact hval.symm
    · rintro (hc | hc)
      all_goals
        rw [hc] at hval
        exact hval
  · rintro ⟨harg, hids⟩
    by_cases h1 : gSyscallEventTable s.nr.toNat = .syscallFstat
    · rw [h1]
      exact (harg (Or.inl (nr_eq (hfstat.mp h1)))).symm
    by_cases h2 : gSyscallEventTable s.nr.toNat = .syscallSignalfd
    · rw [h2]
      exact (harg (Or.inr ((hsignalfd.mp h2).imp nr_eq nr_eq))).symm
    by_cases h3 : gSyscallEventTable s.nr.toNat = .syscallGetresuid
    · rw [h3]
      exact hids (Or.inl (nr_eq (huid.mp h3)))
    by_cases h4 : gSyscallEventTable s.nr.toNat = .syscallGetresgid
    · rw [h4]
      exact hids (Or.inr (nr_eq (hgid.mp h4)))
    exact resValue_of_ne h1 h2 h3 h4

/-- An event type with something else in the place of the result has a result. -/
theorem resValue_of_resParam (h : ∀ j, resParam (gSyscallEventTable s.nr.toNat) = some j →
      resValue s (gSyscallEventTable s.nr.toNat) = s.ret) :
    resValue s (gSyscallEventTable s.nr.toNat) = s.ret := by
  generalize gSyscallEventTable s.nr.toNat = ty at *
  by_cases h1 : ty = .syscallFstat
  · exact h 1 (by rw [h1]; rfl)
  by_cases h2 : ty = .syscallSignalfd
  · exact h 3 (by rw [h2]; rfl)
  by_cases h3 : ty = .syscallGetresuid
  · exact h 0 (by rw [h3]; rfl)
  by_cases h4 : ty = .syscallGetresgid
  · exact h 0 (by rw [h4]; rfl)
  exact resValue_of_ne h1 h2 h3 h4

/-- **A record gives the return value for `res`, and the arguments for what is filled in from
them**, exactly when the call is none of those with something else in that place, and every string
fits into the room that its record has for it. -/
theorem faithful_iff (hnr : s.nr.toNat < tableSize)
    (hgap : (s.traced k ts tid cpuid force).Gapless b)
    (hrec : (doRecordOneEvent fuel entryAddr load (s.traced k ts tid cpuid force) b st).record =
      some bs) :
    Faithful k s bs ↔ ResKept s ∧ StringsFit k s (s.traced k ts tid cpuid force) b := by
  constructor
  · intro h
    constructor
    · refine (resValue_eq_ret_iff hnr).mp (resValue_of_resParam fun j hj => ?_)
      obtain ⟨w, hw, hret⟩ := h.res j hj
      obtain rfl := Option.some.inj ((resParam_width hj).symm.trans hw)
      have hlt : s.ret.toNat < 256 ^ 8 := UInt64.toNat_lt s.ret
      rw [record_res hnr hgap hrec hj, Nat.mod_eq_of_lt hlt] at hret
      exact UInt64.toNat_inj.mp hret
    · intro row hrow p i hp
      exact (decodesTo_iff hnr hgap hrec hrow hp).mp (h.autofilled row hrow p i hp)
  · rintro ⟨hkept, hfit⟩
    constructor
    · intro j hj
      refine ⟨8, resParam_width hj, ?_⟩
      rw [record_res hnr hgap hrec hj, (resValue_eq_ret_iff hnr).mpr hkept, Nat.mod_eq_of_lt]
      exact UInt64.toNat_lt _
    · intro row hrow p i hp
      exact (decodesTo_iff hnr hgap hrec hrow hp).mpr (hfit row hrow p i hp)

end

/-- The record of a call that fits in an empty buffer of one page. -/
theorem traced_smallBuffer {k : Kernel} {s : Syscall}
    (hs : (s.traced k 0 0 0 false).Succeeds ((s.traced k 0 0 0 false).attempt
      smallBuffer.atTail.size (2 * (s.traced k 0 0 0 false).nargs))) :
    (s.traced k 0 0 0 false).Gapless smallBuffer ∧
      ((s.traced k 0 0 0 false).landing smallBuffer).1 = 4068 ∧
      ∃ bs, (doRecordOneEvent 1 0 0 (s.traced k 0 0 0 false) smallBuffer ⟨0, 0, 0⟩).record =
        some bs := by
  have hle := (s.traced k 0 0 0 false).nargs_le
  have hmax : nodMaxEventParams = 32 := rfl
  have hfree : smallBuffer.freespace = 4096 := by decide
  have hoff : 2 * (s.traced k 0 0 0 false).nargs + hdrSize ≤ smallBuffer.freespace := by
    rw [hfree, hdrSize]
    omega
  have hland := landing_of_fits rfl hoff hs
  obtain ⟨bs, hrec, -⟩ := record_of_fits rfl hoff hs
  refine ⟨by rw [Event.Gapless, hland], ?_, bs, hrec⟩
  rw [hland]
  show smallBuffer.freespace - hdrSize = 4068
  rw [hfree]
  rfl

theorem usrLib_strAt {k : Nat} : usrLib.StrAt 4096 k ↔ k = 8 := by
  have hs : usrLib.StrAt 4096 8 := by
    refine ⟨fun i hi => ?_, by decide⟩
    refine ⟨[0x2F, 0x75, 0x73, 0x72, 0x2F, 0x6C, 0x69, 0x62].getD i 0, ?_⟩
    revert i
    decide
  exact ⟨fun hk => hk.unique hs, fun hk => hk ▸ hs⟩

theorem usrLib_canRead : usrLib.CanRead 4096 12 := by
  intro i hi
  refine ⟨[0x2F, 0x75, 0x73, 0x72, 0x2F, 0x6C, 0x69, 0x62].getD i 0, ?_⟩
  revert i
  decide

/-- `chdir("/usr/lib")`, with a whole page for its record. -/
theorem chdir_faithful : chdirCall.nr.toNat < tableSize ∧
    ∃ bs, (doRecordOneEvent 1 0 0 (chdirCall.traced Kernel.idle 0 0 0 false) smallBuffer
        ⟨0, 0, 0⟩).record = some bs ∧ Faithful Kernel.idle chdirCall bs := by
  have hs : (chdirCall.traced Kernel.idle 0 0 0 false).Succeeds
      ((chdirCall.traced Kernel.idle 0 0 0 false).attempt smallBuffer.atTail.size
        (2 * (chdirCall.traced Kernel.idle 0 0 0 false).nargs)) := by decide +kernel
  obtain ⟨hgap, hsize, bs, hrec⟩ := traced_smallBuffer hs
  refine ⟨by decide, bs, hrec, (faithful_iff (by decide) hgap hrec).mpr ⟨by decide, ?_⟩⟩
  intro row hrow p i hp
  cases hrow
  match p with
  | 0 => cases hp
  | 1 =>
    obtain rfl : (0 : Fin 6) = i := AutofillArg.arg.inj (Option.some.inj hp)
    intro j hw
    rw [hsize]
    refine ⟨fun h => absurd h (by decide), fun _ k hk => ?_, fun _ hno => ?_⟩
    · obtain rfl := usrLib_strAt.mp hk
      exact ⟨by decide +kernel, usrLib_canRead.mono (Nat.min_le_left ..)⟩
    · exact absurd (usrLib_strAt.mpr rfl) (hno 8)

/-- A successful `fstat(3)`. -/
def fstatCall : Syscall :=
  { Syscall.idle with
    nr := 5
    arg := fun i => if i = 0 then 3 else 0 }

/-- It is recorded with the result 3. -/
theorem fstat_not_faithful : ¬ ∀ (k : Kernel) (s : Syscall) (b : NodBuffer) (bs : List UInt8),
    s.nr.toNat < tableSize →
    (doRecordOneEvent 1 0 0 (s.traced k 0 0 0 false) b ⟨0, 0, 0⟩).record = some bs →
    Faithful k s bs := by
  intro hall
  have hs : (fstatCall.traced Kernel.idle 0 0 0 false).Succeeds
      ((fstatCall.traced Kernel.idle 0 0 0 false).attempt smallBuffer.atTail.size
        (2 * (fstatCall.traced Kernel.idle 0 0 0 false).nargs)) := by decide
  obtain ⟨hgap, -, bs, hrec⟩ := traced_smallBuffer hs
  obtain ⟨w, hw, hret⟩ := (hall _ fstatCall _ bs (by decide) hrec).res 1 rfl
  have hval := record_res (j := 1) (by decide) hgap hrec rfl
  obtain rfl : 8 = w := Option.some.inj hw
  rw [hval] at hret
  exact absurd hret (by decide)

end NoDrop
