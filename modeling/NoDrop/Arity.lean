import NoDrop.AssertsHold
import NoDrop.Pushes

/-! # Every event has the arguments it declares

The number of arguments of every event type against the filler of its row.

Two rows are wrong.  `splice` has five automatic arguments and declares four parameters, so that
the fifth push fails.  `semop` without operations, or with a null array of them, succeeds three
arguments into nine (`fillsExactly_iff`).
-/
namespace NoDrop

open Bytes Filler

section

variable {ty : EventType} {k : Kernel} {s : Syscall} {i : Nat}

/-! ## Fillers with branches -/

theorem fSysRead_fills : (fSysRead s : Filler ty).Fills i 2 := by
  refine fills_push.mpr ?_
  split
  · exact fills_pushLast _ _
  · exact fills_pushLast _ _

theorem fSysWrite_fills : (fSysWrite s : Filler ty).Fills i 2 :=
  fills_push.mpr (fills_pushLast _ _)

/-- With the size there is an argument more, with the data another. -/
theorem parseReadvWritevBufs_fills (iovsrc iovcnt retval : UInt64) (flags : PrbFlags) :
    (parseReadvWritevBufs s iovsrc iovcnt retval flags : Filler ty).Fills i
      (flags.pushSize.toNat + flags.pushData.toNat) := by
  have hdata : ∀ (j copylen : Nat) (data : List UInt8 × Bool),
      (if flags.pushData = false then ret nodSuccess
        else if 0 < signed retval ∧ 0 < iovcnt.toNat then
          scratch ⟨copylen, data.1⟩ <|
            if data.2 then
              pushLast { val := s.strStorage + UInt64.ofNat copylen,
                         len := UInt32.ofNat data.1.length, mem := data.1 }
            else ret nodFailureInvalidUserMemory
        else pushLast { val := 0 } : Filler ty).Fills j flags.pushData.toNat := by
    intro j copylen data
    cases hpd : flags.pushData with
    | false => exact fun _ => rfl
    | true =>
      simp only [Bool.true_eq_false, if_false]
      split
      · refine fills_scratch ?_
        split
        · exact fills_pushLast _ _
        · exact fills_ret (by decide) _ _
      · exact fills_pushLast _ _
  unfold parseReadvWritevBufs
  simp only
  split
  · exact fills_ret (by decide) _ _
  split
  · exact fills_ret (by decide) _ _
  refine fills_scratch ?_
  split
  · exact fills_ret (by decide) _ _
  cases hps : flags.pushSize with
  | false =>
    simp only [Bool.false_eq_true, if_false, Bool.toNat_false, Nat.zero_add]
    exact hdata _ _ _
  | true =>
    simp only [if_true, Bool.toNat_true, Nat.add_comm 1]
    exact fills_push.mpr (hdata _ _ _)

theorem pollParseFds_fills (enter : Bool) : (pollParseFds s enter : Filler ty).Fills i 1 := by
  unfold pollParseFds
  simp only
  split
  · exact fills_ret (by decide) _ _
  refine fills_scratch ?_
  split
  · exact fills_ret (by decide) _ _
  split
  · trivial
  · exact fills_scratch (fills_pushLast _ _)

theorem timespecParse_fills {val : UInt64} {next : Filler ty} {n : Nat}
    (h : next.Fills (i + 1) n) : (timespecParse s val next).Fills i (n + 1) := by
  refine fills_scratch ?_
  split
  · exact fills_ret (by decide) _ _
  · exact fills_push.mpr h

theorem fetchIf_fills {c : Bool} {addr : UInt64} {len n : Nat} {next : List UInt8 → Filler ty}
    (h : ∀ bs, (next bs).Fills i n) : (fetchIf s c addr len next).Fills i n := by
  unfold fetchIf
  split
  · exact fills_fetch h
  · exact h _

theorem pushPacked_fills {packed : List Write × List UInt8} {next : Filler ty} {n : Nat}
    (h : next.Fills (i + 1) n) : (pushPacked s packed next).Fills i (n + 1) :=
  fills_scratches (fills_push.mpr h)

/-! ## Files -/

theorem fSysOpenat2_fills : (fSysOpenat2 s : Filler ty).Fills i 6 :=
  fills_pushes (n := 3) (fills_fetch fun _ => fills_pushes_done rfl) rfl

theorem fSysFcntl_fills : (fSysFcntl s : CheckedFiller ty).filler.Fills i 2 :=
  (fills_pushes_done (m := 1) rfl).seq (fills_pushes_done rfl) rfl

theorem fSysPipe_fills : (fSysPipe k s : Filler ty).Fills i 4 :=
  fills_pushes (n := 3) (fills_fetch fun _ => fills_pushes_done rfl) rfl

theorem fSysReadvPreadv_fills : (fSysReadvPreadv s : Filler ty).Fills i 3 :=
  fills_push.mpr (parseReadvWritevBufs_fills _ _ _ _)

theorem fSysPread_fills : (fSysPread s : Filler ty).Fills i 5 :=
  fills_push.mpr (fills_push.mpr (fills_push.mpr fSysRead_fills))

theorem fSysPwrite_fills : (fSysPwrite s : Filler ty).Fills i 5 :=
  fills_push.mpr (fills_push.mpr (fills_push.mpr fSysWrite_fills))

theorem fSysPreadv_fills : (fSysPreadv s : Filler ty).Fills i 5 :=
  fills_push.mpr (fills_push.mpr fSysReadvPreadv_fills)

theorem fSysWritevPwritev_fills : (fSysWritevPwritev s : Filler ty).Fills i 2 :=
  fills_pushes (parseReadvWritevBufs_fills _ _ _ _) rfl

theorem fSysWritev_fills : (fSysWritev s : Filler ty).Fills i 4 :=
  (fills_pushes (parseReadvWritevBufs_fills _ _ _ _) rfl).seq fSysWritevPwritev_fills rfl

theorem fSysPwritev_fills : (fSysPwritev s : Filler ty).Fills i 5 :=
  (fills_pushes (parseReadvWritevBufs_fills _ _ _ _) rfl).seq
    (fills_pushes fSysWritevPwritev_fills rfl) rfl

theorem fSysPoll_fills : (fSysPoll s : Filler ty).Fills i 4 :=
  (pollParseFds_fills true).seq (fills_push.mpr (fills_push.mpr (pollParseFds_fills false)))
    rfl

theorem fSysPpoll_fills : (fSysPpoll s : Filler ty).Fills i 5 := by
  have hx : ∀ j, (fSysPollXCommon s : Filler ty).Fills j 2 := fun j =>
    fills_pushes (pollParseFds_fills false) rfl
  have hsig : ∀ j, (if s.arg 3 = 0 then pushes [.imm 0] <| fSysPollXCommon s
      else fetch s.um (s.arg 3) 8 fun mask =>
        pushes [.imm (field64 mask 0)] <| fSysPollXCommon s : Filler ty).Fills j 3 := by
    intro j
    split
    · exact fills_pushes (hx _) rfl
    · exact fills_fetch fun _ => fills_pushes (hx _) rfl
  refine (pollParseFds_fills true).seq (n := 4) ?_ rfl
  split
  · exact fills_pushes (hsig _) rfl
  · exact timespecParse_fills (hsig _)

/-! ## Limits, memory and processes -/

theorem fSysGetrlimitSetrlrimit_fills : (fSysGetrlimitSetrlrimit s : Filler ty).Fills i 4 := by
  refine fills_pushes (n := 2) ?_ rfl
  split
  · exact fills_fetch fun _ => fills_pushes_done rfl
  · exact fills_pushes_done rfl

theorem vmCounters_length : (vmCounters k).length = 3 := by
  unfold vmCounters
  split
  · rfl
  · rfl

theorem fSysBrkMunmapMmap_fills (h : ty ≠ .syscallMmap ∧ ty ≠ .syscallMmap2) :
    (fSysBrkMunmapMmap k s : Filler ty).Fills i 4 := by
  have hlen : (.imm s.ret :: vmCounters k).length = 4 := by simp [vmCounters_length]
  simp only [fSysBrkMunmapMmap, h, or_self, if_false]
  exact fills_pushes_done hlen

theorem fSysMmap_fills (h : ty = .syscallMmap ∨ ty = .syscallMmap2) :
    (fSysBrkMunmapMmap k s : Filler ty).Fills i 10 := by
  have hlen : (.imm s.ret :: vmCounters k).length = 4 := by simp [vmCounters_length]
  simp only [fSysBrkMunmapMmap, h, if_true]
  exact fills_pushes (fills_pushes_done hlen) rfl

theorem fSysPtrace_fills : (fSysPtrace s : Filler ty).Fills i 5 := by
  have hdata : ∀ j, (parsePtraceData s (ptraceRequestsToScap (s.arg 0)) : Filler ty).Fills j 1 := by
    intro j
    unfold parsePtraceData
    split
    · exact fills_fetch fun _ => fills_pushes_done rfl
    split
    · exact fills_pushes_done rfl
    · exact fills_pushes_done rfl
  refine fills_pushes (n := 2) ?_ rfl
  split
  · exact fills_pushes_done rfl
  · exact fills_pushes (hdata _) rfl

theorem fSysGetresuidAndGid_fills : (fSysGetresuidAndGid s : Filler ty).Fills i 4 :=
  fills_pushes (n := 3) (fills_fetch fun _ => fills_pushes (n := 2) (fills_fetch fun _ =>
    fills_pushes (n := 1) (fills_fetch fun _ => fills_pushes_done rfl) rfl) rfl) rfl

/-- The operations are pushed only if there are some. -/
theorem fSysSemop_fills (h : s.arg 2 ≠ 0 ∧ s.arg 1 ≠ 0) :
    (fSysSemop s : Filler ty).Fills i 8 := by
  simp only [fSysSemop, h, ne_eq, not_false_eq_true, and_self, if_true]
  refine fills_pushes (n := 6) ?_ rfl
  split
  · refine fills_fetch fun _ => fills_pushes (n := 3) ?_ rfl
    split
    · exact fills_fetch fun _ => fills_pushes_done rfl
    · exact fills_pushes_done rfl
  · refine fills_pushes (n := 3) ?_ rfl
    split
    · exact fills_fetch fun _ => fills_pushes_done rfl
    · exact fills_pushes_done rfl

theorem fSysQuotactl_fills : (fSysQuotactl s : Filler ty).Fills i 18 := by
  refine fills_pushes (n := 11) (fetchIf_fills fun dqblk => ?_) rfl
  refine fills_pushes (n := 4) (fetchIf_fills fun dqinfo => fills_pushes (n := 1) ?_ rfl) rfl
  split
  · exact fills_fetch fun _ => fills_pushes_done rfl
  · exact fills_pushes_done rfl

theorem cloneFields_fills : (cloneFields k s : Filler ty).Fills i 5 := by
  unfold cloneFields
  simp only
  split
  · exact fills_pushes_done rfl
  split
  · exact fills_fetch fun _ => fills_pushes_done rfl
  · exact fills_pushes_done rfl

theorem execveFields_fills : (execveFields k s : Filler ty).Fills i 5 :=
  fills_scratches (fills_scratches (fills_pushes_done rfl))

theorem procIdentity_fills : (procIdentity k : Filler ty).Fills i 11 := by
  refine fills_pushes (n := 0) (fills_scratch (fills_done.mpr rfl)) ?_
  simp only [List.length_append, vmCounters_length, List.length_cons, List.length_nil]

theorem procCgroups_fills {next : Filler ty} {n : Nat} (h : next.Fills (i + 1) n) :
    (procCgroups k s next).Fills i (n + 1) :=
  fills_scratch (fills_push.mpr h)

theorem exeAndArgs_fills {strings : List Write × List UInt8} {next : Filler ty} {n : Nat}
    (h : next.Fills (i + 2) n) : (exeAndArgs s strings next).Fills i (2 + n) :=
  fills_scratches (fills_scratches (fills_pushes h rfl))

theorem procHead_fills : (procHead k s : Filler ty).Fills i 14 := by
  refine fills_pushes (n := 13) ?_ rfl
  split
  · exact fills_scratch (fills_pushes procIdentity_fills rfl)
  split
  · split
    · exact fills_scratch (fills_ret (by decide) _ _)
    split
    · exact fills_scratch (fills_ret (by decide) _ _)
    · exact exeAndArgs_fills procIdentity_fills
  · exact fills_scratch (exeAndArgs_fills procIdentity_fills)

theorem fProcStartupdate_fills (h : ∀ j, (procEnd k s : Filler ty).Fills j 5) :
    (fProcStartupdate k s : CheckedFiller ty).filler.Fills i 20 := by
  simp only [fProcStartupdate, CheckedFiller.filler_after, CheckedFiller.filler_asserts,
    CheckedFiller.filler]
  exact procHead_fills.seq (procCgroups_fills (h _)) rfl

theorem fSysExecve_fills (h : ∀ j, (procEnd k s : Filler ty).Fills j 5) :
    (fSysExecve k s : CheckedFiller ty).filler.Fills i 21 := by
  simp only [fSysExecve, CheckedFiller.filler_after]
  exact (fills_pushes_done (m := 1) rfl).seq (fProcStartupdate_fills h) rfl

theorem fSysExecveat_fills (h : ∀ j, (procEnd k s : Filler ty).Fills j 5) :
    (fSysExecveat k s : CheckedFiller ty).filler.Fills i 23 := by
  simp only [fSysExecveat, CheckedFiller.filler_after]
  exact (fills_pushes_done (m := 3) rfl).seq (fProcStartupdate_fills h) rfl

/-! ## Sockets -/

theorem fSysSocketBind_fills (plain : ∀ i, ((gEventInfo ty).param i).type ≠ .dyn)
    (hw : (((gEventInfo ty).param i).type.width).isSome) :
    (fSysSocketBind k s plain).filler.Fills i 2 := by
  simp only [fSysSocketBind, CheckedFiller.filler_after, CheckedFiller.filler_asserts,
    CheckedFiller.filler, Filler.seq, done, if_true]
  exact ⟨⟨by decide, hw⟩, PushesFirst.scratches trivial,
    pushPacked_fills (n := 0) (fills_done.mpr rfl)⟩

theorem fSysConnect_fills (plain : ∀ i, ((gEventInfo ty).param i).type ≠ .dyn)
    (hw : (((gEventInfo ty).param i).type.width).isSome) :
    (fSysConnect k s plain).filler.Fills i 2 := by
  simp only [fSysConnect, CheckedFiller.filler_after, CheckedFiller.filler_asserts,
    CheckedFiller.filler, Filler.seq, done, if_true]
  exact ⟨⟨by decide, hw⟩, PushesFirst.scratches trivial,
    pushPacked_fills (n := 0) (fills_done.mpr rfl)⟩

theorem fSysAcceptCommon_fills : (fSysAcceptCommon k s : CheckedFiller ty).filler.Fills i 5 := by
  simp only [fSysAcceptCommon, CheckedFiller.filler_after, CheckedFiller.filler_asserts,
    CheckedFiller.filler]
  exact (fills_pushes_done (m := 1) rfl).seq (pushPacked_fills (fills_pushes_done rfl)) rfl

theorem fSysAccept4_fills : (fSysAccept4 k s : CheckedFiller ty).filler.Fills i 6 := by
  simp only [fSysAccept4, CheckedFiller.filler_after]
  exact (fills_pushes_done (m := 1) rfl).seq fSysAcceptCommon_fills rfl

theorem fSysSendXCommon_fills : (fSysSendXCommon s : Filler ty).Fills i 2 := fills_pushes_done rfl

theorem fSysSend_fills : (fSysSend s : Filler ty).Fills i 4 :=
  fills_pushes fSysSendXCommon_fills rfl

theorem fSysSendto_fills : (fSysSendto k s : CheckedFiller ty).filler.Fills i 5 := by
  simp only [fSysSendto, CheckedFiller.filler_after, CheckedFiller.filler_asserts,
    CheckedFiller.filler]
  exact (fills_scratch (fills_pushes_done (m := 2) rfl)).seq
    (pushPacked_fills fSysSendXCommon_fills) rfl

theorem fSysRecvfrom_fills : (fSysRecvfrom k s : CheckedFiller ty).filler.Fills i 3 := by
  simp only [fSysRecvfrom]
  split
  · exact fills_pushes (fills_ret (by decide) _ 1) rfl
  · simp only [CheckedFiller.filler_after, CheckedFiller.filler_asserts, CheckedFiller.filler]
    exact (fills_pushes_done (m := 2) rfl).seq (pushPacked_fills (n := 0) (fills_done.mpr rfl)) rfl

theorem fSysSendmsg_fills : (fSysSendmsg k s : CheckedFiller ty).filler.Fills i 5 := by
  simp only [fSysSendmsg]
  split
  · exact fills_pushes (fills_ret (by decide) _ 4) rfl
  · simp only [CheckedFiller.filler_after, CheckedFiller.filler_asserts, CheckedFiller.filler]
    exact (fills_pushes (m := 2) (parseReadvWritevBufs_fills _ _ _ _) rfl).seq
      (pushPacked_fills (n := 2) (fills_pushes (parseReadvWritevBufs_fills _ _ _ _) rfl)) rfl

theorem fSysRecvmsg_fills : (fSysRecvmsg k s : CheckedFiller ty).filler.Fills i 4 := by
  simp only [fSysRecvmsg]
  split
  · exact fills_pushes (fills_ret (by decide) _ 3) rfl
  · simp only [CheckedFiller.filler_after, CheckedFiller.filler_asserts, CheckedFiller.filler]
    exact (fills_pushes (m := 3) (parseReadvWritevBufs_fills _ _ _ _) rfl).seq
      (pushPacked_fills (n := 0) (fills_done.mpr rfl)) rfl

theorem fSysSocketpair_fills : (fSysSocketpair k s : Filler ty).Fills i 5 := by
  refine fills_pushes (n := 4) ?_ rfl
  split
  · exact fills_pushes_done rfl
  · refine fills_fetch fun fds => fills_pushes (n := 2) ?_ rfl
    split
    case h_1 err neg _ => exact fills_ret (by unfold nodSuccess; omega) _ _
    case h_2 => exact fills_pushes_done rfl
    case h_3 => exact fills_pushes_done rfl

theorem parseSockopt_fills {level optname optlen : UInt32} {optval : UInt64} {next : Filler ty}
    {n : Nat} (h : next.Fills (i + 1) n) :
    (parseSockopt k s level optname optval optlen next).Fills i (n + 1) := by
  unfold parseSockopt
  simp only
  split
  · exact fills_push.mpr h
  split
  · exact fills_fetch fun _ => fills_push.mpr h
  split
  · exact fills_fetch fun _ => fills_push.mpr h
  split
  · exact fills_fetch fun _ => fills_push.mpr h
  split
  · exact fills_fetch fun _ => fills_push.mpr h
  · exact fills_push.mpr h

theorem sockoptHead_fills {next : CheckedFiller ty} {n : Nat} (h : next.filler.Fills (i + 4) n) :
    (sockoptHead k s next).filler.Fills i (4 + n) := by
  simp only [sockoptHead, CheckedFiller.filler, CheckedFiller.filler_after]
  refine (fills_pushes_done (m := 3) rfl).seq ((fills_pushes_done (m := 1) rfl).seq h rfl) ?_
  omega

theorem fSysSetsockopt_fills : (fSysSetsockopt k s : CheckedFiller ty).filler.Fills i 6 :=
  sockoptHead_fills (n := 2) (parseSockopt_fills (fills_pushes_done rfl))

theorem fSysGetsockopt_fills : (fSysGetsockopt k s : CheckedFiller ty).filler.Fills i 6 :=
  sockoptHead_fills (n := 2) (fills_fetch fun _ => parseSockopt_fills (fills_pushes_done rfl))

/-! ## The table -/

/-- **Every row but two fills what its event declares.**  One of the rows that no system call
number leads to does not either. -/
theorem eventRow_fills {row : EventRow ty} (hrow : eventRow k s ty = some row)
    (hnr : s.nr.toNat < tableSize) (hexecve : ty ≠ .syscallExecve_8)
    (hsplice : ty ≠ .syscallSplice) (hsemop : ty = .syscallSemop → s.arg 2 ≠ 0 ∧ s.arg 1 ≠ 0) :
    ∃ n, row.callback.filler.Fills (row.autofill.takeWhile AutofillArg.isArg).length n ∧
      row.autofill.length + n = (gEventInfo ty).nparams := by
  cases ty
  case generic =>
    cases hrow
    refine ⟨1, ?_, rfl⟩
    simp only [fSysGenericChecked, hnr, if_true]
    exact fills_pushLast _ _
  case syscallExecve_8 => exact absurd rfl hexecve
  case syscallSplice => exact absurd rfl hsplice
  case syscallSemop => cases hrow; exact ⟨8, fSysSemop_fills (hsemop rfl), rfl⟩
  case syscallRead => cases hrow; exact ⟨2, fSysRead_fills, rfl⟩
  case syscallWrite => cases hrow; exact ⟨2, fSysWrite_fills, rfl⟩
  case socketBind => cases hrow; exact ⟨2, fSysSocketBind_fills _ rfl, rfl⟩
  case socketConnect => cases hrow; exact ⟨2, fSysConnect_fills _ rfl, rfl⟩
  case socketSend => cases hrow; exact ⟨4, fSysSend_fills, rfl⟩
  case socketSendto => cases hrow; exact ⟨5, fSysSendto_fills, rfl⟩
  case socketRecvfrom => cases hrow; exact ⟨3, fSysRecvfrom_fills, rfl⟩
  case socketSocketpair => cases hrow; exact ⟨5, fSysSocketpair_fills, rfl⟩
  case socketSetsockopt => cases hrow; exact ⟨6, fSysSetsockopt_fills, rfl⟩
  case socketGetsockopt => cases hrow; exact ⟨6, fSysGetsockopt_fills, rfl⟩
  case socketSendmsg => cases hrow; exact ⟨5, fSysSendmsg_fills, rfl⟩
  case socketRecvmsg => cases hrow; exact ⟨4, fSysRecvmsg_fills, rfl⟩
  case syscallPipe => cases hrow; exact ⟨4, fSysPipe_fills, rfl⟩
  case syscallPoll => cases hrow; exact ⟨4, fSysPoll_fills, rfl⟩
  case syscallPread => cases hrow; exact ⟨5, fSysPread_fills, rfl⟩
  case syscallPwrite => cases hrow; exact ⟨5, fSysPwrite_fills, rfl⟩
  case syscallReadv => cases hrow; exact ⟨3, fSysReadvPreadv_fills, rfl⟩
  case syscallWritev => cases hrow; exact ⟨4, fSysWritev_fills, rfl⟩
  case syscallPreadv => cases hrow; exact ⟨5, fSysPreadv_fills, rfl⟩
  case syscallPwritev => cases hrow; exact ⟨5, fSysPwritev_fills, rfl⟩
  case syscallNanosleep => cases hrow; exact ⟨1, timespecParse_fills (fills_done.mpr rfl), rfl⟩
  case syscallGetrlimit => cases hrow; exact ⟨4, fSysGetrlimitSetrlrimit_fills, rfl⟩
  case syscallSetrlimit => cases hrow; exact ⟨4, fSysGetrlimitSetrlrimit_fills, rfl⟩
  case syscallFcntl => cases hrow; exact ⟨2, fSysFcntl_fills, rfl⟩
  case syscallBrk_4 => cases hrow; exact ⟨4, fSysBrkMunmapMmap_fills (by decide), rfl⟩
  case syscallMmap => cases hrow; exact ⟨10, fSysMmap_fills (by decide), rfl⟩
  case syscallMmap2 => cases hrow; exact ⟨10, fSysMmap_fills (by decide), rfl⟩
  case syscallMunmap => cases hrow; exact ⟨4, fSysBrkMunmapMmap_fills (by decide), rfl⟩
  case syscallPtrace => cases hrow; exact ⟨5, fSysPtrace_fills, rfl⟩
  case syscallQuotactl => cases hrow; exact ⟨18, fSysQuotactl_fills, rfl⟩
  case syscallGetresuid => cases hrow; exact ⟨4, fSysGetresuidAndGid_fills, rfl⟩
  case syscallGetresgid => cases hrow; exact ⟨4, fSysGetresuidAndGid_fills, rfl⟩
  case syscallClone_20 =>
    cases hrow
    exact ⟨20, fProcStartupdate_fills fun _ => cloneFields_fills (s := s), rfl⟩
  case syscallFork_20 =>
    cases hrow
    exact ⟨20, fProcStartupdate_fills fun _ => cloneFields_fills (s := s), rfl⟩
  case syscallVfork_20 =>
    cases hrow
    exact ⟨20, fProcStartupdate_fills fun _ => cloneFields_fills (s := s), rfl⟩
  case syscallClone3 =>
    cases hrow
    exact ⟨20, fProcStartupdate_fills fun _ => cloneFields_fills (s := s), rfl⟩
  case socketAccept_5 => cases hrow; exact ⟨5, fSysAcceptCommon_fills, rfl⟩
  case socketAccept4_5 => cases hrow; exact ⟨6, fSysAccept4_fills, rfl⟩
  case syscallPpoll => cases hrow; exact ⟨5, fSysPpoll_fills, rfl⟩
  case syscallExecve_19 =>
    cases hrow
    exact ⟨21, fSysExecve_fills fun _ => execveFields_fills, rfl⟩
  case syscallExecveat =>
    cases hrow
    exact ⟨23, fSysExecveat_fills fun _ => execveFields_fills, rfl⟩
  case syscallOpenat2 => cases hrow; exact ⟨6, fSysOpenat2_fills, rfl⟩
  -- the others push a list, or nothing beside their automatic arguments
  all_goals cases hrow
  all_goals first | exact ⟨0, fun _ => rfl, rfl⟩ | exact ⟨_, fills_pushes_done rfl, rfl⟩

/-- What `nod_filler_callback` pushes: the automatic arguments and those of the callback. -/
theorem fillerCallback_fills {row : EventRow ty} {n : Nat} (hrow : eventRow k s ty = some row)
    (h : row.callback.filler.Fills (row.autofill.takeWhile AutofillArg.isArg).length n) :
    (fillerCallback k s ty).filler.Fills 0 (row.autofill.length + n) := by
  have hsplit := congrArg List.length
    (List.takeWhile_append_dropWhile (p := AutofillArg.isArg) (l := row.autofill))
  rw [List.length_append] at hsplit
  rw [fillerCallback_filler hrow]
  refine (fills_nodAutofill s _ _).seq
    ((?_ : Filler.Fills _ _ n).seq (fills_nodAutofill s _ _) rfl) ?_
  · simpa using h
  · omega

end

/-! ## Every system call -/

/-- **The filler fills exactly the declared parameters**: if it succeeds all of them are there,
and it comes to no push without a parameter, whatever room there is. -/
def FillsExactly (k : Kernel) (s : Syscall) : Prop :=
  ∀ off size,
    (((fillerCallback k s (gSyscallEventTable s.nr.toNat)).run s.um ⟨0, off, size⟩).res =
        some nodSuccess →
      ((fillerCallback k s (gSyscallEventTable s.nr.toNat)).run s.um ⟨0, off, size⟩).args.curarg =
        (gEventInfo (gSyscallEventTable s.nr.toNat)).nparams) ∧
    ¬ (fillerCallback k s (gSyscallEventTable s.nr.toNat)).TooMany s.um ⟨0, off, size⟩

/-- The call is no `splice`, and no `semop` without operations. -/
def Fillable (s : Syscall) : Prop := s.nr ≠ 275 ∧ (s.nr = 65 → s.arg 2 ≠ 0 ∧ s.arg 1 ≠ 0)

instance (s : Syscall) : Decidable (Fillable s) := inferInstanceAs (Decidable (_ ∧ _))

/-- Where the event types that are filled in wrongly come from. -/
theorem gSyscallEventTable_unfillable {n : Nat} (hn : n < tableSize) :
    gSyscallEventTable n ≠ .syscallExecve_8 ∧
    (gSyscallEventTable n = .syscallSplice ↔ n = 275) ∧
    (gSyscallEventTable n = .syscallSemop ↔ n = 65) := by
  revert n
  decide +kernel

section

variable {k : Kernel} {s : Syscall}

/-- A filler whose callback has no `ASSERT` runs as it does without them. -/
theorem not_trips_of_plain {ty : EventType} {f : Filler ty} {autofill : List AutofillArg}
    (hrow : eventRow k s ty = some ⟨.plain f, autofill⟩) {um : UserMem} (a : RingArgs) :
    ¬ (fillerCallback k s ty).Trips um a := by
  rw [trips_fillerCallback hrow (eventRow_autofill hrow)]
  rintro ⟨-, ht⟩
  exact f.not_trips _ ht

/-- `splice`, when there is room for its four arguments. -/
theorem splice_tooMany : (fillerCallback k s .syscallSplice).TooMany s.um ⟨0, 0, 64⟩ := by
  refine CheckedFiller.tooMany_of_filler ?_ (not_trips_of_plain rfl _)
  rw [fillerCallback_filler rfl]
  show (pushes [_, _, _, _] (push _ done) : Filler .syscallSplice).TooMany s.um _
  refine tooMany_pushes_of_room (n := 4) (m := 28) (by decide) rfl (by decide) (by decide) ?_ rfl
  exact Or.inl (Nat.le_refl 4)

/-- `semop` without operations, when there is room for its first three arguments. -/
theorem semop_short (h : ¬ (s.arg 2 ≠ 0 ∧ s.arg 1 ≠ 0)) :
    ((fillerCallback k s .syscallSemop).run s.um ⟨0, 0, 64⟩).res = some nodSuccess ∧
      ((fillerCallback k s .syscallSemop).run s.um ⟨0, 0, 64⟩).args.curarg = 3 := by
  have hfiller : (fillerCallback k s .syscallSemop).filler =
      pushes [{ val := s.arg 0, fromuser := true }, .imm s.ret, .user (s.arg 2)] done := by
    rw [fillerCallback_filler rfl]
    simp only [fSysSemop, h, if_false]
    rfl
  have hrun : ((fillerCallback k s .syscallSemop).filler.run s.um ⟨0, 0, 64⟩).res =
        some nodSuccess ∧
      ((fillerCallback k s .syscallSemop).filler.run s.um ⟨0, 0, 64⟩).args = ⟨3, 16, 48⟩ := by
    rw [hfiller]
    exact run_pushes_of_room s.um _ done (n := 3) (m := 16) (by decide) rfl (by decide) (by decide)
      rfl
  rw [CheckedFiller.run_filler (not_trips_of_plain rfl _), hrun.1, hrun.2]
  exact ⟨rfl, rfl⟩

theorem not_fillsExactly (h : ¬ Fillable s) : ¬ FillsExactly k s := by
  intro hfills
  obtain ⟨hcount, hmany⟩ := hfills 0 64
  rw [Fillable, not_and_or, not_not, Classical.not_imp] at h
  rcases h with h275 | ⟨h65, h⟩
  · have hty : gSyscallEventTable s.nr.toNat = .syscallSplice := by rw [h275]; rfl
    rw [hty] at hmany
    exact hmany splice_tooMany
  · have hty : gSyscallEventTable s.nr.toNat = .syscallSemop := by rw [h65]; rfl
    rw [hty] at hcount
    obtain ⟨hres, hcur⟩ := semop_short (k := k) h
    rw [hcount hres] at hcur
    cases hcur

theorem fillsExactly_of_fills
    (h : (fillerCallback k s (gSyscallEventTable s.nr.toNat)).filler.Fills 0
      (gEventInfo (gSyscallEventTable s.nr.toNat)).nparams) : FillsExactly k s := by
  intro off size
  constructor
  · intro hok
    have hrun := CheckedFiller.run_eq_of_success hok
    rw [hrun] at hok ⊢
    have hcur := Fills.run_curarg (a := ⟨0, off, size⟩) h hok
    simpa using hcur
  · intro hmany
    have hlt := h.tooMany_le (CheckedFiller.tooMany_filler hmany)
    simp only at hlt
    omega

/-- **Every event has the arguments it declares exactly when the call is no `splice`, and no
`semop` without operations.** -/
theorem fillsExactly_iff (hnr : s.nr.toNat < tableSize) : FillsExactly k s ↔ Fillable s := by
  obtain ⟨hexecve, hsplice, hsemop⟩ := gSyscallEventTable_unfillable hnr
  constructor
  · intro h
    by_contra hnot
    exact not_fillsExactly hnot h
  · rintro ⟨h275, h65⟩
    refine fillsExactly_of_fills ?_
    cases hrow : eventRow k s (gSyscallEventTable s.nr.toNat) with
    | none =>
      simp only [fillerCallback, hrow, CheckedFiller.filler]
      exact fills_ret (by decide) _ _
    | some row =>
      obtain ⟨n, hfills, hn⟩ := eventRow_fills hrow hnr hexecve
        (fun h => h275 (nr_eq (hsplice.mp h))) (fun h => h65 (nr_eq (hsemop.mp h)))
      rw [← hn]
      exact fillerCallback_fills hrow hfills

end

/-- A `semop` with `nsops` operations, in a page of ones. -/
def semopCall (nsops : UInt64) : Syscall :=
  { Syscall.idle with
    nr := 65
    arg := fun i => if i = 1 then 4096 else if i = 2 then nsops else 0
    um := ⟨fun a => if 4096 ≤ a ∧ a < 8192 then some 1 else none, 2 ^ 47, fun _ _ => 0⟩ }

/-- A `semop` with an operation that can be read.  Its nine arguments take 28 bytes. -/
theorem semop_fillsExactly :
    (semopCall 1).nr.toNat < tableSize ∧ FillsExactly Kernel.idle (semopCall 1) ∧
      ((fillerCallback Kernel.idle (semopCall 1) .syscallSemop).filler.run (semopCall 1).um
        ⟨0, 18, 64⟩).res = some nodSuccess ∧
      ((fillerCallback Kernel.idle (semopCall 1) .syscallSemop).filler.run (semopCall 1).um
        ⟨0, 18, 64⟩).args = ⟨9, 46, 36⟩ :=
  ⟨by decide, (fillsExactly_iff (by decide)).mpr (by decide), by decide +kernel, by decide +kernel⟩

/-- A `semop` with no operation, whose event is lost. -/
theorem semop_not_fillsExactly :
    (semopCall 0).nr.toNat < tableSize ∧ ¬ FillsExactly Kernel.idle (semopCall 0) :=
  ⟨by decide, not_fillsExactly (by decide)⟩

end NoDrop
