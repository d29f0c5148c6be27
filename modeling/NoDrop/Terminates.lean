import NoDrop.AssertsHold
import NoDrop.BindAddr
import NoDrop.PollList
import NoDrop.UserStrings

/-! # Which recordings return

`do_record_one_event` goes back to `restart:` as long as the filler returns
`NOD_FAILURE_BUFFER_FULL`, and it does not ask whether it was in the overflow page already.  So a
call that is refused there is refused for ever.  There are four ways not to return within the two
attempts.

An argument may not fit in the page, behind those that come before it.  A filler may return
`NOD_FAILURE_BUFFER_FULL` for a reason of its own: a vector of 256 buffers, a list of descriptors
that `poll_parse_fds` has no room for (`ReportsFull`).  `poll_parse_fds` may run away
(`PollWraps`).  And an `ASSERT` may fail, which is a `BUG_ON` (`AssertsHold`).

These are all (`returns_iff`).
-/
namespace NoDrop

open Bytes Filler

/-! ## Stores into `str_storage` -/

section Stores

/-- The address and port of the two ends, whichever comes first. -/
theorem TupleArgs.order_length_le (t : TupleArgs) (other own : List UInt8 × List UInt8)
    (hother : other.1.length ≤ 16 ∧ other.2.length ≤ 2) (hown : own.1.length ≤ 16 ∧ own.2.length ≤ 2) :
    (t.order other own).1.1.length + (t.order other own).1.2.length +
      (t.order other own).2.1.length + (t.order other own).2.2.length ≤ 36 := by
  unfold TupleArgs.order
  split
  · simp only
    omega
  · simp only
    omega

theorem Sk.tuple_inside (sk : Sk) (t : TupleArgs) : ∀ w ∈ (sk.tuple t).1, w.stop ≤ pageSize := by
  have hport : ∀ a : Image, (saPort a).length ≤ 2 := fun a => by simp [saPort]
  have hip : ∀ a : Image, (saIp a).length ≤ 16 := fun a => by simp [saIp]
  have hip6 : ∀ a : Image, (saIp6 a).length ≤ 16 := fun a => by simp [saIp6]
  have hpath : (unixPath ((t.usName sk).read 2 unixPathMax)).1.length = unixPathMax :=
    unixPath_length (Nat.le_of_eq (Image.read_length ..))
  have hpage : pageSize = 4096 := rfl
  intro w hw
  unfold Sk.tuple at hw
  dsimp only at hw
  split at hw
  · cases hother : (t.usrsockaddr.map Prod.fst).or sk.peerName with
    | none =>
      rw [hother] at hw
      obtain rfl := List.mem_singleton.mp hw
      simp [Write.stop, hpage]
    | some o =>
      rw [hother] at hw
      obtain rfl := List.mem_singleton.mp hw
      have hle := t.order_length_le (saIp o, saPort o) (saIp sk.ownName, saPort sk.ownName)
        ⟨hip _, hport _⟩ ⟨hip _, hport _⟩
      simp only [Write.stop, List.length_append, List.length_singleton]
      omega
  split at hw
  · obtain rfl := List.mem_singleton.mp hw
    generalize (((t.usrsockaddr.map Prod.fst).or sk.peerName).getD fun _ => 0) = o
    have hle := t.order_length_le (saIp6 o, saPort o) (saIp6 sk.ownName, saPort sk.ownName)
      ⟨hip6 _, hport _⟩ ⟨hip6 _, hport _⟩
    simp only [Write.stop, List.length_append, List.length_singleton]
    omega
  split at hw
  · simp only [List.mem_cons, List.not_mem_nil, or_false] at hw
    rcases hw with rfl | rfl | rfl
    · simp [Write.stop, hpage]
    · simp only [Write.stop, hpath]
      decide
    · simp [Write.stop, hpage, unixPathMax]
  · cases hw

variable (k : Kernel) (s : Syscall)

theorem fdToSocktuple_inside (fd : UInt32) (t : TupleArgs) :
    ∀ w ∈ (k.fdToSocktuple fd t).1, w.stop ≤ pageSize := by
  unfold Kernel.fdToSocktuple
  split
  · exact fun w hw => absurd hw List.not_mem_nil
  · exact Sk.tuple_inside _ t

theorem usrTuple_inside (fd : UInt32) (addr : Option (Image × UInt32)) (isInbound : Bool) :
    ∀ w ∈ (usrTuple k fd addr isInbound).1, w.stop ≤ pageSize := by
  unfold usrTuple
  split
  · exact fun w hw => absurd hw List.not_mem_nil
  · exact fdToSocktuple_inside k fd _

/-- The control groups end within what `append_cgroup` is given. -/
theorem appendCgroups_length_le (groups : List (List UInt8 × Option (List UInt8)))
    (available : Nat) : (Kernel.appendCgroups groups available).length ≤ available := by
  induction groups generalizing available with
  | nil => exact Nat.zero_le _
  | cons g groups ih =>
    obtain ⟨name, path⟩ := g
    cases path with
    | none => exact Nat.zero_le _
    | some path =>
      simp only [Kernel.appendCgroups]
      split
      · exact Nat.zero_le _
      · have := ih (available - (Kernel.cgroupEntry name path).length)
        rw [List.length_append]
        omega

theorem ownStrings_inside (start : UInt64) (len : Nat) :
    ∀ w ∈ (ownStrings s start len).1, w.stop ≤ pageSize := by
  have hgot := s.um.nodCopyFromUser_length_le start.toNat (min len pageSize)
  have hcopy : (⟨0, (s.um.nodCopyFromUser start.toNat (min len pageSize)).1⟩ : Write).stop ≤
      pageSize := by
    simp only [Write.stop]
    omega
  intro w hw
  unfold ownStrings at hw
  dsimp only at hw
  split at hw
  · cases hw
  split at hw
  · rw [List.mem_singleton.mp hw]
    exact hcopy
  · rcases List.mem_cons.mp hw with rfl | hw
    · exact hcopy
    · rw [List.mem_singleton.mp hw]
      simp only [Write.stop, List.length_singleton]
      omega

theorem givenStrings_inside (argv : UInt64) {available : Nat} (h : available ≤ pageSize) :
    ∀ w ∈ (givenStrings s argv available).1, w.stop ≤ pageSize := by
  unfold givenStrings accumulateArgvOrEnv
  dsimp only
  split
  · exact fun w hw => absurd hw List.not_mem_nil
  · intro w hw
    have hloop : Accumulates s.um argv.toNat available []
        (accumulateLoop s.um (available + 1) argv.toNat available []) :=
      accumulates_loop (Nat.lt_succ_self available)
    exact Nat.le_trans (hloop.inside w hw).2 (by simpa using h)

end Stores

/-! ## Fillers that report a full buffer by themselves -/

section Reports

variable (k : Kernel) (s : Syscall)

/-- The error of `sockfd_lookup`. -/
def Kernel.lookupError (fd : UInt32) : Option Int :=
  match k.sockfdLookup fd with
  | .error err _ => some err
  | .sock _ => none

/-- `sockfd_lookup` fails with the number of `NOD_FAILURE_BUFFER_FULL` for the first of the two
descriptors of a `socketpair`. -/
def PairRefused : Prop :=
  let got := s.um.nodCopyFromUser (s.arg 3).toNat 8
  0 ≤ signed s.ret ∧ got.2 = 0 ∧ k.lookupError (field32 got.1 0) = some nodFailureBufferFull

instance : Decidable (PairRefused k s) := inferInstanceAs (Decidable (_ ∧ _))

/-- **The filler returns `NOD_FAILURE_BUFFER_FULL` whatever room it has**: the vector of a `readv`,
`writev`, `preadv` or `pwritev`, or the one in the header of a `sendmsg` or `recvmsg`, has 256
buffers or more; or `poll_parse_fds` has no room in `str_storage` for the descriptors of a `poll` or
`ppoll`. -/
def ReportsFull : Prop :=
  ((s.nr = 19 ∨ s.nr = 20 ∨ s.nr = 295 ∨ s.nr = 296) ∧ 256 ≤ (s.arg 2).toNat) ∨
  ((s.nr = 46 ∨ s.nr = 47) ∧ ∃ mh ∈ messageHeader s, 256 ≤ mh.iovlen.toNat) ∨
  ((s.nr = 7 ∨ s.nr = 271) ∧
    pageSize < (8 * (s.arg 1).toNat + 2 + 10 * (s.arg 1).toNat) % 2 ^ 64) ∨
  (s.nr = 53 ∧ PairRefused k s)

/-- The filler runs away: the check of `poll_parse_fds` wraps. -/
def RunsOver : Prop := (s.nr = 7 ∨ s.nr = 271) ∧ PollWraps s

instance : Decidable (ReportsFull k s) := inferInstanceAs (Decidable (_ ∨ _))

instance : Decidable (PollWraps s) := inferInstanceAs (Decidable (_ ∧ _))

instance : Decidable (RunsOver s) := inferInstanceAs (Decidable (_ ∧ _))

end Reports

/-! ## Fillers that settle -/

section Settles

variable {ty : EventType} {k : Kernel} {s : Syscall}

theorem parseReadvWritevBufs_settles {iovsrc iovcnt retval : UInt64} {flags : PrbFlags}
    (h : iovcnt.toNat < 256) :
    (parseReadvWritevBufs s iovsrc iovcnt retval flags : Filler ty).Settles := by
  rw [Settles, ending_parseReadvWritevBufs, if_neg (Nat.not_le.mpr h)]
  split
  · decide
  · decide

theorem pollParseFds_settles {enter : Bool}
    (hcheck : ¬ pageSize < (8 * (s.arg 1).toNat + 2 + 10 * (s.arg 1).toNat) % 2 ^ 64)
    (hwraps : ¬ PollWraps s) : (pollParseFds s enter : Filler ty).Settles := by
  rcases pollPage_cases hwraps enter fun _ => 0 with ⟨-, h⟩ | ⟨-, hfault⟩ | ⟨hsmall, hcopy⟩
  · exact absurd h hcheck
  · have hlong : ¬ pageSize <
        (s.um.nodCopyFromUser (s.arg 0).toNat ((s.arg 1).toNat * 8 % 2 ^ 64)).1.length := by
      intro hlong
      have hle := s.um.nodCopyFromUser_length_le (s.arg 0).toNat ((s.arg 1).toNat * 8 % 2 ^ 64)
      have hlow : (s.arg 1).toNat < 2 ^ 32 :=
        Nat.lt_of_not_le fun hbig => hwraps ⟨hbig, Nat.not_lt.mp hcheck, .inr hlong⟩
      rw [pollCheck_of_lt hlow] at hcheck
      unfold pageSize at hcheck hlong
      omega
    unfold pollParseFds
    dsimp only
    rw [if_neg hcheck, if_pos hfault]
    refine settles_scratch ?_ (settles_ret (by decide))
    simp only [Write.stop]
    omega
  · obtain ⟨w, h, w', h', hf⟩ := pollParseFds_of_copy ty enter hsmall hcopy
    rw [hf]
    exact settles_store.mpr (settles_store.mpr (settles_pushLast _))

theorem timespecParse_settles {val : UInt64} {next : Filler ty} (h : next.Settles) :
    (timespecParse s val next).Settles := by
  have hgot := s.um.nodCopyFromUser_length_le val.toNat 8
  have hpage : pageSize = 4096 := rfl
  refine settles_scratch (by simp only [Write.stop]; omega) ?_
  split
  · exact settles_ret (by decide)
  · exact h

theorem pushPacked_settles {packed : List Write × List UInt8} {next : Filler ty}
    (hw : ∀ w ∈ packed.1, w.stop ≤ pageSize) (h : next.Settles) :
    (pushPacked s packed next).Settles :=
  settles_scratches hw h

theorem fSysReadvPreadv_settles (h : (s.arg 2).toNat < 256) :
    (fSysReadvPreadv s : Filler ty).Settles :=
  settles_push.mpr (parseReadvWritevBufs_settles h)

theorem fSysWritevPwritev_settles (h : (s.arg 2).toNat < 256) :
    (fSysWritevPwritev s : Filler ty).Settles :=
  settles_pushes.mpr (parseReadvWritevBufs_settles h)

theorem fSysWritev_settles (h : (s.arg 2).toNat < 256) : (fSysWritev s : Filler ty).Settles :=
  (settles_pushes.mpr (parseReadvWritevBufs_settles h)).seq (fSysWritevPwritev_settles h)

theorem fSysPwritev_settles (h : (s.arg 2).toNat < 256) : (fSysPwritev s : Filler ty).Settles :=
  (settles_pushes.mpr (parseReadvWritevBufs_settles h)).seq
    (settles_pushes.mpr (fSysWritevPwritev_settles h))

theorem fSysPoll_settles
    (hcheck : ¬ pageSize < (8 * (s.arg 1).toNat + 2 + 10 * (s.arg 1).toNat) % 2 ^ 64)
    (hwraps : ¬ PollWraps s) : (fSysPoll s : Filler ty).Settles :=
  (pollParseFds_settles hcheck hwraps).seq <|
    settles_push.mpr (settles_push.mpr (pollParseFds_settles hcheck hwraps))

theorem fSysPpoll_settles
    (hcheck : ¬ pageSize < (8 * (s.arg 1).toNat + 2 + 10 * (s.arg 1).toNat) % 2 ^ 64)
    (hwraps : ¬ PollWraps s) : (fSysPpoll s : Filler ty).Settles := by
  have hx : (fSysPollXCommon s : Filler ty).Settles :=
    settles_pushes.mpr (pollParseFds_settles hcheck hwraps)
  have hsig : (if s.arg 3 = 0 then pushes [.imm 0] <| fSysPollXCommon s
      else fetch s.um (s.arg 3) 8 fun mask =>
        pushes [.imm (field64 mask 0)] <| fSysPollXCommon s : Filler ty).Settles := by
    split
    · exact settles_pushes.mpr hx
    · exact settles_fetch fun _ => settles_pushes.mpr hx
  refine (pollParseFds_settles hcheck hwraps).seq ?_
  split
  · exact settles_pushes.mpr hsig
  · exact timespecParse_settles hsig

theorem fSysGetrlimitSetrlrimit_settles :
    (fSysGetrlimitSetrlrimit s : Filler ty).Settles := by
  refine settles_pushes.mpr ?_
  split
  · exact settles_fetch fun _ => settles_pushes.mpr settles_done
  · exact settles_pushes.mpr settles_done

theorem fSysBrkMunmapMmap_settles : (fSysBrkMunmapMmap k s : Filler ty).Settles := by
  unfold fSysBrkMunmapMmap
  dsimp only
  split
  · exact settles_pushes.mpr (settles_pushes.mpr settles_done)
  · exact settles_pushes.mpr settles_done

theorem fSysPtrace_settles : (fSysPtrace s : Filler ty).Settles := by
  refine settles_pushes.mpr ?_
  split
  · exact settles_pushes.mpr settles_done
  refine settles_pushes.mpr ?_
  unfold parsePtraceData
  split
  · exact settles_fetch fun _ => settles_pushes.mpr settles_done
  split
  · exact settles_pushes.mpr settles_done
  · exact settles_pushes.mpr settles_done

theorem fSysSemop_settles : (fSysSemop s : Filler ty).Settles := by
  refine settles_pushes.mpr ?_
  split
  · -- two operations, each read or left out
    have hsop : ∀ (c : Prop) [Decidable c] (addr : UInt64) (vs : List UInt8 → List Value)
        (next : Filler ty), next.Settles →
        (if c then fetch s.um addr 6 fun b => pushes (vs b) next
          else pushes (vs [0, 0, 0, 0, 0, 0]) next).Settles := by
      intro c _ addr vs next h
      split
      · exact settles_fetch fun _ => settles_pushes.mpr h
      · exact settles_pushes.mpr h
    exact hsop _ _ _ _ (hsop _ _ _ _ settles_done)
  · exact settles_done

theorem fetchIf_settles {c : Bool} {addr : UInt64} {len : Nat} {next : List UInt8 → Filler ty}
    (h : ∀ bs, (next bs).Settles) : (fetchIf s c addr len next).Settles := by
  unfold fetchIf
  split
  · exact settles_fetch h
  · exact h _

theorem fSysQuotactl_settles : (fSysQuotactl s : Filler ty).Settles := by
  refine settles_pushes.mpr (fetchIf_settles fun _ => settles_pushes.mpr <|
    fetchIf_settles fun _ => settles_pushes.mpr ?_)
  split
  · exact settles_fetch fun _ => settles_pushes.mpr settles_done
  · exact settles_pushes.mpr settles_done

/-! ### Processes -/

theorem cloneFields_settles : (cloneFields k s : Filler ty).Settles := by
  unfold cloneFields
  dsimp only
  split
  · exact settles_pushes.mpr settles_done
  split
  · exact settles_fetch fun _ => settles_pushes.mpr settles_done
  · exact settles_pushes.mpr settles_done

theorem clear_settles {bytes : List UInt8} {next : Filler ty} (h : next.Settles) :
    (scratches (if bytes = [] then [⟨0, [0]⟩] else []) next).Settles := by
  refine settles_scratches (fun w hw => ?_) h
  split at hw
  · rw [List.mem_singleton.mp hw]
    decide
  · cases hw

theorem execveFields_settles : (execveFields k s : Filler ty).Settles := by
  unfold execveFields
  dsimp only
  refine settles_scratches ?_ (clear_settles (settles_pushes.mpr settles_done))
  split
  · split
    · exact fun w hw => absurd hw List.not_mem_nil
    · exact ownStrings_inside s _ _
  · exact givenStrings_inside s _ (Nat.sub_le _ _)

theorem procIdentity_settles : (procIdentity k : Filler ty).Settles :=
  settles_pushes.mpr (settles_scratch (by decide) settles_done)

theorem exeAndArgs_settles {strings : List Write × List UInt8} {next : Filler ty}
    (hw : ∀ w ∈ strings.1, w.stop ≤ pageSize) (h : next.Settles) :
    (exeAndArgs s strings next).Settles :=
  settles_scratches hw (clear_settles (settles_pushes.mpr h))

theorem procHead_settles : (procHead k s : Filler ty).Settles := by
  have hclear : (⟨0, [0]⟩ : Write).stop ≤ pageSize := by decide
  refine settles_pushes.mpr ?_
  split
  · exact settles_scratch hclear (settles_pushes.mpr procIdentity_settles)
  split
  · split
    · exact settles_scratch hclear (settles_ret (by decide))
    split
    · exact settles_scratch hclear (settles_ret (by decide))
    · exact exeAndArgs_settles (ownStrings_inside s _ _) procIdentity_settles
  · exact settles_scratch hclear <|
      exeAndArgs_settles (givenStrings_inside s _ (Nat.le_refl _)) procIdentity_settles

theorem fProcStartupdate_settles : (fProcStartupdate k s : CheckedFiller ty).filler.Settles := by
  simp only [fProcStartupdate, CheckedFiller.filler_after, CheckedFiller.filler_asserts,
    CheckedFiller.filler]
  refine procHead_settles.seq (settles_scratch ?_ ?_)
  · simpa [Write.stop] using appendCgroups_length_le k.cgroups pageSize
  · show (procEnd k s : Filler ty).Settles
    unfold procEnd
    split
    · exact cloneFields_settles
    split
    · exact execveFields_settles
    · exact settles_done

theorem execve_settles (vs : List Value) :
    ((fProcStartupdate k s : CheckedFiller ty).after <| pushes vs done).filler.Settles := by
  rw [CheckedFiller.filler_after]
  exact (settles_pushes.mpr settles_done).seq fProcStartupdate_settles

/-! ### Sockets -/

theorem fSysSocketBind_settles (plain : ∀ i, ((gEventInfo ty).param i).type ≠ .dyn) :
    (fSysSocketBind k s plain).filler.Settles := by
  simp only [fSysSocketBind, CheckedFiller.filler_after, CheckedFiller.filler_asserts,
    CheckedFiller.filler]
  refine (settles_pushAnyway.mpr settles_done).seq (pushPacked_settles ?_ settles_done)
  cases usrAddr k s (s.arg 1) (s.arg 2) with
  | none => exact fun w hw => absurd hw List.not_mem_nil
  | some addr => exact packAddr_inside _ _

/-- A tuple behind a stretch of filler. -/
theorem tuple_settles {conds : List Bool} {packed : List Write × List UInt8} {f next : Filler ty}
    (hw : ∀ w ∈ packed.1, w.stop ≤ pageSize) (hf : f.Settles) (h : next.Settles) :
    ((CheckedFiller.asserts conds <| .plain <| pushPacked s packed next).after f).filler.Settles := by
  rw [CheckedFiller.filler_after, CheckedFiller.filler_asserts]
  exact hf.seq (pushPacked_settles hw h)

theorem fSysAcceptCommon_settles : (fSysAcceptCommon k s : CheckedFiller ty).filler.Settles :=
  tuple_settles (fdToSocktuple_inside k _ _) (settles_pushes.mpr settles_done)
    (settles_pushes.mpr settles_done)

theorem fSysSendto_settles : (fSysSendto k s : CheckedFiller ty).filler.Settles :=
  tuple_settles (usrTuple_inside k _ _ _)
    (settles_scratch (by decide) (settles_pushes.mpr settles_done)) (settles_pushes.mpr settles_done)

theorem fSysRecvfrom_settles : (fSysRecvfrom k s : CheckedFiller ty).filler.Settles := by
  unfold fSysRecvfrom
  dsimp only
  split
  · exact settles_pushes.mpr (settles_ret (by decide))
  · exact tuple_settles (usrTuple_inside k _ _ _) (settles_pushes.mpr settles_done) settles_done

theorem fSysSendmsg_settles (h : ∀ mh ∈ messageHeader s, mh.iovlen.toNat < 256) :
    (fSysSendmsg k s : CheckedFiller ty).filler.Settles := by
  rw [fSysSendmsg_eq]
  cases hmh : messageHeader s with
  | none => exact settles_pushes.mpr (settles_ret (by decide))
  | some mh =>
    exact tuple_settles (usrTuple_inside k _ _ _)
      (settles_pushes.mpr (parseReadvWritevBufs_settles (h mh hmh)))
      (settles_pushes.mpr (parseReadvWritevBufs_settles (h mh hmh)))

theorem fSysRecvmsg_settles (h : ∀ mh ∈ messageHeader s, mh.iovlen.toNat < 256) :
    (fSysRecvmsg k s : CheckedFiller ty).filler.Settles := by
  rw [fSysRecvmsg_eq]
  cases hmh : messageHeader s with
  | none => exact settles_pushes.mpr (settles_ret (by decide))
  | some mh =>
    exact tuple_settles (usrTuple_inside k _ _ _)
      (settles_pushes.mpr (parseReadvWritevBufs_settles (h mh hmh))) settles_done

theorem fSysSocketpair_settles (h : ¬ PairRefused k s) : (fSysSocketpair k s : Filler ty).Settles := by
  refine settles_pushes.mpr ?_
  split
  case isTrue => exact settles_pushes.mpr settles_done
  case isFalse hret =>
    unfold fetch
    split
    · exact settles_ret (by decide)
    · rename_i hgot
      refine settles_pushes.mpr ?_
      split
      · rename_i err neg hlookup
        refine settles_ret fun herr => h ⟨not_lt.mp hret, not_not.mp hgot, ?_⟩
        rw [Kernel.lookupError, hlookup]
        exact congrArg some herr
      · exact settles_pushes.mpr settles_done
      · exact settles_pushes.mpr settles_done

theorem parseSockopt_settles {level optname optlen : UInt32} {optval : UInt64} {next : Filler ty}
    (h : next.Settles) : (parseSockopt k s level optname optval optlen next).Settles := by
  unfold parseSockopt
  dsimp only
  split
  · exact h
  split
  · exact settles_fetch fun _ => h
  split
  · exact settles_fetch fun _ => h
  split
  · exact settles_fetch fun _ => h
  split
  · exact settles_fetch fun _ => h
  · exact h

theorem sockoptHead_settles {next : CheckedFiller ty} (h : next.filler.Settles) :
    (sockoptHead k s next).filler.Settles := by
  simp only [sockoptHead, CheckedFiller.filler, CheckedFiller.filler_after]
  exact (settles_pushes.mpr settles_done).seq ((settles_pushes.mpr settles_done).seq h)

end Settles

/-! ## Every system call -/

section

variable {ty : EventType} {k : Kernel} {s : Syscall}

/-- **Every row settles**, unless its filler reports a full buffer by itself or runs away. -/
theorem eventRow_settles {row : EventRow ty} (hrow : eventRow k s ty = some row)
    (hnr : s.nr.toNat < tableSize) (hty : ∀ p ∈ soleCalls, ty = p.1 → s.nr = p.2)
    (hfull : ¬ ReportsFull k s) (hover : ¬ RunsOver s) : row.callback.filler.Settles := by
  have hvec : s.nr = 19 ∨ s.nr = 20 ∨ s.nr = 295 ∨ s.nr = 296 → (s.arg 2).toNat < 256 :=
    fun h => Nat.lt_of_not_le fun hbig => hfull (.inl ⟨h, hbig⟩)
  have hmsg : s.nr = 46 ∨ s.nr = 47 → ∀ mh ∈ messageHeader s, mh.iovlen.toNat < 256 :=
    fun h mh hmh => Nat.lt_of_not_le fun hbig => hfull (.inr (.inl ⟨h, mh, hmh, hbig⟩))
  have hpoll : s.nr = 7 ∨ s.nr = 271 →
      ¬ pageSize < (8 * (s.arg 1).toNat + 2 + 10 * (s.arg 1).toNat) % 2 ^ 64 :=
    fun h hbig => hfull (.inr (.inr (.inl ⟨h, hbig⟩)))
  have hwraps : s.nr = 7 ∨ s.nr = 271 → ¬ PollWraps s := fun h hw => hover ⟨h, hw⟩
  cases ty
  case generic =>
    cases hrow
    simp only [fSysGenericChecked, hnr, if_true]
    exact settles_pushLast _
  case syscallRead =>
    cases hrow
    refine settles_push.mpr ?_
    split
    · exact settles_pushLast _
    · exact settles_pushLast _
  case syscallReadv =>
    cases hrow
    exact fSysReadvPreadv_settles (hvec (.inl (hty (.syscallReadv, 19) (by decide) rfl)))
  case syscallWritev =>
    cases hrow
    exact fSysWritev_settles (hvec (.inr (.inl (hty (.syscallWritev, 20) (by decide) rfl))))
  case syscallPreadv =>
    cases hrow
    exact settles_push.mpr <| settles_push.mpr <| fSysReadvPreadv_settles <|
      hvec (.inr (.inr (.inl (hty (.syscallPreadv, 295) (by decide) rfl))))
  case syscallPwritev =>
    cases hrow
    exact fSysPwritev_settles <|
      hvec (.inr (.inr (.inr (hty (.syscallPwritev, 296) (by decide) rfl))))
  case socketSendmsg =>
    cases hrow
    exact fSysSendmsg_settles (hmsg (.inl (hty (.socketSendmsg, 46) (by decide) rfl)))
  case socketRecvmsg =>
    cases hrow
    exact fSysRecvmsg_settles (hmsg (.inr (hty (.socketRecvmsg, 47) (by decide) rfl)))
  case syscallPoll =>
    cases hrow
    have h7 := hty (.syscallPoll, 7) (by decide) rfl
    exact fSysPoll_settles (hpoll (.inl h7)) (hwraps (.inl h7))
  case syscallPpoll =>
    cases hrow
    have h271 := hty (.syscallPpoll, 271) (by decide) rfl
    exact fSysPpoll_settles (hpoll (.inr h271)) (hwraps (.inr h271))
  case socketSocketpair =>
    cases hrow
    refine fSysSocketpair_settles fun h => hfull (.inr (.inr (.inr ⟨?_, h⟩)))
    exact hty (.socketSocketpair, 53) (by decide) rfl
  case syscallOpenat2 =>
    cases hrow
    exact settles_pushes.mpr (settles_fetch fun _ => settles_pushes.mpr settles_done)
  case syscallPipe =>
    cases hrow
    exact settles_pushes.mpr (settles_fetch fun _ => settles_pushes.mpr settles_done)
  case syscallPread =>
    cases hrow
    refine settles_push.mpr <| settles_push.mpr <| settles_push.mpr <| settles_push.mpr ?_
    split
    · exact settles_pushLast _
    · exact settles_pushLast _
  case syscallWrite => cases hrow; exact settles_push.mpr (settles_pushLast _)
  case syscallPwrite =>
    cases hrow
    exact settles_push.mpr <| settles_push.mpr <| settles_push.mpr <| settles_push.mpr <|
      settles_pushLast _
  case syscallNanosleep => cases hrow; exact timespecParse_settles settles_done
  case syscallGetrlimit => cases hrow; exact fSysGetrlimitSetrlrimit_settles
  case syscallSetrlimit => cases hrow; exact fSysGetrlimitSetrlrimit_settles
  case syscallBrk_4 => cases hrow; exact fSysBrkMunmapMmap_settles
  case syscallMmap => cases hrow; exact fSysBrkMunmapMmap_settles
  case syscallMmap2 => cases hrow; exact fSysBrkMunmapMmap_settles
  case syscallMunmap => cases hrow; exact fSysBrkMunmapMmap_settles
  case syscallPtrace => cases hrow; exact fSysPtrace_settles
  case syscallSemop => cases hrow; exact fSysSemop_settles
  case syscallQuotactl => cases hrow; exact fSysQuotactl_settles
  case syscallGetresuid =>
    cases hrow
    exact settles_pushes.mpr <| settles_fetch fun _ => settles_pushes.mpr <| settles_fetch fun _ =>
      settles_pushes.mpr <| settles_fetch fun _ => settles_pushes.mpr settles_done
  case syscallGetresgid =>
    cases hrow
    exact settles_pushes.mpr <| settles_fetch fun _ => settles_pushes.mpr <| settles_fetch fun _ =>
      settles_pushes.mpr <| settles_fetch fun _ => settles_pushes.mpr settles_done
  case syscallClone_20 => cases hrow; exact fProcStartupdate_settles
  case syscallFork_20 => cases hrow; exact fProcStartupdate_settles
  case syscallVfork_20 => cases hrow; exact fProcStartupdate_settles
  case syscallClone3 => cases hrow; exact fProcStartupdate_settles
  case syscallExecve_8 => cases hrow; exact execve_settles _
  case syscallExecve_19 => cases hrow; exact execve_settles _
  case syscallExecveat => cases hrow; exact execve_settles _
  case socketBind => cases hrow; exact fSysSocketBind_settles _
  case socketConnect =>
    cases hrow
    exact tuple_settles (usrTuple_inside k _ _ _) (settles_pushAnyway.mpr settles_done) settles_done
  case socketAccept_5 => cases hrow; exact fSysAcceptCommon_settles
  case socketAccept4_5 =>
    cases hrow
    show (fSysAccept4 k s).filler.Settles
    rw [fSysAccept4, CheckedFiller.filler_after]
    exact (settles_pushes.mpr settles_done).seq fSysAcceptCommon_settles
  case socketSend => cases hrow; exact settles_pushes.mpr (settles_pushes.mpr settles_done)
  case socketSendto => cases hrow; exact fSysSendto_settles
  case socketRecvfrom => cases hrow; exact fSysRecvfrom_settles
  case socketSetsockopt =>
    cases hrow
    exact sockoptHead_settles (parseSockopt_settles (settles_pushes.mpr settles_done))
  case socketGetsockopt =>
    cases hrow
    exact sockoptHead_settles <| settles_fetch fun _ =>
      parseSockopt_settles (settles_pushes.mpr settles_done)
  -- the others push a list, or nothing beside their automatic arguments
  all_goals cases hrow
  all_goals first | exact settles_done | exact settles_pushes.mpr settles_done

/-- So does what `nod_filler_callback` makes of it. -/
theorem fillerCallback_settles (hnr : s.nr.toNat < tableSize) (hfull : ¬ ReportsFull k s)
    (hover : ¬ RunsOver s) :
    (fillerCallback k s (gSyscallEventTable s.nr.toNat)).filler.Settles := by
  have hauto : ∀ entries, (nodAutofill s entries :
      Filler (gSyscallEventTable s.nr.toNat)).Settles := by
    intro entries
    rw [Settles, ending_nodAutofill]
    decide
  cases hrow : eventRow k s (gSyscallEventTable s.nr.toNat) with
  | none =>
    simp only [fillerCallback, hrow, CheckedFiller.filler]
    exact settles_ret (by decide)
  | some row =>
    rw [fillerCallback_filler hrow]
    exact (hauto _).seq <| (eventRow_settles hrow hnr (fun p hp => (soleCall_iff hnr hp).mp) hfull
      hover).seq (hauto _)

/-! ## Fillers that do not -/

/-- A stretch of small arguments that ends in `NOD_FAILURE_BUFFER_FULL`. -/
theorem outOfRoom_of_stretch {row : EventRow ty} (hrow : eventRow k s ty = some row)
    {f g : Filler ty} (hcb : row.callback.filler = f.seq g) {n : Nat}
    (hsmall : ((nodAutofill s (row.autofill.takeWhile AutofillArg.isArg) : Filler ty).seq f).Small
      0 n) (hend : f.ending = some nodFailureBufferFull) (um : UserMem) (room : Nat) :
    (fillerCallback k s ty).filler.OutOfRoom um 0 room := by
  have hends : ((nodAutofill s (row.autofill.takeWhile AutofillArg.isArg) : Filler ty).seq
      f).ending = some nodFailureBufferFull := by
    rw [ending_seq, ending_nodAutofill, if_pos rfl, hend]
  rw [fillerCallback_filler hrow, hcb, Filler.seq_assoc, ← Filler.seq_assoc]
  exact ((hsmall.outOfRoom hends).seq _).1

theorem ending_vector {iovsrc iovcnt retval : UInt64} {flags : PrbFlags} {vs : List Value}
    (h : 256 ≤ iovcnt.toNat) :
    (pushes vs <| parseReadvWritevBufs s iovsrc iovcnt retval flags : Filler ty).ending =
      some nodFailureBufferFull := by
  rw [ending_pushes, ending_parseReadvWritevBufs, if_pos h]

theorem pollParseFds_full {enter : Bool}
    (h : pageSize < (8 * (s.arg 1).toNat + 2 + 10 * (s.arg 1).toNat) % 2 ^ 64) :
    (pollParseFds s enter : Filler ty) = ret nodFailureBufferFull := by
  unfold pollParseFds
  exact if_pos h

/-- **A filler that reports a full buffer by itself does so in any room.** -/
theorem outOfRoom_of_reportsFull (hnr : s.nr.toNat < tableSize) (h : ReportsFull k s)
    (um : UserMem) (room : Nat) :
    (fillerCallback k s (gSyscallEventTable s.nr.toNat)).filler.OutOfRoom um 0 room := by
  have htype : ∀ p ∈ soleCalls, s.nr = p.2 → gSyscallEventTable s.nr.toNat = p.1 :=
    fun p hp => (soleCall_iff hnr hp).mpr
  rcases h with ⟨h19 | h20 | h295 | h296, hbig⟩ | ⟨h46 | h47, mh, hmh, hbig⟩ | ⟨h7 | h271, hbig⟩ |
    ⟨h53, hret, hgot, herr⟩
  · rw [htype (.syscallReadv, 19) (by decide) h19]
    have hrow : eventRow k s .syscallReadv = some ⟨.plain (fSysReadvPreadv s), [.arg 0]⟩ := rfl
    exact outOfRoom_of_stretch hrow (g := done)
      (f := pushes [{ val := s.ret }] <|
        parseReadvWritevBufs s (s.arg 1) (s.arg 2) s.ret ⟨true, true, false⟩)
      (seq_ret_right _).symm
      ((small_nodAutofill s (m := 1) rfl rfl).seq
        (small_pushes (m := 1) rfl rfl (small_parseReadvWritevBufs s _ _ _ _ rfl)))
      (ending_vector hbig) um room
  · rw [htype (.syscallWritev, 20) (by decide) h20]
    have hrow : eventRow k s .syscallWritev = some ⟨.plain (fSysWritev s), []⟩ := rfl
    exact outOfRoom_of_stretch hrow rfl
      (small_pushes (m := 1) rfl rfl (small_parseReadvWritevBufs s _ _ _ _ rfl))
      (ending_vector hbig) um room
  · rw [htype (.syscallPreadv, 295) (by decide) h295]
    have hrow : eventRow k s .syscallPreadv = some ⟨.plain (fSysPreadv s), []⟩ := rfl
    exact outOfRoom_of_stretch hrow (g := done)
      (f := pushes [{ val := s.arg 0 }, { val := pos64 s }, { val := s.ret }] <|
        parseReadvWritevBufs s (s.arg 1) (s.arg 2) s.ret ⟨true, true, false⟩)
      (seq_ret_right _).symm
      (small_pushes (m := 3) rfl rfl (small_parseReadvWritevBufs s _ _ _ _ rfl))
      (ending_vector hbig) um room
  · rw [htype (.syscallPwritev, 296) (by decide) h296]
    have hrow : eventRow k s .syscallPwritev = some ⟨.plain (fSysPwritev s), []⟩ := rfl
    exact outOfRoom_of_stretch hrow rfl
      (small_pushes (m := 1) rfl rfl (small_parseReadvWritevBufs s _ _ _ _ rfl))
      (ending_vector hbig) um room
  · rw [htype (.socketSendmsg, 46) (by decide) h46]
    have hrow : eventRow k s .socketSendmsg = some ⟨fSysSendmsg k s, []⟩ := rfl
    exact outOfRoom_of_stretch hrow (by rw [fSysSendmsg_eq, hmh, CheckedFiller.filler_after])
      ((small_nodAutofill s (m := 0) rfl rfl).seq
        (small_pushes (m := 1) rfl rfl (small_parseReadvWritevBufs s _ _ _ _ rfl)))
      (ending_vector hbig) um room
  · rw [htype (.socketRecvmsg, 47) (by decide) h47]
    have hrow : eventRow k s .socketRecvmsg = some ⟨fSysRecvmsg k s, [.arg 0]⟩ := rfl
    exact outOfRoom_of_stretch hrow (by rw [fSysRecvmsg_eq, hmh, CheckedFiller.filler_after])
      ((small_nodAutofill s (m := 1) rfl rfl).seq
        (small_pushes (m := 1) rfl rfl (small_parseReadvWritevBufs s _ _ _ _ rfl)))
      (ending_vector hbig) um room
  · rw [htype (.syscallPoll, 7) (by decide) h7]
    have hrow : eventRow k s .syscallPoll = some ⟨.plain (fSysPoll s), []⟩ := rfl
    exact outOfRoom_of_stretch hrow (f := pollParseFds s true) (n := 0) rfl
      (by rw [pollParseFds_full hbig]; exact small_ret (by decide))
      (by rw [pollParseFds_full hbig]; rfl) um room
  · rw [htype (.syscallPpoll, 271) (by decide) h271]
    have hrow : eventRow k s .syscallPpoll = some ⟨.plain (fSysPpoll s), []⟩ := rfl
    exact outOfRoom_of_stretch hrow (f := pollParseFds s true) (n := 0) rfl
      (by rw [pollParseFds_full hbig]; exact small_ret (by decide))
      (by rw [pollParseFds_full hbig]; rfl) um room
  · rw [htype (.socketSocketpair, 53) (by decide) h53]
    have hrow : eventRow k s .socketSocketpair =
        some ⟨.plain (fSysSocketpair k s), [.arg 0, .arg 1, .arg 2]⟩ := rfl
    have hf : (fSysSocketpair k s : Filler .socketSocketpair) =
        pushes [.imm s.ret, .imm (sext (field32 (s.um.nodCopyFromUser (s.arg 3).toNat 8).1 0)),
          .imm (sext (field32 (s.um.nodCopyFromUser (s.arg 3).toNat 8).1 4))]
          (ret nodFailureBufferFull) := by
      unfold Kernel.lookupError at herr
      cases hlookup : k.sockfdLookup (field32 (s.um.nodCopyFromUser (s.arg 3).toNat 8).1 0) with
      | sock sk =>
        rw [hlookup] at herr
        cases herr
      | error err neg =>
        rw [hlookup] at herr
        obtain rfl := Option.some.inj herr
        simp only [fSysSocketpair, fetch, if_neg (not_lt.mpr hret), hgot, ne_eq, not_true, if_false,
          hlookup]
        rfl
    exact outOfRoom_of_stretch hrow (f := fSysSocketpair k s) (g := done) (seq_ret_right _).symm
      ((small_nodAutofill s (m := 3) rfl rfl).seq
        (by rw [hf]; exact small_pushes (m := 3) rfl rfl (small_ret (n := 0) (by decide))))
      (by rw [hf]; rfl) um room

/-- Where the first of two fillers runs away, both do. -/
theorem runsAway_of_wraps {enter : Bool} (h : PollWraps s) (g : Filler ty) (um : UserMem)
    (i room : Nat) : ((pollParseFds s enter : Filler ty).seq g).RunsAway um i room := by
  obtain ⟨hbig, hcheck, hcopy⟩ := h
  unfold pollParseFds
  dsimp only
  rw [if_neg (Nat.not_lt.mpr hcheck)]
  unfold scratch
  split
  case isTrue hin =>
    have hgot := hcopy.resolve_right (by simpa [Write.stop] using hin)
    rw [if_neg (not_not.mpr hgot)]
    trivial
  case isFalse => trivial

theorem runsAway_of_runsOver (hnr : s.nr.toNat < tableSize) (h : RunsOver s) (um : UserMem)
    (room : Nat) :
    (fillerCallback k s (gSyscallEventTable s.nr.toNat)).filler.RunsAway um 0 room := by
  obtain ⟨h7 | h271, hwraps⟩ := h
  · rw [(soleCall_iff hnr (p := (.syscallPoll, 7)) (by decide)).mpr h7]
    have hrow : eventRow k s .syscallPoll = some ⟨.plain (fSysPoll s), []⟩ := rfl
    rw [fillerCallback_filler hrow]
    show (((pollParseFds s true).seq _).seq _ : Filler .syscallPoll).RunsAway um 0 room
    rw [Filler.seq_assoc]
    exact runsAway_of_wraps hwraps _ um 0 room
  · rw [(soleCall_iff hnr (p := (.syscallPpoll, 271)) (by decide)).mpr h271]
    have hrow : eventRow k s .syscallPpoll = some ⟨.plain (fSysPpoll s), []⟩ := rfl
    rw [fillerCallback_filler hrow]
    show (((pollParseFds s true).seq _).seq _ : Filler .syscallPpoll).RunsAway um 0 room
    rw [Filler.seq_assoc]
    exact runsAway_of_wraps hwraps _ um 0 room

end

/-! ## The recording of a system call -/

section

variable (k : Kernel) (s : Syscall) (ts : UInt64) (tid : UInt32) (cpuid : UInt16) (force : Bool)
  (b : NodBuffer)

/-- An `ASSERT` fails in the attempt that finds `size` bytes and starts its arguments at `off`. -/
def Syscall.StopsAt (size off : Nat) : Prop :=
  (fillerCallback k s (gSyscallEventTable s.nr.toNat)).Trips s.um ⟨0, off, argDataSize size off⟩

/-- **The recording of the system call returns in time**: after its attempt in the page, or after one
in the buffer and at most one in the page, and no `ASSERT` fails in them. -/
structure Syscall.Returns (entryAddr : UInt64) (load : Int) (st : EventStatistic) : Prop where
  attempts : ReturnsInTwo (s.traced k ts tid cpuid force) b entryAddr load st
  page : b.flush.place (2 * (s.traced k ts tid cpuid force).nargs) false = .page →
    ¬ s.StopsAt k Place.page.size (2 * (s.traced k ts tid cpuid force).nargs)
  main : b.flush.place (2 * (s.traced k ts tid cpuid force).nargs) false = b.flush.atTail →
    ¬ s.StopsAt k b.flush.atTail.size (2 * (s.traced k ts tid cpuid force).nargs)
  restart : b.flush.place (2 * (s.traced k ts tid cpuid force).nargs) false = b.flush.atTail →
    ((s.traced k ts tid cpuid force).attempt b.flush.atTail.size
      (2 * (s.traced k ts tid cpuid force).nargs)).res = some nodFailureBufferFull →
    ¬ s.StopsAt k Place.page.size (2 * (s.traced k ts tid cpuid force).nargs +
      (s.traced k ts tid cpuid force).laidDown b)

/-- Every argument of the event fits in the `size` bytes of an attempt that starts them at `off`. -/
def Event.Fits (ev : Event) (size off : Nat) : Prop :=
  ev.filler.Fits ev.um 0 (argDataSize size off)

/-- **The condition for it**: the numbers and names of the call are known, its filler does not report
a full buffer by itself and does not run away, and the arguments fit: in the page, if the attempt is
made there; in the buffer, or behind what was laid down there in the page, if it is made in the
buffer. -/
structure Syscall.EndsInTime : Prop where
  numbers : KnownNumbers k s
  names : NamesKnown k s
  reports : ¬ ReportsFull k s
  wraps : ¬ RunsOver s
  page : b.flush.place (2 * (s.traced k ts tid cpuid force).nargs) false = .page →
    (s.traced k ts tid cpuid force).Fits Place.page.size
      (2 * (s.traced k ts tid cpuid force).nargs)
  main : b.flush.place (2 * (s.traced k ts tid cpuid force).nargs) false = b.flush.atTail →
    (s.traced k ts tid cpuid force).Fits b.flush.atTail.size
        (2 * (s.traced k ts tid cpuid force).nargs) ∨
      (s.traced k ts tid cpuid force).Fits Place.page.size
        (2 * (s.traced k ts tid cpuid force).nargs + (s.traced k ts tid cpuid force).laidDown b)

end

section

variable {k : Kernel} {s : Syscall} {ts : UInt64} {tid : UInt32} {cpuid : UInt16} {force : Bool}
  {b : NodBuffer} {entryAddr : UInt64} {load : Int} {st : EventStatistic}

/-- A call that comes to a false `ASSERT` does so in one of its attempts. -/
theorem Syscall.Returns.known (hnr : s.nr.toNat < tableSize)
    (h : s.Returns k ts tid cpuid force b entryAddr load st) : KnownNumbers k s ∧ NamesKnown k s := by
  by_contra hunknown
  obtain ⟨n, hn, hdoomed⟩ := doomed_of_unknown hnr hunknown s.um
  have hle := (s.traced k ts tid cpuid force).nargs_le
  have hmax : nodMaxEventParams = 32 := rfl
  have hpage : Place.page.size = 4068 := rfl
  -- a few small arguments leave enough of the page for those before the `ASSERT`
  have hwide : ∀ off, off + 81 * 4 ≤ 4068 → s.StopsAt k Place.page.size off := by
    intro off hoff
    refine hdoomed.wide _ _ ?_
    rw [argDataSize_eq (by omega) (by decide)]
    omega
  rcases b.flush.place_cases (2 * (s.traced k ts tid cpuid force).nargs) false with
    hp | ⟨-, -, hp⟩
  · exact h.page hp (hwide _ (by omega))
  · rcases hdoomed.narrow (2 * (s.traced k ts tid cpuid force).nargs)
      (argDataSize b.flush.atTail.size (2 * (s.traced k ts tid cpuid force).nargs)) with
      ht | ⟨hout, htaken⟩
    · exact h.main hp ht
    · refine h.restart hp ((Event.attempt_outOfRoom ..).mpr hout) (hwide _ ?_)
      have hlaid : (s.traced k ts tid cpuid force).laidDown b ≤ 80 * n := htaken
      omega

/-- An attempt that is not refused has room for its arguments. -/
theorem Event.fits_of_res {ev : Event} {size off : Nat}
    (h : (ev.attempt size off).res ≠ some nodFailureBufferFull) : ev.Fits size off := by
  by_contra hno
  exact h ((ev.attempt_outOfRoom size off).mpr (outOfRoom_of_not_fits hno))

/-- What does not return whatever room there is. -/
theorem not_returnsInTwo {ev : Event} (h : ∀ size off, ¬ ev.EndsInPage off ∧
    (ev.filler.OutOfRoom ev.um 0 (argDataSize size off) ∨
      ev.filler.RunsAway ev.um 0 (argDataSize size off))) :
    ¬ ReturnsInTwo ev b entryAddr load st := by
  rw [returnsInTwo_iff]
  rintro ⟨hpage, hmain⟩
  rcases b.flush.place_cases (2 * ev.nargs) false with hp | ⟨-, -, hp⟩
  · exact (h 0 _).1 (hpage hp)
  · obtain ⟨haway, hfull⟩ := hmain hp
    exact (h 0 _).1 (hfull ((h _ _).2.resolve_right haway))

/-- **When the recording of a system call returns in time.** -/
theorem returns_iff (hnr : s.nr.toNat < tableSize) (hgroups : k.GroupsKnown) :
    s.Returns k ts tid cpuid force b entryAddr load st ↔
      s.EndsInTime k ts tid cpuid force b := by
  have hend : ∀ size off, ¬ ReportsFull k s → ¬ RunsOver s →
      ((s.traced k ts tid cpuid force).filler.OutOfRoom s.um 0 (argDataSize size off) ↔
        ¬ (s.traced k ts tid cpuid force).Fits size off) := fun size off hfull hover =>
    outOfRoom_iff (fillerCallback_settles hnr hfull hover).2
  have haway : ∀ size off, ¬ ReportsFull k s → ¬ RunsOver s →
      ¬ (s.traced k ts tid cpuid force).filler.RunsAway s.um 0 (argDataSize size off) :=
    fun size off hfull hover hrun => (fillerCallback_settles hnr hfull hover).1 hrun.ending
  constructor
  · intro h
    obtain ⟨hnumbers, hnames⟩ := h.known hnr
    have hfull : ¬ ReportsFull k s := fun hfull => not_returnsInTwo (fun size off =>
      ⟨fun hends => hends.1 (outOfRoom_of_reportsFull hnr hfull _ _),
        Or.inl (outOfRoom_of_reportsFull hnr hfull _ _)⟩) h.attempts
    have hover : ¬ RunsOver s := fun hover => not_returnsInTwo (fun size off =>
      ⟨fun hends => hends.2 (runsAway_of_runsOver hnr hover _ _),
        Or.inr (runsAway_of_runsOver hnr hover _ _)⟩) h.attempts
    obtain ⟨hpage, hmain⟩ := returnsInTwo_iff.mp h.attempts
    refine ⟨hnumbers, hnames, hfull, hover, fun hp => ?_, fun hp => ?_⟩
    · exact not_not.mp fun hfits => (hpage hp).1 ((hend _ _ hfull hover).mpr hfits)
    · by_cases hfits : (s.traced k ts tid cpuid force).Fits b.flush.atTail.size
          (2 * (s.traced k ts tid cpuid force).nargs)
      · exact Or.inl hfits
      · have hends := (hmain hp).2 ((hend _ _ hfull hover).mpr hfits)
        exact Or.inr (not_not.mp fun hno => hends.1 ((hend _ _ hfull hover).mpr hno))
  · intro h
    have hends : ∀ off, (s.traced k ts tid cpuid force).Fits Place.page.size off →
        (s.traced k ts tid cpuid force).EndsInPage off := fun off hfits =>
      ⟨fun hout => (hend _ _ h.reports h.wraps).mp hout hfits, haway _ _ h.reports h.wraps⟩
    have hstops : ∀ size off, ¬ s.StopsAt k size off := fun size off =>
      not_trips_of_known hnr hgroups h.numbers h.names off _
    refine ⟨returnsInTwo_iff.mpr ⟨fun hp => hends _ (h.page hp), fun hp =>
      ⟨haway _ _ h.reports h.wraps, fun hout => hends _ ((h.main hp).resolve_left ?_)⟩⟩,
      fun _ => hstops _ _, fun _ => hstops _ _, fun _ _ => hstops _ _⟩
    exact (hend _ _ h.reports h.wraps).mp hout

end

/-- A task in one control group. -/
def groupedTask : Kernel := { Kernel.idle with cgroups := [([0x63, 0x70, 0x75], some [0x2F])] }

theorem groupedTask_groupsKnown : groupedTask.GroupsKnown := fun _ hg => by
  rw [List.mem_singleton.mp hg]
  rfl

/-- A `fork` that fails with `EAGAIN`. -/
def forkCall : Syscall := { Syscall.idle with nr := 57, ret := UInt64.ofInt (-11) }

/-- It is recorded in the empty buffer of a page. -/
theorem fork_returns : forkCall.nr.toNat < tableSize ∧ groupedTask.GroupsKnown ∧
    forkCall.Returns groupedTask 0 1 0 false smallBuffer 0 0 ⟨0, 0, 0⟩ := by
  refine ⟨by decide, groupedTask_groupsKnown,
    (returns_iff (by decide) groupedTask_groupsKnown).mpr ⟨by decide, by decide, by decide,
      by decide, fun hp => absurd hp (by decide), fun _ => Or.inl ?_⟩⟩
  have hres : ((forkCall.traced groupedTask 0 1 0 false).attempt smallBuffer.flush.atTail.size
      (2 * (forkCall.traced groupedTask 0 1 0 false).nargs)).res = some nodSuccess := by
    decide +kernel
  refine Event.fits_of_res ?_
  rw [hres]
  decide

/-- `readv` with an array of 256 buffers, which fills the page of `str_storage`. -/
def fullReadvCall : Syscall :=
  { Syscall.idle with
    nr := 19
    arg := fun i => if i = 2 then 256 else 0 }

/-- **A recording may never return**: `readv` of 256 buffers, in an empty buffer. -/
theorem readv_never_returns : BufferInv smallBuffer ∧
    ¬ fullReadvCall.Returns Kernel.idle 0 1 0 false smallBuffer 0 0 ⟨0, 0, 0⟩ ∧
    ∀ fuel, (doRecordOneEvent fuel 0 0 (fullReadvCall.traced Kernel.idle 0 1 0 false) smallBuffer
      ⟨0, 0, 0⟩).ret = none := by
  have hfull : ∀ room, (fullReadvCall.traced Kernel.idle 0 1 0 false).filler.OutOfRoom
      fullReadvCall.um 0 room := outOfRoom_of_reportsFull (by decide) (by decide) _
  have hnever : ∀ fuel, (doRecordOneEvent fuel 0 0 (fullReadvCall.traced Kernel.idle 0 1 0 false)
      smallBuffer ⟨0, 0, 0⟩).ret = none := fun fuel => attempts_never_return hfull ..
  have hinv : HoldsComplete smallBuffer :=
    ⟨_, initBuffer_holds initBuffer_small, by simp [Queue.contents]⟩
  exact ⟨hinv.bufferInv, fun h => h.attempts.main (place_eq_atTail (by decide)) (hnever 2), hnever⟩

end NoDrop
