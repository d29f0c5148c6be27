import NoDrop.Endings
import NoDrop.Events

/-! # Which system calls stop the kernel

An `ASSERT` of a filler is a `BUG_ON`.  Most of the conditions hold whatever the caller does: the
number of automatic arguments, the address families `pack_addr` and `fd_to_socktuple` convert, the
lengths in `val_to_ring`.  Three kinds do not.  `fcntl_cmd_to_scap` and `sockopt_optname_to_scap`
end in `ASSERT(false)` for a number they do not know, and the number is a register of the caller
(`KnownNumbers`).  And `fd_to_socktuple` asserts that a socket has a name, which those of some
protocols do not have (`NamesKnown`).

So a system call trips no `ASSERT` exactly if its numbers and names are known
(`assertsHold_iff`), given control groups that `append_cgroup` finds.  If they are not, an
`ASSERT` fails behind a few small arguments, and does so in the second attempt of a recording at
the latest (`Doomed`).
-/
namespace NoDrop

open Bytes Filler

namespace CheckedFiller

variable {ty : EventType} {um : UserMem}

/-- Every condition in the filler is true. -/
def Holds : CheckedFiller ty → Prop
  | plain _ => True
  | assert _ cond next => cond = true ∧ next.Holds

theorem Holds.not_trips {c : CheckedFiller ty} (h : c.Holds) (a : RingArgs) : ¬ c.Trips um a := by
  induction c generalizing a with
  | plain f => exact f.not_trips a
  | assert before cond next ih =>
    rintro (ht | ⟨-, hf | ht⟩)
    · exact before.not_trips a ht
    · rw [h.1] at hf
      cases hf
    · exact ih h.2 _ ht

@[simp] theorem holds_plain (f : Filler ty) : (plain f).Holds := trivial

@[simp] theorem holds_after {f : Filler ty} {c : CheckedFiller ty} :
    (c.after f).Holds ↔ c.Holds := by
  cases c with
  | plain g => exact Iff.rfl
  | assert before cond next => exact Iff.rfl

@[simp] theorem holds_asserts {conds : List Bool} {c : CheckedFiller ty} :
    (asserts conds c).Holds ↔ (∀ cond ∈ conds, cond = true) ∧ c.Holds := by
  induction conds with
  | nil => simp [asserts]
  | cons cond conds ih =>
    show (cond = true ∧ (asserts conds c).Holds) ↔ _
    rw [ih, List.forall_mem_cons, and_assoc]

theorem after_after (f g : Filler ty) (c : CheckedFiller ty) :
    (c.after f).after g = c.after (g.seq f) := by
  cases c with
  | plain h => exact congrArg plain (Filler.seq_assoc g f h).symm
  | assert before cond next =>
    exact congrArg (assert · cond next) (Filler.seq_assoc g f before).symm

/-- One false condition among several is one too many. -/
theorem trips_asserts {conds : List Bool} (h : ¬ ∀ cond ∈ conds, cond = true)
    (c : CheckedFiller ty) (a : RingArgs) : (asserts conds c).Trips um a := by
  induction conds with
  | nil => exact absurd (fun _ hc => absurd hc List.not_mem_nil) h
  | cons cond conds ih =>
    refine Or.inr ⟨rfl, ?_⟩
    cases cond with
    | false => exact Or.inl rfl
    | true => exact Or.inr (ih fun hall => h (List.forall_mem_cons.mpr ⟨rfl, hall⟩))

end CheckedFiller

/-! ## Conditions that always hold -/

theorem socketFamilyToScap_isSome {family : UInt16}
    (h : family = afInet ∨ family = afInet6 ∨ family = afUnix) :
    (socketFamilyToScap family.toUInt8).isSome = true := by
  rcases h with rfl | rfl | rfl
  · rfl
  · rfl
  · rfl

theorem packAddrAsserts_true (a : Image) : ∀ cond ∈ packAddrAsserts a, cond = true := by
  intro cond hc
  unfold packAddrAsserts at hc
  split at hc
  case isTrue h =>
    rw [List.mem_singleton.mp hc]
    exact socketFamilyToScap_isSome h
  case isFalse h => cases hc

theorem Kernel.appendCgroupsAsserts_true
    {groups : List (List UInt8 × Option (List UInt8))} (h : ∀ g ∈ groups, g.2.isSome)
    (available : Nat) : ∀ cond ∈ appendCgroupsAsserts groups available, cond = true := by
  induction groups generalizing available with
  | nil => exact fun cond hc => absurd hc List.not_mem_nil
  | cons g groups ih =>
    obtain ⟨hg, hrest⟩ := List.forall_mem_cons.mp h
    obtain ⟨name, path⟩ := g
    cases path with
    | none => cases hg
    | some path =>
      intro cond hc
      rcases List.mem_cons.mp hc with rfl | hc
      · rfl
      · split at hc
        · exact absurd hc List.not_mem_nil
        · exact ih hrest _ cond hc

/-! ## The names of sockets -/

/-- What `fd_to_socktuple` takes for granted of a socket: it has a name and, if it is an IPv6 socket
whose peer is asked for, so has the peer. -/
def Sk.Named (sk : Sk) (peer : Bool) : Prop :=
  sk.name.isSome ∧ (peer ∧ sk.family = afInet6 → sk.peerName.isSome)

/-- The socket behind a descriptor, if there is one, has the names `fd_to_socktuple` asks for. -/
def Kernel.Named (k : Kernel) (fd : UInt32) (peer : Bool) : Prop := ∀ sk ∈ k.sk fd, sk.Named peer

instance (sk : Sk) (peer : Bool) : Decidable (sk.Named peer) := inferInstanceAs (Decidable (_ ∧ _))

instance (k : Kernel) (fd : UInt32) (peer : Bool) : Decidable (k.Named fd peer) :=
  inferInstanceAs (Decidable (∀ _ ∈ _, _))

/-- **The `ASSERT`s of `fd_to_socktuple` are about names**, where a UNIX socket is asked for its own
name only. -/
theorem Sk.tupleAsserts_iff {sk : Sk} {t : TupleArgs}
    (hun : t.usrsockaddr.isNone → t.isInbound = true) :
    (∀ cond ∈ sk.tupleAsserts t, cond = true) ↔ sk.Named t.usrsockaddr.isNone := by
  have hfamily : ∀ cond ∈ (if sk.family = afInet ∨ sk.family = afInet6 ∨ sk.family = afUnix then
      [(socketFamilyToScap sk.family.toUInt8).isSome] else []), cond = true := by
    intro cond hc
    split at hc
    case isTrue h =>
      rw [List.mem_singleton.mp hc]
      exact socketFamilyToScap_isSome h
    case isFalse h => cases hc
  have hunix : ¬ (sk.family = afUnix ∧ t.usrsockaddr.isNone ∧ t.isInbound = false) := by
    rintro ⟨-, hnone, hout⟩
    rw [hun hnone] at hout
    cases hout
  unfold Sk.tupleAsserts Sk.Named
  rw [if_neg hunix, List.append_nil]
  simp only [List.forall_mem_append, List.forall_mem_singleton]
  rw [and_iff_left hfamily]
  refine and_congr_right fun _ => ?_
  by_cases h : sk.family = afInet6 ∧ t.usrsockaddr.isNone
  · rw [if_pos h, List.forall_mem_singleton]
    exact ⟨fun hp _ => hp, fun hp => hp ⟨h.2, h.1⟩⟩
  · rw [if_neg h]
    exact iff_of_true (fun _ hc => absurd hc List.not_mem_nil) fun hp => absurd hp.symm h

theorem fdToSocktupleAsserts_iff {k : Kernel} {fd : UInt32} {t : TupleArgs}
    (hun : t.usrsockaddr.isNone → t.isInbound = true) :
    (∀ cond ∈ k.fdToSocktupleAsserts fd t, cond = true) ↔ k.Named fd t.usrsockaddr.isNone := by
  unfold Kernel.fdToSocktupleAsserts Kernel.Named
  cases k.sk fd with
  | none => simp
  | some sk => simpa using Sk.tupleAsserts_iff hun

/-- A tuple is put together only if the caller passed an address. -/
theorem usrTupleAsserts_iff (k : Kernel) (fd : UInt32) (addr : Option (Image × UInt32))
    (isInbound : Bool) : (∀ cond ∈ usrTupleAsserts k fd addr isInbound, cond = true) ↔
      (addr.isSome → k.Named fd false) := by
  cases addr with
  | none => exact iff_of_true (fun _ hc => absurd hc List.not_mem_nil) fun h => by cases h
  | some addr =>
    have h : (∀ cond ∈ k.fdToSocktupleAsserts fd ⟨some addr, isInbound⟩, cond = true) ↔
        k.Named fd false := fdToSocktupleAsserts_iff fun h => by cases h
    exact h.trans ⟨fun hn _ => hn, fun hn => hn rfl⟩

section

variable (k : Kernel) (s : Syscall)

/-- The address that `f_sys_recvfrom` turns into a tuple. -/
def recvfromAddr : Option (Image × UInt32) :=
  let got := s.um.nodCopyFromUser (s.arg 5).toNat 4
  if 0 ≤ signed s.ret ∧ s.arg 4 ≠ 0 ∧ s.arg 5 ≠ 0 ∧ got.2 = 0 then
    (addrToKernel s.um k.stack (s.arg 4) (field32 got.1 0)).map fun a => (a, field32 got.1 0)
  else none

/-- The message header of `sendmsg` and `recvmsg`, if it can be read. -/
def messageHeader : Option Msghdr :=
  let got := s.um.nodCopyFromUser (s.arg 1).toNat msghdrSize
  if got.2 = 0 then some (msghdr got.1) else none

/-- The call passes an address that its filler makes a tuple of. -/
def PassesAddr : Prop :=
  (s.nr = 42 ∧ ¬ (s.arg 0).toUInt32.toBitVec.toInt < 0 ∧
    (usrAddr k s (s.arg 1) (s.arg 2)).isSome) ∨
  (s.nr = 44 ∧ (usrAddr k s (s.arg 4) (s.arg 5)).isSome) ∨
  (s.nr = 45 ∧ (recvfromAddr k s).isSome) ∨
  (s.nr = 46 ∧ ∃ mh ∈ messageHeader s, (mh.addr k s).isSome ∧
    BuffersRead s mh.iov mh.iovlen snaplenRetval ⟨true, false, true⟩) ∨
  (s.nr = 47 ∧ 0 ≤ signed s.ret ∧ ∃ mh ∈ messageHeader s, (mh.addr k s).isSome ∧
    BuffersRead s mh.iov mh.iovlen s.ret ⟨true, true, false⟩)

/-- The socket that `accept` returns has its names, and so has the one whose address is asked for. -/
def NamesKnown : Prop :=
  (s.nr = 43 ∨ s.nr = 288 → k.Named s.ret.toUInt32 true) ∧
  (PassesAddr k s → k.Named (s.arg 0).toUInt32 false)

instance : Decidable (PassesAddr k s) := inferInstanceAs (Decidable (_ ∨ _))

instance : Decidable (NamesKnown k s) := inferInstanceAs (Decidable (_ ∧ _))

end

/-- The caller is in every control group, and each has a path. -/
def Kernel.GroupsKnown (k : Kernel) : Prop := ∀ g ∈ k.cgroups, g.2.isSome

section

variable {ty : EventType} {k : Kernel} {s : Syscall} {um : UserMem}

/-- Conditions behind a stretch of filler. -/
theorem not_trips_asserts {conds : List Bool} (h : ∀ cond ∈ conds, cond = true) (f g : Filler ty)
    (a : RingArgs) : ¬ ((CheckedFiller.asserts conds <| .plain g).after f).Trips um a := by
  refine CheckedFiller.Holds.not_trips ?_ a
  rw [CheckedFiller.holds_after, CheckedFiller.holds_asserts]
  exact ⟨h, trivial⟩

theorem fSysSocketBind_not_trips (plain : ∀ i, ((gEventInfo ty).param i).type ≠ .dyn)
    (a : RingArgs) : ¬ (fSysSocketBind k s plain).Trips um a := by
  refine not_trips_asserts ?_ _ _ a
  cases usrAddr k s (s.arg 1) (s.arg 2) with
  | none => exact fun _ hc => absurd hc List.not_mem_nil
  | some addr => exact packAddrAsserts_true addr.1

theorem fSysConnect_not_trips (plain : ∀ i, ((gEventInfo ty).param i).type ≠ .dyn)
    (h : ¬ (s.arg 0).toUInt32.toBitVec.toInt < 0 ∧ (usrAddr k s (s.arg 1) (s.arg 2)).isSome →
      k.Named (s.arg 0).toUInt32 false) (a : RingArgs) :
    ¬ (fSysConnect k s plain).Trips um a := by
  refine not_trips_asserts ((usrTupleAsserts_iff ..).mpr fun haddr => h ?_) _ _ a
  split at haddr
  · cases haddr
  · exact ⟨‹_›, haddr⟩

theorem fSysSendto_not_trips (h : (usrAddr k s (s.arg 4) (s.arg 5)).isSome →
    k.Named (s.arg 0).toUInt32 false) (a : RingArgs) :
    ¬ (fSysSendto k s : CheckedFiller ty).Trips um a :=
  not_trips_asserts ((usrTupleAsserts_iff ..).mpr h) _ _ a

theorem fSysRecvfrom_eq : (fSysRecvfrom k s : CheckedFiller ty) =
    if (0 ≤ signed s.ret ∧ s.arg 4 ≠ 0 ∧ s.arg 5 ≠ 0) ∧
        (s.um.nodCopyFromUser (s.arg 5).toNat 4).2 ≠ 0 then
      .plain <| pushes (fSysRecvCommon s) <| ret nodFailureInvalidUserMemory
    else
      (CheckedFiller.asserts (usrTupleAsserts k (s.arg 0).toUInt32 (recvfromAddr k s) true) <|
        .plain <| pushPacked s (usrTuple k (s.arg 0).toUInt32 (recvfromAddr k s) true) done).after <|
        pushes (fSysRecvCommon s) done := by
  unfold fSysRecvfrom recvfromAddr
  dsimp only
  by_cases hw : 0 ≤ signed s.ret ∧ s.arg 4 ≠ 0 ∧ s.arg 5 ≠ 0
  · by_cases hc : (s.um.nodCopyFromUser (s.arg 5).toNat 4).2 = 0
    · simp [hw, hc]
    · simp [hw, hc]
  · have hw' : ¬ (0 ≤ signed s.ret ∧ s.arg 4 ≠ 0 ∧ s.arg 5 ≠ 0 ∧
        (s.um.nodCopyFromUser (s.arg 5).toNat 4).2 = 0) := fun h => hw ⟨h.1, h.2.1, h.2.2.1⟩
    simp only [hw, hw', false_and, if_false]

theorem fSysRecvfrom_not_trips (h : (recvfromAddr k s).isSome → k.Named (s.arg 0).toUInt32 false)
    (a : RingArgs) : ¬ (fSysRecvfrom k s : CheckedFiller ty).Trips um a := by
  rw [fSysRecvfrom_eq]
  split
  · exact Filler.not_trips _ a
  · exact not_trips_asserts ((usrTupleAsserts_iff ..).mpr h) _ _ a

/-- The address is looked at only once the buffers have been. -/
theorem not_trips_behind_buffers {conds : List Bool} {iovsrc iovcnt retval : UInt64}
    {flags : PrbFlags} {vs : List Value}
    (h : BuffersRead s iovsrc iovcnt retval flags → ∀ cond ∈ conds, cond = true) (g : Filler ty)
    (a : RingArgs) : ¬ ((CheckedFiller.asserts conds <| .plain g).after <| pushes vs <|
      parseReadvWritevBufs s iovsrc iovcnt retval flags).Trips um a := by
  rw [CheckedFiller.trips_after]
  rintro ⟨hok, ht⟩
  have hend := ending_of_success hok
  rw [ending_pushes, ending_parseReadvWritevBufs] at hend
  have hread : BuffersRead s iovsrc iovcnt retval flags := by
    by_contra hno
    rw [if_neg hno] at hend
    split at hend <;> cases hend
  have hholds : (CheckedFiller.asserts conds <| CheckedFiller.plain g).Holds :=
    CheckedFiller.holds_asserts.mpr ⟨h hread, trivial⟩
  exact hholds.not_trips _ ht

theorem fSysSendmsg_eq : (fSysSendmsg k s : CheckedFiller ty) =
    match messageHeader s with
    | none => .plain <| pushes [.imm (s.arg 0)] <| ret nodFailureInvalidUserMemory
    | some mh =>
        (CheckedFiller.asserts (usrTupleAsserts k (s.arg 0).toUInt32 (mh.addr k s) false) <|
          .plain <| pushPacked s (usrTuple k (s.arg 0).toUInt32 (mh.addr k s) false) <|
            pushes [.imm s.ret] <|
              parseReadvWritevBufs s mh.iov mh.iovlen snaplenRetval ⟨false, true, true⟩).after <|
          pushes [.imm (s.arg 0)] <|
            parseReadvWritevBufs s mh.iov mh.iovlen snaplenRetval ⟨true, false, true⟩ := by
  unfold fSysSendmsg messageHeader
  dsimp only
  by_cases hc : (s.um.nodCopyFromUser (s.arg 1).toNat msghdrSize).2 = 0
  · rw [if_neg (not_not.mpr hc), if_pos hc]
  · rw [if_pos hc, if_neg hc]

theorem fSysSendmsg_not_trips (h : ∀ mh ∈ messageHeader s, (mh.addr k s).isSome →
    BuffersRead s mh.iov mh.iovlen snaplenRetval ⟨true, false, true⟩ →
      k.Named (s.arg 0).toUInt32 false) (a : RingArgs) :
    ¬ (fSysSendmsg k s : CheckedFiller ty).Trips um a := by
  rw [fSysSendmsg_eq]
  cases hmh : messageHeader s with
  | none => exact Filler.not_trips _ a
  | some mh =>
    refine not_trips_behind_buffers (fun hread => ?_) _ a
    exact (usrTupleAsserts_iff ..).mpr fun haddr => h mh hmh haddr hread

/-- The address of the message `recvmsg` received, if it received one. -/
def Msghdr.received (mh : Msghdr) (k : Kernel) (s : Syscall) : Option (Image × UInt32) :=
  if 0 ≤ signed s.ret then mh.addr k s else none

theorem fSysRecvmsg_eq : (fSysRecvmsg k s : CheckedFiller ty) =
    match messageHeader s with
    | none => .plain <| pushes [.imm s.ret] <| ret nodFailureInvalidUserMemory
    | some mh =>
        (CheckedFiller.asserts (usrTupleAsserts k (s.arg 0).toUInt32 (mh.received k s) true) <|
          .plain <| pushPacked s
            (usrTuple k (s.arg 0).toUInt32 (mh.received k s) true) done).after <|
          pushes [.imm s.ret] <|
            parseReadvWritevBufs s mh.iov mh.iovlen s.ret ⟨true, true, false⟩ := by
  unfold fSysRecvmsg messageHeader
  dsimp only
  by_cases hc : (s.um.nodCopyFromUser (s.arg 1).toNat msghdrSize).2 = 0
  · rw [if_neg (not_not.mpr hc), if_pos hc]
    rfl
  · rw [if_pos hc, if_neg hc]

theorem Msghdr.received_isSome {mh : Msghdr} :
    (mh.received k s).isSome ↔ 0 ≤ signed s.ret ∧ (mh.addr k s).isSome := by
  unfold Msghdr.received
  by_cases hret : 0 ≤ signed s.ret
  · simp [hret]
  · simp [hret]

theorem fSysRecvmsg_not_trips (h : 0 ≤ signed s.ret → ∀ mh ∈ messageHeader s,
    (mh.addr k s).isSome → BuffersRead s mh.iov mh.iovlen s.ret ⟨true, true, false⟩ →
      k.Named (s.arg 0).toUInt32 false) (a : RingArgs) :
    ¬ (fSysRecvmsg k s : CheckedFiller ty).Trips um a := by
  rw [fSysRecvmsg_eq]
  cases hmh : messageHeader s with
  | none => exact Filler.not_trips _ a
  | some mh =>
    refine not_trips_behind_buffers (fun hread => ?_) _ a
    refine (usrTupleAsserts_iff ..).mpr fun haddr => ?_
    obtain ⟨hret, haddr⟩ := Msghdr.received_isSome.mp haddr
    exact h hret mh hmh haddr hread

theorem fSysAcceptCommon_holds (h : k.Named s.ret.toUInt32 true) :
    (fSysAcceptCommon k s : CheckedFiller ty).Holds := by
  simp only [fSysAcceptCommon, CheckedFiller.holds_after, CheckedFiller.holds_asserts,
    CheckedFiller.holds_plain, and_true]
  exact (fdToSocktupleAsserts_iff fun _ => rfl).mpr h

theorem fProcStartupdate_holds (h : k.GroupsKnown) :
    (fProcStartupdate k s : CheckedFiller ty).Holds := by
  rw [fProcStartupdate, CheckedFiller.holds_after, CheckedFiller.holds_asserts]
  exact ⟨Kernel.appendCgroupsAsserts_true h pageSize, trivial⟩

/-! ## One event -/

theorem nodAutofillChecked_holds (ty : EventType) (s : Syscall) {n : Nat}
    {entries : List AutofillArg} (hn : n ≤ nodMaxAutofillArgs) (hle : entries.length ≤ n) :
    (nodAutofillChecked s n entries : CheckedFiller ty).Holds := by
  simp [nodAutofillChecked, CheckedFiller.Holds, hn, hle]

/-- **A row with at most as many automatic arguments as fit trips in its callback.** -/
theorem trips_fillerCallback {row : EventRow ty} (hrow : eventRow k s ty = some row)
    (hn : row.autofill.length ≤ nodMaxAutofillArgs) {a : RingArgs} :
    (fillerCallback k s ty).Trips um a ↔
      ((nodAutofill s (row.autofill.takeWhile AutofillArg.isArg) : Filler ty).run um a).res =
        some nodSuccess ∧
      row.callback.Trips um
        ((nodAutofill s (row.autofill.takeWhile AutofillArg.isArg) : Filler ty).run um a).args := by
  obtain ⟨callback, autofill⟩ := row
  unfold fillerCallback
  rw [hrow]
  cases autofill with
  | nil => simp [nodAutofill, Filler.run]
  | cons entry entries =>
    have hlead := nodAutofillChecked_holds ty s hn
      (List.takeWhile_sublist (l := entry :: entries) AutofillArg.isArg).length_le
    have htail := nodAutofillChecked_holds ty s hn
      (List.dropWhile_sublist (l := entry :: entries) AutofillArg.isArg).length_le
    simp only [CheckedFiller.trips_seq, hlead.not_trips, htail.not_trips, false_or, and_false,
      or_false, CheckedFiller.run_filler (hlead.not_trips a), nodAutofillChecked_filler]

theorem eventRow_autofill {row : EventRow ty} (hrow : eventRow k s ty = some row) :
    row.autofill.length ≤ nodMaxAutofillArgs := by
  cases ty <;> cases hrow <;> exact Nat.le_of_ble_eq_true rfl

/-! ## The two converters that give up -/

theorem lookup_isSome_iff_mem {α β : Type} [BEq α] [LawfulBEq α] {l : List (α × β)} {a : α} :
    (l.lookup a).isSome = true ↔ a ∈ l.map Prod.fst := by
  rw [List.lookup_isSome_iff, List.mem_map]
  constructor
  · rintro ⟨p, hp, he⟩
    exact ⟨p, hp, (eq_of_beq he).symm⟩
  · rintro ⟨p, hp, rfl⟩
    exact ⟨p, hp, beq_self_eq_true _⟩

theorem fcntlCmdToScap_isSome {cmd : UInt64} :
    (fcntlCmdToScap cmd).isSome = true ↔ cmd ∈ fcntlCmds.map Prod.fst := lookup_isSome_iff_mem

theorem sockoptOptnameToScap_isSome {timeNames : Bool} {level optname : UInt32} :
    (sockoptOptnameToScap timeNames level optname).isSome = true ↔
      (level = solSocket → optname ∈ (sockoptOptnames timeNames).map Prod.fst) := by
  by_cases hl : level = solSocket
  · simp only [sockoptOptnameToScap, hl, ne_eq, not_true, if_false, lookup_isSome_iff_mem,
      forall_const]
  · simp [sockoptOptnameToScap, hl]

theorem fSysFcntl_holds {ty : EventType} :
    (fSysFcntl s : CheckedFiller ty).Holds ↔ s.arg 1 ∈ fcntlCmds.map Prod.fst := by
  simp only [fSysFcntl, CheckedFiller.Holds, and_true, fcntlCmdToScap_isSome]

theorem sockoptHead_holds {next : CheckedFiller ty} (hnext : next.Holds) :
    (sockoptHead k s next).Holds ↔ ((s.arg 1).toUInt32 = solSocket →
      (s.arg 2).toUInt32 ∈ (sockoptOptnames k.timeNames).map Prod.fst) := by
  simp only [sockoptHead, CheckedFiller.Holds, CheckedFiller.holds_after, hnext, and_true,
    sockoptOptnameToScap_isSome]

end

/-! ## Every system call -/

/-- **No argument trips an `ASSERT`**: whatever room there is for the arguments, the filler of
the system call evaluates no `ASSERT` whose condition is false. -/
def AssertsHold (k : Kernel) (s : Syscall) : Prop :=
  ∀ off size, ¬ (fillerCallback k s (gSyscallEventTable s.nr.toNat)).Trips s.um ⟨0, off, size⟩

/-- The command of an `fcntl` and the option of a `setsockopt` or `getsockopt` at the level
`SOL_SOCKET` are among those the converters list. -/
def KnownNumbers (k : Kernel) (s : Syscall) : Prop :=
  (s.nr = 72 → s.arg 1 ∈ fcntlCmds.map Prod.fst) ∧
  (s.nr = 54 ∨ s.nr = 55 → (s.arg 1).toUInt32 = solSocket →
    (s.arg 2).toUInt32 ∈ (sockoptOptnames k.timeNames).map Prod.fst)

instance (k : Kernel) (s : Syscall) : Decidable (KnownNumbers k s) :=
  inferInstanceAs (Decidable (_ ∧ _))

/-- Events that stand for one system call each, and that call. -/
def soleCalls : List (EventType × UInt32) :=
  [(.syscallPoll, 7), (.syscallReadv, 19), (.syscallWritev, 20), (.socketConnect, 42),
    (.socketAccept_5, 43), (.socketSendto, 44), (.socketRecvfrom, 45), (.socketSendmsg, 46),
    (.socketRecvmsg, 47), (.socketSocketpair, 53), (.socketSetsockopt, 54), (.socketGetsockopt, 55),
    (.syscallFcntl, 72), (.syscallPpoll, 271), (.socketAccept4_5, 288), (.syscallPreadv, 295),
    (.syscallPwritev, 296)]

theorem nr_eq {s : Syscall} {n : Nat} (h : s.nr.toNat = n) : s.nr = UInt32.ofNat n := by
  rw [← h, UInt32.ofNat_toNat]

theorem soleCalls_nr {n : Nat} (hn : n < tableSize) :
    (soleCalls.all fun p => decide (gSyscallEventTable n = p.1 ↔ n = p.2.toNat)) = true := by
  revert n
  decide +kernel

theorem soleCall_iff {s : Syscall} (hnr : s.nr.toNat < tableSize) {p : EventType × UInt32}
    (hp : p ∈ soleCalls) : gSyscallEventTable s.nr.toNat = p.1 ↔ s.nr = p.2 := by
  rw [of_decide_eq_true (List.all_eq_true.mp (soleCalls_nr hnr) p hp), UInt32.toNat_inj]

section

variable {ty : EventType} {k : Kernel} {s : Syscall} {um : UserMem} {n : Nat}

/-- **What trips no `ASSERT`**: a call whose numbers and names are known. -/
theorem eventRow_not_trips {row : EventRow ty} (hrow : eventRow k s ty = some row)
    (hnr : s.nr.toNat < tableSize) (hty : ∀ p ∈ soleCalls, ty = p.1 → s.nr = p.2)
    (hgroups : k.GroupsKnown) (hknown : KnownNumbers k s) (hnames : NamesKnown k s)
    (a : RingArgs) : ¬ row.callback.Trips um a := by
  have hnum : ∀ p ∈ soleCalls, ty = p.1 → s.nr = p.2 := hty
  obtain ⟨hacc, haddr⟩ := hnames
  obtain ⟨hcmd, hopt⟩ := hknown
  cases ty
  case generic =>
    cases hrow
    simp only [fSysGenericChecked, hnr, if_true]
    exact Filler.not_trips _ a
  case socketBind => cases hrow; exact fSysSocketBind_not_trips _ a
  case socketConnect =>
    cases hrow
    exact fSysConnect_not_trips _
      (fun h => haddr (Or.inl ⟨hnum (.socketConnect, 42) (by decide) rfl, h⟩)) a
  case socketSendto =>
    cases hrow
    exact fSysSendto_not_trips
      (fun h => haddr (Or.inr (Or.inl ⟨hnum (.socketSendto, 44) (by decide) rfl, h⟩))) a
  case socketRecvfrom =>
    cases hrow
    exact fSysRecvfrom_not_trips (fun h => haddr
      (Or.inr (Or.inr (Or.inl ⟨hnum (.socketRecvfrom, 45) (by decide) rfl, h⟩)))) a
  case socketSendmsg =>
    cases hrow
    exact fSysSendmsg_not_trips (fun mh hmh h hread => haddr (Or.inr (Or.inr (Or.inr (Or.inl
      ⟨hnum (.socketSendmsg, 46) (by decide) rfl, mh, hmh, h, hread⟩))))) a
  case socketRecvmsg =>
    cases hrow
    exact fSysRecvmsg_not_trips (fun hret mh hmh h hread => haddr (Or.inr (Or.inr (Or.inr (Or.inr
      ⟨hnum (.socketRecvmsg, 47) (by decide) rfl, hret, mh, hmh, h, hread⟩))))) a
  case socketAccept_5 =>
    cases hrow
    exact (fSysAcceptCommon_holds
      (hacc (Or.inl (hnum (.socketAccept_5, 43) (by decide) rfl)))).not_trips a
  case socketAccept4_5 =>
    cases hrow
    exact (CheckedFiller.holds_after.mpr (fSysAcceptCommon_holds
      (hacc (Or.inr (hnum (.socketAccept4_5, 288) (by decide) rfl))))).not_trips a
  case syscallFcntl =>
    cases hrow
    exact (fSysFcntl_holds.mpr (hcmd (hnum (.syscallFcntl, 72) (by decide) rfl))).not_trips a
  case socketSetsockopt =>
    cases hrow
    exact ((sockoptHead_holds (CheckedFiller.holds_plain _)).mpr
      (hopt (Or.inl (hnum (.socketSetsockopt, 54) (by decide) rfl)))).not_trips a
  case socketGetsockopt =>
    cases hrow
    exact ((sockoptHead_holds (CheckedFiller.holds_plain _)).mpr
      (hopt (Or.inr (hnum (.socketGetsockopt, 55) (by decide) rfl)))).not_trips a
  case syscallExecve_8 | syscallExecve_19 | syscallExecveat =>
    cases hrow
    exact (CheckedFiller.holds_after.mpr (fProcStartupdate_holds hgroups)).not_trips a
  case syscallClone_20 | syscallFork_20 | syscallVfork_20 | syscallClone3 =>
    cases hrow
    exact (fProcStartupdate_holds hgroups).not_trips a
  all_goals cases hrow <;> exact Filler.not_trips _ a

/-! ## Calls that come to a false ASSERT -/

/-- The filler comes to a false `ASSERT` behind `n` small arguments: it does where they fit, and
where they do not it runs out of room. -/
structure Doomed (um : UserMem) (c : CheckedFiller ty) (n : Nat) : Prop where
  wide : ∀ off room, 81 * n ≤ room → c.Trips um ⟨0, off, room⟩
  narrow : ∀ off room, c.Trips um ⟨0, off, room⟩ ∨
    (c.filler.OutOfRoom um 0 room ∧ c.filler.taken um 0 room ≤ 80 * n)

/-- A stretch of small arguments, and behind it something that comes to a false `ASSERT` whatever
room there is. -/
theorem doomed_of_stretch {row : EventRow ty} (hrow : eventRow k s ty = some row) {f : Filler ty}
    {d : CheckedFiller ty} (hcb : row.callback = d.after f)
    (hsmall : ((nodAutofill s (row.autofill.takeWhile AutofillArg.isArg) : Filler ty).seq f).Small
      0 n) (hend : f.ending = some nodSuccess) (hd : ∀ a, d.Trips um a) :
    Doomed um (fillerCallback k s ty) n := by
  have hends : ((nodAutofill s (row.autofill.takeWhile AutofillArg.isArg) : Filler ty).seq
      f).ending = some nodSuccess := by
    rw [ending_seq, ending_nodAutofill, if_pos rfl, hend]
  have htrips : ∀ off room, (((nodAutofill s (row.autofill.takeWhile AutofillArg.isArg) :
      Filler ty).seq f).run um ⟨0, off, room⟩).res = some nodSuccess →
      (fillerCallback k s ty).Trips um ⟨0, off, room⟩ := by
    intro off room hok
    rw [trips_fillerCallback hrow (eventRow_autofill hrow), hcb, CheckedFiller.trips_after]
    by_cases hauto : ((nodAutofill s (row.autofill.takeWhile AutofillArg.isArg) :
        Filler ty).run um ⟨0, off, room⟩).res = some nodSuccess
    · rw [Filler.run_seq_of_success f hauto] at hok
      exact ⟨hauto, hok, hd _⟩
    · rw [Filler.run_seq_of_failure f hauto] at hok
      exact absurd hok hauto
  refine ⟨fun off room hroom => htrips off room ?_, fun off room => ?_⟩
  · rw [hsmall.run_res hroom, hends]
  · rcases hsmall.run_or_outOfRoom um off room with hres | ⟨hout, hle⟩
    · exact Or.inl (htrips off room (hres.trans hends))
    · refine Or.inr ?_
      have hfiller : (fillerCallback k s ty).filler =
          ((nodAutofill s (row.autofill.takeWhile AutofillArg.isArg)).seq f).seq
            (d.filler.seq (nodAutofill s (row.autofill.dropWhile AutofillArg.isArg))) := by
        rw [fillerCallback_filler hrow, hcb, CheckedFiller.filler_after, Filler.seq_assoc,
          Filler.seq_assoc]
      rw [hfiller, (hout.seq _).2]
      exact ⟨(hout.seq _).1, hle⟩

/-- An unknown command. -/
theorem fcntl_doomed (hcmd : s.arg 1 ∉ fcntlCmds.map Prod.fst) :
    Doomed um (fillerCallback k s .syscallFcntl) 1 := by
  have hrow : eventRow k s .syscallFcntl = some ⟨fSysFcntl s, [.retval]⟩ := rfl
  have hcond : (fcntlCmdToScap (s.arg 1)).isSome = false :=
    Bool.eq_false_iff.mpr fun h => hcmd (fcntlCmdToScap_isSome.mp h)
  refine doomed_of_stretch hrow (f := pushes [.imm (s.arg 0)] done)
    (d := .assert done (fcntlCmdToScap (s.arg 1)).isSome <|
      .plain (pushes [.imm ((fcntlCmdToScap (s.arg 1)).getD 0)] done)) ?_ ?_ rfl ?_
  · simp only [fSysFcntl, CheckedFiller.after, done, seq_ret_right]
  · exact small_pushes_done rfl rfl
  · exact fun a => Or.inr ⟨rfl, Or.inl hcond⟩

/-- An unknown option. -/
theorem sockopt_doomed {next : CheckedFiller ty} {autofill : List AutofillArg}
    (hrow : eventRow k s ty = some ⟨sockoptHead k s next, autofill⟩)
    (hauto : autofill.takeWhile AutofillArg.isArg = []) (hp : smallParams ty 0 3 = true)
    (hl : (s.arg 1).toUInt32 = solSocket)
    (ho : (s.arg 2).toUInt32 ∉ (sockoptOptnames k.timeNames).map Prod.fst) :
    Doomed um (fillerCallback k s ty) 3 := by
  have hcond : (sockoptOptnameToScap k.timeNames (s.arg 1).toUInt32 (s.arg 2).toUInt32).isSome =
      false := Bool.eq_false_iff.mpr fun h => ho (sockoptOptnameToScap_isSome.mp h hl)
  refine doomed_of_stretch hrow
    (f := pushes [.imm s.ret, .user (s.arg 0),
      .user (sockoptLevelToScap (s.arg 1).toUInt32)] done)
    (d := .assert done
      (sockoptOptnameToScap k.timeNames (s.arg 1).toUInt32 (s.arg 2).toUInt32).isSome <|
      next.after <| pushes [.user ((sockoptOptnameToScap k.timeNames (s.arg 1).toUInt32
        (s.arg 2).toUInt32).getD 0)] done) ?_ ?_ rfl ?_
  · simp only [sockoptHead, CheckedFiller.after, done, seq_ret_right]
  · rw [hauto]
    exact small_pushes_done rfl hp
  · exact fun a => Or.inr ⟨rfl, Or.inl hcond⟩

/-- A socket whose names are not known, where `accept` returns it. -/
theorem accept_doomed (h : ¬ k.Named s.ret.toUInt32 true) :
    Doomed um (fillerCallback k s .socketAccept_5) 1 := by
  have hrow : eventRow k s .socketAccept_5 = some ⟨fSysAccept k s, []⟩ := rfl
  refine doomed_of_stretch hrow rfl (small_pushes_done rfl rfl) rfl fun a => ?_
  exact CheckedFiller.trips_asserts (fun hc => h ((fdToSocktupleAsserts_iff fun _ => rfl).mp hc)) _ a

theorem accept4_doomed (h : ¬ k.Named s.ret.toUInt32 true) :
    Doomed um (fillerCallback k s .socketAccept4_5) 2 := by
  have hrow : eventRow k s .socketAccept4_5 = some ⟨fSysAccept4 k s, []⟩ := rfl
  refine doomed_of_stretch hrow (CheckedFiller.after_after ..)
    ((small_pushes_done (m := 1) rfl rfl).seq (small_pushes_done (m := 1) rfl rfl)) rfl fun a => ?_
  exact CheckedFiller.trips_asserts (fun hc => h ((fdToSocktupleAsserts_iff fun _ => rfl).mp hc)) _ a

/-- An address behind a descriptor whose name is not known. -/
theorem usrTuple_trips {fd : UInt32} {addr : Option (Image × UInt32)} {isInbound : Bool}
    (haddr : addr.isSome) (h : ¬ k.Named fd false) (g : Filler ty) (a : RingArgs) :
    (CheckedFiller.asserts (usrTupleAsserts k fd addr isInbound) <| .plain g).Trips um a :=
  CheckedFiller.trips_asserts (fun hc => h ((usrTupleAsserts_iff ..).mp hc haddr)) _ a

theorem connect_doomed (hfd : ¬ (s.arg 0).toUInt32.toBitVec.toInt < 0)
    (haddr : (usrAddr k s (s.arg 1) (s.arg 2)).isSome)
    (h : ¬ k.Named (s.arg 0).toUInt32 false) :
    Doomed um (fillerCallback k s .socketConnect) 1 := by
  have hrow : eventRow k s .socketConnect =
      some ⟨fSysConnect k s socketConnect_plain, [.arg 0]⟩ := rfl
  -- the dropped push lets the filler through whatever becomes of it
  refine doomed_of_stretch hrow (f := done) (d := fSysConnect k s socketConnect_plain) ?_ ?_ rfl
    fun a => ?_
  · rw [fSysConnect, CheckedFiller.after_after]
    rfl
  · exact (small_nodAutofill s (m := 1) rfl rfl).seq (m := 0) fun _ => rfl
  · rw [fSysConnect, CheckedFiller.trips_after, if_neg hfd]
    exact ⟨rfl, usrTuple_trips haddr h _ _⟩

theorem sendto_doomed (haddr : (usrAddr k s (s.arg 4) (s.arg 5)).isSome)
    (h : ¬ k.Named (s.arg 0).toUInt32 false) :
    Doomed um (fillerCallback k s .socketSendto) 2 := by
  have hrow : eventRow k s .socketSendto = some ⟨fSysSendto k s, []⟩ := rfl
  have hsmall : ((nodAutofill s [] : Filler .socketSendto).seq
      (scratch ⟨0, [250]⟩ <| pushes (fSysSendECommon s) done)).Small 0 2 :=
    (small_nodAutofill s (m := 0) rfl rfl).seq (small_scratch (small_pushes_done rfl rfl))
  exact doomed_of_stretch hrow rfl hsmall (by rw [ending_scratch, if_pos (by decide)]; rfl)
    (usrTuple_trips haddr h _)

theorem recvfrom_doomed (haddr : (recvfromAddr k s).isSome)
    (h : ¬ k.Named (s.arg 0).toUInt32 false) :
    Doomed um (fillerCallback k s .socketRecvfrom) 4 := by
  have hrow : eventRow k s .socketRecvfrom = some ⟨fSysRecvfrom k s, [.arg 0, .arg 2]⟩ := rfl
  have hread : ¬ ((0 ≤ signed s.ret ∧ s.arg 4 ≠ 0 ∧ s.arg 5 ≠ 0) ∧
      (s.um.nodCopyFromUser (s.arg 5).toNat 4).2 ≠ 0) := by
    rintro ⟨-, hfault⟩
    unfold recvfromAddr at haddr
    rw [if_neg fun hc => hfault hc.2.2.2] at haddr
    cases haddr
  refine doomed_of_stretch hrow (by rw [fSysRecvfrom_eq, if_neg hread])
    ((small_nodAutofill s (m := 2) rfl rfl).seq (small_pushes_done (m := 2) rfl rfl)) rfl
    (usrTuple_trips haddr h _)

theorem sendmsg_doomed {mh : Msghdr} (hmh : messageHeader s = some mh) (haddr : (mh.addr k s).isSome)
    (hread : BuffersRead s mh.iov mh.iovlen snaplenRetval ⟨true, false, true⟩)
    (h : ¬ k.Named (s.arg 0).toUInt32 false) :
    Doomed um (fillerCallback k s .socketSendmsg) 2 := by
  have hrow : eventRow k s .socketSendmsg = some ⟨fSysSendmsg k s, []⟩ := rfl
  refine doomed_of_stretch hrow (by rw [fSysSendmsg_eq, hmh])
    ((small_nodAutofill s (m := 0) rfl rfl).seq
      (small_pushes (m := 1) rfl rfl (small_parseReadvWritevBufs s _ _ _ _ rfl))) ?_
    (usrTuple_trips haddr h _)
  rw [ending_pushes, ending_parseReadvWritevBufs, if_neg (Nat.not_le.mpr hread.1), if_pos hread]

theorem recvmsg_doomed {mh : Msghdr} (hmh : messageHeader s = some mh) (hret : 0 ≤ signed s.ret)
    (haddr : (mh.addr k s).isSome)
    (hread : BuffersRead s mh.iov mh.iovlen s.ret ⟨true, true, false⟩)
    (h : ¬ k.Named (s.arg 0).toUInt32 false) :
    Doomed um (fillerCallback k s .socketRecvmsg) 4 := by
  have hrow : eventRow k s .socketRecvmsg = some ⟨fSysRecvmsg k s, [.arg 0]⟩ := rfl
  refine doomed_of_stretch hrow (by rw [fSysRecvmsg_eq, hmh])
    ((small_nodAutofill s (m := 1) rfl rfl).seq
      (small_pushes (m := 1) rfl rfl (small_parseReadvWritevBufs s _ _ _ _ rfl))) ?_
    (usrTuple_trips (Msghdr.received_isSome.mpr ⟨hret, haddr⟩) h _)
  rw [ending_pushes, ending_parseReadvWritevBufs, if_neg (Nat.not_le.mpr hread.1), if_pos hread]

end

section

variable {k : Kernel} {s : Syscall}

/-- **A call one of whose numbers or names is unknown comes to a false `ASSERT`.** -/
theorem doomed_of_unknown (hnr : s.nr.toNat < tableSize)
    (h : ¬ (KnownNumbers k s ∧ NamesKnown k s)) (um : UserMem) :
    ∃ n ≤ 4, Doomed um (fillerCallback k s (gSyscallEventTable s.nr.toNat)) n := by
  have htype : ∀ p ∈ soleCalls, s.nr = p.2 → gSyscallEventTable s.nr.toNat = p.1 :=
    fun p hp => (soleCall_iff hnr hp).mpr
  by_cases hknown : KnownNumbers k s
  · have hnames : ¬ NamesKnown k s := fun hn => h ⟨hknown, hn⟩
    rw [NamesKnown, not_and_or, Classical.not_imp, Classical.not_imp] at hnames
    rcases hnames with ⟨h43 | h288, hn⟩ | ⟨haddr, hn⟩
    · rw [htype (.socketAccept_5, 43) (by decide) h43]
      exact ⟨1, by decide, accept_doomed hn⟩
    · rw [htype (.socketAccept4_5, 288) (by decide) h288]
      exact ⟨2, by decide, accept4_doomed hn⟩
    rcases haddr with ⟨h42, hfd, ha⟩ | ⟨h44, ha⟩ | ⟨h45, ha⟩ | ⟨h46, mh, hmh, ha, hread⟩ |
      ⟨h47, hret, mh, hmh, ha, hread⟩
    · rw [htype (.socketConnect, 42) (by decide) h42]
      exact ⟨1, by decide, connect_doomed hfd ha hn⟩
    · rw [htype (.socketSendto, 44) (by decide) h44]
      exact ⟨2, by decide, sendto_doomed ha hn⟩
    · rw [htype (.socketRecvfrom, 45) (by decide) h45]
      exact ⟨4, by decide, recvfrom_doomed ha hn⟩
    · rw [htype (.socketSendmsg, 46) (by decide) h46]
      exact ⟨2, by decide, sendmsg_doomed hmh ha hread hn⟩
    · rw [htype (.socketRecvmsg, 47) (by decide) h47]
      exact ⟨4, by decide, recvmsg_doomed hmh hret ha hread hn⟩
  · rw [KnownNumbers, not_and_or, Classical.not_imp, Classical.not_imp, Classical.not_imp] at hknown
    rcases hknown with ⟨h72, hcmd⟩ | ⟨h54 | h55, hl, ho⟩
    · rw [htype (.syscallFcntl, 72) (by decide) h72]
      exact ⟨1, by decide, fcntl_doomed hcmd⟩
    · rw [htype (.socketSetsockopt, 54) (by decide) h54]
      exact ⟨3, by decide, sockopt_doomed rfl rfl rfl hl ho⟩
    · rw [htype (.socketGetsockopt, 55) (by decide) h55]
      exact ⟨3, by decide, sockopt_doomed rfl rfl rfl hl ho⟩

/-- A call whose numbers and names are known trips nothing, in whatever room. -/
theorem not_trips_of_known (hnr : s.nr.toNat < tableSize) (hgroups : k.GroupsKnown)
    (hknown : KnownNumbers k s) (hnames : NamesKnown k s) (off size : Nat) :
    ¬ (fillerCallback k s (gSyscallEventTable s.nr.toNat)).Trips s.um ⟨0, off, size⟩ := by
  cases hrow : eventRow k s (gSyscallEventTable s.nr.toNat) with
  | none => simp [fillerCallback, hrow, CheckedFiller.Trips, Filler.Trips]
  | some row =>
    rw [trips_fillerCallback hrow (eventRow_autofill hrow)]
    rintro ⟨-, ht⟩
    exact eventRow_not_trips hrow hnr (fun p hp => (soleCall_iff hnr hp).mp) hgroups hknown
      hnames _ ht

/-- **No register of a system call stops the kernel exactly when its command or option is a
known one and the sockets it names have names.** -/
theorem assertsHold_iff (hnr : s.nr.toNat < tableSize) (hgroups : k.GroupsKnown) :
    AssertsHold k s ↔ KnownNumbers k s ∧ NamesKnown k s := by
  constructor
  · intro h
    by_contra hunknown
    obtain ⟨n, -, hdoomed⟩ := doomed_of_unknown hnr hunknown s.um
    exact h 0 (81 * n) (hdoomed.wide 0 _ (Nat.le_refl _))
  · rintro ⟨hknown, hnames⟩ off size
    exact not_trips_of_known hnr hgroups hknown hnames off size

end

/-- `fcntl(0, cmd)`. -/
def fcntlCall (cmd : UInt64) : Syscall :=
  { Syscall.idle with
    nr := 72
    arg := fun i => if i = 1 then cmd else 0 }

theorem idle_groupsKnown : Kernel.idle.GroupsKnown := fun _ hg => absurd hg List.not_mem_nil

/-- `F_DUPFD`. -/
theorem fcntl_dupfd_assertsHold :
    (fcntlCall 0).nr.toNat < tableSize ∧ Kernel.idle.GroupsKnown ∧
      AssertsHold Kernel.idle (fcntlCall 0) :=
  ⟨by decide, idle_groupsKnown, (assertsHold_iff (by decide) idle_groupsKnown).mpr (by decide)⟩

/-- `F_ADD_SEALS`. -/
theorem fcntl_add_seals_trips :
    (fcntlCall 1033).nr.toNat < tableSize ∧ Kernel.idle.GroupsKnown ∧
      ¬ AssertsHold Kernel.idle (fcntlCall 1033) := by
  refine ⟨by decide, idle_groupsKnown, fun h => ?_⟩
  obtain ⟨n, -, hdoomed⟩ := doomed_of_unknown (k := Kernel.idle) (s := fcntlCall 1033) (by decide)
    (by decide) (fcntlCall 1033).um
  exact h 0 (81 * n) (hdoomed.wide 0 _ (Nat.le_refl _))

end NoDrop
