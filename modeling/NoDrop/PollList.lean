import NoDrop.WriteData

/-! # The lists of poll

`poll_parse_fds` copies the user's array of `struct pollfd` to the head of `str_storage` and
builds the list it pushes behind it.  `pollPage` is the function over the page, with the widths of
the source: the count is a register of 64 bits, the check that both lists fit is a product that
may wrap, and the loop counts in 32 bits.

The list is right unless the check wraps (`pollList_iff`): with `2 ^ 63` added to a count that
fits, the check and the copy see the count that fits and the loop does not.  `poll` itself takes
an `unsigned int` and never looks at the upper half of the register.
-/
namespace NoDrop

open Bytes Filler

/-! ## The function over the page -/

/-- `fds[j]`, in the page: the descriptor, sign-extended, `events` and `revents`. -/
def pollfdAt (page : Image) (j : Nat) : Nat × Nat × Nat :=
  (((BitVec.ofNat 32 (leNat (page.read (8 * j) 4))).signExtend 64).toNat,
    leNat (page.read (8 * j + 4) 2), leNat (page.read (8 * j + 6) 2))

/-- What an entry of the array gives: the descriptor and the flags. -/
def pollEntry (enter : Bool) (p : Nat × Nat × Nat) : Option (Nat × Nat) :=
  if enter then some (p.1, pollEventsToScap p.2.1)
  else if p.2.2 = 0 then none else some (p.1, pollEventsToScap p.2.2)

/-- A descriptor and its flags in the list. -/
def pairBytes (p : Nat × Nat) : List UInt8 := leBytes 8 p.1 ++ leBytes 2 p.2

/-- A `PT_FDLIST`. -/
def fdlistBytes (fds : List (Nat × Nat)) : List UInt8 :=
  leBytes 2 fds.length ++ fds.flatMap pairBytes

/-- The page, `pos` and `fds_count`. -/
structure PollState where
  page : Image
  pos : UInt32
  count : UInt64

/-- How `poll_parse_fds` ends before or at its push, or that it has left the page. -/
inductive PollRun where
  | refused
  | fault
  | outside
  | endless
  | pushed (page : Image) (pos : UInt32)

/-- `targetbuf`, from the start of the page. -/
def pollTarget (nfds : UInt64) : Nat := (nfds * 8 + 2).toNat

/-- The loop, with `fds[j]` next.  Every round goes on to the next entry, and there are 512 of
them in the page, so that `fuel` need not be more than 513. -/
def pollLoop (enter : Bool) (nfds : UInt64) : Nat → UInt32 → PollState → PollRun
  | 0, _, _ => .endless
  | fuel + 1, j, st =>
      if j.toUInt64 < nfds then
        if pageSize < 8 * j.toNat + 8 then .outside
        else
          match pollEntry enter (pollfdAt st.page j.toNat) with
          | none => pollLoop enter nfds fuel (j + 1) st
          | some p =>
              if pageSize < pollTarget nfds + st.pos.toNat + 10 then .outside
              else pollLoop enter nfds fuel (j + 1)
                ⟨st.page.write ⟨pollTarget nfds + st.pos.toNat, pairBytes p⟩, st.pos + 10,
                  st.count + 1⟩
      else if pageSize < pollTarget nfds + 2 then .outside
      else .pushed (st.page.write ⟨pollTarget nfds, leBytes 2 st.count.toNat⟩) st.pos

/-- `poll_parse_fds`, up to its push. -/
def pollPage (um : UserMem) (fds nfds : UInt64) (enter : Bool) (page : Image) : PollRun :=
  let got := um.nodCopyFromUser fds.toNat (nfds * 8).toNat
  if UInt64.ofNat pageSize < 8 * nfds + 2 + 10 * nfds then .refused
  else if pageSize < got.1.length then .outside
  else if got.2 ≠ 0 then .fault
  else pollLoop enter nfds 513 0 ⟨page.write ⟨0, got.1⟩, 2, 0⟩

/-! ## A count that is too large -/

theorem next_toNat {j : UInt32} (h : j.toNat < 512) : (j + 1).toNat = j.toNat + 1 := by
  rw [UInt32.toNat_add]
  exact Nat.mod_eq_of_lt (show j.toNat + 1 < 2 ^ 32 by omega)

/-- From 2³² on the loop does not come to its end in the page. -/
theorem pollLoop_outside {enter : Bool} {nfds : UInt64} (hbig : 2 ^ 32 ≤ nfds.toNat) {fuel : Nat}
    {j : UInt32} {st : PollState} (hfuel : j.toNat + fuel = 513) (hj : j.toNat ≤ 512) :
    pollLoop enter nfds fuel j st = .outside := by
  induction fuel generalizing j st with
  | zero => omega
  | succ fuel ih =>
    have hlt : j.toUInt64 < nfds := by
      rw [UInt64.lt_iff_toNat_lt, UInt32.toNat_toUInt64]
      exact Nat.lt_of_lt_of_le (UInt32.toNat_lt j) hbig
    unfold pollLoop
    rw [if_pos hlt]
    by_cases hread : pageSize < 8 * j.toNat + 8
    · rw [if_pos hread]
    rw [if_neg hread]
    unfold pageSize at hread
    have hnext : (j + 1).toNat = j.toNat + 1 := next_toNat (by omega)
    split
    · exact ih (by omega) (by omega)
    · split
      · rfl
      · exact ih (by omega) (by omega)

/-! ## A count that fits -/

/-- The `n` entries in the page from `fds[j]` on. -/
def pagePollfds (page : Image) : Nat → Nat → List (Nat × Nat × Nat)
  | _, 0 => []
  | j, n + 1 => pollfdAt page j :: pagePollfds page (j + 1) n

theorem pollfdAt_congr {page page' : Image} {j : Nat} (h : ∀ i < 8 * j + 8, page' i = page i) :
    pollfdAt page' j = pollfdAt page j := by
  have hread : ∀ off n, off + n ≤ 8 * j + 8 → page'.read off n = page.read off n :=
    fun off n hn => Image.read_congr fun i hi => h (off + i) (by omega)
  rw [pollfdAt, pollfdAt, hread _ _ (by omega), hread _ _ (by omega), hread _ _ (by omega)]

theorem pagePollfds_congr {page page' : Image} {j n : Nat}
    (h : ∀ i < 8 * (j + n), page' i = page i) : pagePollfds page' j n = pagePollfds page j n := by
  induction n generalizing j with
  | zero => rfl
  | succ n ih =>
    rw [pagePollfds, pagePollfds, pollfdAt_congr fun i hi => h i (by omega),
      ih fun i hi => h i (by omega)]

/-- The entries as they were copied into the page. -/
theorem pollfds_read (page : Image) (j n : Nat) :
    pollfds n (page.read (8 * j) (8 * n)) = pagePollfds page j n := by
  induction n generalizing j with
  | zero => rfl
  | succ n ih =>
    rw [pollfds, pagePollfds, pollfdAt, Image.take_read _ _ (by omega),
      Image.drop_read _ _ (by omega), Image.take_read _ _ (by omega),
      Image.drop_read _ _ (by omega), Image.take_read _ _ (by omega),
      Image.drop_read _ _ (by omega), ← ih (j + 1)]
    rfl

@[simp] theorem pairBytes_length (p : Nat × Nat) : (pairBytes p).length = 10 := by
  simp [pairBytes]

theorem flatMap_pairBytes_length (fds : List (Nat × Nat)) :
    (fds.flatMap pairBytes).length = 10 * fds.length := by
  induction fds with
  | nil => rfl
  | cons p fds ih =>
    rw [List.flatMap_cons, List.length_append, ih, pairBytes_length, List.length_cons]
    omega

theorem pollTarget_eq {nfds : UInt64} (h : nfds.toNat ≤ 227) :
    pollTarget nfds = 8 * nfds.toNat + 2 := by
  rw [pollTarget, UInt64.toNat_add, UInt64.toNat_mul]
  show (nfds.toNat * 8 % 2 ^ 64 + 2) % 2 ^ 64 = _
  omega

/-- The loop over an array that fits: the pairs go behind those that are there, and the count in
front of them. -/
theorem pollLoop_eq {enter : Bool} {nfds : UInt64} (hsmall : nfds.toNat ≤ 227) {fuel n : Nat}
    {j : UInt32} {st : PollState} (hj : j.toNat + n = nfds.toNat) (hfuel : n < fuel)
    (hpos : st.pos.toNat ≤ 2 + 10 * j.toNat) (hcount : st.count.toNat ≤ j.toNat) :
    let fds := (pagePollfds st.page j.toNat n).filterMap (pollEntry enter)
    pollLoop enter nfds fuel j st = .pushed
      ((st.page.write ⟨pollTarget nfds + st.pos.toNat, fds.flatMap pairBytes⟩).write
        ⟨pollTarget nfds, leBytes 2 (st.count.toNat + fds.length)⟩)
      (st.pos + UInt32.ofNat (10 * fds.length)) := by
  have htarget := pollTarget_eq hsmall
  induction n generalizing fuel j st with
  | zero =>
    obtain ⟨fuel, rfl⟩ := Nat.exists_eq_succ_of_ne_zero (Nat.ne_of_gt hfuel)
    have hend : ¬j.toUInt64 < nfds := by
      rw [UInt64.lt_iff_toNat_lt, UInt32.toNat_toUInt64]
      omega
    have hroom : ¬pageSize < pollTarget nfds + 2 := by
      unfold pageSize
      omega
    simp only [pollLoop, if_neg hend, if_neg hroom, pagePollfds, List.filterMap_nil,
      List.flatMap_nil, Image.write_nil, List.length_nil, Nat.add_zero, Nat.mul_zero]
    exact congrArg _ (UInt32.add_zero _).symm
  | succ n ih =>
    obtain ⟨fuel, rfl⟩ := Nat.exists_eq_succ_of_ne_zero (Nat.ne_of_gt (Nat.zero_lt_of_lt hfuel))
    have hlt : j.toUInt64 < nfds := by
      rw [UInt64.lt_iff_toNat_lt, UInt32.toNat_toUInt64]
      omega
    have hread : ¬pageSize < 8 * j.toNat + 8 := by
      unfold pageSize
      omega
    have hnext : (j + 1).toNat = j.toNat + 1 := next_toNat (by omega)
    intro fds
    unfold pollLoop
    rw [if_pos hlt, if_neg hread]
    cases hentry : pollEntry enter (pollfdAt st.page j.toNat) with
    | none =>
      have hfds : fds = (pagePollfds st.page (j + 1).toNat n).filterMap (pollEntry enter) := by
        rw [hnext]
        exact List.filterMap_cons_none hentry
      dsimp only
      rw [ih (by omega) (by omega) (by omega) (by omega), hfds]
    | some p =>
      have hroom : ¬pageSize < pollTarget nfds + st.pos.toNat + 10 := by
        unfold pageSize
        omega
      have hpos' : (st.pos + 10).toNat = st.pos.toNat + 10 := by
        rw [UInt32.toNat_add]
        exact Nat.mod_eq_of_lt (show st.pos.toNat + 10 < 2 ^ 32 by omega)
      have hcount' : (st.count + 1).toNat = st.count.toNat + 1 := by
        rw [UInt64.toNat_add]
        exact Nat.mod_eq_of_lt (show st.count.toNat + 1 < 2 ^ 64 by omega)
      -- the array is in front of what is stored
      have harray : pagePollfds
          (st.page.write ⟨pollTarget nfds + st.pos.toNat, pairBytes p⟩) (j.toNat + 1) n =
            pagePollfds st.page (j.toNat + 1) n := by
        refine pagePollfds_congr fun i hi => Image.write_of_not_touches ?_
        rintro ⟨hlo, -⟩
        simp only at hlo
        omega
      have hfds : fds = p :: (pagePollfds st.page (j.toNat + 1) n).filterMap (pollEntry enter) :=
        List.filterMap_cons_some hentry
      dsimp only
      rw [if_neg hroom, ih (by omega) (by omega) (by simp only; omega) (by simp only; omega)]
      simp only
      rw [hnext, harray, hpos', hcount', hfds, List.flatMap_cons, ← Image.write_append,
        pairBytes_length, List.length_cons, Nat.add_assoc (pollTarget nfds)]
      congr 1
      · rw [Nat.add_assoc, Nat.add_comm 1]
      · rw [UInt32.add_assoc]
        congr 1
        rw [Nat.mul_add, Nat.add_comm _ (10 * 1), UInt32.ofNat_add]
        rfl

/-! ## The list that is pushed -/

/-- The user's entries that are to be listed. -/
def polled (s : Syscall) (enter : Bool) : List (Nat × Nat) :=
  (pollfds (s.arg 1).toNat (s.um.nodCopyFromUser (s.arg 0).toNat
    ((s.arg 1).toNat * 8 % 2 ^ 64)).1).filterMap (pollEntry enter)

/-- The check is passed by a count that the loop does not come to the end of, and the copy does
not stop it. -/
def PollWraps (s : Syscall) : Prop :=
  let got := s.um.nodCopyFromUser (s.arg 0).toNat ((s.arg 1).toNat * 8 % 2 ^ 64)
  2 ^ 32 ≤ (s.arg 1).toNat ∧ (8 * (s.arg 1).toNat + 2 + 10 * (s.arg 1).toNat) % 2 ^ 64 ≤ pageSize ∧
    (got.2 = 0 ∨ pageSize < got.1.length)

section Page

variable {s : Syscall} {enter : Bool}

/-- The capacity check, which wraps. -/
theorem pollCheck_iff (nfds : UInt64) : UInt64.ofNat pageSize < 8 * nfds + 2 + 10 * nfds ↔
    pageSize < (8 * nfds.toNat + 2 + 10 * nfds.toNat) % 2 ^ 64 := by
  rw [UInt64.lt_iff_toNat_lt, UInt64.toNat_add, UInt64.toNat_add, UInt64.toNat_mul,
    UInt64.toNat_mul]
  show pageSize < ((8 * nfds.toNat % 2 ^ 64 + 2) % 2 ^ 64 + 10 * nfds.toNat % 2 ^ 64) % 2 ^ 64 ↔ _
  rw [Nat.mod_add_mod (8 * nfds.toNat) (2 ^ 64) 2, ← Nat.add_mod]

/-- It does not wrap for a count of 32 bits. -/
theorem pollCheck_of_lt {n : Nat} (h : n < 2 ^ 32) :
    (8 * n + 2 + 10 * n) % 2 ^ 64 = 18 * n + 2 := by
  rw [Nat.mod_eq_of_lt (by omega)]
  omega

theorem pollCopy_toNat (nfds : UInt64) : (nfds * 8).toNat = nfds.toNat * 8 % 2 ^ 64 :=
  UInt64.toNat_mul ..

theorem pollPage_wraps (h : PollWraps s) (page : Image) :
    pollPage s.um (s.arg 0) (s.arg 1) enter page = .outside := by
  obtain ⟨hbig, hcheck, hcopy⟩ := h
  unfold pollPage
  dsimp only
  rw [if_neg fun h => Nat.not_lt.mpr hcheck ((pollCheck_iff _).mp h), pollCopy_toNat]
  by_cases hlong : pageSize <
      (s.um.nodCopyFromUser (s.arg 0).toNat ((s.arg 1).toNat * 8 % 2 ^ 64)).1.length
  · rw [if_pos hlong]
  rw [if_neg hlong, if_neg (not_not.mpr (hcopy.resolve_right hlong))]
  exact pollLoop_outside hbig rfl (Nat.zero_le _)

/-- A count that fits is pushed as a list. -/
theorem pollPage_pushed (hsmall : (s.arg 1).toNat ≤ 227)
    (hcopy : (s.um.nodCopyFromUser (s.arg 0).toNat ((s.arg 1).toNat * 8 % 2 ^ 64)).2 = 0)
    (page : Image) :
    ∃ page', pollPage s.um (s.arg 0) (s.arg 1) enter page =
        .pushed page' (UInt32.ofNat (fdlistBytes (polled s enter)).length) ∧
      page'.read (8 * (s.arg 1).toNat + 2) (fdlistBytes (polled s enter)).length =
        fdlistBytes (polled s enter) := by
  have hlen := s.um.nodCopyFromUser_length hcopy
  have hmod : (s.arg 1).toNat * 8 % 2 ^ 64 = 8 * (s.arg 1).toNat := by omega
  unfold pollPage
  dsimp only
  rw [if_neg (by rw [pollCheck_iff, pollCheck_of_lt (by omega)]; unfold pageSize; omega),
    pollCopy_toNat, if_neg (by unfold pageSize; omega), if_neg (not_not.mpr hcopy)]
  have hfds : (pagePollfds (page.write ⟨0, (s.um.nodCopyFromUser (s.arg 0).toNat
      ((s.arg 1).toNat * 8 % 2 ^ 64)).1⟩) 0 (s.arg 1).toNat).filterMap (pollEntry enter) =
        polled s enter := by
    have hself := Image.read_write_self page ⟨0, (s.um.nodCopyFromUser (s.arg 0).toNat
      ((s.arg 1).toNat * 8 % 2 ^ 64)).1⟩
    simp only [hlen] at hself
    rw [← pollfds_read, Nat.mul_zero, ← hmod, hself, polled]
  have hloop := @pollLoop_eq enter (s.arg 1) hsmall 513 (s.arg 1).toNat 0
    ⟨page.write ⟨0, (s.um.nodCopyFromUser (s.arg 0).toNat ((s.arg 1).toNat * 8 % 2 ^ 64)).1⟩, 2, 0⟩
    (Nat.zero_add _) (by omega) (Nat.le_refl 2) (Nat.le_refl 0)
  dsimp only at hloop
  have hlist : ∀ page : Image, (page.write ⟨pollTarget (s.arg 1) + 2,
      (polled s enter).flatMap pairBytes⟩).write
        ⟨pollTarget (s.arg 1), leBytes 2 (0 + (polled s enter).length)⟩ =
      page.write ⟨8 * (s.arg 1).toNat + 2, fdlistBytes (polled s enter)⟩ := by
    intro page
    have happend := Image.write_append_below page (pollTarget (s.arg 1))
      (leBytes 2 (polled s enter).length) ((polled s enter).flatMap pairBytes)
    rw [leBytes_length] at happend
    rw [Nat.zero_add, happend, pollTarget_eq hsmall]
    rfl
  have hpos : (2 : UInt32) + UInt32.ofNat (10 * (polled s enter).length) =
      UInt32.ofNat (fdlistBytes (polled s enter)).length := by
    rw [fdlistBytes, List.length_append, leBytes_length, flatMap_pairBytes_length,
      UInt32.ofNat_add]
    rfl
  have hzero : (0 : UInt32).toNat = 0 := rfl
  have htwo : (2 : UInt32).toNat = 2 := rfl
  have hnone : (0 : UInt64).toNat = 0 := rfl
  rw [hzero, hfds, htwo, hnone, hlist, hpos] at hloop
  exact ⟨_, hloop, Image.read_write_self _ ⟨_, _⟩⟩

/-- A copy that gets anywhere is one of user addresses. -/
theorem copied_le_limit {um : UserMem} {addr n : Nat} (h : (um.nodCopyFromUser addr n).2 = 0 ∨
    pageSize < (um.nodCopyFromUser addr n).1.length) : n ≤ um.limit := by
  unfold UserMem.nodCopyFromUser at h
  by_cases hok : um.accessOk addr n = true
  · have := of_decide_eq_true hok
    omega
  · rw [if_neg hok] at h
    rcases h with h | h
    · simp only at h
      omega
    · simp at h

/-- The counts that pass the check and are copied as few bytes. -/
theorem wraps_half {n : Nat} (hn : n < 2 ^ 64) (hbig : 2 ^ 32 ≤ n)
    (hcheck : (8 * n + 2 + 10 * n) % 2 ^ 64 ≤ pageSize) (hcopy : n * 8 % 2 ^ 64 ≤ 2 ^ 56) :
    ∃ k ≤ 227, n = 2 ^ 63 + k := by
  have hm := Nat.div_add_mod (8 * n + 2 + 10 * n) (2 ^ 64)
  have hq := Nat.div_add_mod (n * 8) (2 ^ 64)
  unfold pageSize at hcheck
  generalize (8 * n + 2 + 10 * n) / 2 ^ 64 = m at hm
  generalize n * 8 / 2 ^ 64 = q at hq
  generalize (8 * n + 2 + 10 * n) % 2 ^ 64 = r at hm hcheck
  generalize n * 8 % 2 ^ 64 = t at hq hcopy
  have hratio : 4 * m = 9 * q := by omega
  have hq4 : q = 4 := by omega
  exact ⟨n - 2 ^ 63, by omega, by omega⟩

/-- In an address space of less than 2⁵⁶ bytes the counts that wrap are those that fit, with 2⁶³
added. -/
theorem pollWraps_iff (hlimit : s.um.limit ≤ 2 ^ 56) : PollWraps s ↔ ∃ k ≤ 227,
    (s.arg 1).toNat = 2 ^ 63 + k ∧ (s.um.nodCopyFromUser (s.arg 0).toNat (8 * k)).2 = 0 := by
  unfold PollWraps
  dsimp only
  have hn := UInt64.toNat_lt (s.arg 1)
  generalize (s.arg 1).toNat = n at hn ⊢
  constructor
  · rintro ⟨hbig, hcheck, hcopy⟩
    have hshort := copied_le_limit hcopy
    obtain ⟨k, hk, rfl⟩ := wraps_half hn hbig hcheck (Nat.le_trans hshort hlimit)
    have hmod : (2 ^ 63 + k) * 8 % 2 ^ 64 = 8 * k := by omega
    rw [hmod] at hcopy
    refine ⟨k, hk, rfl, hcopy.resolve_right fun hlong => ?_⟩
    have hle := s.um.nodCopyFromUser_length_le (s.arg 0).toNat (8 * k)
    unfold pageSize at hlong
    omega
  · rintro ⟨k, hk, rfl, hcopy⟩
    have hmod : (2 ^ 63 + k) * 8 % 2 ^ 64 = 8 * k := by omega
    refine ⟨by omega, ?_, .inl (by rw [hmod]; exact hcopy)⟩
    have hcheck : (8 * (2 ^ 63 + k) + 2 + 10 * (2 ^ 63 + k)) % 2 ^ 64 = 18 * k + 2 := by omega
    rw [hcheck]
    unfold pageSize
    omega

/-- What `poll_parse_fds` does on the page, if the count passes the check. -/
theorem pollPage_cases (h : ¬PollWraps s) (enter : Bool) (page : Image) :
    (pollPage s.um (s.arg 0) (s.arg 1) enter page = .refused ∧
        pageSize < (8 * (s.arg 1).toNat + 2 + 10 * (s.arg 1).toNat) % 2 ^ 64) ∨
      (pollPage s.um (s.arg 0) (s.arg 1) enter page = .fault ∧
        (s.um.nodCopyFromUser (s.arg 0).toNat ((s.arg 1).toNat * 8 % 2 ^ 64)).2 ≠ 0) ∨
      ((s.arg 1).toNat ≤ 227 ∧
        (s.um.nodCopyFromUser (s.arg 0).toNat ((s.arg 1).toNat * 8 % 2 ^ 64)).2 = 0) := by
  by_cases hcheck : pageSize < (8 * (s.arg 1).toNat + 2 + 10 * (s.arg 1).toNat) % 2 ^ 64
  · exact .inl ⟨if_pos ((pollCheck_iff _).mpr hcheck), hcheck⟩
  refine .inr ?_
  by_cases hcopy : (s.um.nodCopyFromUser (s.arg 0).toNat ((s.arg 1).toNat * 8 % 2 ^ 64)).2 = 0
  · refine .inr ⟨?_, hcopy⟩
    have hlow : (s.arg 1).toNat < 2 ^ 32 :=
      Nat.lt_of_not_le fun hbig => h ⟨hbig, Nat.not_lt.mp hcheck, .inl hcopy⟩
    rw [pollCheck_of_lt hlow] at hcheck
    unfold pageSize at hcheck
    omega
  · refine .inl ⟨?_, hcopy⟩
    have hlong : ¬pageSize <
        (s.um.nodCopyFromUser (s.arg 0).toNat ((s.arg 1).toNat * 8 % 2 ^ 64)).1.length := by
      intro hlong
      have hle := s.um.nodCopyFromUser_length_le (s.arg 0).toNat ((s.arg 1).toNat * 8 % 2 ^ 64)
      have hlow : (s.arg 1).toNat < 2 ^ 32 :=
        Nat.lt_of_not_le fun hbig => h ⟨hbig, Nat.not_lt.mp hcheck, .inr hlong⟩
      rw [pollCheck_of_lt hlow] at hcheck
      unfold pageSize at hcheck hlong
      omega
    unfold pollPage
    dsimp only
    rw [if_neg fun h => hcheck ((pollCheck_iff _).mp h), pollCopy_toNat, if_neg hlong,
      if_pos hcopy]

/-- The value that is pushed for a list in the page. -/
def listValue (s : Syscall) (list : List UInt8) : Value :=
  { val := s.strStorage + UInt64.ofNat ((s.arg 1).toNat * 8 + 2)
    len := UInt32.ofNat list.length
    mem := list }

/-- The list does not begin at address zero. -/
theorem listValue_ne_zero (halign : s.strStorage.toNat % pageSize = 0)
    (hsmall : (s.arg 1).toNat ≤ 227) (list : List UInt8) : (listValue s list).val ≠ 0 := by
  intro hzero
  have hnat : (s.strStorage + UInt64.ofNat ((s.arg 1).toNat * 8 + 2)).toNat = 0 :=
    congrArg UInt64.toNat hzero
  rw [UInt64.toNat_add, UInt64.toNat_ofNat_of_lt' (show _ < 2 ^ 64 by omega)] at hnat
  unfold pageSize at halign
  omega

theorem fdlistBytes_length_le (s : Syscall) (enter : Bool) :
    (fdlistBytes (polled s enter)).length ≤ 2 + 10 * (s.arg 1).toNat := by
  have hcount : ∀ n bs, (pollfds n bs).length = n := by
    intro n
    induction n with
    | zero => exact fun _ => rfl
    | succ n ih => exact fun bs => congrArg Nat.succ (ih _)
  have hle := List.length_filterMap_le (pollEntry enter) (pollfds (s.arg 1).toNat
    (s.um.nodCopyFromUser (s.arg 0).toNat ((s.arg 1).toNat * 8 % 2 ^ 64)).1)
  rw [hcount] at hle
  rw [fdlistBytes, List.length_append, leBytes_length, flatMap_pairBytes_length]
  exact Nat.add_le_add_left (Nat.mul_le_mul_left 10 hle) 2

theorem pollParseFds_of_copy (ty : EventType) (enter : Bool) (hsmall : (s.arg 1).toNat ≤ 227)
    (hcopy : (s.um.nodCopyFromUser (s.arg 0).toNat ((s.arg 1).toNat * 8 % 2 ^ 64)).2 = 0) :
    ∃ w h w' h', (pollParseFds s enter : Filler ty) =
      store w h (store w' h' (pushLast (listValue s (fdlistBytes (polled s enter))))) := by
  have hlen := s.um.nodCopyFromUser_length hcopy
  have hlist := fdlistBytes_length_le s enter
  have hpage : pageSize = 4096 := rfl
  have hin : (⟨0, (s.um.nodCopyFromUser (s.arg 0).toNat
      ((s.arg 1).toNat * 8 % 2 ^ 64)).1⟩ : Write).stop ≤ pageSize := by
    simp only [Write.stop]
    omega
  have hin' : (⟨(s.arg 1).toNat * 8 + 2, fdlistBytes (polled s enter)⟩ : Write).stop ≤
      pageSize := by
    simp only [Write.stop]
    omega
  refine ⟨_, hin, _, hin', ?_⟩
  have hcheck : ¬pageSize < (8 * (s.arg 1).toNat + 2 + 10 * (s.arg 1).toNat) % 2 ^ 64 := by
    rw [pollCheck_of_lt (by omega)]
    omega
  unfold pollParseFds
  dsimp only
  rw [if_neg hcheck, if_neg (not_not.mpr hcopy), if_neg (by omega)]
  unfold scratch
  rw [dif_pos hin]
  exact congrArg _ (dif_pos hin')

/-- A filler that does not come to its push does not succeed. -/
theorem pollParseFds_not_success {ty : EventType} {enter : Bool} {a : RingArgs}
    (h : pageSize < (8 * (s.arg 1).toNat + 2 + 10 * (s.arg 1).toNat) % 2 ^ 64 ∨
      (s.um.nodCopyFromUser (s.arg 0).toNat ((s.arg 1).toNat * 8 % 2 ^ 64)).2 ≠ 0) :
    ((pollParseFds s enter : Filler ty).run s.um a).res ≠ some nodSuccess := by
  have hret : ∀ code : Int, code ≠ nodSuccess →
      ((ret code : Filler ty).run s.um a).res ≠ some nodSuccess :=
    fun code hcode hres => hcode (Option.some.inj hres)
  unfold pollParseFds
  dsimp only
  split
  · exact hret _ (by decide)
  · rename_i hcheck
    have hfault := h.resolve_left hcheck
    rw [if_pos hfault]
    unfold scratch
    split
    · exact hret _ (by decide)
    · exact fun hres => by cases hres

end Page

/-- The function ends, and keeps to the page. -/
def PollRun.Inside : PollRun → Prop
  | .outside | .endless => False
  | _ => True

/-- **Bounded and exact.**  On every page the function ends and keeps to it; what is pushed is
what it has built there; and if the push succeeds, the argument is the list of the user's
entries. -/
structure PollExact (s : Syscall) (enter : Bool) : Prop where
  inside : ∀ page, (pollPage s.um (s.arg 0) (s.arg 1) enter page).Inside
  pushed : ∀ ty page page' pos,
    pollPage s.um (s.arg 0) (s.arg 1) enter page = .pushed page' pos →
    (pollParseFds s enter : Filler ty).Puts 0
      (listValue s (page'.read ((s.arg 1).toNat * 8 + 2) pos.toNat))
  list : ∀ ty a bufferSize, ((gEventInfo ty).param a.curarg).type = .fdlist →
    RingArgs.Ready ty a bufferSize →
    ((pollParseFds s enter : Filler ty).run s.um a).res = some nodSuccess →
    ∀ img : Image, (img.writes ((pollParseFds s enter : Filler ty).run s.um a).out).read
      a.argDataOffset (((pollParseFds s enter : Filler ty).run s.um a).args.argDataOffset -
        a.argDataOffset) = fdlistBytes (polled s enter)

theorem PollWraps.not_exact {s : Syscall} (h : PollWraps s) (enter : Bool) :
    ¬PollExact s enter := by
  intro hexact
  have hin := hexact.inside fun _ => 0
  rw [pollPage_wraps h] at hin
  exact hin

/-- **When the lists of `poll` are bounded and exact**: unless the capacity check is passed by a
count from 2³² on. -/
theorem pollList_iff (s : Syscall) (enter : Bool) (halign : s.strStorage.toNat % pageSize = 0) :
    PollExact s enter ↔ ¬PollWraps s := by
  constructor
  · exact fun h hwraps => hwraps.not_exact enter h
  intro hnot
  refine ⟨fun page => ?_, fun ty page page' pos hpush => ?_, ?_⟩
  · rcases pollPage_cases hnot enter page with ⟨h, -⟩ | ⟨h, -⟩ | ⟨hsmall, hcopy⟩
    · rw [h]
      trivial
    · rw [h]
      trivial
    · obtain ⟨page', h, -⟩ := pollPage_pushed hsmall hcopy page
      rw [h]
      trivial
  · rcases pollPage_cases hnot enter page with ⟨h, -⟩ | ⟨h, -⟩ | ⟨hsmall, hcopy⟩
    · rw [h] at hpush
      cases hpush
    · rw [h] at hpush
      cases hpush
    · obtain ⟨page'', h, hread⟩ := pollPage_pushed hsmall hcopy page
      rw [h] at hpush
      cases hpush
      have hlist := fdlistBytes_length_le s enter
      obtain ⟨w, hw, w', hw', hfiller⟩ := pollParseFds_of_copy ty enter hsmall hcopy
      rw [UInt32.toNat_ofNat_of_lt' (show _ < 2 ^ 32 by omega), Nat.mul_comm, hread, hfiller]
      rfl
  · intro ty a bufferSize ht hready hres img
    rcases pollPage_cases hnot enter fun _ => 0 with ⟨-, h⟩ | ⟨-, h⟩ | ⟨hsmall, hcopy⟩
    · exact absurd hres (pollParseFds_not_success (.inl h))
    · exact absurd hres (pollParseFds_not_success (.inr h))
    obtain ⟨w, hw, w', hw', hfiller⟩ := pollParseFds_of_copy ty enter hsmall hcopy
    rw [hfiller] at hres ⊢
    have hlist := fdlistBytes_length_le s enter
    obtain ⟨hpush, hrun⟩ := run_pushLast hres
    have hmem : (listValue s (fdlistBytes (polled s enter))).len.toNat =
        (listValue s (fdlistBytes (polled s enter))).mem.length :=
      UInt32.toNat_ofNat_of_lt' (show _ < 2 ^ 32 by omega)
    have hdyn : ((gEventInfo ty).param a.curarg).type ≠ .dyn := by
      rw [ht]
      decide
    have hread := read_kernel (i := a.curarg) (fun max => by rw [ht]; rfl) hdyn
      (show a.argDataOffset + a.argDataSize < 2 ^ 32 by rw [hready.size]; exact hready.lt)
      hready.start (listValue_ne_zero halign hsmall _) rfl hmem hpush img
    show (img.writes ((pushLast _ : Filler ty).run s.um a).out).read _
      (((pushLast _ : Filler ty).run s.um a).args.argDataOffset - _) = _
    rw [hrun]
    exact hread

/-- `poll` with `nfds` in its register, where one entry is readable. -/
def pollCall (nfds : UInt64) : Syscall where
  arg i := if i = 0 then 0x1000 else if i = 1 then nfds else 0
  ret := 0
  nr := 7
  um := shortMem 8
  strStorage := 0xffff888000000000

theorem pollList_iff_one : PollExact (pollCall 1) true :=
  (pollList_iff (pollCall 1) true (by decide)).mpr fun h => absurd h.1 (by decide)

/-- **`poll` of one entry, with the top bit of the register set**: the check and the copy see one
entry, and the loop leaves the page. -/
theorem pollList_top_bit : ¬PollExact (pollCall 0x8000000000000001) true := by
  have hwraps : PollWraps (pollCall 0x8000000000000001) :=
    ⟨by decide, by decide, .inl (by decide +kernel)⟩
  exact hwraps.not_exact true

end NoDrop
