import NoDrop.FillersTable

/-! # The address of a bind

`f_sys_socket_bind` copies the user's address into a `struct sockaddr_storage` on its stack and
packs it from there.  The copy is as long as the user says, the fields that `pack_addr` reads are
where the family puts them: of an address that is too short for its family the rest comes from
the stack (`bindAddr_iff`).
-/
namespace NoDrop

open Bytes Filler

/-- The values that a filler pushes, if every push succeeds. -/
def Filler.values {ty : EventType} : Filler ty → List Value
  | ret _ => []
  | push v next => v :: next.values
  | pushAnyway v _ next => v :: next.values
  | store _ _ next => next.values
  | runaway => []

/-- The bytes of the address that `f_sys_socket_bind` pushes. -/
def boundAddr (k : Kernel) (s : Syscall) : List UInt8 :=
  (((usrAddr k s (s.arg 1) (s.arg 2)).map fun a => packAddr a.1 a.2).getD ([], [])).2

/-- The value that is pushed for an address of these bytes. -/
def addrValue (s : Syscall) (bytes : List UInt8) : Value :=
  { val := s.strStorage, len := UInt32.ofNat bytes.length, mem := bytes }

theorem values_scratches {ty : EventType} {ws : List Write} {next : Filler ty}
    (h : ∀ w ∈ ws, w.stop ≤ pageSize) : (scratches ws next).values = next.values := by
  induction ws with
  | nil => rfl
  | cons w ws ih =>
    show (scratch w (scratches ws next)).values = _
    rw [scratch, dif_pos (h w List.mem_cons_self)]
    exact ih fun w' hw' => h w' (List.mem_cons_of_mem _ hw')

/-- `strncpy` fills `UNIX_PATH_MAX` bytes. -/
theorem unixPath_length {path : List UInt8} (h : path.length ≤ unixPathMax) :
    (unixPath path).1.length = unixPathMax := by
  have hle := (List.takeWhile_prefix (fun b => decide (b ≠ 0)) (l := path)).length_le
  simp only [unixPath, List.length_append, List.length_replicate]
  omega

/-- The stores of `pack_addr` end in the page. -/
theorem packAddr_inside (a : Image) (ulen : UInt32) :
    ∀ w ∈ (packAddr a ulen).1, w.stop ≤ pageSize := by
  have hpath : (unixPath ((terminated a ulen).read 2 unixPathMax)).1.length = unixPathMax :=
    unixPath_length (Nat.le_of_eq (Image.read_length ..))
  intro w hw
  unfold packAddr at hw
  dsimp only at hw
  split at hw
  · obtain rfl := List.mem_singleton.mp hw
    simp [Write.stop, saIp, saPort, pageSize]
  split at hw
  · obtain rfl := List.mem_singleton.mp hw
    simp [Write.stop, saIp6, saPort, pageSize]
  split at hw
  · simp only [List.mem_cons, List.not_mem_nil, or_false] at hw
    rcases hw with rfl | rfl | rfl
    · simp [Write.stop, pageSize]
    · simp only [Write.stop, hpath]
      decide
    · simp [Write.stop, pageSize, unixPathMax]
  · cases hw

/-- `f_sys_socket_bind` pushes the result and the address. -/
theorem fSysSocketBind_values {ty : EventType} (k : Kernel) (s : Syscall)
    (plain : ∀ i, ((gEventInfo ty).param i).type ≠ .dyn) :
    (fSysSocketBind k s plain).filler.values = [.imm s.ret, addrValue s (boundAddr k s)] := by
  have hpacked : ∀ w ∈ (((usrAddr k s (s.arg 1) (s.arg 2)).map fun a =>
      packAddr a.1 a.2).getD ([], [])).1, w.stop ≤ pageSize := by
    cases usrAddr k s (s.arg 1) (s.arg 2) with
    | none => exact fun w hw => absurd hw List.not_mem_nil
    | some a => exact packAddr_inside a.1 a.2
  simp only [fSysSocketBind, CheckedFiller.filler_after, CheckedFiller.filler_asserts,
    CheckedFiller.filler, Filler.seq, done, if_true]
  show _ :: (scratches _ _).values = _
  rw [values_scratches hpacked]
  rfl

/-! ## What is copied -/

section Copied

variable {k : Kernel} {s : Syscall}

/-- The length of the address, as an `int`. -/
def addrLen (s : Syscall) : Nat := (s.arg 2).toUInt32.toNat

/-- The user's address is copied and packed. -/
def Packed (s : Syscall) : Prop :=
  s.arg 1 ≠ 0 ∧ s.arg 2 ≠ 0 ∧ addrLen s ≤ sockaddrStorageSize ∧
    (s.um.nodCopyFromUser (s.arg 1).toNat (addrLen s)).2 = 0

/-- The bytes that are copied. -/
def addrBytes (s : Syscall) : List UInt8 :=
  (s.um.nodCopyFromUser (s.arg 1).toNat (addrLen s)).1

theorem boundAddr_of_packed (h : Packed s) (k : Kernel) :
    boundAddr k s = (packAddr (k.stack.write ⟨0, addrBytes s⟩) (s.arg 2).toUInt32).2 := by
  obtain ⟨haddr, hval, hlen, hcopy⟩ := h
  have hkernel : addrToKernel s.um k.stack (s.arg 1) (s.arg 2).toUInt32 =
      some (k.stack.write ⟨0, addrBytes s⟩) := by
    unfold addrToKernel
    rw [if_neg (show ¬sockaddrStorageSize < (s.arg 2).toUInt32.toNat from Nat.not_lt.mpr hlen)]
    by_cases hzero : (s.arg 2).toUInt32 = 0
    · have hnone : addrBytes s = [] := by
        refine List.eq_nil_of_length_eq_zero (Nat.le_zero.mp ?_)
        have hlen : addrLen s = 0 := congrArg UInt32.toNat hzero
        have hle := s.um.nodCopyFromUser_length_le (s.arg 1).toNat (addrLen s)
        exact Nat.le_trans hle (Nat.le_of_eq hlen)
      rw [if_pos hzero, hnone, Image.write_nil]
    · rw [if_neg hzero]
      exact if_neg (not_not.mpr hcopy)
  rw [boundAddr, usrAddr, if_pos ⟨haddr, hval⟩, hkernel]
  rfl

theorem boundAddr_of_not_packed (h : ¬Packed s) (k : Kernel) : boundAddr k s = [] := by
  have hnone : usrAddr k s (s.arg 1) (s.arg 2) = none := by
    unfold usrAddr
    split
    · rename_i hgiven
      unfold addrToKernel
      split
      · rfl
      rename_i hlen
      split
      · rename_i hzero
        refine absurd ⟨hgiven.1, hgiven.2, Nat.not_lt.mp hlen, ?_⟩ h
        have hle := s.um.nodCopyFromUser_left_le (s.arg 1).toNat (addrLen s)
        rw [addrLen, hzero] at hle ⊢
        exact Nat.le_zero.mp hle
      split
      · rfl
      · rename_i hcopy
        exact absurd ⟨hgiven.1, hgiven.2, Nat.not_lt.mp hlen, not_not.mp hcopy⟩ h
    · rfl
  rw [boundAddr, hnone]
  rfl

end Copied

/-! ## Which bytes are read -/

section Read

variable {a a' : Image} {ulen : UInt32}

/-- A family below 256 is its first byte, with zero for the second. -/
theorem saFamily_eq_iff (a : Image) {c : UInt8} :
    saFamily a = c.toUInt16 ↔ a 0 = c ∧ a 1 = 0 := by
  have hfamily : (saFamily a).toNat = (a 0).toNat + 256 * (a 1).toNat := by
    have h0 := UInt8.toNat_lt (a 0)
    have h1 := UInt8.toNat_lt (a 1)
    have hbytes : leNat (((a.read 0 2).drop 0).take 2) = (a 0).toNat + 256 * (a 1).toNat := by
      show (a 0).toNat + 256 * ((a 1).toNat + 256 * 0) = _
      omega
    rw [saFamily, field16, hbytes]
    exact UInt16.toNat_ofNat_of_lt' (show _ < 2 ^ 16 by omega)
  have hc : c.toUInt16.toNat = c.toNat := UInt8.toNat_toUInt16 c
  rw [← UInt16.toNat_inj, hfamily, hc, ← UInt8.toNat_inj, ← UInt8.toNat_inj]
  have h0 := UInt8.toNat_lt (a 0)
  have hc := UInt8.toNat_lt c
  show _ ↔ _ ∧ (a 1).toNat = 0
  omega

theorem takeWhile_append_stop {p : UInt8 → Bool} {x : UInt8} (hx : p x = false)
    (l r : List UInt8) : (l ++ x :: r).takeWhile p = l.takeWhile p := by
  induction l with
  | nil => simp [hx]
  | cons y l ih =>
    cases hy : p y with
    | true => rw [List.cons_append, List.takeWhile_cons_of_pos hy, List.takeWhile_cons_of_pos hy, ih]
    | false =>
      have hy' : ¬p y = true := by
        rw [hy]
        decide
      rw [List.cons_append, List.takeWhile_cons_of_neg hy', List.takeWhile_cons_of_neg hy']

/-- A path only depends on the bytes up to its terminator. -/
theorem takeWhile_read_congr {n : Nat} (hn : 2 ≤ n) (h : ∀ i < n, a i = a' i) (ha : a n = 0)
    (ha' : a' n = 0) (m : Nat) :
    (a.read 2 m).takeWhile (· ≠ 0) = (a'.read 2 m).takeWhile (· ≠ 0) := by
  by_cases hm : m ≤ n - 2
  · rw [Image.read_congr fun i hi => h (2 + i) (by omega)]
  · obtain ⟨d, rfl⟩ : ∃ d, m = n - 2 + (1 + d) := ⟨m - (n - 2) - 1, by omega⟩
    have hn' : 2 + (n - 2) = n := by omega
    have hstop : ∀ b : Image, b n = 0 → (b.read 2 (n - 2 + (1 + d))).takeWhile (· ≠ 0) =
        (b.read 2 (n - 2)).takeWhile (· ≠ 0) := by
      intro b hb
      have hsplit : b.read n (1 + d) = 0 :: b.read (n + 1) d := by
        rw [Image.read_add, ← hb]
        rfl
      rw [Image.read_add, hn', hsplit]
      exact takeWhile_append_stop (by decide) _ _
    rw [hstop a ha, hstop a' ha', Image.read_congr fun i hi => h (2 + i) (by omega)]

/-- Where the terminator is put. -/
def terminator (ulen : UInt32) : Nat :=
  if ulen.toNat = sockaddrStorageSize then ulen.toNat - 1 else ulen.toNat

theorem terminator_le (ulen : UInt32) : terminator ulen ≤ ulen.toNat := by
  unfold terminator
  split
  · exact Nat.sub_le ..
  · exact Nat.le_refl _

theorem le_terminator (h : 2 ≤ ulen.toNat) : 2 ≤ terminator ulen := by
  unfold terminator sockaddrStorageSize
  split
  · omega
  · exact h

theorem terminated_self (a : Image) (ulen : UInt32) : terminated a ulen (terminator ulen) = 0 := by
  have ht : (⟨terminator ulen, [0]⟩ : Write).Touches (terminator ulen) :=
    ⟨Nat.le_refl _, Nat.lt_succ_self _⟩
  rw [terminated, ← terminator, Image.write_of_touches ht, Nat.sub_self]
  rfl

theorem terminated_of_lt {i : Nat} (h : i < terminator ulen) : terminated a ulen i = a i :=
  Image.write_of_not_touches fun ht => absurd ht.1 (Nat.not_le.mpr h)

/-- What `pack_addr` gives depends on the copied bytes only, if they hold the family and the
fields that the family has. -/
theorem packAddr_congr (h : ∀ i < ulen.toNat, a i = a' i) (h2 : 2 ≤ ulen.toNat)
    (hinet : saFamily a = afInet → 8 ≤ ulen.toNat)
    (hinet6 : saFamily a = afInet6 → 24 ≤ ulen.toNat) :
    (packAddr a ulen).2 = (packAddr a' ulen).2 := by
  have hread : ∀ off n, off + n ≤ ulen.toNat → a.read off n = a'.read off n :=
    fun off n hn => Image.read_congr fun i hi => h (off + i) (by omega)
  have hfamily : saFamily a' = saFamily a := by
    rw [saFamily, saFamily, hread 0 2 h2]
  unfold packAddr
  dsimp only
  rw [hfamily]
  by_cases h4 : saFamily a = afInet
  · have hlen := hinet h4
    rw [if_pos h4, if_pos h4, saIp, saIp, saPort, saPort, hread 4 4 (by omega),
      hread 2 2 (by omega)]
  rw [if_neg h4, if_neg h4]
  by_cases h6 : saFamily a = afInet6
  · have hlen := hinet6 h6
    rw [if_pos h6, if_pos h6, saIp6, saIp6, saPort, saPort, hread 8 16 (by omega),
      hread 2 2 (by omega)]
  rw [if_neg h6, if_neg h6]
  by_cases hun : saFamily a = afUnix
  · rw [if_pos hun, if_pos hun]
    have hpath : ((terminated a ulen).read 2 unixPathMax).takeWhile (· ≠ 0) =
        ((terminated a' ulen).read 2 unixPathMax).takeWhile (· ≠ 0) := by
      refine takeWhile_read_congr (n := terminator ulen) ?_ (fun i hi => ?_) ?_ ?_ _
      · exact le_terminator h2
      · have hlt := Nat.lt_of_lt_of_le hi (terminator_le ulen)
        rw [terminated_of_lt hi, terminated_of_lt hi, h i hlt]
      · exact terminated_self a ulen
      · exact terminated_self a' ulen
    simp only [unixPath, hpath]
  · rw [if_neg hun, if_neg hun]

/-- The families that `pack_addr` knows. -/
def KnownFamily (b : UInt8) : Prop := b = 1 ∨ b = 2 ∨ b = 10

instance knownFamily_decidable (b : UInt8) : Decidable (KnownFamily b) :=
  inferInstanceAs (Decidable (_ ∨ _))

theorem packAddr_of_unknown (h : ¬(KnownFamily (a 0) ∧ a 1 = 0)) (ulen : UInt32) :
    (packAddr a ulen).2 = [] := by
  have hne : ∀ c : UInt8, KnownFamily c → saFamily a ≠ c.toUInt16 := by
    intro c hc heq
    obtain ⟨h0, h1⟩ := (saFamily_eq_iff a).mp heq
    exact h ⟨h0 ▸ hc, h1⟩
  have hinet : ¬saFamily a = afInet := hne 2 (.inr (.inl rfl))
  have hinet6 : ¬saFamily a = afInet6 := hne 10 (.inr (.inr rfl))
  have hunix : ¬saFamily a = afUnix := hne 1 (.inl rfl)
  unfold packAddr
  dsimp only
  rw [if_neg hinet, if_neg hinet6, if_neg hunix]

theorem packAddr_of_known (h : KnownFamily (a 0)) (h1 : a 1 = 0) (ulen : UInt32) :
    (packAddr a ulen).2 ≠ [] := by
  have hfamily : saFamily a = (a 0).toUInt16 := (saFamily_eq_iff a).mpr ⟨rfl, h1⟩
  unfold packAddr
  dsimp only
  rw [hfamily]
  rcases h with h | h | h
  · rw [h, if_neg (by decide), if_neg (by decide), if_pos (by decide)]
    exact List.cons_ne_nil _ _
  · rw [h, if_pos (by decide)]
    exact List.cons_ne_nil _ _
  · rw [h, if_neg (by decide), if_pos (by decide)]
    exact List.cons_ne_nil _ _

/-- The last byte of an IPv4 address is packed. -/
theorem packAddr_inet (h : saFamily a = afInet) (h' : saFamily a' = afInet)
    (heq : (packAddr a ulen).2 = (packAddr a' ulen).2) : a 7 = a' 7 := by
  unfold packAddr at heq
  dsimp only at heq
  rw [if_pos h, if_pos h', h, h', List.append_assoc, List.append_assoc] at heq
  have hip := List.append_inj_left (List.append_cancel_left heq) (by simp [saIp])
  exact Image.apply_eq_of_read_eq hip (show 3 < 4 by decide)

/-- So is that of an IPv6 address. -/
theorem packAddr_inet6 (h : saFamily a = afInet6) (h' : saFamily a' = afInet6)
    (heq : (packAddr a ulen).2 = (packAddr a' ulen).2) : a 23 = a' 23 := by
  have hne : afInet6 ≠ afInet := by decide
  unfold packAddr at heq
  dsimp only at heq
  rw [h, h', if_neg hne, if_neg hne, if_pos rfl, if_pos rfl, List.append_assoc,
    List.append_assoc] at heq
  have hip := List.append_inj_left (List.append_cancel_left heq) (by simp [saIp6])
  exact Image.apply_eq_of_read_eq hip (show 15 < 16 by decide)

end Read

/-! ## The two runs -/

/-- What is pushed does not depend on what the stack held. -/
def BindIndependent (k : Kernel) (s : Syscall) : Prop :=
  ∀ stack stack', (fSysSocketBind { k with stack := stack } s socketBind_plain).filler.values =
    (fSysSocketBind { k with stack := stack' } s socketBind_plain).filler.values

/-- An address that is packed and too short for its family: no byte of it was copied (the
register is a multiple of 2³²), or one byte that a known family begins with, or less than the
fields of an IPv4 or IPv6 address. -/
def TooShort (s : Syscall) : Prop :=
  Packed s ∧
    (addrLen s = 0 ∨
      (addrLen s = 1 ∧ KnownFamily ((addrBytes s).getD 0 0)) ∨
      (2 ≤ addrLen s ∧
        ((field16 (addrBytes s) 0 = afInet ∧ addrLen s < 8) ∨
          (field16 (addrBytes s) 0 = afInet6 ∧ addrLen s < 24))))

section Runs

variable {s : Syscall}

theorem bindIndependent_iff_boundAddr {k : Kernel} :
    BindIndependent k s ↔ ∀ stack stack',
      boundAddr { k with stack := stack } s = boundAddr { k with stack := stack' } s := by
  constructor
  · intro h stack stack'
    have hvalues := h stack stack'
    rw [fSysSocketBind_values, fSysSocketBind_values] at hvalues
    have hlast := (List.cons.inj (List.cons.inj hvalues).2).1
    exact congrArg Value.mem hlast
  · intro h stack stack'
    rw [fSysSocketBind_values, fSysSocketBind_values, h stack stack']

/-- The address on the stack: the bytes copied, then what was there. -/
theorem onStack_of_lt (h : Packed s) (stack : Image) {i : Nat} (hi : i < addrLen s) :
    stack.write ⟨0, addrBytes s⟩ i = (addrBytes s).getD i 0 := by
  have hlen : (addrBytes s).length = addrLen s := s.um.nodCopyFromUser_length h.2.2.2
  refine Image.write_of_touches ⟨Nat.zero_le _, ?_⟩
  simp only [Write.stop]
  omega

theorem onStack_of_le (stack : Image) {i : Nat} (hi : addrLen s ≤ i) :
    stack.write ⟨0, addrBytes s⟩ i = stack i := by
  have hle : (addrBytes s).length ≤ addrLen s := s.um.nodCopyFromUser_length_le ..
  refine Image.write_of_not_touches fun ht => ?_
  have hlt := ht.2
  simp only [Write.stop] at hlt
  omega

theorem saFamily_onStack (h : Packed s) (h2 : 2 ≤ addrLen s) (stack : Image) :
    saFamily (stack.write ⟨0, addrBytes s⟩) = field16 (addrBytes s) 0 := by
  have hlen : (addrBytes s).length = addrLen s := s.um.nodCopyFromUser_length h.2.2.2
  have hself := Image.read_write_self stack ⟨0, addrBytes s⟩
  simp only [hlen] at hself
  have htake : (addrBytes s).take 2 = (stack.write ⟨0, addrBytes s⟩).read 0 2 := by
    rw [← Image.take_read _ 0 h2, hself]
  rw [saFamily, field16, field16, List.drop_zero, List.drop_zero, htake,
    Image.take_read _ _ (Nat.le_refl 2)]

/-- Memory of zeros, of ones, and a stack that looks like an IPv4 address. -/
def zeros : Image := fun _ => 0
def ones : Image := fun _ => 1
def inetStack : Image := fun i => if i = 0 then 2 else 0

/-- An address that is long enough for its family is packed the same over every stack. -/
theorem packAddr_onStack (h : Packed s) (hnot : ¬TooShort s) (stack stack' : Image) :
    (packAddr (stack.write ⟨0, addrBytes s⟩) (s.arg 2).toUInt32).2 =
      (packAddr (stack'.write ⟨0, addrBytes s⟩) (s.arg 2).toUInt32).2 := by
  have hlen : (s.arg 2).toUInt32.toNat = addrLen s := rfl
  rcases Nat.lt_or_ge (addrLen s) 2 with hlt | h2
  · -- one byte, which no known family begins with
    have hone : addrLen s = 1 := by
      by_contra hne
      exact hnot ⟨h, .inl (by omega)⟩
    have hunknown : ∀ stack : Image,
        (packAddr (stack.write ⟨0, addrBytes s⟩) (s.arg 2).toUInt32).2 = [] := by
      intro stack
      refine packAddr_of_unknown (fun hknown => hnot ⟨h, .inr (.inl ⟨hone, ?_⟩)⟩) _
      rw [← onStack_of_lt h stack (show 0 < addrLen s by omega)]
      exact hknown.1
    rw [hunknown, hunknown]
  · refine packAddr_congr (fun i hi => ?_) h2 (fun hf => ?_) fun hf => ?_
    · rw [onStack_of_lt h stack hi, onStack_of_lt h stack' hi]
    · rw [saFamily_onStack h h2] at hf
      by_contra hshort
      exact hnot ⟨h, .inr (.inr ⟨h2, .inl ⟨hf, by omega⟩⟩)⟩
    · rw [saFamily_onStack h h2] at hf
      by_contra hshort
      exact hnot ⟨h, .inr (.inr ⟨h2, .inr ⟨hf, by omega⟩⟩)⟩

/-- Of an address that is too short, two stacks give different bytes. -/
theorem TooShort.differ (h : TooShort s) : ∃ stack stack' : Image,
    (packAddr (stack.write ⟨0, addrBytes s⟩) (s.arg 2).toUInt32).2 ≠
      (packAddr (stack'.write ⟨0, addrBytes s⟩) (s.arg 2).toUInt32).2 := by
  obtain ⟨hp, hnone | ⟨hone, hfirst⟩ | ⟨h2, ⟨hf, hshort⟩ | ⟨hf, hshort⟩⟩⟩ := h
  · -- the family itself is from the stack
    refine ⟨inetStack, zeros, ?_⟩
    have hat : ∀ stack : Image, ∀ i, stack.write ⟨0, addrBytes s⟩ i = stack i :=
      fun stack i => onStack_of_le stack (by omega)
    have hzero : ¬KnownFamily (zeros.write ⟨0, addrBytes s⟩ 0) := by
      rw [hat]
      decide
    rw [packAddr_of_unknown (a := zeros.write _) fun h => hzero h.1]
    exact packAddr_of_known (by rw [hat]; decide) (by rw [hat]; rfl) _
  · refine ⟨zeros, ones, ?_⟩
    have hat : ∀ stack : Image, stack.write ⟨0, addrBytes s⟩ 1 = stack 1 :=
      fun stack => onStack_of_le stack (by omega)
    have hhigh : ones.write ⟨0, addrBytes s⟩ 1 ≠ 0 := by
      rw [hat]
      decide
    rw [packAddr_of_unknown (a := ones.write _) fun h => hhigh h.2]
    refine packAddr_of_known ?_ (by rw [hat]; rfl) _
    rw [onStack_of_lt hp zeros (by omega)]
    exact hfirst
  · refine ⟨zeros, ones, fun heq => ?_⟩
    have hbyte := packAddr_inet ((saFamily_onStack hp h2 _).trans hf)
      ((saFamily_onStack hp h2 _).trans hf) heq
    rw [onStack_of_le zeros (by omega), onStack_of_le ones (by omega)] at hbyte
    exact absurd hbyte (by decide)
  · refine ⟨zeros, ones, fun heq => ?_⟩
    have hbyte := packAddr_inet6 ((saFamily_onStack hp h2 _).trans hf)
      ((saFamily_onStack hp h2 _).trans hf) heq
    rw [onStack_of_le zeros (by omega), onStack_of_le ones (by omega)] at hbyte
    exact absurd hbyte (by decide)

end Runs

theorem TooShort.not_independent {s : Syscall} (h : TooShort s) (k : Kernel) :
    ¬BindIndependent k s := by
  intro hsame
  obtain ⟨stack, stack', hdiffer⟩ := h.differ
  have heq := bindIndependent_iff_boundAddr.mp hsame stack stack'
  rw [boundAddr_of_packed h.1, boundAddr_of_packed h.1] at heq
  exact hdiffer heq

/-- **When the address of a `bind` does not depend on the stack**: unless it is packed and too
short for its family. -/
theorem bindAddr_iff (k : Kernel) (s : Syscall) : BindIndependent k s ↔ ¬TooShort s := by
  constructor
  · exact fun h hshort => hshort.not_independent k h
  · rw [bindIndependent_iff_boundAddr]
    intro hnot stack stack'
    by_cases hp : Packed s
    · rw [boundAddr_of_packed hp, boundAddr_of_packed hp]
      exact packAddr_onStack hp hnot stack stack'
    · rw [boundAddr_of_not_packed hp, boundAddr_of_not_packed hp]

/-- `bind(0, addr, len)` of an IPv4 address of which the first bytes are given. -/
def bindCall (len : UInt64) : Syscall where
  arg i := if i = 1 then 0x1000 else if i = 2 then len else 0
  ret := 0
  nr := 49
  um := ⟨fun x => if x = 0x1000 then some 2 else some 0, 0x10000, fun _ _ => 0⟩
  strStorage := 0xffff888000000000

/-- **`bind` with four bytes of an IPv4 address**: its four bytes of address are the kernel's. -/
theorem bindAddr_four : ¬BindIndependent Kernel.idle (bindCall 4) := by
  have hshort : TooShort (bindCall 4) :=
    ⟨⟨by decide, by decide, by decide, by decide +kernel⟩,
      .inr (.inr ⟨by decide, .inl ⟨by decide +kernel, by decide⟩⟩)⟩
  exact hshort.not_independent Kernel.idle

end NoDrop
