import NoDrop.Kernel

/-! # Strings in user memory

What `nod_strncpy_from_user` and `accumulate_argv_or_env` are for, in terms of single bytes: a
string is what comes before the first zero (`StrAt`), and an argument vector is an array of pointers
to strings that ends with a null pointer (`ArgsAt`).

The copy reads four bytes at a time, also where the string ends after the first of them.  If one of
the bytes behind the terminator cannot be read, the string is refused (`copiesString_iff`): all
strings that it returns are right, but it does not return all that it could.  The vector is put
together from such copies, so a vector that is returned is complete
(`accumulateArgvOrEnv_complete`).
-/
namespace NoDrop

open Bytes

namespace UserMem

variable (um : UserMem)

/-- The byte at an address that user space has and that can be read. -/
def userByte (a : Nat) : Option UInt8 := if a < um.limit then um.byte a else none

/-- The `n` bytes at `a` can be read. -/
def CanRead (a n : Nat) : Prop := ∀ i < n, ∃ b, um.userByte (a + i) = some b

/-- **The string at `a` has `k` bytes**, its terminator is the first zero, and all of it can be
read. -/
structure StrAt (a k : Nat) : Prop where
  bytes : ∀ i < k, ∃ b, um.userByte (a + i) = some b ∧ b ≠ 0
  term : um.userByte (a + k) = some 0

/-- The bytes that the chunks up to the terminator have. -/
def chunkEnd (k n : Nat) : Nat := min (k / 4 * 4 + 4) n

/-- **The string at `a` is copied as if byte by byte**, within `n` bytes: its length with the
terminator is returned, and the bytes are stored, exactly if it is one. -/
structure CopiesString (a n : Nat) : Prop where
  copied : ∀ k, ((um.nodStrncpyFromUser a n).2 = ((k + 1 : Nat) : Int) ∧
      ∀ i ≤ k, ∃ b, um.userByte (a + i) = some b ∧ (um.nodStrncpyFromUser a n).1[i]? = some b) ↔
    um.StrAt a k ∧ k < n
  failed : (∀ k < n, ¬ um.StrAt a k) → (um.nodStrncpyFromUser a n).2 = -1
  room : (um.nodStrncpyFromUser a n).1.length ≤ n

variable {um} {a c k m n i : Nat}

/-! ## Bytes that can be read -/

theorem userByte_eq_some {b : UInt8} :
    um.userByte a = some b ↔ a < um.limit ∧ um.byte a = some b := by
  unfold userByte
  split
  · rename_i h
    exact ⟨fun hb => ⟨h, hb⟩, And.right⟩
  · rename_i h
    exact ⟨fun hb => (by cases hb), fun hb => absurd hb.1 h⟩

theorem CanRead.mono (h : um.CanRead a n) (hm : m ≤ n) : um.CanRead a m := fun i hi =>
  h i (Nat.lt_of_lt_of_le hi hm)

theorem canRead_add_iff : um.CanRead a (m + n) ↔ um.CanRead a m ∧ um.CanRead (a + m) n := by
  constructor
  · intro h
    refine ⟨h.mono (Nat.le_add_right m n), fun i hi => ?_⟩
    rw [Nat.add_assoc]
    exact h (m + i) (Nat.add_lt_add_left hi m)
  · rintro ⟨h₁, h₂⟩ i hi
    by_cases him : i < m
    · exact h₁ i him
    · have hb := h₂ (i - m) (by omega)
      rw [Nat.add_assoc, Nat.add_sub_of_le (Nat.le_of_not_lt him)] at hb
      exact hb

/-- What `readable` holds. -/
theorem CanRead.getElem? (h : um.CanRead a n) (hi : i < n) :
    (um.readable a n)[i]? = um.userByte (a + i) := by
  induction n generalizing a i with
  | zero => exact absurd hi (Nat.not_lt_zero i)
  | succ n ih =>
    obtain ⟨b, hb⟩ := h 0 (Nat.zero_lt_succ n)
    have hbyte := (userByte_eq_some.mp hb).2
    rw [Nat.add_zero] at hb hbyte
    simp only [readable, hbyte]
    cases i with
    | zero => exact hb.symm
    | succ i =>
      have hrest : um.CanRead (a + 1) n := by
        intro j hj
        rw [Nat.add_assoc, Nat.add_comm 1 j]
        exact h (j + 1) (Nat.succ_lt_succ hj)
      rw [List.getElem?_cons_succ, ih hrest (Nat.lt_of_succ_lt_succ hi), Nat.add_assoc,
        Nat.add_comm 1 i]

theorem length_readable : um.CanRead a n → (um.readable a n).length = n := by
  intro h
  induction n generalizing a with
  | zero => rfl
  | succ n ih =>
    obtain ⟨⟨b, hb⟩, hrest⟩ : (∃ b, um.userByte a = some b) ∧ um.CanRead (a + 1) n := by
      rw [Nat.add_comm n 1, canRead_add_iff] at h
      exact ⟨h.1 0 Nat.one_pos, h.2⟩
    simp only [readable, (userByte_eq_some.mp hb).2, List.length_cons, ih hrest]

/-- A copy is made if all bytes can be read. -/
theorem canRead_iff (hn : n ≠ 0) :
    um.CanRead a n ↔ um.accessOk a n = true ∧ (um.readable a n).length = n := by
  rw [accessOk, decide_eq_true_eq]
  constructor
  · intro h
    obtain ⟨b, hb⟩ := h (n - 1) (by omega)
    have hlast := (userByte_eq_some.mp hb).1
    exact ⟨by omega, length_readable h⟩
  · rintro ⟨hlimit, hlen⟩ i hi
    have hread := um.readable_length_of_le hlen (show i + 1 ≤ n by omega)
    rw [um.readable_add (um.readable_length_of_le hlen hi.le) 1, List.length_append,
      um.readable_length_of_le hlen hi.le] at hread
    cases hb : um.byte (a + i) with
    | none => simp [readable, hb] at hread
    | some b => exact ⟨b, userByte_eq_some.mpr ⟨by omega, hb⟩⟩

theorem StrAt.canRead (h : um.StrAt a k) : um.CanRead a (k + 1) := by
  intro i hi
  rcases Nat.lt_succ_iff_lt_or_eq.mp hi with hlt | rfl
  · obtain ⟨b, hb, -⟩ := h.bytes i hlt
    exact ⟨b, hb⟩
  · exact ⟨0, h.term⟩

/-- A string has one length. -/
theorem StrAt.unique (h : um.StrAt a k) (h' : um.StrAt a m) : k = m := by
  have hle : ∀ {k m}, um.StrAt a k → um.StrAt a m → m ≤ k := by
    intro k m h h'
    by_contra hlt
    obtain ⟨b, hb, hne⟩ := h'.bytes k (Nat.lt_of_not_le hlt)
    rw [h.term] at hb
    exact hne (Option.some.inj hb).symm
  exact Nat.le_antisymm (hle h' h) (hle h h')

/-- A string without its first bytes. -/
theorem strAt_add (h : ∀ i < c, ∃ b, um.userByte (a + i) = some b ∧ b ≠ 0) :
    um.StrAt (a + c) k ↔ um.StrAt a (c + k) := by
  constructor
  · intro hs
    refine ⟨fun i hi => ?_, ?_⟩
    · by_cases hic : i < c
      · exact h i hic
      · have hb := hs.bytes (i - c) (by omega)
        rw [Nat.add_assoc, Nat.add_sub_of_le (Nat.le_of_not_lt hic)] at hb
        exact hb
    · rw [← Nat.add_assoc]
      exact hs.term
  · intro hs
    refine ⟨fun i hi => ?_, ?_⟩
    · rw [Nat.add_assoc]
      exact hs.bytes (c + i) (Nat.add_lt_add_left hi c)
    · rw [Nat.add_assoc]
      exact hs.term

/-- **The search for the terminator in a chunk.** -/
theorem findIdx?_eq_some_iff (h : um.CanRead a n) :
    (um.readable a n).findIdx? (· = 0) = some k ↔ k < n ∧ um.StrAt a k := by
  have hlen := length_readable h
  rw [List.findIdx?_eq_some_iff_getElem]
  constructor
  · rintro ⟨hlt, hzero, hbefore⟩
    have hget : ∀ i (hi : i < (um.readable a n).length),
        um.userByte (a + i) = some (um.readable a n)[i] := fun i hi => by
      rw [← h.getElem? (hlen ▸ hi), List.getElem?_eq_getElem hi]
    refine ⟨hlen ▸ hlt, fun i hi => ⟨_, hget i (by omega), ?_⟩, ?_⟩
    · simpa using hbefore i hi
    · rw [hget k hlt, of_decide_eq_true hzero]
  · rintro ⟨hlt, hs⟩
    have hget : ∀ {i b} (hi : i < (um.readable a n).length),
        um.userByte (a + i) = some b → (um.readable a n)[i] = b := fun {i b} hi hb => by
      rw [← h.getElem? (hlen ▸ hi), List.getElem?_eq_getElem hi] at hb
      exact Option.some.inj hb
    refine ⟨hlen.symm ▸ hlt, ?_, fun i hi => ?_⟩
    · rw [hget _ hs.term]
      rfl
    · obtain ⟨b, hb, hne⟩ := hs.bytes i hi
      rw [hget _ hb]
      simpa using hne

theorem findIdx?_eq_none_iff (h : um.CanRead a n) :
    (um.readable a n).findIdx? (· = 0) = none ↔
      ∀ i < n, ∃ b, um.userByte (a + i) = some b ∧ b ≠ 0 := by
  have hlen := length_readable h
  rw [List.findIdx?_eq_none_iff]
  constructor
  · intro hnone i hi
    obtain ⟨b, hb⟩ := h i hi
    refine ⟨b, hb, ?_⟩
    rw [← h.getElem? hi] at hb
    simpa using hnone b (List.mem_of_getElem? hb)
  · intro hall x hx
    obtain ⟨i, hi⟩ := List.getElem?_of_mem hx
    have hin : i < n := by
      have := (List.getElem?_eq_some_iff.mp hi).1
      omega
    obtain ⟨b, hb, hne⟩ := hall i hin
    rw [← h.getElem? hin, hi] at hb
    simpa [Option.some.inj hb] using hne

/-! ## The copy -/

/-- A chunk that cannot be read ends the copy. -/
theorem strncpyLoop_of_not_readable (fuel len : Nat) (hn : n ≠ 0)
    (h : ¬ um.CanRead a (min 4 n)) : (um.strncpyLoop (fuel + 1) a n len).2 = -1 := by
  rcases um.strncpyLoop_cases fuel a n len hn with ⟨bs, he, -⟩ | ⟨hl, hok, -⟩
  · rw [he]
  · exact absurd ((canRead_iff (by omega)).mpr ⟨hok, hl⟩) h

/-- **What is returned is the length of a string.**  The induction is on the chunks. -/
theorem strncpyLoop_sound (fuel len : Nat) {a n k : Nat}
    (h : (um.strncpyLoop fuel a n len).2 = ((len + k + 1 : Nat) : Int)) :
    um.StrAt a k ∧ k < n := by
  induction fuel generalizing a n len k with
  | zero =>
    simp only [strncpyLoop] at h
    omega
  | succ fuel ih =>
    by_cases hn : n = 0
    · simp only [strncpyLoop, hn, if_true] at h
      omega
    by_cases hread : um.CanRead a (min 4 n)
    · obtain ⟨hok, hl⟩ := (canRead_iff (by omega)).mp hread
      rw [um.strncpyLoop_of_readable fuel len hn hok hl] at h
      cases hidx : (um.readable a (min 4 n)).findIdx? (· = 0) with
      | some j =>
        obtain ⟨hj, hs⟩ := (findIdx?_eq_some_iff hread).mp hidx
        rw [hidx] at h
        obtain rfl : k = j := by
          simp only at h
          omega
        exact ⟨hs, by omega⟩
      | none =>
        rw [hidx] at h
        simp only at h
        -- the length counts the bytes of this chunk
        have hlen : min 4 n ≤ k := by
          rcases um.strncpyLoop_spec fuel (a + min 4 n) (n - min 4 n) (len + min 4 n) with
            ⟨-, hfail | ⟨j, hj, hpos, -⟩⟩
          · rw [hfail] at h
            omega
          · rw [hj] at h
            omega
        obtain ⟨j, rfl⟩ := Nat.exists_eq_add_of_le hlen
        obtain ⟨hs, hj⟩ := ih (len + min 4 n) (k := j) (by rw [h]; congr 1; omega)
        exact ⟨(strAt_add ((findIdx?_eq_none_iff hread).mp hidx)).mp hs, by omega⟩
    · rw [strncpyLoop_of_not_readable fuel len hn hread] at h
      omega

/-- **A string is returned if all chunks up to its terminator can be read**, and refused
otherwise. -/
theorem strncpyLoop_of_strAt (len : Nat) {fuel a n k : Nat} (hf : n ≤ fuel) (hs : um.StrAt a k)
    (hk : k < n) :
    (um.CanRead a (chunkEnd k n) →
      (um.strncpyLoop fuel a n len).2 = ((len + k + 1 : Nat) : Int)) ∧
    (¬ um.CanRead a (chunkEnd k n) → (um.strncpyLoop fuel a n len).2 = -1) := by
  induction fuel generalizing a n len k with
  | zero => omega
  | succ fuel ih =>
    have hn : n ≠ 0 := by omega
    by_cases hread : um.CanRead a (min 4 n)
    · obtain ⟨hok, hl⟩ := (canRead_iff (by omega)).mp hread
      rw [um.strncpyLoop_of_readable fuel len hn hok hl]
      by_cases hlast : k < min 4 n
      · have hend : chunkEnd k n = min 4 n := by
          rw [chunkEnd]
          omega
        rw [(findIdx?_eq_some_iff hread).mpr ⟨hlast, hs⟩, hend]
        exact ⟨fun _ => rfl, fun hc => absurd hread hc⟩
      · have hchunk : min 4 n = 4 := by omega
        rw [hchunk] at hread hlast ⊢
        have hbytes : ∀ i < 4, ∃ b, um.userByte (a + i) = some b ∧ b ≠ 0 := fun i hi =>
          hs.bytes i (by omega)
        obtain ⟨j, rfl⟩ := Nat.exists_eq_add_of_le (Nat.le_of_not_lt hlast)
        have hend : chunkEnd (4 + j) n = 4 + chunkEnd j (n - 4) := by
          rw [chunkEnd, chunkEnd]
          omega
        rw [(findIdx?_eq_none_iff hread).mpr hbytes, hend, canRead_add_iff, and_iff_right hread]
        simp only
        have hrest := ih (len + 4) (n := n - 4) (by omega) ((strAt_add hbytes).mpr hs) (by omega)
        rw [← Nat.add_assoc]
        exact hrest
    · rw [strncpyLoop_of_not_readable fuel len hn hread]
      refine ⟨fun hc => absurd (hc.mono ?_) hread, fun _ => rfl⟩
      rw [chunkEnd]
      omega

theorem nodStrncpyFromUser_sound (h : (um.nodStrncpyFromUser a n).2 = ((k + 1 : Nat) : Int)) :
    um.StrAt a k ∧ k < n := by
  refine strncpyLoop_sound n 0 ?_
  rw [Nat.zero_add]
  exact h

theorem nodStrncpyFromUser_of_strAt (hs : um.StrAt a k) (hk : k < n) :
    (um.CanRead a (chunkEnd k n) → (um.nodStrncpyFromUser a n).2 = ((k + 1 : Nat) : Int)) ∧
    (¬ um.CanRead a (chunkEnd k n) → (um.nodStrncpyFromUser a n).2 = -1) := by
  have hres := strncpyLoop_of_strAt 0 (Nat.le_refl n) hs hk
  rw [Nat.zero_add] at hres
  exact hres

/-- The bytes that are stored are the user's. -/
theorem nodStrncpyFromUser_stored (h : (um.nodStrncpyFromUser a n).2 = ((k + 1 : Nat) : Int))
    (hs : um.StrAt a k) (hi : i ≤ k) :
    ∃ b, um.userByte (a + i) = some b ∧ (um.nodStrncpyFromUser a n).1[i]? = some b := by
  obtain ⟨b, hb⟩ := hs.canRead i (Nat.lt_succ_of_le hi)
  refine ⟨b, hb, ?_⟩
  have htake := um.nodStrncpyFromUser_take h
  rw [← hb, ← hs.canRead.getElem? (Nat.lt_succ_of_le hi), ← htake,
    List.getElem?_take_of_lt (Nat.lt_succ_of_le hi)]

/-- **The string copy is the copy byte by byte exactly if no string within the limit has a byte that
cannot be read in the chunk of its terminator.** -/
theorem copiesString_iff (um : UserMem) (a n : Nat) : um.CopiesString a n ↔
    ∀ k < n, um.StrAt a k → um.CanRead a (chunkEnd k n) := by
  constructor
  · intro hc k hk hs
    by_contra hread
    have hcopied := ((hc.copied k).mpr ⟨hs, hk⟩).1
    rw [(nodStrncpyFromUser_of_strAt hs hk).2 hread] at hcopied
    omega
  · intro hread
    refine ⟨fun k => ⟨fun hk => nodStrncpyFromUser_sound hk.1, fun hk => ?_⟩, fun hnone => ?_,
      um.nodStrncpyFromUser_length_le a n⟩
    · have hres := (nodStrncpyFromUser_of_strAt hk.1 hk.2).1 (hread k hk.2 hk.1)
      exact ⟨hres, fun i hi => nodStrncpyFromUser_stored hres hk.1 hi⟩
    · rcases um.nodStrncpyFromUser_result a n with hfail | ⟨k, hk, hpos, -⟩
      · exact hfail
      · obtain ⟨j, rfl⟩ := Nat.exists_eq_add_of_le' hpos
        obtain ⟨hs, hj⟩ := nodStrncpyFromUser_sound hk
        exact absurd hs (hnone j hj)

/-- Two pages, the second of which ends with the string "a", and nothing behind them. -/
def lastPage : UserMem where
  byte a := if a < 8192 then some (if a % 4096 = 4094 then 0x61 else 0) else none
  limit := 2 ^ 47
  fault _ _ := 0

/-- The string "a" at the end of the page is refused, though all of it can be read. -/
theorem copiesString_lastPage : lastPage.StrAt 8190 1 ∧
    (lastPage.nodStrncpyFromUser 8190 256).2 = -1 ∧ ¬ lastPage.CopiesString 8190 256 := by
  have hs : lastPage.StrAt 8190 1 := by
    refine ⟨fun i hi => ⟨0x61, ?_, by decide⟩, by decide⟩
    obtain rfl : i = 0 := Nat.lt_one_iff.mp hi
    decide
  have hres : (lastPage.nodStrncpyFromUser 8190 256).2 = -1 := by decide +kernel
  refine ⟨hs, hres, fun hc => ?_⟩
  have hcopied := ((hc.copied 1).mpr ⟨hs, by decide⟩).1
  rw [hres] at hcopied
  exact absurd hcopied (by decide)

/-! ## Argument vectors -/

/-- The word at `a` can be read, and is `v`. -/
def WordAt (um : UserMem) (a v : Nat) : Prop :=
  um.CanRead a 8 ∧ leNat (um.readable a 8) = v

/-- **The array at `a` points to these strings**, and a null pointer ends it. -/
inductive ArgsAt (um : UserMem) : Nat → List (List UInt8) → Prop
  | nil {a : Nat} (hw : um.WordAt a 0) : ArgsAt um a []
  | cons {a p k : Nat} {strs : List (List UInt8)} (hw : um.WordAt a p) (hp : p ≠ 0)
      (hs : um.StrAt p k) (hrest : ArgsAt um (a + 8) strs) : ArgsAt um a (um.readable p k :: strs)

/-- The strings of a vector.  A null pointer is a vector without any. -/
def ArgVector (um : UserMem) (argv : UInt64) (strs : List (List UInt8)) : Prop :=
  if argv = 0 then strs = [] else um.ArgsAt argv.toNat strs

theorem nodCopyFromUser_word (h : (um.nodCopyFromUser a 8).2 = 0) :
    um.WordAt a (leNat (um.nodCopyFromUser a 8).1) := by
  have hok : um.accessOk a 8 = true := by
    by_contra hc
    rw [nodCopyFromUser, if_neg hc] at h
    exact absurd h (by decide)
  rw [nodCopyFromUser, if_pos hok] at h ⊢
  have hlen := um.copyFromUserInatomic_length h
  rw [um.copyFromUserInatomic_eq h] at hlen ⊢
  exact ⟨(canRead_iff (by decide)).mpr ⟨hok, hlen⟩, rfl⟩

/-- **A string that is copied**, with its terminator. -/
theorem nodStrncpyFromUser_string {copied : List UInt8 × Int}
    (hcopied : copied = um.nodStrncpyFromUser a n) (hneg : ¬ copied.2 - 1 < 0) :
    ∃ k, um.StrAt a k ∧ k < n ∧ copied.2.toNat = k + 1 ∧ (um.readable a k).length = k ∧
      copied.1.take (k + 1) = um.readable a k ++ [0] := by
  subst hcopied
  rcases um.nodStrncpyFromUser_result a n with hfail | ⟨j, hj, hpos, -⟩
  · rw [hfail] at hneg
    exact absurd (by decide) hneg
  · obtain ⟨k, rfl⟩ := Nat.exists_eq_add_of_le' hpos
    obtain ⟨hs, hk⟩ := nodStrncpyFromUser_sound hj
    have hread := hs.canRead.mono (Nat.le_succ k)
    have hterm : um.readable (a + k) 1 = [0] := by
      simp only [readable, (userByte_eq_some.mp hs.term).2]
    refine ⟨k, hs, hk, by rw [hj, Int.toNat_natCast], length_readable hread, ?_⟩
    rw [um.nodStrncpyFromUser_take hj, um.readable_add (length_readable hread) 1, hterm]

end UserMem

open UserMem

/-- **The loop of `accumulate_argv_or_env`** as it runs, iteration by iteration, from the array
position `argv` with `available` bytes left and `bytes` already put together. -/
inductive Accumulates (um : UserMem) : Nat → Nat → List UInt8 → Accumulated → Prop
  | fault {argv available : Nat} {bytes : List UInt8}
      (hget : (um.nodCopyFromUser argv 8).2 ≠ 0) :
      Accumulates um argv available bytes ⟨[], bytes, nodFailureInvalidUserMemory⟩
  | last {argv available : Nat} {bytes : List UInt8} (hget : (um.nodCopyFromUser argv 8).2 = 0)
      (hp : leNat (um.nodCopyFromUser argv 8).1 = 0) :
      Accumulates um argv available bytes ⟨[], bytes, bytes.length⟩
  | full {argv available : Nat} {bytes : List UInt8} (hget : (um.nodCopyFromUser argv 8).2 = 0)
      (hp : leNat (um.nodCopyFromUser argv 8).1 ≠ 0) (havail : available < 1) :
      Accumulates um argv available bytes ⟨[], bytes, nodFailureBufferFull⟩
  | unreadable {argv available : Nat} {bytes : List UInt8} {copied : List UInt8 × Int}
      (hget : (um.nodCopyFromUser argv 8).2 = 0) (hp : leNat (um.nodCopyFromUser argv 8).1 ≠ 0)
      (havail : ¬ available < 1)
      (hcopied : copied = um.nodStrncpyFromUser (leNat (um.nodCopyFromUser argv 8).1) available)
      (hneg : copied.2 - 1 < 0) :
      Accumulates um argv available bytes
        ⟨[⟨bytes.length, copied.1⟩], bytes, nodFailureInvalidUserMemory⟩
  | long {argv available : Nat} {bytes : List UInt8} {copied : List UInt8 × Int}
      (hget : (um.nodCopyFromUser argv 8).2 = 0) (hp : leNat (um.nodCopyFromUser argv 8).1 ≠ 0)
      (havail : ¬ available < 1)
      (hcopied : copied = um.nodStrncpyFromUser (leNat (um.nodCopyFromUser argv 8).1) available)
      (hneg : ¬ copied.2 - 1 < 0) (hlong : available ≤ copied.2 - 1) :
      Accumulates um argv available bytes
        ⟨[⟨bytes.length, copied.1⟩], bytes, nodFailureBufferFull⟩
  | next {argv available : Nat} {bytes : List UInt8} {copied : List UInt8 × Int}
      {rest : Accumulated}
      (hget : (um.nodCopyFromUser argv 8).2 = 0) (hp : leNat (um.nodCopyFromUser argv 8).1 ≠ 0)
      (havail : ¬ available < 1)
      (hcopied : copied = um.nodStrncpyFromUser (leNat (um.nodCopyFromUser argv 8).1) available)
      (hneg : ¬ copied.2 - 1 < 0) (hlong : ¬ available ≤ copied.2 - 1)
      (hrest : Accumulates um (argv + 8) (available - copied.2.toNat)
        (bytes ++ copied.1.take copied.2.toNat) rest) :
      Accumulates um argv available bytes
        { rest with out := ⟨bytes.length, copied.1⟩ :: rest.out }

variable {um : UserMem} {argv available : Nat} {bytes : List UInt8} {acc : Accumulated}

/-- **The loop comes to an end**: every string takes a byte of `available`. -/
theorem accumulates_loop {fuel : Nat} (hf : available < fuel) :
    Accumulates um argv available bytes (accumulateLoop um fuel argv available bytes) := by
  induction fuel generalizing argv available bytes with
  | zero => exact absurd hf (Nat.not_lt_zero _)
  | succ fuel ih =>
    rw [accumulateLoop]
    by_cases hget : (um.nodCopyFromUser argv 8).2 = 0
    · rw [if_neg (not_not.mpr hget)]
      by_cases hp : leNat (um.nodCopyFromUser argv 8).1 = 0
      · rw [if_pos hp]
        exact .last hget hp
      rw [if_neg hp]
      by_cases havail : available < 1
      · rw [if_pos havail]
        exact .full hget hp havail
      rw [if_neg havail]
      dsimp only
      by_cases hneg : (um.nodStrncpyFromUser (leNat (um.nodCopyFromUser argv 8).1) available).2 -
          1 < 0
      · rw [if_pos hneg]
        exact .unreadable hget hp havail rfl hneg
      rw [if_neg hneg]
      by_cases hlong : available ≤
          (um.nodStrncpyFromUser (leNat (um.nodCopyFromUser argv 8).1) available).2 - 1
      · rw [if_pos hlong]
        exact .long hget hp havail rfl hneg hlong
      · rw [if_neg hlong]
        exact .next hget hp havail rfl hneg hlong (ih (by omega))
    · rw [if_pos hget]
      exact .fault hget

/-- It ends in one way, with any fuel that is enough. -/
theorem Accumulates.loop_eq (h : Accumulates um argv available bytes acc) {fuel : Nat}
    (hf : available ≤ fuel) : accumulateLoop um (fuel + 1) argv available bytes = acc := by
  induction h generalizing fuel with
  | fault hget => rw [accumulateLoop, if_pos hget]
  | last hget hp => rw [accumulateLoop, if_neg (not_not.mpr hget), if_pos hp]
  | full hget hp havail =>
    rw [accumulateLoop, if_neg (not_not.mpr hget), if_neg hp, if_pos havail]
  | unreadable hget hp havail hcopied hneg =>
    subst hcopied
    rw [accumulateLoop, if_neg (not_not.mpr hget), if_neg hp, if_neg havail]
    exact if_pos hneg
  | long hget hp havail hcopied hneg hlong =>
    subst hcopied
    rw [accumulateLoop, if_neg (not_not.mpr hget), if_neg hp, if_neg havail]
    exact (if_neg hneg).trans (if_pos hlong)
  | next hget hp havail hcopied hneg hlong _ ih =>
    subst hcopied
    obtain ⟨fuel, rfl⟩ := Nat.exists_eq_succ_of_ne_zero (show fuel ≠ 0 by omega)
    rw [accumulateLoop, if_neg (not_not.mpr hget), if_neg hp, if_neg havail]
    refine (if_neg hneg).trans ((if_neg hlong).trans ?_)
    rw [ih (by omega)]

/-- All stores are behind what is already there, and within what is left. -/
theorem Accumulates.inside (h : Accumulates um argv available bytes acc) :
    ∀ w ∈ acc.out, bytes.length ≤ w.off ∧ w.stop ≤ bytes.length + available := by
  have hroom : ∀ {bytes : List UInt8} {p available : Nat} {copied : List UInt8 × Int},
      copied = um.nodStrncpyFromUser p available →
      (⟨bytes.length, copied.1⟩ : Write).stop ≤ bytes.length + available := by
    rintro bytes p available _ rfl
    exact Nat.add_le_add_left (um.nodStrncpyFromUser_length_le p available) _
  induction h with
  | fault => exact fun w hw => absurd hw List.not_mem_nil
  | last => exact fun w hw => absurd hw List.not_mem_nil
  | full => exact fun w hw => absurd hw List.not_mem_nil
  | unreadable _ _ _ hcopied =>
    intro w hw
    rw [List.mem_singleton.mp hw]
    exact ⟨Nat.le_refl _, hroom hcopied⟩
  | long _ _ _ hcopied =>
    intro w hw
    rw [List.mem_singleton.mp hw]
    exact ⟨Nat.le_refl _, hroom hcopied⟩
  | next _ _ _ hcopied hneg _ _ ih =>
    intro w hw
    rcases List.mem_cons.mp hw with rfl | hw
    · exact ⟨Nat.le_refl _, hroom hcopied⟩
    · obtain ⟨hlo, hhi⟩ := ih w hw
      obtain ⟨k, -, hk, hlen, hstr, htake⟩ := nodStrncpyFromUser_string hcopied hneg
      rw [hlen, htake, List.length_append, List.length_append, hstr,
        List.length_singleton] at hlo hhi
      omega

/-- The strings one after the other, each with its terminator. -/
def argBlock (strs : List (List UInt8)) : List UInt8 := strs.flatMap fun str => str ++ [0]

theorem argBlock_cons (str : List UInt8) (strs : List (List UInt8)) :
    argBlock (str :: strs) = (str ++ [0]) ++ argBlock strs := rfl

/-- **What a run that is not refused has put together**: the strings of the whole array. -/
theorem Accumulates.whole (h : Accumulates um argv available bytes acc) (hres : 0 ≤ acc.res) :
    ∃ strs, um.ArgsAt argv strs ∧ (argBlock strs).length ≤ available ∧
      acc.res = ((bytes.length + (argBlock strs).length : Nat) : Int) ∧
      ∀ img : Image,
        (img.writes acc.out).read bytes.length (argBlock strs).length = argBlock strs := by
  induction h with
  | @last argv available bytes hget hp =>
    refine ⟨[], .nil ?_, Nat.zero_le _, rfl, fun img => rfl⟩
    rw [← hp]
    exact nodCopyFromUser_word hget
  | fault => exact absurd hres (show ¬ (0 : Int) ≤ -4 by decide)
  | full => exact absurd hres (show ¬ (0 : Int) ≤ -2 by decide)
  | unreadable => exact absurd hres (show ¬ (0 : Int) ≤ -4 by decide)
  | long => exact absurd hres (show ¬ (0 : Int) ≤ -2 by decide)
  | @next argv available bytes copied rest hget hp havail hcopied hneg hlong hrest ih =>
    obtain ⟨k, hs, hk, hlen, hstr, htake⟩ := nodStrncpyFromUser_string hcopied hneg
    generalize hstr' : um.readable (leNat (um.nodCopyFromUser argv 8).1) k = str at htake hstr
    have hlast : (str ++ [0]).length = k + 1 := by
      rw [List.length_append, hstr, List.length_singleton]
    have hnext : (bytes ++ copied.1.take copied.2.toNat).length = bytes.length + (k + 1) := by
      rw [hlen, htake, List.length_append, hlast]
    obtain ⟨strs, hargs, hfits, hrlen, hread⟩ := ih hres
    have hblock : (argBlock (str :: strs)).length = (k + 1) + (argBlock strs).length := by
      rw [argBlock_cons, List.length_append, hlast]
    refine ⟨str :: strs, ?_, ?_, ?_, fun img => ?_⟩
    · rw [← hstr']
      exact .cons (nodCopyFromUser_word hget) hp hs hargs
    · rw [hlen] at hfits
      omega
    · rw [hrlen, hnext, hblock, Nat.add_assoc]
    · -- the other strings are stored behind this one
      have hlater : ∀ w ∈ rest.out, bytes.length + (k + 1) ≤ w.off := fun w hw => by
        rw [← hnext]
        exact (hrest.inside w hw).1
      have hstored : k + 1 ≤ copied.1.length := by
        rw [← hlast, ← htake]
        exact List.length_take_le' _ _
      have hrest := hread (img.write ⟨bytes.length, copied.1⟩)
      rw [hnext] at hrest
      rw [hblock, Image.read_add, Image.read_writes_of_behind img hstored hlater, htake,
        Image.writes_cons, hrest, argBlock_cons]

/-- The codes that the loop returns. -/
theorem Accumulates.codes (h : Accumulates um argv available bytes acc) : 0 ≤ acc.res ∨
    acc.res = nodFailureBufferFull ∨ acc.res = nodFailureInvalidUserMemory := by
  induction h with
  | fault => exact Or.inr (Or.inr rfl)
  | last => exact Or.inl (Int.natCast_nonneg _)
  | full => exact Or.inr (Or.inl rfl)
  | unreadable => exact Or.inr (Or.inr rfl)
  | long => exact Or.inr (Or.inl rfl)
  | next _ _ _ _ _ _ _ ih => exact ih

/-- **`accumulate_argv_or_env` puts a vector together as a whole or refuses it.** -/
structure PutsTogether (um : UserMem) (argv : UInt64) (available : Nat) : Prop where
  ends : argv ≠ 0 → ∀ acc, Accumulates um argv.toNat available [] acc ↔
    acc = accumulateArgvOrEnv um argv available
  inside : ∀ w ∈ (accumulateArgvOrEnv um argv available).out, ∀ i, w.Touches i → i < available
  whole : ∀ len : Nat, (accumulateArgvOrEnv um argv available).res = len → len ≤ available ∧
    ∃ strs, um.ArgVector argv strs ∧ ∀ img : Image,
      (img.writes (accumulateArgvOrEnv um argv available).out).read 0 len = argBlock strs
  refused : (¬ ∃ len : Nat, (accumulateArgvOrEnv um argv available).res = len) →
    (accumulateArgvOrEnv um argv available).res = nodFailureBufferFull ∨
      (accumulateArgvOrEnv um argv available).res = nodFailureInvalidUserMemory

theorem accumulateArgvOrEnv_complete (um : UserMem) (argv : UInt64) (available : Nat) :
    PutsTogether um argv available := by
  by_cases hnull : argv = 0
  · have hacc : accumulateArgvOrEnv um argv available = ⟨[], [], 0⟩ := if_pos hnull
    refine ⟨fun hne => absurd hnull hne, ?_, ?_, ?_⟩
    · rw [hacc]
      exact fun w hw => absurd hw List.not_mem_nil
    · rw [hacc]
      intro len hlen
      obtain rfl : len = 0 := (Int.ofNat.inj hlen).symm
      exact ⟨Nat.zero_le _, [], (if_pos hnull).mpr rfl, fun img => rfl⟩
    · rw [hacc]
      exact fun hno => absurd ⟨0, rfl⟩ hno
  · have hacc : accumulateArgvOrEnv um argv available =
        accumulateLoop um (available + 1) argv.toNat available [] := if_neg hnull
    have hrun : Accumulates um argv.toNat available [] (accumulateArgvOrEnv um argv available) := by
      rw [hacc]
      exact accumulates_loop (Nat.lt_succ_self available)
    refine ⟨fun _ acc => ⟨fun h => ?_, fun h => ?_⟩, fun w hw i hi => ?_, fun len hlen => ?_,
      fun hno => ?_⟩
    · rw [hacc]
      exact (h.loop_eq (Nat.le_refl available)).symm
    · rw [h]
      exact hrun
    · have hstop := (hrun.inside w hw).2
      rw [List.length_nil, Nat.zero_add] at hstop
      exact Nat.lt_of_lt_of_le hi.2 hstop
    · obtain ⟨strs, hargs, hfits, hres, hread⟩ :=
        hrun.whole (by rw [hlen]; exact Int.natCast_nonneg len)
      rw [List.length_nil, Nat.zero_add, hlen] at hres
      rw [Int.ofNat.inj hres]
      exact ⟨hfits, strs, (if_neg hnull).mpr hargs, hread⟩
    · rcases hrun.codes with hpos | hcode
      · exact absurd ⟨_, (Int.toNat_of_nonneg hpos).symm⟩ hno
      · exact hcode

end NoDrop
