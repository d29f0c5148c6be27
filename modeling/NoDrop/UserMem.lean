import NoDrop.Lib.Bytes

/-! # Reading user memory from the probe

`nod_copy_from_user` and `nod_strncpy_from_user` of `kmodule/fillers.c`.  Both run
with page faults disabled and so meet unreadable memory as an ordinary outcome.

What the kernel's `__copy_from_user_inatomic` promises is that it returns the number
of bytes it did **not** copy and that the bytes before that point are the user's; it
does not promise to get as far as the first unreadable byte.  `UserMem.fault` is that
freedom: how far a copy gets when it cannot complete.
-/
namespace NoDrop

open Bytes

/-- A user address space as the copy primitives see it. -/
structure UserMem where
  /-- The byte at an address, `none` where a read faults. -/
  byte : Nat → Option UInt8
  /-- The end of the user part of the address space, which `access_ok` tests. -/
  limit : Nat
  /-- `fault a n`: how many bytes a copy of `n` bytes from `a` that faults gets
  through, as far as they are readable. -/
  fault : Nat → Nat → Nat

namespace UserMem

variable (um : UserMem)

/-- `access_ok`. -/
def accessOk (a n : Nat) : Bool := a + n ≤ um.limit

/-- The longest readable prefix of the `n` bytes at `a`. -/
def readable : Nat → Nat → List UInt8
  | _, 0 => []
  | a, n + 1 =>
      match um.byte a with
      | none => []
      | some b => b :: readable (a + 1) n

/-- `__copy_from_user_inatomic`: the bytes it stores and the number it did not copy. -/
def copyFromUserInatomic (a n : Nat) : List UInt8 × Nat :=
  let bs := um.readable a n
  if bs.length = n then (bs, 0)
  else
    let k := min (um.fault a n) bs.length
    (bs.take k, n - k)

/-- `nod_copy_from_user`. -/
def nodCopyFromUser (a n : Nat) : List UInt8 × Nat :=
  if um.accessOk a n then um.copyFromUserInatomic a n else ([], n)

/-- The loop of `nod_strncpy_from_user`: what it stores from `to` on, and its return
value.  `n` is the room left and `len` the `string_length` so far; `fuel` bounds the
number of chunks and `n` is always enough, since every chunk takes a byte of it. -/
def strncpyLoop : Nat → Nat → Nat → Nat → List UInt8 × Int
  | 0, _, _, _ => ([], -1)
  | fuel + 1, a, n, len =>
      if n = 0 then ([], -1)
      else
        let chunk := min 4 n
        if um.accessOk a chunk = false then ([], -1)
        else
          let got := um.copyFromUserInatomic a chunk
          if got.2 ≠ 0 then (got.1, -1)
          else
            match got.1.findIdx? (· = 0) with
            | some j => (got.1, (len + j + 1 : Nat))
            | none =>
                let rest := strncpyLoop fuel (a + chunk) (n - chunk) (len + chunk)
                (got.1 ++ rest.1, rest.2)

/-- `nod_strncpy_from_user`: the terminator counts in the length returned, and a
string that does not end within `n` bytes is an error like a fault. -/
def nodStrncpyFromUser (a n : Nat) : List UInt8 × Int := um.strncpyLoop n a n 0

/-! ## What the copies store -/

theorem readable_length_le (a n : Nat) : (um.readable a n).length ≤ n := by
  induction n generalizing a with
  | zero => simp [readable]
  | succ n ih =>
    unfold readable
    cases um.byte a with
    | none => simp
    | some b => simpa using ih (a + 1)

theorem copyFromUserInatomic_length_le (a n : Nat) :
    (um.copyFromUserInatomic a n).1.length ≤ n := by
  have h := um.readable_length_le a n
  simp only [copyFromUserInatomic]
  split
  · exact h
  · simp only [List.length_take]
    omega

/-- A copy that reports nothing missing stored every byte. -/
theorem copyFromUserInatomic_length {a n : Nat} (h : (um.copyFromUserInatomic a n).2 = 0) :
    (um.copyFromUserInatomic a n).1.length = n := by
  have hle := um.readable_length_le a n
  simp only [copyFromUserInatomic] at h ⊢
  split at h
  · rename_i he
    rw [if_pos he]
    exact he
  · rename_i hne
    simp only at h
    omega

theorem nodCopyFromUser_length_le (a n : Nat) : (um.nodCopyFromUser a n).1.length ≤ n := by
  unfold nodCopyFromUser
  split
  · exact um.copyFromUserInatomic_length_le a n
  · simp

theorem nodCopyFromUser_length {a n : Nat} (h : (um.nodCopyFromUser a n).2 = 0) :
    (um.nodCopyFromUser a n).1.length = n := by
  unfold nodCopyFromUser at h ⊢
  split at h
  · rename_i hok
    rw [if_pos hok]
    exact um.copyFromUserInatomic_length h
  · rename_i hok
    rw [if_neg hok]
    simp_all

/-- A copy that reports something missing stopped short. -/
theorem nodCopyFromUser_length_lt {a n : Nat} (h : (um.nodCopyFromUser a n).2 ≠ 0) :
    (um.nodCopyFromUser a n).1.length < n := by
  have hle := um.readable_length_le a n
  unfold nodCopyFromUser at h ⊢
  split
  · rename_i hok
    rw [if_pos hok] at h
    simp only [copyFromUserInatomic] at h ⊢
    split
    · rename_i hfull
      rw [if_pos hfull] at h
      exact absurd rfl h
    · simp only [List.length_take]
      omega
  · rename_i hok
    rw [if_neg hok] at h
    exact Nat.pos_of_ne_zero h

theorem nodCopyFromUser_left_le (a n : Nat) : (um.nodCopyFromUser a n).2 ≤ n := by
  unfold nodCopyFromUser copyFromUserInatomic
  dsimp only
  split
  · split
    · exact Nat.zero_le _
    · exact Nat.sub_le ..
  · exact Nat.le_refl _

/-- A copy that reports nothing missing stored what was readable. -/
theorem copyFromUserInatomic_eq {a n : Nat} (h : (um.copyFromUserInatomic a n).2 = 0) :
    (um.copyFromUserInatomic a n).1 = um.readable a n := by
  have hle := um.readable_length_le a n
  simp only [copyFromUserInatomic] at h ⊢
  split
  · rfl
  · rename_i hne
    rw [if_neg hne] at h
    simp only at h
    omega

/-- One step of the string copy.  Everything a proof needs of a chunk is here: it
faults, or holds the terminator, or is stored whole and the copy goes on. -/
theorem strncpyLoop_cases (fuel a n len : Nat) (hn : n ≠ 0) :
    (∃ bs, um.strncpyLoop (fuel + 1) a n len = (bs, -1) ∧ bs.length ≤ min 4 n) ∨
    ((um.readable a (min 4 n)).length = min 4 n ∧ um.accessOk a (min 4 n) = true ∧
      ((∃ j : Nat, j < min 4 n ∧ (um.readable a (min 4 n)).findIdx? (· = 0) = some j ∧
        um.strncpyLoop (fuel + 1) a n len =
          (um.readable a (min 4 n), ((len + j + 1 : Nat) : Int))) ∨
      ((um.readable a (min 4 n)).findIdx? (· = 0) = none ∧
        um.strncpyLoop (fuel + 1) a n len =
          (um.readable a (min 4 n) ++
            (um.strncpyLoop fuel (a + min 4 n) (n - min 4 n) (len + min 4 n)).1,
          (um.strncpyLoop fuel (a + min 4 n) (n - min 4 n) (len + min 4 n)).2)))) := by
  rw [strncpyLoop, if_neg hn]
  simp only
  split
  · exact Or.inl ⟨[], rfl, by simp⟩
  · rename_i haccess
    split
    · exact Or.inl ⟨_, rfl, um.copyFromUserInatomic_length_le _ _⟩
    · rename_i hfull
      have hlen := um.copyFromUserInatomic_length (not_ne_iff.mp hfull)
      rw [um.copyFromUserInatomic_eq (not_ne_iff.mp hfull)] at hlen ⊢
      refine Or.inr ⟨hlen, by simpa using haccess, ?_⟩
      cases hj : (um.readable a (min 4 n)).findIdx? (· = 0) with
      | some j =>
        obtain ⟨hlt, -⟩ := List.findIdx?_eq_some_iff_getElem.mp hj
        exact Or.inl ⟨j, by omega, rfl, rfl⟩
      | none => exact Or.inr ⟨rfl, rfl⟩

/-- The string copy stays inside the room it is given, and a length it returns is
one more than what was copied before the terminator. -/
theorem strncpyLoop_spec (fuel a n len : Nat) :
    (um.strncpyLoop fuel a n len).1.length ≤ n ∧
      ((um.strncpyLoop fuel a n len).2 = -1 ∨
        ∃ k, (um.strncpyLoop fuel a n len).2 = (len + k : Nat) ∧ 0 < k ∧
          k ≤ (um.strncpyLoop fuel a n len).1.length) := by
  induction fuel generalizing a n len with
  | zero => exact ⟨Nat.zero_le _, Or.inl rfl⟩
  | succ fuel ih =>
    by_cases hn : n = 0
    · simp [strncpyLoop, hn]
    · rcases um.strncpyLoop_cases fuel a n len hn with
        ⟨bs, he, hl⟩ | ⟨hl, -, ⟨j, hj, -, he⟩ | ⟨-, he⟩⟩
      · rw [he]
        exact ⟨by simp only; omega, Or.inl rfl⟩
      · rw [he]
        exact ⟨by simp only; omega, Or.inr ⟨j + 1, rfl, by omega, by simp only; omega⟩⟩
      · rw [he]
        obtain ⟨h1, h2⟩ := ih (a + min 4 n) (n - min 4 n) (len + min 4 n)
        simp only [List.length_append, hl]
        refine ⟨by omega, h2.imp_right ?_⟩
        rintro ⟨k, hk, hpos, hle⟩
        exact ⟨min 4 n + k, by rw [hk]; congr 1; omega, by omega, by omega⟩

theorem nodStrncpyFromUser_length_le (a n : Nat) :
    (um.nodStrncpyFromUser a n).1.length ≤ n :=
  (um.strncpyLoop_spec n a n 0).1

/-- The string copy fails with `-1`, or returns a positive length all of whose bytes
it stored. -/
theorem nodStrncpyFromUser_result (a n : Nat) :
    (um.nodStrncpyFromUser a n).2 = -1 ∨
      ∃ k : Nat, (um.nodStrncpyFromUser a n).2 = k ∧ 0 < k ∧
        k ≤ (um.nodStrncpyFromUser a n).1.length := by
  rcases (um.strncpyLoop_spec n a n 0).2 with h | ⟨k, hk, hpos, hle⟩
  · exact Or.inl h
  · exact Or.inr ⟨k, by rw [nodStrncpyFromUser, hk, Nat.zero_add], hpos, hle⟩

/-! ## The same copy with other room -/

theorem readable_take (a : Nat) {k n : Nat} (h : k ≤ n) :
    (um.readable a n).take k = um.readable a k := by
  induction n generalizing a k with
  | zero =>
    obtain rfl := Nat.le_zero.mp h
    rfl
  | succ n ih =>
    cases k with
    | zero => rfl
    | succ k =>
      unfold readable
      cases um.byte a with
      | none => rfl
      | some b => simp only [List.take_succ_cons, ih (a + 1) (Nat.le_of_succ_le_succ h)]

/-- A shorter copy of readable memory is readable. -/
theorem readable_length_of_le {a k n : Nat} (h : (um.readable a n).length = n) (hk : k ≤ n) :
    (um.readable a k).length = k := by
  rw [← um.readable_take a hk, List.length_take, h, Nat.min_eq_left hk]

theorem readable_add {a m : Nat} (h : (um.readable a m).length = m) (n : Nat) :
    um.readable a (m + n) = um.readable a m ++ um.readable (a + m) n := by
  induction m generalizing a with
  | zero => simp [readable]
  | succ m ih =>
    have step : ∀ l, um.readable a (l + 1) =
        match um.byte a with
        | none => []
        | some b => b :: um.readable (a + 1) l := fun _ => rfl
    rw [Nat.add_right_comm, step, step]
    rw [step] at h
    cases hb : um.byte a with
    | none => simp [hb] at h
    | some b =>
      simp only [hb, List.length_cons, Nat.add_right_cancel_iff] at h
      simp only [ih h, List.cons_append, Nat.add_assoc, Nat.add_comm 1 m]

/-- A string copied whole is what was readable. -/
theorem strncpyLoop_take (fuel a n len k : Nat)
    (h : (um.strncpyLoop fuel a n len).2 = ((len + k : Nat) : Int)) :
    (um.strncpyLoop fuel a n len).1.take k = um.readable a k := by
  induction fuel generalizing a n len k with
  | zero =>
    simp only [strncpyLoop] at h
    omega
  | succ fuel ih =>
    by_cases hn : n = 0
    · simp only [strncpyLoop, hn, if_true] at h
      omega
    · rcases um.strncpyLoop_cases fuel a n len hn with
        ⟨bs, he, -⟩ | ⟨hl, -, ⟨j, hj, -, he⟩ | ⟨-, he⟩⟩
      · rw [he] at h
        simp only at h
        omega
      · rw [he] at h ⊢
        simp only at h
        exact um.readable_take a (by omega)
      · rw [he] at h ⊢
        simp only at h ⊢
        obtain ⟨-, h1 | ⟨k', hk', -, -⟩⟩ :=
          um.strncpyLoop_spec fuel (a + min 4 n) (n - min 4 n) (len + min 4 n)
        · omega
        · obtain rfl : k = min 4 n + k' := by omega
          have hrest := ih (a + min 4 n) (n - min 4 n) (len + min 4 n) k' hk'
          rw [um.readable_add hl, ← hrest, List.take_append, hl,
            List.take_of_length_le (by omega), Nat.add_sub_cancel_left]

/-- A chunk that can be read. -/
theorem strncpyLoop_of_readable (fuel len : Nat) {a n : Nat} (hn : n ≠ 0)
    (hok : um.accessOk a (min 4 n) = true) (hl : (um.readable a (min 4 n)).length = min 4 n) :
    (um.strncpyLoop (fuel + 1) a n len).2 =
      match (um.readable a (min 4 n)).findIdx? (· = 0) with
      | some j => ((len + j + 1 : Nat) : Int)
      | none => (um.strncpyLoop fuel (a + min 4 n) (n - min 4 n) (len + min 4 n)).2 := by
  have hcopy : um.copyFromUserInatomic a (min 4 n) = (um.readable a (min 4 n), 0) := by
    rw [copyFromUserInatomic, if_pos hl]
  rw [strncpyLoop, if_neg hn]
  simp only [hok, hcopy, Bool.true_eq_false, if_false, ne_eq, not_true_eq_false]
  split <;> rfl

/-- A string of `k` bytes that is copied within `n` bytes is also copied within `n'`, if
that is less, or if the last chunk is full. -/
theorem strncpyLoop_fits (len : Nat) {fuel fuel' a n n' k : Nat}
    (h : (um.strncpyLoop fuel a n len).2 = ((len + k : Nat) : Int)) (hk : k ≤ n')
    (hn' : n' ≤ n ∨ 4 ∣ k) (hf : n' ≤ fuel') :
    (um.strncpyLoop fuel' a n' len).2 = ((len + k : Nat) : Int) := by
  induction fuel generalizing fuel' a n n' len k with
  | zero =>
    simp only [strncpyLoop] at h
    omega
  | succ fuel ih =>
    by_cases hn : n = 0
    · simp only [strncpyLoop, hn, if_true] at h
      omega
    have hpos : 0 < k := by
      have := um.strncpyLoop_spec (fuel + 1) a n len
      omega
    obtain ⟨fuel', rfl⟩ : ∃ m, fuel' = m + 1 := Nat.exists_eq_succ_of_ne_zero (by omega)
    rcases um.strncpyLoop_cases fuel a n len hn with
      ⟨bs, he, -⟩ | ⟨hl, hok, ⟨j, hj, hidx, he⟩ | ⟨hidx, he⟩⟩
    · rw [he] at h
      simp only at h
      omega
    · -- the terminator is in this chunk, and in the other copy's too
      rw [he] at h
      simp only at h
      obtain rfl : k = j + 1 := by omega
      have hc : min 4 n' ≤ min 4 n := by omega
      have hok' : um.accessOk a (min 4 n') = true := by
        simp only [accessOk, decide_eq_true_eq] at hok ⊢
        omega
      have hidx' : (um.readable a (min 4 n')).findIdx? (· = 0) = some j := by
        rw [← um.readable_take a hc]
        obtain ⟨hlt, hzero, hbefore⟩ := List.findIdx?_eq_some_iff_getElem.mp hidx
        refine List.findIdx?_eq_some_iff_getElem.mpr ⟨?_, ?_, ?_⟩
        · simp only [List.length_take]
          omega
        · simpa using hzero
        · intro i hi
          simpa using hbefore i hi
      rw [um.strncpyLoop_of_readable _ _ (by omega) hok' (um.readable_length_of_le hl hc), hidx']
      simp only [Nat.add_assoc]
    · -- both copies go on after four bytes
      rw [he] at h
      simp only at h
      have hrest := um.strncpyLoop_spec fuel (a + min 4 n) (n - min 4 n) (len + min 4 n)
      obtain ⟨hle, h1 | ⟨k', hk', hpos', hle'⟩⟩ := hrest
      · omega
      obtain rfl : k = min 4 n + k' := by omega
      have hc : min 4 n = 4 := by omega
      have hc' : min 4 n' = 4 := by omega
      rw [hc] at hok hl hidx hk' hle hle'
      have hstep := um.strncpyLoop_of_readable fuel' len (show n' ≠ 0 by omega)
        (by rw [hc']; exact hok) (by rw [hc']; exact hl)
      rw [hstep, hc', hidx, hc, ← Nat.add_assoc]
      exact ih _ hk' (by omega) (by omega) (by omega)

/-- A string that is copied whole is what was readable, and its length is its own. -/
theorem nodStrncpyFromUser_take {a n k : Nat}
    (h : (um.nodStrncpyFromUser a n).2 = ((k : Nat) : Int)) :
    (um.nodStrncpyFromUser a n).1.take k = um.readable a k :=
  um.strncpyLoop_take n a n 0 k (by rw [Nat.zero_add]; exact h)

theorem nodStrncpyFromUser_fits {a n n' k : Nat}
    (h : (um.nodStrncpyFromUser a n).2 = ((k : Nat) : Int)) (hk : k ≤ n')
    (hn' : n' ≤ n ∨ 4 ∣ k) : (um.nodStrncpyFromUser a n').2 = ((k : Nat) : Int) := by
  have := um.strncpyLoop_fits 0 (by rw [Nat.zero_add]; exact h) hk hn' (Nat.le_refl n')
  rwa [Nat.zero_add] at this

end UserMem

end NoDrop
