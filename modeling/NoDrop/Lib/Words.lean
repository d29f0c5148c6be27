import NoDrop.Lib.Bytes

/-! # Words in a byte image

A 64-bit word is the eight bytes from its address on, least significant first.  The address
need not be a multiple of eight, so that two words may overlap; what a client needs is that a
word reads back as it was stored (`word_setWord`) and that a store leaves every word alone that
it does not overlap (`word_setWord_of_apart`).

Beside them the masks that C code writes as `~(2^k - 1)`: on a word they clear the `k` low
bits (`and_highMask`).
-/
namespace NoDrop.Bytes

namespace Image

variable {m m' : Image} {a b v : Nat}

/-- The 64-bit word at `a`. -/
def word (m : Image) (a : Nat) : Nat := leNat (m.read a 8)

/-- The image after the 64-bit store of `v` at `a`. -/
def setWord (m : Image) (a v : Nat) : Image := m.write ⟨a, leBytes 8 v⟩

theorem leNat_lt (bs : List UInt8) : leNat bs < 256 ^ bs.length := by
  induction bs with
  | nil => simp [leNat]
  | cons b bs ih =>
    have hb : b.toNat < 256 := UInt8.toNat_lt b
    rw [leNat, List.length_cons, Nat.pow_succ]
    omega

theorem word_lt (m : Image) (a : Nat) : m.word a < 2 ^ 64 := by
  have h := leNat_lt (m.read a 8)
  rw [read_length] at h
  exact h

/-- A word only depends on its eight bytes. -/
theorem word_congr (h : ∀ i, a ≤ i → i < a + 8 → m' i = m i) : m'.word a = m.word a := by
  have hread : m'.read a 8 = m.read a 8 :=
    read_congr fun i hi => h (a + i) (Nat.le_add_right ..) (Nat.add_lt_add_left hi a)
  rw [word, word, hread]

theorem setWord_of_outside {i : Nat} (h : i < a ∨ a + 8 ≤ i) : m.setWord a v i = m i := by
  refine write_of_not_touches ?_
  rintro ⟨hlo, hhi⟩
  simp only [Write.stop, leBytes_length] at hlo hhi
  omega

theorem word_setWord (hv : v < 2 ^ 64) : (m.setWord a v).word a = v := by
  have hread := read_write_self m ⟨a, leBytes 8 v⟩
  rw [leBytes_length] at hread
  rw [word, setWord, hread]
  exact leNat_leBytes_of_lt hv

theorem word_setWord_of_apart (h : b + 8 ≤ a ∨ a + 8 ≤ b) :
    (m.setWord a v).word b = m.word b :=
  word_congr fun _ hlo hhi => setWord_of_outside (by omega)

/-! ## Consecutive stores -/

/-- Two stores, the second behind the first, are one. -/
theorem write_append (m : Image) (a : Nat) (xs ys : List UInt8) :
    (m.write ⟨a, xs⟩).write ⟨a + xs.length, ys⟩ = m.write ⟨a, xs ++ ys⟩ := by
  funext i
  simp only [write, Write.Touches, Write.stop, List.length_append, List.getD_eq_getElem?_getD]
  by_cases h1 : i < a + xs.length
  · rw [if_neg (by omega)]
    by_cases h2 : a ≤ i
    · rw [if_pos ⟨h2, h1⟩, if_pos (by omega), List.getElem?_append_left (by omega)]
    · rw [if_neg (by omega), if_neg (by omega)]
  · by_cases h2 : i < a + xs.length + ys.length
    · rw [if_pos (by omega), if_pos (by omega), List.getElem?_append_right (by omega)]
      congr 2
      omega
    · rw [if_neg (by omega), if_neg (by omega), if_neg (by omega)]

/-- Stores that do not overlap may be exchanged. -/
theorem write_comm (m : Image) {v w : Write} (h : v.stop ≤ w.off ∨ w.stop ≤ v.off) :
    (m.write v).write w = (m.write w).write v := by
  funext i
  by_cases hw : w.Touches i
  · have hv : ¬v.Touches i := by
      rintro ⟨h1, h2⟩
      obtain ⟨h3, h4⟩ := hw
      omega
    rw [write_of_touches hw, write_of_not_touches hv, write_of_touches hw]
  · rw [write_of_not_touches hw]
    by_cases hv : v.Touches i
    · rw [write_of_touches hv, write_of_touches hv]
    · rw [write_of_not_touches hv, write_of_not_touches hv, write_of_not_touches hw]

/-- Two stores, the second right before the first, are one. -/
theorem write_append_below (m : Image) (a : Nat) (xs ys : List UInt8) :
    (m.write ⟨a + xs.length, ys⟩).write ⟨a, xs⟩ = m.write ⟨a, xs ++ ys⟩ := by
  rw [write_comm m (.inr (Nat.le_refl _)), write_append]

/-- A part of what is stored reads back. -/
theorem read_write_part (m : Image) (a : Nat) (xs ys zs : List UInt8) :
    (m.write ⟨a, xs ++ (ys ++ zs)⟩).read (a + xs.length) ys.length = ys := by
  refine List.ext_getElem? fun i => ?_
  by_cases hi : i < ys.length
  · rw [read_getElem? _ _ _ _ hi]
    have ht : Write.Touches ⟨a, xs ++ (ys ++ zs)⟩ (a + xs.length + i) := by
      refine ⟨by dsimp only; omega, ?_⟩
      simp only [Write.stop, List.length_append]
      omega
    rw [write_of_touches ht]
    have hsub : a + xs.length + i - a = xs.length + i := by omega
    dsimp only
    rw [hsub, List.getD_eq_getElem?_getD, List.getElem?_append_right (Nat.le_add_right ..),
      Nat.add_sub_cancel_left, List.getElem?_append_left hi, List.getElem?_eq_getElem hi]
    rfl
  · rw [List.getElem?_eq_none (by rw [read_length]; omega), List.getElem?_eq_none (by omega)]

/-- The bytes of a list of words. -/
def wordBytes (ws : List Nat) : List UInt8 := ws.flatMap (leBytes 8)

theorem wordBytes_length (ws : List Nat) : (wordBytes ws).length = 8 * ws.length := by
  induction ws with
  | nil => rfl
  | cons w ws ih =>
    rw [wordBytes, List.flatMap_cons, List.length_append, leBytes_length, List.length_cons]
    rw [wordBytes] at ih
    omega

theorem wordBytes_append (ws vs : List Nat) :
    wordBytes (ws ++ vs) = wordBytes ws ++ wordBytes vs := List.flatMap_append ..

/-- The words of a block read back. -/
theorem word_write_words (m : Image) (a : Nat) (pre post : List Nat) {w : Nat} (hw : w < 2 ^ 64) :
    (m.write ⟨a, wordBytes (pre ++ w :: post)⟩).word (a + 8 * pre.length) = w := by
  have hread := read_write_part m a (wordBytes pre) (leBytes 8 w) (wordBytes post)
  rw [wordBytes_length, leBytes_length] at hread
  have hsplit : wordBytes (pre ++ w :: post) =
      wordBytes pre ++ (leBytes 8 w ++ wordBytes post) := by
    rw [wordBytes_append]
    rfl
  rw [word, hsplit, hread]
  exact leNat_leBytes_of_lt hw

theorem word_write_getElem? (m : Image) (a : Nat) {ws : List Nat} {i w : Nat}
    (h : ws[i]? = some w) (hw : w < 2 ^ 64) :
    (m.write ⟨a, wordBytes ws⟩).word (a + 8 * i) = w := by
  obtain ⟨hi, rfl⟩ := List.getElem?_eq_some_iff.mp h
  have hread := word_write_words m a (ws.take i) (ws.drop (i + 1)) hw
  rw [List.cons_getElem_drop_succ, List.take_append_drop, List.length_take,
    Nat.min_eq_left (Nat.le_of_lt hi)] at hread
  exact hread

end Image

/-! ## Masks -/

/-- `x & ~(2^k - 1)` on `w` bits. -/
theorem and_highMask {x w k : Nat} (hx : x < 2 ^ w) (hk : k ≤ w) :
    x &&& (2 ^ w - 2 ^ k) = x / 2 ^ k * 2 ^ k := by
  have hmask : 2 ^ w - 2 ^ k = (2 ^ (w - k) - 1) <<< k := by
    rw [Nat.shiftLeft_eq, Nat.sub_mul, Nat.one_mul, ← Nat.pow_add, Nat.sub_add_cancel hk]
  rw [hmask, ← Nat.shiftRight_eq_div_pow, ← Nat.shiftLeft_eq]
  apply Nat.eq_of_testBit_eq
  intro i
  simp only [Nat.testBit_and, Nat.testBit_shiftLeft, Nat.testBit_shiftRight,
    Nat.testBit_two_pow_sub_one]
  by_cases hi : k ≤ i
  · have hki : k + (i - k) = i := by omega
    by_cases hlt : i < w
    · have : i - k < w - k := by omega
      simp [hi, hki, this]
    · have : x.testBit i = false :=
        Nat.testBit_lt_two_pow (Nat.lt_of_lt_of_le hx (Nat.pow_le_pow_right (by decide) (by omega)))
      simp [hki, this]
  · simp [hi]

/-- A number below the lowest bit of another is added to it. -/
theorem or_eq_add {x y k : Nat} (hx : x % 2 ^ k = 0) (hy : y < 2 ^ k) : x ||| y = x + y := by
  obtain ⟨n, rfl⟩ := Nat.dvd_of_mod_eq_zero hx
  exact (Nat.two_pow_add_eq_or_of_lt hy n).symm

end NoDrop.Bytes
