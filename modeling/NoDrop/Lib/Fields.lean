import Mathlib.Tactic.Common

/-! # Fields of a machine word

A register holds small numbers side by side.  `field off n v` reads the `n` bits from `off` on, and
`setField off x v` writes them.  What is written is read back (`field_setField`), writing again replaces it
(`setField_setField`), and the fields beside it stay (`field_setField_apart`).
-/
namespace NoDrop.Fields

variable {w n m : Nat}

/-- The `n` bits from `off` on. -/
def field (off n : Nat) (v : BitVec w) : BitVec n := v.extractLsb' off n

/-- They are written. -/
def setField (off : Nat) (x : BitVec n) (v : BitVec w) : BitVec w :=
  (v &&& ~~~((BitVec.allOnes n).setWidth w <<< off)) ||| (x.setWidth w <<< off)

/-- Every bit of the word afterwards. -/
theorem getLsbD_setField (off : Nat) (x : BitVec n) (v : BitVec w) {i : Nat} (hi : i < w) :
    (setField off x v).getLsbD i =
      if off ≤ i ∧ i < off + n then x.getLsbD (i - off) else v.getLsbD i := by
  have hiw : i - off < w := by omega
  simp only [setField, BitVec.getLsbD_or, BitVec.getLsbD_and, BitVec.getLsbD_not, BitVec.getLsbD_shiftLeft,
    BitVec.getLsbD_setWidth, BitVec.getLsbD_allOnes, hi, hiw, decide_true, Bool.true_and]
  by_cases hoff : i < off
  · simp [hoff, show ¬off ≤ i by omega]
  · by_cases hn : i - off < n
    · simp [hoff, hn, show off ≤ i ∧ i < off + n by omega]
    · -- above the field
      have hx : x.getLsbD (i - off) = false := BitVec.getLsbD_of_ge _ _ (by omega)
      simp [hoff, hn, hx, show ¬i < off + n by omega]

theorem field_setField {off : Nat} (h : off + n ≤ w) (x : BitVec n) (v : BitVec w) :
    field off n (setField off x v) = x := by
  apply BitVec.eq_of_getLsbD_eq
  intro i hi
  rw [field, BitVec.getLsbD_extractLsb', decide_eq_true hi, Bool.true_and,
    getLsbD_setField off x v (by omega), if_pos (by omega), Nat.add_sub_cancel_left]

theorem setField_setField (off : Nat) (x y : BitVec n) (v : BitVec w) :
    setField off x (setField off y v) = setField off x v := by
  apply BitVec.eq_of_getLsbD_eq
  intro i hi
  rw [getLsbD_setField off x _ hi, getLsbD_setField off x v hi, getLsbD_setField off y v hi]
  split
  · rfl
  · rfl

/-- **The frame of a field.** -/
theorem field_setField_apart {off off' : Nat} (h : off + n ≤ off' ∨ off' + m ≤ off) (x : BitVec n)
    (v : BitVec w) : field off' m (setField off x v) = field off' m v := by
  apply BitVec.eq_of_getLsbD_eq
  intro i hi
  rw [field, field, BitVec.getLsbD_extractLsb', BitVec.getLsbD_extractLsb']
  by_cases hw : off' + i < w
  · rw [getLsbD_setField off x v hw, if_neg (by omega)]
  · rw [BitVec.getLsbD_of_ge _ _ (by omega), BitVec.getLsbD_of_ge _ _ (by omega)]

end NoDrop.Fields
