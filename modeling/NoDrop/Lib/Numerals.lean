import Mathlib.Data.Nat.Digits.Lemmas
import Mathlib.Data.UInt
import Mathlib.Tactic.IntervalCases

/-! # Numbers as text

The conversions of `printf` for integers: a natural number in a base up to sixteen
(`numeral`), and an integer in decimal, padded with zeros to a width (`decimal`).

A client needs three things of them: the number can be read back (`readNumeral_numeral`,
`readDecimal_decimal`), so that different numbers have different texts; how long the text is
(`numeral_length_le`, `decimal_length_le`); and which characters it is made of
(`numeral_chars`, `decimal_ne_zero`).
-/
namespace NoDrop.Numerals

/-! ## Digits -/

/-- The character of a digit: `0` to `9`, then `a` to `f`. -/
def digitChar (d : Nat) : UInt8 := UInt8.ofNat (if d < 10 then 48 + d else 87 + d)

/-- The digit of a character. -/
def digitVal (c : UInt8) : Nat := if c.toNat < 58 then c.toNat - 48 else c.toNat - 87

theorem digitVal_digitChar {d : Nat} (h : d < 16) : digitVal (digitChar d) = d := by
  interval_cases d <;> rfl

/-- A digit is neither the end of a string nor a sign. -/
theorem digitChar_ne {d : Nat} (h : d < 16) : digitChar d ≠ 0 ∧ digitChar d ≠ 45 := by
  interval_cases d <;> decide

/-! ## Natural numbers -/

section Numeral

variable {base n : Nat}

/-- A number in a base, most significant digit first. -/
def numeral (base n : Nat) : List UInt8 :=
  if n = 0 then [48] else (Nat.digits base n).reverse.map digitChar

/-- The number that some digits denote. -/
def readNumeral (base : Nat) (s : List UInt8) : Nat :=
  s.foldl (fun n c => n * base + digitVal c) 0

theorem readNumeral_numeral (hb : 1 < base) (hb' : base ≤ 16) (n : Nat) :
    readNumeral base (numeral base n) = n := by
  unfold numeral readNumeral
  split
  · rename_i h0
    simp [h0, digitVal]
  · rw [List.foldl_map, List.foldl_reverse]
    have hdigits : (Nat.digits base n).foldr (fun d m => m * base + digitVal (digitChar d)) 0 =
        Nat.ofDigits base (Nat.digits base n) := by
      rw [Nat.ofDigits_eq_foldr]
      apply List.foldr_ext
      intro d hd m
      have hlt := Nat.digits_lt_base hb hd
      rw [digitVal_digitChar (Nat.lt_of_lt_of_le hlt hb'), Nat.cast_id, Nat.add_comm, Nat.mul_comm]
    rw [hdigits, Nat.ofDigits_digits]

theorem numeral_length_le (hb : 1 < base) {k : Nat} (hk : 0 < k) (hn : n < base ^ k) :
    (numeral base n).length ≤ k := by
  unfold numeral
  split
  · exact hk
  · rw [List.length_map, List.length_reverse]
    exact (Nat.digits_length_le_iff hb n).mpr hn

theorem numeral_chars (hb : 1 < base) (hb' : base ≤ 16) {c : UInt8} (hc : c ∈ numeral base n) :
    c ≠ 0 ∧ c ≠ 45 := by
  unfold numeral at hc
  split at hc
  · rw [List.mem_singleton.mp hc]
    decide
  · obtain ⟨d, hd, rfl⟩ := List.mem_map.mp hc
    have hlt := Nat.digits_lt_base hb (List.mem_reverse.mp hd)
    exact digitChar_ne (Nat.lt_of_lt_of_le hlt hb')

end Numeral

/-! ## Integers -/

section Decimal

/-- Zeros in front, up to a width. -/
def zeroPad (width : Nat) (s : List UInt8) : List UInt8 := List.replicate (width - s.length) 48 ++ s

/-- An integer in decimal, padded with zeros to a width. -/
def decimal (width : Nat) (v : Int) : List UInt8 :=
  if v < 0 then 45 :: zeroPad (width - 1) (numeral 10 v.natAbs)
  else zeroPad width (numeral 10 v.natAbs)

/-- The integer that a sign and digits denote. -/
def readDecimal : List UInt8 → Int
  | 45 :: s => -(readNumeral 10 s : Int)
  | s => readNumeral 10 s

theorem readNumeral_zeroPad (base width : Nat) (s : List UInt8) :
    readNumeral base (zeroPad width s) = readNumeral base s := by
  unfold readNumeral zeroPad
  rw [List.foldl_append]
  congr 1
  induction width - s.length with
  | zero => rfl
  | succ k ih => rw [List.replicate_succ', List.foldl_append, ih]; simp [digitVal]

theorem zeroPad_mem {width : Nat} {s : List UInt8} {c : UInt8} (hc : c ∈ zeroPad width s) :
    c = 48 ∨ c ∈ s := by
  rcases List.mem_append.mp hc with hc | hc
  · exact .inl (List.eq_of_mem_replicate hc)
  · exact .inr hc

/-- Digits do not begin with a sign. -/
theorem readDecimal_of_ne {s : List UInt8} (h : ∀ c ∈ s, c ≠ 45) :
    readDecimal s = readNumeral 10 s := by
  unfold readDecimal
  split
  · exact absurd rfl (h 45 List.mem_cons_self)
  · rfl

theorem readDecimal_decimal (width : Nat) (v : Int) : readDecimal (decimal width v) = v := by
  have hread := readNumeral_numeral (show 1 < 10 by decide) (by decide) v.natAbs
  unfold decimal
  split
  · show -(readNumeral 10 (zeroPad _ _) : Int) = v
    rw [readNumeral_zeroPad, hread]
    omega
  · rw [readDecimal_of_ne, readNumeral_zeroPad, hread]
    · omega
    · intro c hc
      rcases zeroPad_mem hc with rfl | hc
      · decide
      · exact (numeral_chars (by decide) (by decide) hc).2

theorem zeroPad_length (width : Nat) (s : List UInt8) :
    (zeroPad width s).length = max width s.length := by
  rw [zeroPad, List.length_append, List.length_replicate]
  omega

theorem decimal_length_le (width : Nat) {k : Nat} (hk : 0 < k) {v : Int} (hv : v.natAbs < 10 ^ k) :
    (decimal width v).length ≤ max width (k + 1) := by
  have hlen := numeral_length_le (by decide) hk hv
  unfold decimal
  split
  · rw [List.length_cons, zeroPad_length]
    omega
  · rw [zeroPad_length]
    omega

theorem decimal_ne_zero {width : Nat} {v : Int} {c : UInt8} (hc : c ∈ decimal width v) : c ≠ 0 := by
  have hpad : ∀ {k}, c ∈ zeroPad k (numeral 10 v.natAbs) → c ≠ 0 := by
    intro k hc
    rcases zeroPad_mem hc with rfl | hc
    · decide
    · exact (numeral_chars (by decide) (by decide) hc).1
  unfold decimal at hc
  split at hc
  · rcases List.mem_cons.mp hc with rfl | hc
    · decide
    · exact hpad hc
  · exact hpad hc

end Decimal

end NoDrop.Numerals
