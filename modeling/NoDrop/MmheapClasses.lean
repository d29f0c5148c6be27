import NoDrop.MmheapIndex
import Mathlib.Data.Prod.Lex

/-! # Size classes in machine arithmetic

`mapping_insert` and `mapping_search` as the machine computes them: sizes are 64-bit words, `__fls`
takes 32 bits of them, and the indices are `int`s.  Up to 2^31 that makes no difference
(`mappingInsertInt_eq`), and the heap has no larger blocks.

The mapping goes up with the size, and what `mapping_search` finds is large enough
(`mapping_good_fit`), as long as the size it rounds up to has 32 bits.
-/
namespace NoDrop.Mmheap

open Bytes

/-- `__fls` of a size, which is -1 for 0. -/
def flsInt (size : Nat) : Int := genericFls (BitVec.ofNat 32 size) - 1

/-- `mapping_insert`.  A shift by less than 0 is not defined. -/
def mappingInsertInt (size : Nat) : Option (Int × Int) :=
  if size < smallBlockSize then some (0, (size / (smallBlockSize / slIndexCount) : Nat))
  else
    let fl := flsInt size
    if fl < slIndexCountLog2 then none
    else
      let sl := (BitVec.ofNat 32 size).sshiftRight (fl - slIndexCountLog2).toNat ^^^
        (1#32 <<< slIndexCountLog2)
      some (fl - (flIndexShift - 1 : Nat), sl.toInt)

/-- `mapping_search`. -/
def mappingSearchInt (size : Nat) : Option (Int × Int) :=
  if size ≥ smallBlockSize then
    let fl := flsInt size
    if fl < slIndexCountLog2 then none
    else
      let round := (1 <<< (fl - slIndexCountLog2).toNat) - 1
      mappingInsertInt ((size + round) % 2 ^ 64)
  else mappingInsertInt size

variable {s t : Nat}

theorem flsInt_eq (hpos : 0 < s) (hlt : s < 2 ^ 32) : flsInt s = s.log2 := by
  rw [flsInt, genericFls_ofNat hpos hlt]
  omega

/-- A size of 32 bits has a first index, whatever becomes of the second one. -/
theorem mappingInsertInt_fst (h : 128 ≤ s) (hlt : s < 2 ^ 32) :
    mappingInsertInt s = some ((s.log2 : Int) - 6,
      ((BitVec.ofNat 32 s).sshiftRight (s.log2 - 5) ^^^ 32#32).toInt) := by
  have hlog := seven_le_log2 h
  have hnot : ¬ s < smallBlockSize := Nat.not_lt.mpr h
  have hfl := flsInt_eq (show 0 < s by omega) hlt
  have hge : ¬ (s.log2 : Int) < (slIndexCountLog2 : Nat) := by
    show ¬ (s.log2 : Int) < 5
    omega
  have hshift : ((s.log2 : Int) - (slIndexCountLog2 : Nat)).toNat = s.log2 - 5 := by
    show ((s.log2 : Int) - 5).toNat = _
    omega
  rw [mappingInsertInt, if_neg hnot, hfl]
  dsimp only
  rw [if_neg hge, hshift]
  rfl

/-- **The heap's mapping is the machine's**, for all sizes that an `int` has. -/
theorem mappingInsertInt_eq (hlt : s < 2 ^ 31) :
    mappingInsertInt s = some (((mappingInsert s).1 : Int), ((mappingInsert s).2 : Int)) := by
  by_cases hs : s < 128
  · have hsmall : s < smallBlockSize := hs
    rw [mappingInsertInt, if_pos hsmall, mappingInsert_small hs]
    rfl
  · have hs : 128 ≤ s := Nat.le_of_not_lt hs
    have hlog := seven_le_log2 hs
    obtain ⟨hlo, hhi⟩ := leading_bits hs
    have hnat : (BitVec.ofNat 32 s).toNat = s := by
      rw [BitVec.toNat_ofNat, Nat.mod_eq_of_lt (by omega)]
    have hmsb : (BitVec.ofNat 32 s).msb = false := by
      rw [BitVec.msb_eq_false_iff_two_mul_lt, hnat]
      omega
    have hsl : ((BitVec.ofNat 32 s).sshiftRight (s.log2 - 5) ^^^ 32#32).toNat =
        s / 2 ^ (s.log2 - 5) - 32 := by
      rw [BitVec.sshiftRight_eq_of_msb_false hmsb, BitVec.toNat_xor, BitVec.toNat_ushiftRight,
        hnat, Nat.shiftRight_eq_div_pow]
      exact xor_leading _ hhi hlo
    rw [mappingInsertInt_fst hs (by omega), mappingInsert_large hs (by omega),
      BitVec.toInt_eq_toNat_of_lt (by omega), hsl]
    congr 2
    omega

/-- The rounding adds less than a 32nd. -/
theorem mappingSearchInt_large (h : 128 ≤ s) (hlt : s < 2 ^ 32) :
    mappingSearchInt s = mappingInsertInt (s + (2 ^ (s.log2 - 5) - 1)) := by
  have hlog := seven_le_log2 h
  have hlog' : s.log2 < 32 := (Nat.log2_lt (by omega)).mpr hlt
  have hpow : 2 ^ (s.log2 - 5) ≤ 2 ^ 26 := Nat.pow_le_pow_right (by decide) (by omega)
  have hle : s ≥ smallBlockSize := h
  have hge : ¬ (s.log2 : Int) < (slIndexCountLog2 : Nat) := by
    show ¬ (s.log2 : Int) < 5
    omega
  have hshift : ((s.log2 : Int) - (slIndexCountLog2 : Nat)).toNat = s.log2 - 5 := by
    show ((s.log2 : Int) - 5).toNat = _
    omega
  rw [mappingSearchInt, if_pos hle, flsInt_eq (by omega) hlt]
  dsimp only
  rw [if_neg hge, hshift, Nat.one_shiftLeft, Nat.mod_eq_of_lt (by omega)]

/-- `mapping_search` is the heap's as well. -/
theorem mappingSearchInt_eq (hlt : s ≤ 2 ^ 30) :
    mappingSearchInt s = some (((mappingSearch s).1 : Int), ((mappingSearch s).2 : Int)) := by
  by_cases hs : s < 128
  · have hnot : ¬ s ≥ smallBlockSize := Nat.not_le.mpr hs
    rw [mappingSearchInt, if_neg hnot, mappingInsertInt_eq (by omega), mappingSearch, if_neg hnot]
  · have hs : 128 ≤ s := Nat.le_of_not_lt hs
    rw [mappingSearchInt_large hs (by omega), mappingSearch_large hs (by omega),
      mappingInsertInt_eq (round_lt hs hlt)]

/-- The order of the lists is the lexicographic one. -/
theorem classLe_iff (c d : Nat × Nat) :
    toLex ((c.1 : Int), (c.2 : Int)) ≤ toLex ((d.1 : Int), (d.2 : Int)) ↔ ClassLe c d := by
  rw [Prod.Lex.toLex_le_toLex, ClassLe]
  simp only [Int.ofNat_lt, Int.ofNat_le, Int.ofNat_inj]

/-- A size whose rounding has 32 bits is looked for somewhere. -/
theorem mappingSearchInt_some (h : 128 ≤ s) (hsmall : s ≤ 2 ^ 32 - 2 ^ 26) :
    ∃ sl, mappingSearchInt s =
      some (((s + (2 ^ (s.log2 - 5) - 1)).log2 : Int) - 6, sl) := by
  have hlog : s.log2 < 32 := (Nat.log2_lt (by omega)).mpr (by omega)
  have hpow : 2 ^ (s.log2 - 5) ≤ 2 ^ 26 := Nat.pow_le_pow_right (by decide) (by omega)
  rw [mappingSearchInt_large h (by omega)]
  exact ⟨_, mappingInsertInt_fst (by omega) (by omega)⟩

/-- Behind the last list there is no block. -/
theorem not_le_of_large {sl : Int} {d : Int × Int} (hs : 2 ^ 30 ≤ s) (ht : t < 2 ^ 30)
    (hd : mappingInsertInt t = some d) :
    ¬ toLex (((s + (2 ^ (s.log2 - 5) - 1)).log2 : Int) - 6, sl) ≤ toLex d := by
  have hlog : 30 ≤ (s + (2 ^ (s.log2 - 5) - 1)).log2 := (Nat.le_log2 (by omega)).mpr (by omega)
  have hlast : (mappingInsert t).1 < 24 := (mappingInsert_lt ht).1
  rw [mappingInsertInt_eq (by omega)] at hd
  obtain rfl := Option.some.inj hd
  rw [Prod.Lex.toLex_le_toLex]
  dsimp only
  omega

/-- **The two-level mapping**: the bit searches are exact, sizes below 2^30 have a list, larger
sizes are not in earlier lists, and a block from a list at or behind the one looked in is large
enough. -/
theorem mapping_good_fit :
    (∀ x : BitVec 32, x ≠ 0 → genericFls x = x.toNat.log2 + 1 ∧
      x.getLsbD (ffs x) = true ∧ ∀ j < ffs x, x.getLsbD j = false) ∧
    (∀ t < 2 ^ 30, ∃ fl sl : Nat, mappingInsertInt t = some ((fl : Int), (sl : Int)) ∧
      fl < flIndexCount ∧ sl < slIndexCount) ∧
    (∀ s t c d, s ≤ t → t < 2 ^ 30 → mappingInsertInt s = some c → mappingInsertInt t = some d →
      toLex c ≤ toLex d) ∧
    ∀ s, s % 4 = 0 → s ≤ 2 ^ 32 - 2 ^ 26 → ∃ c, mappingSearchInt s = some c ∧
      ∀ t d, t < 2 ^ 30 → mappingInsertInt t = some d → toLex c ≤ toLex d → s ≤ t := by
  refine ⟨fun x hx => ⟨genericFls_eq hx, (ffs_spec hx).2⟩, fun t ht => ?_, ?_, ?_⟩
  · exact ⟨_, _, mappingInsertInt_eq (by omega), mappingInsert_lt ht⟩
  · intro s t c d hle ht hc hd
    rw [mappingInsertInt_eq (show s < 2 ^ 31 by omega)] at hc
    rw [mappingInsertInt_eq (show t < 2 ^ 31 by omega)] at hd
    obtain rfl := Option.some.inj hc
    obtain rfl := Option.some.inj hd
    exact (classLe_iff _ _).mpr (mappingInsert_mono hle (by omega))
  · intro s hs4 hsmall
    rcases Nat.lt_or_ge s (2 ^ 30) with hs | hs
    · refine ⟨_, mappingSearchInt_eq (by omega), fun t d ht hd hcd => ?_⟩
      rw [mappingInsertInt_eq (by omega)] at hd
      obtain rfl := Option.some.inj hd
      exact le_of_search_le hs4 (by omega) (by omega) ((classLe_iff _ _).mp hcd)
    · obtain ⟨sl, hc⟩ := mappingSearchInt_some (show 128 ≤ s by omega) hsmall
      exact ⟨_, hc, fun t d ht hd hcd => absurd hcd (not_le_of_large hs ht hd)⟩

/-- The size that 2^32 - 4 is rounded up to has 33 bits, and `mapping_search` looks in a list of
blocks of 2^26 - 2^20 bytes and more. -/
theorem mapping_search_wraps : ¬ ∀ s t c d, s < 2 ^ 64 → s % 4 = 0 → t < 2 ^ 30 →
    mappingSearchInt s = some c → mappingInsertInt t = some d → toLex c ≤ toLex d → s ≤ t := by
  intro h
  have hle := h (2 ^ 32 - 4) (2 ^ 26 - 4) (19, 31) (19, 31) (by decide) (by decide) (by decide)
    (by decide +kernel) (by decide +kernel) le_rfl
  exact absurd hle (by decide)

end NoDrop.Mmheap
