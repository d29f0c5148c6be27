import NoDrop.Lib.Words
import Mathlib.Data.BitVec

/-! # The two-level index of the monitor's heap

`generic_fls`, `__ffs`, `__fls`, `mapping_insert` and `mapping_search` of `mmheap.c`.  Free
blocks are kept in lists by size: below 128 bytes one list for every four bytes, above it 32
lists for every power of two.  `mapping_insert` is the list of a size; `mapping_search` is the
first list all of whose blocks are large enough (`le_of_search_le`).
-/
namespace NoDrop.Mmheap

open Bytes

/-! ## Bits -/

/-- One step of `generic_fls`: if the bits of `mask` are clear, shift them out. -/
def flsStep (mask : BitVec 32) (k : Nat) (s : BitVec 32 × Nat) : BitVec 32 × Nat :=
  if s.1 &&& mask = 0 then (s.1 <<< k, s.2 - k) else s

/-- `generic_fls`. -/
def genericFls (x : BitVec 32) : Nat :=
  if x = 0 then 0
  else
    let s := flsStep 0xffff0000#32 16 (x, 32)
    let s := flsStep 0xff000000#32 8 s
    let s := flsStep 0xf0000000#32 4 s
    let s := flsStep 0xc0000000#32 2 s
    let s := flsStep 0x80000000#32 1 s
    s.2

/-- `__ffs`.  It is called for words other than 0 only. -/
def ffs (word : BitVec 32) : Nat := genericFls (word &&& (~~~word + 1)) - 1

/-- `__fls`.  It is called for words other than 0 only. -/
def fls (word : BitVec 32) : Nat := genericFls word - 1

theorem and_mask_eq_zero {x : BitVec 32} {k : Nat} (hk : k ≤ 32) :
    x &&& BitVec.ofNat 32 (2 ^ 32 - 2 ^ k) = 0 ↔ x.toNat < 2 ^ k := by
  have hlt : 2 ^ 32 - 2 ^ k < 2 ^ 32 := Nat.sub_lt (by decide) (Nat.two_pow_pos k)
  rw [← BitVec.toNat_inj, BitVec.toNat_and, BitVec.toNat_ofNat, Nat.mod_eq_of_lt hlt,
    and_highMask x.isLt hk]
  constructor
  · intro h
    have hz : x.toNat / 2 ^ k = 0 := by
      rcases Nat.mul_eq_zero.mp h with h | h
      · exact h
      · exact absurd h (Nat.two_pow_pos k).ne'
    exact (Nat.div_eq_zero_iff_lt (Nat.two_pow_pos k)).mp hz
  · intro h
    rw [Nat.div_eq_of_lt h, Nat.zero_mul]
    rfl

/-- What `generic_fls` knows after some steps: `x` has been shifted by `d`, and so much of it
is at the top. -/
def FlsInv (n : Nat) (k : Nat) (s : BitVec 32 × Nat) : Prop :=
  ∃ d, d < 32 ∧ s.2 = 32 - d ∧ s.1.toNat = n * 2 ^ d ∧ 2 ^ (32 - k) ≤ s.1.toNat

theorem flsStep_inv {n : Nat} {s : BitVec 32 × Nat} (mask : BitVec 32) (k : Nat)
    (hmask : mask = BitVec.ofNat 32 (2 ^ 32 - 2 ^ (32 - k))) (hk : 2 * k ≤ 32) (hn : 0 < n)
    (h : FlsInv n (2 * k) s) : FlsInv n k (flsStep mask k s) := by
  obtain ⟨d, hd, hr, hx, hlo⟩ := h
  unfold flsStep
  rw [hmask]
  by_cases htop : s.1.toNat < 2 ^ (32 - k)
  · rw [if_pos ((and_mask_eq_zero (by omega)).mpr htop)]
    have hpow : 2 ^ 32 = 2 ^ (32 - k) * 2 ^ k := by rw [← Nat.pow_add]; congr 1; omega
    have hnow : n * 2 ^ (d + k) = s.1.toNat * 2 ^ k := by rw [hx, Nat.pow_add, Nat.mul_assoc]
    have hfit : n * 2 ^ (d + k) < 2 ^ 32 := by
      rw [hnow, hpow]
      exact Nat.mul_lt_mul_of_pos_right htop (Nat.two_pow_pos k)
    refine ⟨d + k, ?_, ?_, ?_, ?_⟩
    · have hle : 2 ^ (d + k) ≤ n * 2 ^ (d + k) := Nat.le_mul_of_pos_left _ hn
      exact (Nat.pow_lt_pow_iff_right (by decide)).mp (Nat.lt_of_le_of_lt hle hfit)
    · show s.2 - k = _
      omega
    · rw [BitVec.toNat_shiftLeft, Nat.shiftLeft_eq, ← hnow, Nat.mod_eq_of_lt hfit]
    · rw [BitVec.toNat_shiftLeft, Nat.shiftLeft_eq, ← hnow, Nat.mod_eq_of_lt hfit, hnow]
      calc 2 ^ (32 - k) = 2 ^ (32 - 2 * k) * 2 ^ k := by rw [← Nat.pow_add]; congr 1; omega
        _ ≤ s.1.toNat * 2 ^ k := Nat.mul_le_mul_right _ hlo
  · rw [if_neg (mt (and_mask_eq_zero (by omega)).mp htop)]
    exact ⟨d, hd, hr, hx, Nat.le_of_not_lt htop⟩

/-- With a bit in the highest place the count is known. -/
theorem FlsInv.eq_log2 {n : Nat} {s : BitVec 32 × Nat} (hn : 0 < n) (h : FlsInv n 1 s) :
    s.2 = n.log2 + 1 := by
  obtain ⟨d, hd, hr, hs, hlo⟩ := h
  have hhi := s.1.isLt
  rw [hs] at hlo hhi
  have hlog : n.log2 = 31 - d := by
    refine (Nat.log2_eq_iff hn.ne').mpr ⟨?_, ?_⟩
    · have hpow : 2 ^ (32 - 1) = 2 ^ (31 - d) * 2 ^ d := by rw [← Nat.pow_add]; congr 1; omega
      rw [hpow] at hlo
      exact Nat.le_of_mul_le_mul_right hlo (Nat.two_pow_pos d)
    · have hpow : 2 ^ 32 = 2 ^ (31 - d + 1) * 2 ^ d := by rw [← Nat.pow_add]; congr 1; omega
      rw [hpow] at hhi
      exact Nat.lt_of_mul_lt_mul_right hhi
  omega

/-- **`generic_fls` is one more than the logarithm.** -/
theorem genericFls_eq {x : BitVec 32} (hx : x ≠ 0) : genericFls x = x.toNat.log2 + 1 := by
  have hpos : 0 < x.toNat := Nat.pos_of_ne_zero fun h => hx (BitVec.eq_of_toNat_eq h)
  have h32 : FlsInv x.toNat 32 (x, 32) := ⟨0, by decide, rfl, (Nat.mul_one _).symm, hpos⟩
  have h16 := flsStep_inv 0xffff0000#32 16 rfl (by decide) hpos h32
  have h8 := flsStep_inv 0xff000000#32 8 rfl (by decide) hpos h16
  have h4 := flsStep_inv 0xf0000000#32 4 rfl (by decide) hpos h8
  have h2 := flsStep_inv 0xc0000000#32 2 rfl (by decide) hpos h4
  have h1 := flsStep_inv 0x80000000#32 1 rfl (by decide) hpos h2
  rw [genericFls, if_neg hx]
  exact h1.eq_log2 hpos

/-- `word & -word` is the lowest bit of `word`. -/
theorem and_neg_eq {x : BitVec 32} {i : Nat} (hi : x.getLsbD i = true)
    (hlow : ∀ j < i, x.getLsbD j = false) : x &&& (~~~x + 1) = BitVec.twoPow 32 i := by
  have hi32 : i < 32 := BitVec.lt_of_getLsbD hi
  have hneg : ~~~x + 1 = -x := (BitVec.neg_eq_not_add x).symm
  rw [hneg]
  apply BitVec.eq_of_getLsbD_eq
  intro j hj
  rw [BitVec.getLsbD_and, BitVec.getLsbD_neg, BitVec.getLsbD_twoPow]
  rcases Nat.lt_trichotomy j i with hlt | rfl | hgt
  · simp [hlow j hlt, hlt.ne']
  · have hno : ¬ ∃ k < j, x.getLsbD k = true := by
      rintro ⟨k, hk, hbit⟩
      simp [hlow k hk] at hbit
    simp [hi, hi32, hno]
  · have hex : ∃ k < j, x.getLsbD k = true := ⟨i, hgt, hi⟩
    cases hbit : x.getLsbD j
    · simp [hgt.ne]
    · simp [hj, hgt.ne, hex]

/-- **`__ffs` is the lowest bit.** -/
theorem ffs_spec {x : BitVec 32} (hx : x ≠ 0) :
    ffs x < 32 ∧ x.getLsbD (ffs x) = true ∧ ∀ j < ffs x, x.getLsbD j = false := by
  have hex : ∃ i, x.getLsbD i = true := by
    by_contra hno
    refine hx (BitVec.eq_of_getLsbD_eq fun i _ => ?_)
    cases hbit : x.getLsbD i
    · simp
    · exact absurd ⟨i, hbit⟩ hno
  have hi := Nat.find_spec hex
  have hlow : ∀ j < Nat.find hex, x.getLsbD j = false := fun j hj =>
    Bool.eq_false_iff.mpr (Nat.find_min hex hj)
  have hi32 : Nat.find hex < 32 := BitVec.lt_of_getLsbD hi
  have hffs : ffs x = Nat.find hex := by
    have hpow : (BitVec.twoPow 32 (Nat.find hex)).toNat = 2 ^ Nat.find hex := by
      rw [BitVec.toNat_twoPow_of_lt hi32]
    have hne : BitVec.twoPow 32 (Nat.find hex) ≠ 0 := by
      intro h
      rw [h] at hpow
      exact absurd hpow.symm (Nat.two_pow_pos _).ne'
    rw [ffs, and_neg_eq hi hlow, genericFls_eq hne, hpow, Nat.log2_two_pow, Nat.add_sub_cancel]
  rw [hffs]
  exact ⟨hi32, hi, hlow⟩

/-! ## Size classes -/

/-- `NOD_MMHEAP_SL_INDEX_COUNT_LOG2`. -/
def slIndexCountLog2 : Nat := 5

/-- `NOD_MMHEAP_SL_INDEX_COUNT`. -/
def slIndexCount : Nat := 1 <<< slIndexCountLog2

/-- `NOD_MMHEAP_ALIGN_SIZE`. -/
def alignSize : Nat := 1 <<< 2

/-- `NOD_MMHEAP_FL_INDEX_MAX`. -/
def flIndexMax : Nat := 30

/-- `NOD_MMHEAP_FL_INDEX_SHIFT`. -/
def flIndexShift : Nat := slIndexCountLog2 + 2

/-- `NOD_MMHEAP_FL_INDEX_COUNT`. -/
def flIndexCount : Nat := flIndexMax - flIndexShift + 1

/-- `NOD_MMHEAP_SMALL_BLOCK_SIZE`. -/
def smallBlockSize : Nat := 1 <<< flIndexShift

/-- `mapping_insert`: the indices of the list for `size`. -/
def mappingInsert (size : Nat) : Nat × Nat :=
  if size < smallBlockSize then (0, size / (smallBlockSize / slIndexCount))
  else
    let fl := fls (BitVec.ofNat 32 size)
    (fl - (flIndexShift - 1), (size >>> (fl - slIndexCountLog2)) ^^^ (1 <<< slIndexCountLog2))

/-- `mapping_search`: the indices of the first list to look in for `size`. -/
def mappingSearch (size : Nat) : Nat × Nat :=
  mappingInsert <|
    if size ≥ smallBlockSize then
      size + ((1 <<< (fls (BitVec.ofNat 32 size) - slIndexCountLog2)) - 1)
    else size

/-- The lists in order of the sizes of their blocks. -/
def ClassLe (c d : Nat × Nat) : Prop := c.1 < d.1 ∨ c.1 = d.1 ∧ c.2 ≤ d.2

variable {s t : Nat}

theorem mappingInsert_small (h : s < 128) : mappingInsert s = (0, s / 4) := if_pos h

theorem genericFls_ofNat (hpos : 0 < s) (hlt : s < 2 ^ 32) :
    genericFls (BitVec.ofNat 32 s) = s.log2 + 1 := by
  have hnat : (BitVec.ofNat 32 s).toNat = s := by rw [BitVec.toNat_ofNat, Nat.mod_eq_of_lt hlt]
  have hne : BitVec.ofNat 32 s ≠ 0 := by
    intro h
    rw [h] at hnat
    exact absurd hnat.symm hpos.ne'
  rw [genericFls_eq hne, hnat]

theorem fls_ofNat (hpos : 0 < s) (hlt : s < 2 ^ 32) : fls (BitVec.ofNat 32 s) = s.log2 := by
  rw [fls, genericFls_ofNat hpos hlt, Nat.add_sub_cancel]

theorem seven_le_log2 (h : 128 ≤ s) : 7 ≤ s.log2 :=
  (Nat.le_log2 (by omega)).mpr h

/-- The five bits below the highest one. -/
theorem leading_bits (h : 128 ≤ s) :
    32 ≤ s / 2 ^ (s.log2 - 5) ∧ s / 2 ^ (s.log2 - 5) < 64 := by
  have hlog := seven_le_log2 h
  constructor
  · rw [Nat.le_div_iff_mul_le (Nat.two_pow_pos _)]
    calc 32 * 2 ^ (s.log2 - 5) = 2 ^ s.log2 := by
          rw [show 32 = 2 ^ 5 from rfl, ← Nat.pow_add]; congr 1; omega
      _ ≤ s := Nat.log2_self_le (by omega)
  · rw [Nat.div_lt_iff_lt_mul (Nat.two_pow_pos _)]
    calc s < 2 ^ (s.log2 + 1) := Nat.lt_log2_self
      _ = 64 * 2 ^ (s.log2 - 5) := by
          rw [show 64 = 2 ^ 6 from rfl, ← Nat.pow_add]; congr 1; omega

theorem xor_leading : ∀ q < 64, 32 ≤ q → q ^^^ 32 = q - 32 := by decide

theorem mappingInsert_large (h : 128 ≤ s) (hlt : s < 2 ^ 32) :
    mappingInsert s = (s.log2 - 6, s / 2 ^ (s.log2 - 5) - 32) := by
  obtain ⟨hlo, hhi⟩ := leading_bits h
  have hnot : ¬ s < smallBlockSize := Nat.not_lt.mpr h
  rw [mappingInsert, if_neg hnot, fls_ofNat (by omega) hlt]
  show (s.log2 - 6, (s >>> (s.log2 - 5)) ^^^ 32) = _
  rw [Nat.shiftRight_eq_div_pow, xor_leading _ hhi hlo]

/-- **The indices are in range** for every size below 2^30. -/
theorem mappingInsert_lt (h : s < 2 ^ 30) :
    (mappingInsert s).1 < flIndexCount ∧ (mappingInsert s).2 < slIndexCount := by
  show (mappingInsert s).1 < 24 ∧ (mappingInsert s).2 < 32
  by_cases hs : s < 128
  · rw [mappingInsert_small hs]
    constructor
    · show 0 < 24
      decide
    · show s / 4 < 32
      omega
  · have hs : 128 ≤ s := Nat.le_of_not_lt hs
    rw [mappingInsert_large hs (by omega)]
    obtain ⟨hlo, hhi⟩ := leading_bits hs
    constructor
    · have hlog : s.log2 < 30 := (Nat.log2_lt (by omega)).mpr h
      show s.log2 - 6 < 24
      omega
    · show s / 2 ^ (s.log2 - 5) - 32 < 32
      omega

theorem log2_mono (hs : 0 < s) (h : s ≤ t) : s.log2 ≤ t.log2 :=
  (Nat.le_log2 (by omega)).mpr (Nat.le_trans (Nat.log2_self_le hs.ne') h)

/-- A larger size is not in an earlier list. -/
theorem mappingInsert_mono (h : s ≤ t) (ht : t < 2 ^ 32) :
    ClassLe (mappingInsert s) (mappingInsert t) := by
  by_cases hs : s < 128
  · rw [mappingInsert_small hs]
    by_cases ht' : t < 128
    · rw [mappingInsert_small ht']
      exact Or.inr ⟨rfl, Nat.div_le_div_right h⟩
    · have ht' : 128 ≤ t := Nat.le_of_not_lt ht'
      have hlog := seven_le_log2 ht'
      rw [mappingInsert_large ht' ht]
      refine Or.inl ?_
      show 0 < t.log2 - 6
      omega
  · have hs : 128 ≤ s := Nat.le_of_not_lt hs
    have hlog := seven_le_log2 hs
    rw [mappingInsert_large hs (by omega), mappingInsert_large (by omega) ht]
    have hle := log2_mono (by omega) h
    rcases Nat.lt_or_eq_of_le hle with hlt | heq
    · refine Or.inl ?_
      show s.log2 - 6 < t.log2 - 6
      omega
    · refine Or.inr ⟨?_, ?_⟩
      · show s.log2 - 6 = t.log2 - 6
        omega
      · show s / 2 ^ (s.log2 - 5) - 32 ≤ t / 2 ^ (t.log2 - 5) - 32
        rw [heq]
        exact Nat.sub_le_sub_right (Nat.div_le_div_right h) 32

/-- The size `mapping_search` looks for. -/
theorem mappingSearch_large (h : 128 ≤ s) (hlt : s < 2 ^ 32) :
    mappingSearch s = mappingInsert (s + (2 ^ (s.log2 - 5) - 1)) := by
  have hle : s ≥ smallBlockSize := h
  rw [mappingSearch, if_pos hle, fls_ofNat (by omega) hlt, Nat.one_shiftLeft]
  rfl

theorem round_lt (h : 128 ≤ s) (hlt : s ≤ 2 ^ 30) : s + (2 ^ (s.log2 - 5) - 1) < 2 ^ 31 := by
  have hlog : s.log2 < 31 := (Nat.log2_lt (by omega)).mpr (by omega)
  have hpow : 2 ^ (s.log2 - 5) ≤ 2 ^ 25 := Nat.pow_le_pow_right (by decide) (by omega)
  omega

/-- **Good fit**: a block from a list at or behind the first one looked in is large enough. -/
theorem le_of_search_le (hs : s % 4 = 0) (hlt : s ≤ 2 ^ 30) (ht : t < 2 ^ 32)
    (h : ClassLe (mappingSearch s) (mappingInsert t)) : s ≤ t := by
  by_contra hts
  have hts : t < s := Nat.lt_of_not_le hts
  by_cases hsmall : s < 128
  · have hsearch : mappingSearch s = (0, s / 4) := by
      have hnot : ¬ s ≥ smallBlockSize := Nat.not_le.mpr hsmall
      rw [mappingSearch, if_neg hnot, mappingInsert_small hsmall]
    rw [hsearch, mappingInsert_small (by omega)] at h
    rcases h with h | ⟨-, h⟩
    · exact absurd h (Nat.lt_irrefl 0)
    · have : s / 4 ≤ t / 4 := h
      omega
  have hsmall : 128 ≤ s := Nat.le_of_not_lt hsmall
  have hround := round_lt hsmall hlt
  have hlog := seven_le_log2 hsmall
  have hpow := Nat.two_pow_pos (s.log2 - 5)
  have hmono : s.log2 ≤ (s + (2 ^ (s.log2 - 5) - 1)).log2 := log2_mono (by omega) (by omega)
  rw [mappingSearch_large hsmall (by omega), mappingInsert_large (by omega) (by omega)] at h
  by_cases htsmall : t < 128
  · rw [mappingInsert_small htsmall] at h
    rcases h with h | ⟨h, -⟩
    · exact absurd h (Nat.not_lt_zero _)
    · have : (s + (2 ^ (s.log2 - 5) - 1)).log2 - 6 = 0 := h
      omega
  have htsmall : 128 ≤ t := Nat.le_of_not_lt htsmall
  have htlog := seven_le_log2 htsmall
  have hmono' : t.log2 ≤ s.log2 := log2_mono (by omega) hts.le
  rw [mappingInsert_large htsmall ht] at h
  rcases h with h | ⟨h, hsl⟩
  · have : (s + (2 ^ (s.log2 - 5) - 1)).log2 - 6 < t.log2 - 6 := h
    omega
  · have hfl : (s + (2 ^ (s.log2 - 5) - 1)).log2 - 6 = t.log2 - 6 := h
    -- all three are between the same powers of two
    have hlt' : t.log2 = s.log2 := by omega
    have hls : (s + (2 ^ (s.log2 - 5) - 1)).log2 = s.log2 := by omega
    simp only [hls, hlt'] at hsl
    have hq := (leading_bits htsmall).1
    rw [hlt'] at hq
    have hstep : t / 2 ^ (s.log2 - 5) + 1 ≤ (s + (2 ^ (s.log2 - 5) - 1)) / 2 ^ (s.log2 - 5) := by
      rw [← Nat.add_div_right _ hpow]
      exact Nat.div_le_div_right (by omega)
    omega

end NoDrop.Mmheap
