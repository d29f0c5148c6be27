import NoDrop.MmheapRuns

/-! # Aligned allocations

`nod_mmheap_aligned_alloc` looks for a block that has room for the gap before the next multiple of
`align`, and cuts the gap off.  The gap is large enough to be a free block, so it may reach beyond
the next multiple; `blk_trim_free_leading` does not cut it off if too little is left behind it, and
nobody looks at that.

What is left is enough for every alignment but one (`gap_splits`): for 8 bytes and a small request
the block looked for has 64 bytes, the gap may be 36, and 68 are needed to cut it off.
-/
namespace NoDrop.Mmheap

open Bytes

variable {h : Heap} {len : Nat → Nat} {pool : Nat → List Blk} {x s a b size k gap : Nat} {f q : Bool}

/-- **What the caller relies on**: a pointer is a multiple of `align`, and the block there has room
for `size` bytes. -/
def ServesAligned (h : Heap) (size align : Nat) : Prop :=
  (h.nodMmheapAlignedAlloc size align).1 ≠ 0 →
    align ∣ (h.nodMmheapAlignedAlloc size align).1 ∧
    size ≤ (h.nodMmheapAlignedAlloc size align).2.blkSize
      (Heap.blkFromPtr (h.nodMmheapAlignedAlloc size align).1)

/-- **The request that fails**: 8 bytes for a block of the least size, while the first free block of
64 bytes is 4 bytes behind a multiple of 8. -/
def Misaligns (h : Heap) (size align : Nat) : Prop :=
  align = 8 ∧ size ≤ blkSizeMin ∧ h.blocks 0 16 ≠ h.blockNull ∧ h.blocks 0 16 % 8 = 4

/-! ## The pointer returned -/

/-- `blk_trim_free_leading` goes on with the block behind the gap, if it cuts it off. -/
theorem blkTrimFreeLeading_fst (H : Header h.mem b s f q) (hgap : 8 ≤ gap) :
    (h.blkTrimFreeLeading b gap).1 = if s ≥ 32 + gap then b + gap else b := by
  rw [Heap.blkTrimFreeLeading, blkCanSplit_eq H]
  by_cases hsplit : s ≥ 32 + gap
  · rw [if_pos (decide_eq_true hsplit), if_pos hsplit]
    show ((b + 16 : Nat) + (((gap - 8 : Nat) : Int) - 8)).toNat = b + gap
    omega
  · rw [decide_eq_false hsplit, if_neg hsplit]
    rfl

theorem blkPrepareUsed_fst (hb : b ≠ 0) : (h.blkPrepareUsed b a).1 = b + 16 := by
  rw [Heap.blkPrepareUsed, if_neg hb]
  rfl

/-- **The pointer is behind the gap, or the gap is left where it is.** -/
theorem Inv.alignedAlloc_fst (I : Inv h len pool) (hx : Cell h.poolStart pool x (s, true))
    {align : Nat} (hfound : h.blkLocateFree (Heap.alignedSize size align) = (x, h.blkRemove x))
    (hgap : Heap.alignGap (x + 16) align = 0 ∨ 32 ≤ Heap.alignGap (x + 16) align) :
    (h.nodMmheapAlignedAlloc size align).1 =
      if s ≥ 32 + Heap.alignGap (x + 16) align then x + Heap.alignGap (x + 16) align + 16
      else x + 16 := by
  have hpos := I.rep.cell_pos hx
  obtain ⟨⟨p, l₁, l₂, Φ⟩, -⟩ := I.take hx
  have H : Header (h.blkRemove x).mem x s true (lastFree false l₁) := Φ.seg.1.1
  rw [Heap.nodMmheapAlignedAlloc, hfound]
  simp only
  rw [if_neg hpos.ne', show Heap.blkToPtr x = x + 16 from rfl]
  rcases hgap with hgap | hgap
  · rw [hgap, if_neg (not_not.mpr rfl), blkPrepareUsed_fst hpos.ne', Nat.add_zero, ite_self]
  · rw [if_pos (by omega), blkTrimFreeLeading_fst H (by omega)]
    by_cases hsplit : s ≥ 32 + Heap.alignGap (x + 16) align
    · rw [if_pos hsplit, if_pos hsplit, blkPrepareUsed_fst (by omega)]
    · rw [if_neg hsplit, if_neg hsplit, blkPrepareUsed_fst hpos.ne']

/-! ## The size of the block -/

/-- The least size is given to every small request. -/
theorem adjustRequestSize_small : ∀ n ≤ blkSizeMin, n ≠ 0 →
    Heap.adjustRequestSize n alignSize = 24 := by decide

/-- The block looked for if that is to be at a multiple of 8. -/
theorem alignedSize_eight (hpos : 0 < size) (hmin : size ≤ blkSizeMin) :
    Heap.alignedSize size (2 ^ 3) = 64 := by
  rw [Heap.alignedSize, adjustRequestSize_small size hmin hpos.ne']
  decide

/-- A size above the least one is a multiple of `align`. -/
theorem adjustRequestSize_mod (hk : k < 64) (hk' : 2 ≤ k) (hlarge : 24 < a) (ha : a < 2 ^ 64) :
    Heap.adjustRequestSize a (2 ^ k) % 2 ^ k = 0 := by
  have hspec := adjustRequestSize_spec hk' hk ha
  unfold Heap.adjustRequestSize at hspec ⊢
  rw [if_neg (by omega)] at hspec ⊢
  simp only at hspec ⊢
  by_cases hbad : Heap.alignUp a (2 ^ k) = 0 ∨ Heap.alignUp a (2 ^ k) > blkSizeMax
  · rw [if_pos hbad, Nat.zero_mod]
  rw [if_neg hbad] at hspec ⊢
  by_cases hmin : Heap.alignUp a (2 ^ k) > blkSizeMin
  · rw [if_pos hmin, alignUp_eq hk, Nat.mul_mod_left]
  · -- the least size has no room for `a`
    rw [if_neg hmin] at hspec
    rcases hspec with hz | ⟨-, -, -, hge⟩
    · exact absurd hz (by decide)
    · exact absurd hge (Nat.not_le.mpr hlarge)

/-- The block looked for is a multiple of a large alignment. -/
theorem alignedSize_mod (hk3 : 3 ≤ k) (hk : k < 64) (hsize : size < 2 ^ 64) :
    Heap.alignedSize size (2 ^ k) % 2 ^ k = 0 := by
  have hpow : 2 ^ 3 ≤ 2 ^ k := Nat.pow_le_pow_right (by decide) hk3
  have hpow' : 2 ^ k ≤ 2 ^ 63 := Nat.pow_le_pow_right (by decide) (by omega)
  rw [Heap.alignedSize]
  rcases adjustRequestSize_spec (k := 2) (by decide) (by decide) hsize with hz | ⟨h24, hle, -, -⟩
  · have hz : Heap.adjustRequestSize size alignSize = 0 := hz
    rw [hz, if_neg fun hc => hc.1 rfl, Nat.zero_mod]
  · have hne : Heap.adjustRequestSize size alignSize ≠ 0 := Nat.ne_zero_of_lt h24
    have hlt : Heap.adjustRequestSize size alignSize + 2 ^ k + blkStructSize < 2 ^ 64 := by
      have hle : Heap.adjustRequestSize size alignSize ≤ 2 ^ 30 := hle
      show _ + 2 ^ k + 32 < 2 ^ 64
      omega
    rw [if_pos ⟨hne, Nat.lt_of_lt_of_le (by decide) hpow⟩, Nat.mod_eq_of_lt hlt]
    refine adjustRequestSize_mod hk (by omega) ?_ hlt
    show 24 < _ + 2 ^ k + 32
    omega

/-- **The block looked for has room to cut the largest gap off**, but for the small requests of 8
bytes. -/
theorem gap_splits (hk3 : 3 ≤ k) (hk : k < 64) (hsize : size < 2 ^ 64)
    (hne : Heap.alignedSize size (2 ^ k) ≠ 0) (hgood : ¬ (k = 3 ∧ size ≤ blkSizeMin)) :
    2 ^ k + 60 ≤ Heap.alignedSize size (2 ^ k) := by
  rcases alignedSize_spec hk hsize with hz | ⟨h24, hadj4, hge, -, -, -, hroom⟩
  · exact absurd hz hne
  have hroom := hroom hk3
  have hmod := alignedSize_mod hk3 hk hsize
  by_cases hk4 : 4 ≤ k
  · -- a multiple of 16 as well, and so is the alignment
    have h16 : 2 ^ 4 ∣ 2 ^ k := Nat.pow_dvd_pow 2 hk4
    have hdvd := Nat.dvd_trans h16 (Nat.dvd_of_mod_eq_zero hmod)
    omega
  · obtain rfl : k = 3 := by omega
    have hsmall : 24 < size := Nat.lt_of_not_le fun hle => hgood ⟨rfl, hle⟩
    omega

/-- The size of the blocks in the list that serves 64 bytes. -/
theorem eq_of_class (hs4 : s % 4 = 0) (hs : s < 2 ^ 30) (hc : mappingInsert s = (0, 16)) :
    s = 64 := by
  by_cases hsmall : s < 128
  · rw [mappingInsert_small hsmall] at hc
    have hdiv : s / 4 = 16 := (Prod.mk.inj hc).2
    omega
  · have hlog := seven_le_log2 (Nat.le_of_not_lt hsmall)
    rw [mappingInsert_large (Nat.le_of_not_lt hsmall) (by omega)] at hc
    have hfl : s.log2 - 6 = 0 := (Prod.mk.inj hc).1
    omega

theorem ClassLe.antisymm {c d : Nat × Nat} (hcd : ClassLe c d) (hdc : ClassLe d c) : c = d := by
  rcases hcd with hlt | ⟨hfl, hsl⟩ <;> rcases hdc with hlt' | ⟨hfl', hsl'⟩
  · omega
  · omega
  · omega
  · exact Prod.ext hfl (Nat.le_antisymm hsl hsl')

/-! ## Alignment -/

/-- The block that is found, as far as the gap before the pointer depends on it. -/
theorem Inv.alignedAlloc_found (I : Inv h len pool) (hsize : size < 2 ^ 64) (hk : k < 64) :
    (h.nodMmheapAlignedAlloc size (2 ^ k)).1 = 0 ∨
    ∃ x s, Cell h.poolStart pool x (s, true) ∧
      FirstFrom h (mappingSearch (Heap.alignedSize size (2 ^ k))) x s ∧
      Heap.alignedSize size (2 ^ k) ≠ 0 ∧ Heap.alignedSize size (2 ^ k) ≤ s ∧
      (k ≤ 2 ∨ 3 ≤ k ∧ x + 16 + 2 ^ k + 56 ≤ 2 ^ 64) ∧
      h.blkLocateFree (Heap.alignedSize size (2 ^ k)) = (x, h.blkRemove x) := by
  rw [Heap.nodMmheapAlignedAlloc]
  rcases alignedSize_spec hk hsize with hz | ⟨h24, -, -, hmod, hle, hadj, hroom⟩
  · rw [hz, blkLocateFree_zero]
    exact Or.inl rfl
  have hne : Heap.alignedSize size (2 ^ k) ≠ 0 := by omega
  rcases I.blkLocateFree_first hne with ⟨-, hnone⟩ | ⟨x, s, hx, hfirst, hfound⟩
  · rw [hnone]
    exact Or.inl rfl
  have hs : s < 2 ^ 30 := (I.rep.cell_size hx).2
  have has := le_of_search_le hmod hle (by omega) hfirst.behind
  have htop := I.rep.cell_top hx
  simp only at htop
  refine Or.inr ⟨x, s, hx, hfirst, hne, has, ?_, hfound⟩
  rcases Nat.lt_or_ge 2 k with hk3 | hk2
  · have := hroom hk3
    exact Or.inr ⟨hk3, by omega⟩
  · exact Or.inl hk2

/-- The block has room. -/
theorem Inv.alignedAlloc_room (I : Inv h len pool) (hsize : size < 2 ^ 64) (hk : k < 64)
    (hne : (h.nodMmheapAlignedAlloc size (2 ^ k)).1 ≠ 0) :
    size ≤ (h.nodMmheapAlignedAlloc size (2 ^ k)).2.blkSize
      (Heap.blkFromPtr (h.nodMmheapAlignedAlloc size (2 ^ k)).1) := by
  rcases I.nodMmheapAlignedAlloc hsize hk with hnone | ⟨x, hptr, A⟩
  · rw [hnone] at hne
    exact absurd rfl hne
  · obtain ⟨pool', t, I', hx, hat, -, -⟩ := A
    obtain ⟨q, H⟩ := I'.rep.cell_header hx
    rw [hptr, show Heap.blkFromPtr (x + 16) = x from Nat.add_sub_cancel x 16, blkSize_eq H]
    exact hat

/-- **The pointer is a multiple**, unless the request is the one that fails. -/
theorem Inv.alignedAlloc_dvd (I : Inv h len pool) (hpos : 0 < size) (hsize : size < 2 ^ 64)
    (hk : k < 64) (hgood : ¬ Misaligns h size (2 ^ k)) :
    2 ^ k ∣ (h.nodMmheapAlignedAlloc size (2 ^ k)).1 := by
  rcases I.alignedAlloc_found hsize hk with hnone | ⟨x, s, hx, hfirst, hne, has, htop, hfound⟩
  · rw [hnone]
    exact Nat.dvd_zero _
  have hcell := I.rep.cell_top hx
  obtain ⟨hx4, hs4⟩ := I.rep.cell_aligned hx
  simp only at hcell hs4
  apply Nat.dvd_of_mod_eq_zero
  rcases htop with hk2 | ⟨hk3, htop⟩
  · have hmod := mod_of_mod_four hk2 (show (x + 16) % 4 = 0 by omega)
    have hgap := alignGap_of_aligned hk hmod (by omega)
    rw [I.alignedAlloc_fst hx hfound (Or.inl hgap), hgap, Nat.add_zero, ite_self]
    exact hmod
  · obtain ⟨hgap4, hgap, hgaple, hend⟩ := alignGap_spec (x + 16) hk3 hk (by omega) htop
    have hsplit : s ≥ 32 + Heap.alignGap (x + 16) (2 ^ k) := by
      by_cases hsmall : k = 3 ∧ size ≤ blkSizeMin
      · obtain ⟨rfl, hmin⟩ := hsmall
        have hlook := alignedSize_eight hpos hmin
        by_contra hno
        -- a block of exactly the size looked for, which is in the list of that size
        obtain rfl : s = 64 := by omega
        have hhead : h.blocks 0 16 = x := hfirst.head
        refine hgood ⟨rfl, hmin, ?_, ?_⟩
        · rw [hhead]
          have := I.rep.cell_null hx
          simp only at this
          omega
        · rw [hhead]
          by_contra hx8
          have hzero : Heap.alignGap (x + 16) (2 ^ 3) = 0 :=
            alignGap_of_aligned hk (by omega) (by omega)
          omega
      · have hroom := gap_splits hk3 hk hsize hne hsmall
        have hpow4 : 4 ∣ 2 ^ k := Nat.pow_dvd_pow 2 (show 2 ≤ k by omega)
        omega
    rw [I.alignedAlloc_fst hx hfound hgap, if_pos hsplit,
      show x + Heap.alignGap (x + 16) (2 ^ k) + 16 = x + 16 + Heap.alignGap (x + 16) (2 ^ k) by omega]
    exact hend

/-- The request that fails gets a pointer that is not a multiple. -/
theorem Inv.alignedAlloc_misaligned (I : Inv h len pool) (hpos : 0 < size)
    (hbad : Misaligns h size 8) : (h.nodMmheapAlignedAlloc size 8).1 % 8 = 4 := by
  obtain ⟨-, hmin, hfull, hfour⟩ := hbad
  have hlook := alignedSize_eight hpos hmin
  rcases I.blkLocateFree_first (a := 64) (by decide) with ⟨hempty, -⟩ | ⟨x, s, hx, hfirst, hfound⟩
  · exact absurd (hempty 0 16 (by decide) (by decide) (Or.inr ⟨rfl, Nat.le_refl _⟩)) hfull
  have hsearch : mappingSearch 64 = (0, 16) := by decide
  rw [hsearch] at hfirst
  have hclass : mappingInsert s = (0, 16) := ClassLe.antisymm
    (hfirst.first 0 16 (by decide) (by decide) (Or.inr ⟨rfl, Nat.le_refl _⟩) hfull) hfirst.behind
  have hhead := hfirst.head
  rw [hclass] at hhead
  have hcell := I.rep.cell_top hx
  obtain ⟨hx4, hs4⟩ := I.rep.cell_aligned hx
  simp only at hcell hs4
  obtain rfl := eq_of_class hs4 (I.rep.cell_size hx).2 hclass
  have hx8 : x % 8 = 4 := hhead ▸ hfour
  -- the gap ends at a multiple of 8, and is not 4
  obtain ⟨hgap4, hgap, hgaple, hend⟩ :=
    alignGap_spec (x + 16) (k := 3) (by decide) (by decide) (by omega) (by omega)
  rw [show (8 : Nat) = 2 ^ 3 from rfl, I.alignedAlloc_fst hx (by rw [hlook]; exact hfound) hgap,
    if_neg (by omega)]
  omega

/-- **Aligned allocations are aligned, except for one request**: whatever the heap. -/
theorem servesAligned_iff (I : Inv h len pool) (hpos : 0 < size) (hmax : size ≤ blkSizeMax)
    (hk : k < 64) : ServesAligned h size (2 ^ k) ↔ ¬ Misaligns h size (2 ^ k) := by
  have hsize : size < 2 ^ 64 := Nat.lt_of_le_of_lt hmax (by decide)
  constructor
  · intro hserves hbad
    have halign : 2 ^ k = 8 := hbad.1
    rw [halign] at hserves hbad
    have hmis := I.alignedAlloc_misaligned hpos hbad
    have hdvd := (hserves (by omega)).1
    omega
  · intro hgood hne
    exact ⟨I.alignedAlloc_dvd hpos hsize hk hgood, I.alignedAlloc_room hsize hk hne⟩

theorem servesAligned_iff_gapHeap : ∃ len pool, Inv gapHeap.heap len pool ∧
    (ServesAligned gapHeap.heap 24 (2 ^ 6) ↔ ¬ Misaligns gapHeap.heap 24 (2 ^ 6)) := by
  obtain ⟨pool, S⟩ := gapHeap_reachable.shape
  exact ⟨_, pool, S.inv, servesAligned_iff S.inv (by decide) (by decide) (by decide)⟩

/-- 24 bytes at a multiple of 8 are asked for, and are at 4140. -/
theorem aligned_to_four : (∃ len pool, Inv gapHeap.heap len pool) ∧
    (gapHeap.heap.nodMmheapAlignedAlloc 24 8).1 = 4140 ∧ ¬ ServesAligned gapHeap.heap 24 8 := by
  have hptr : (gapHeap.heap.nodMmheapAlignedAlloc 24 8).1 = 4140 := by decide +kernel
  obtain ⟨pool, S⟩ := gapHeap_reachable.shape
  refine ⟨⟨_, pool, S.inv⟩, hptr, fun hserves => ?_⟩
  have hdvd := (hserves (by omega)).1
  omega

end NoDrop.Mmheap
