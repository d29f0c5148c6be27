import NoDrop.MmheapFit

/-! # Requests that no block can serve

No block is larger than 2^30 bytes, so a request for more is to fail and to change nothing.
`nod_mmheap_alloc` compares the size, and `adjust_request_size` answers 0, for which no block is
looked for.  That is not enough in two places.  `nod_mmheap_calloc` multiplies before anyone
compares, and the product may wrap to a size that is served.  And `nod_mmheap_realloc` takes the 0
for a size like any other: the block has room for it, and is cut down to it.
-/
namespace NoDrop.Mmheap

open Bytes

variable {h : Heap} {len : Nat → Nat} {pool : Nat → List Blk} {s : Sys} {op : Op}
  {c : Nat × Nat} {x t size num ptr align : Nat}

namespace Sys

/-- **More bytes are asked for than a block can have.**  The arguments are words, and the bytes are
counted without wrapping. -/
def Oversized (s : Sys) : Op → Prop
  | .alloc size => size < 2 ^ 64 ∧ size > blkSizeMax
  | .calloc num size => num < 2 ^ 64 ∧ size < 2 ^ 64 ∧ num * size > blkSizeMax
  | .alignedAlloc size align => size < 2 ^ 64 ∧ align < 2 ^ 64 ∧ size > blkSizeMax
  | .realloc ptr size => (ptr = 0 ∨ s.Live ptr) ∧ size < 2 ^ 64 ∧ size > blkSizeMax
  | _ => False

/-- The call returns NULL, and heap and allocations are what they were. -/
def Refuses (s : Sys) (op : Op) : Prop := s.step op = (0, s)

/-- **The calls that notice**: `nod_mmheap_realloc` for a new block only, and `nod_mmheap_calloc`
if the product wraps to 0, to a size that is too large as well, or to one for which there is no free
block. -/
def Notices (s : Sys) : Op → Prop
  | .calloc num size =>
      num * size % 2 ^ 64 = 0 ∨ num * size % 2 ^ 64 > blkSizeMax ∨
      EmptyFrom s.heap (mappingSearch (Heap.adjustRequestSize (num * size % 2 ^ 64) alignSize))
  | .realloc ptr _ => ptr = 0
  | _ => True

end Sys

/-- The states of runs in which oversized requests are made too, where they are noticed. -/
inductive ReachableAsking : Sys → Prop
  | init {h : Heap} {p n : Nat} (hnull : h.blockNull + 32 ≤ 2 ^ 64)
      (hoff : Sys.Offered ⟨h.nodMmheapCtlInit, fun _ => n, fun _ => none⟩ p n) :
      ReachableAsking (Sys.init h p n)
  | step {s : Sys} {op : Op} (hs : ReachableAsking s)
      (hop : s.Allowed op ∨ s.Oversized op ∧ s.Notices op) : ReachableAsking (s.step op).2

/-! ## The size -/

/-- `adjust_request_size` answers 0. -/
theorem adjustRequestSize_oversized (hsize : size < 2 ^ 64) (hmax : size > blkSizeMax) :
    Heap.adjustRequestSize size alignSize = 0 := by
  have hmax : size > 2 ^ 30 := hmax
  rcases adjustRequestSize_spec (k := 2) (by decide) (by decide) hsize with hz | ⟨-, hle, -, hge⟩
  · exact hz
  · omega

theorem nodMmheapAlloc_oversized (h : Heap) (hmax : size > blkSizeMax) :
    h.nodMmheapAlloc size = (0, h) := if_pos hmax

/-- Whatever the alignment is, a power of two or not. -/
theorem nodMmheapAlignedAlloc_oversized (h : Heap) (hsize : size < 2 ^ 64)
    (hmax : size > blkSizeMax) : h.nodMmheapAlignedAlloc size align = (0, h) := by
  have hz : Heap.alignedSize size align = 0 := by
    rw [Heap.alignedSize, adjustRequestSize_oversized hsize hmax]
    exact if_neg fun hc => hc.1 rfl
  rw [Heap.nodMmheapAlignedAlloc, hz, blkLocateFree_zero]
  exact if_pos rfl

/-- **`nod_mmheap_realloc` keeps the pointer and takes the block away**: it is cut down to
nothing. -/
theorem nodMmheapRealloc_oversized (h : Heap) (hptr : ptr ≠ 0) (hsize : size < 2 ^ 64)
    (hmax : size > blkSizeMax) :
    h.nodMmheapRealloc ptr size = (ptr, h.blkTrimUsed (Heap.blkFromPtr ptr) 0) := by
  have hne : size ≠ 0 := Nat.ne_zero_of_lt hmax
  rw [Heap.nodMmheapRealloc, if_neg fun hc => hne hc.2, if_neg hptr,
    adjustRequestSize_oversized hsize hmax]
  simp only [Nat.not_lt_zero, gt_iff_lt, false_and, if_false]

/-! ## The product -/

/-- **What `nod_mmheap_alloc` refuses.** -/
theorem Inv.nodMmheapAlloc_none_iff (I : Inv h len pool) (hsize : size < 2 ^ 64) :
    h.nodMmheapAlloc size = (0, h) ↔ size = 0 ∨ size > blkSizeMax ∨
      EmptyFrom h (mappingSearch (Heap.adjustRequestSize size alignSize)) := by
  by_cases hz : size = 0
  · rw [hz]
    exact iff_of_true (Shape.nodMmheapAlloc_zero h) (Or.inl rfl)
  by_cases hlarge : size > blkSizeMax
  · exact iff_of_true (nodMmheapAlloc_oversized h hlarge) (Or.inr (Or.inl hlarge))
  have hfirst := I.nodMmheapAlloc_eq_zero hz (Nat.le_of_not_lt hlarge)
  constructor
  · intro hnone
    exact Or.inr (Or.inr (hfirst.mp (congrArg Prod.fst hnone)))
  · rintro (hzero | hmax | hempty)
    · exact absurd hzero hz
    · exact absurd hmax hlarge
    · rcases I.nodMmheapAlloc hsize with hnone | ⟨x, hptr, -⟩
      · exact hnone
      · have := hfirst.mpr hempty
        omega

/-- `nod_mmheap_calloc` refuses what `nod_mmheap_alloc` does. -/
theorem nodMmheapCalloc_none_iff : h.nodMmheapCalloc num size = (0, h) ↔
    h.nodMmheapAlloc (num * size % 2 ^ 64) = (0, h) := by
  rw [Heap.nodMmheapCalloc]
  dsimp only
  by_cases hz : (h.nodMmheapAlloc (num * size % 2 ^ 64)).1 = 0
  · rw [if_pos hz]
  · rw [if_neg hz]
    exact iff_of_false (fun hc => hz (congrArg Prod.fst hc)) fun hc => hz (congrArg Prod.fst hc)

/-! ## Every call -/

theorem Sys.granted_zero : s.granted 0 size = s.live := if_pos rfl

/-- **One call**: an oversized request is refused exactly if it is noticed. -/
theorem Shape.refuses_iff_notices (S : Shape s pool) (hop : s.Oversized op) :
    s.Refuses op ↔ s.Notices op := by
  unfold Sys.Refuses
  cases op with
  | alloc size =>
    refine iff_of_true ?_ trivial
    simp only [Sys.step, nodMmheapAlloc_oversized _ hop.2, Sys.granted_zero]
  | calloc num size =>
    have hnone : s.heap.nodMmheapCalloc num size = (0, s.heap) ↔ s.Notices (.calloc num size) :=
      nodMmheapCalloc_none_iff.trans
        (S.inv.nodMmheapAlloc_none_iff (Nat.mod_lt (num * size) (by decide)))
    rw [← hnone]
    constructor
    · intro href
      have hret : (s.step (.calloc num size)).1 = 0 := congrArg Prod.fst href
      have hheap : (s.step (.calloc num size)).2.heap = s.heap := congrArg (·.2.heap) href
      exact Prod.ext hret hheap
    · intro hnone
      simp only [Sys.step, hnone, Sys.granted_zero]
  | alignedAlloc size align =>
    refine iff_of_true ?_ trivial
    simp only [Sys.step, nodMmheapAlignedAlloc_oversized _ hop.1 hop.2.2, Sys.granted_zero]
  | realloc ptr size =>
    constructor
    · intro href
      by_contra hptr
      have hkept : (s.heap.nodMmheapRealloc ptr size).1 = 0 := congrArg Prod.fst href
      rw [nodMmheapRealloc_oversized _ hptr hop.2.1 hop.2.2] at hkept
      exact hptr hkept
    · rintro rfl
      have hnone : s.heap.nodMmheapRealloc 0 size = (0, s.heap) := by
        rw [Heap.nodMmheapRealloc, if_neg fun hc => hc.1 rfl, if_pos rfl]
        exact nodMmheapAlloc_oversized _ hop.2.2
      simp only [Sys.step, hnone, if_neg (Nat.ne_zero_of_lt hop.2.2), if_true]
  | free ptr => exact hop.elim
  | poolAdd start size => exact hop.elim
  | poolRmv start => exact hop.elim
  | use ptr off data => exact hop.elim

/-- A refused request leaves the run where it was. -/
theorem ReachableAsking.reachable (hr : ReachableAsking s) : Reachable s := by
  induction hr with
  | init hnull hoff => exact .init hnull hoff
  | step _ hop ih =>
    rcases hop with hop | ⟨hop, hnot⟩
    · exact .step ih hop
    · obtain ⟨pool, S⟩ := ih.shape
      have href := (S.refuses_iff_notices hop).mpr hnot
      rw [Sys.Refuses] at href
      rw [href]
      exact ih

/-- **Oversized requests are refused without damage exactly if they are noticed**, in every run in
which they have been so far. -/
theorem refuses_iff (hr : ReachableAsking s) (hop : s.Oversized op) :
    s.Refuses op ↔ s.Notices op := by
  obtain ⟨pool, S⟩ := hr.reachable.shape
  exact S.refuses_iff_notices hop

/-- A block of 100 bytes at 4104. -/
def oneBlock : Sys := ((Sys.init smallHeap 4096 1024).step (.alloc 100)).2

theorem oneBlock_reachable : ReachableAsking oneBlock := by
  refine .step (.init (by decide) ⟨by decide, by decide, fun q hq => ?_, by decide, ?_⟩)
    (Or.inl (show 100 < 2 ^ 64 by decide))
  · exact absurd hq List.not_mem_nil
  · decide +kernel

theorem refuses_iff_oneBlock : oneBlock.Refuses (.calloc (2 ^ 63) 2) ↔
    oneBlock.Notices (.calloc (2 ^ 63) 2) :=
  refuses_iff oneBlock_reachable ⟨by decide, by decide, by decide⟩

/-- The block is to have 2^30 + 1 bytes, and has none afterwards; and 100 bytes are given to who
asks for 2^64 + 100. -/
theorem oversized_served : Reachable oneBlock ∧
    (oneBlock.Oversized (.realloc 4104 (2 ^ 30 + 1)) ∧
      (oneBlock.step (.realloc 4104 (2 ^ 30 + 1))).1 = 4104 ∧
      (oneBlock.step (.realloc 4104 (2 ^ 30 + 1))).2.heap.blkSize 4088 = 0 ∧
      ¬ oneBlock.Refuses (.realloc 4104 (2 ^ 30 + 1))) ∧
    oneBlock.Oversized (.calloc (2 ^ 62 + 25) 4) ∧
      (oneBlock.step (.calloc (2 ^ 62 + 25) 4)).1 = 4212 ∧
      ¬ oneBlock.Refuses (.calloc (2 ^ 62 + 25) 4) := by
  have hkept : (oneBlock.step (.realloc 4104 (2 ^ 30 + 1))).1 = 4104 := by decide +kernel
  have hgiven : (oneBlock.step (.calloc (2 ^ 62 + 25) 4)).1 = 4212 := by decide +kernel
  refine ⟨oneBlock_reachable.reachable,
    ⟨⟨Or.inr ⟨100, ?_⟩, by decide, by decide⟩, hkept, ?_, fun href => ?_⟩,
    ⟨by decide, by decide, by decide⟩, hgiven, fun href => ?_⟩
  · decide +kernel
  · decide +kernel
  · have hnone := congrArg Prod.fst href
    rw [hkept] at hnone
    exact absurd hnone (by decide)
  · have hnone := congrArg Prod.fst href
    rw [hgiven] at hnone
    exact absurd hnone (by decide)

end NoDrop.Mmheap
