import NoDrop.MmheapRuns

/-! # Pools that the lists have room for

A pool is one free block at first.  Later it is cut and joined, but no piece of it is ever larger
than the whole, so all pieces have a list if the whole has one.  `mapping_insert` has lists for
sizes below 2^30, and `nod_mmheap_pool_add` accepts 2^30 as well: the block of such a pool goes to a
list that does not exist (`poolAdd_indexable_iff`).
-/
namespace NoDrop.Mmheap

open Bytes

variable {h : Heap} {s : Sys} {l l₁ l₂ : List Nat} {a p n t u size : Nat}

/-- **The sizes of the blocks that a block of `size` bytes can be turned into**, in their order: by
`blk_split`, where `blk_can_split` allows it, and by `blk_absorb`. -/
inductive Pieces (size : Nat) : List Nat → Prop
  | whole : Pieces size [size]
  | split {l₁ l₂ : List Nat} {t : Nat} (a : Nat) (hl : Pieces size (l₁ ++ t :: l₂))
      (hcan : t ≥ blkStructSize + a) :
      Pieces size (l₁ ++ a :: (t - (a + blkHeaderOverhead)) :: l₂)
  | absorb {l₁ l₂ : List Nat} {t u : Nat} (hl : Pieces size (l₁ ++ t :: u :: l₂)) :
      Pieces size (l₁ ++ (t + (u + blkHeaderOverhead)) :: l₂)

/-- The indices of a size are inside `blocks` and `sl_bitmap`. -/
def Indexed (t : Nat) : Prop :=
  (mappingInsert t).1 < flIndexCount ∧ (mappingInsert t).2 < slIndexCount

/-- The words that `nod_mmheap_pool_add` writes in the pool: the size and the links of the free
block, and `prev_phys_blk` and the size of the sentinel. -/
def poolHeaders (p size : Nat) : List Int :=
  let curr := (p : Int) - blkHeaderOverhead
  let next := curr + blkStartOffset + (size - blkHeaderOverhead)
  [curr + 8, curr + 16, curr + 24, next, next + 8]

/-- The block that has been the first of its list before the pool's block is inserted. -/
def formerHead (h : Heap) (n : Nat) : Nat :=
  h.blocks (mappingInsert (Heap.sizeAligned n)).1 (mappingInsert (Heap.sizeAligned n)).2

/-- The pool's block starts 8 bytes before the pool, and the block that has been the first of the
list does not have its link where the size of the new one is. -/
def Clear (h : Heap) (p n : Nat) : Prop :=
  8 ≤ p ∧ (formerHead h n + 32 ≤ p ∨ p + 8 ≤ formerHead h n + 24)

/-- **A pool of `n` bytes at `p` is indexable**: all blocks that it can be cut into have a list, and
the headers are in the pool.  In memory nothing else is written but one link, and no list is changed
that does not exist. -/
structure Indexable (h : Heap) (p n : Nat) : Prop where
  pieces : ∀ l, Pieces (Heap.sizeAligned n) l → ∀ t ∈ l, Indexed t
  inside : ∀ a ∈ poolHeaders p (Heap.sizeAligned n), (p : Int) ≤ a ∧ a + 8 ≤ p + n
  written : Clear h p n → ∀ i : Nat,
    (∀ a ∈ poolHeaders p (Heap.sizeAligned n), (i : Int) < a ∨ a + 8 ≤ i) →
    (i < formerHead h n + 24 ∨ formerHead h n + 32 ≤ i) →
    (h.nodMmheapPoolAdd p n).2.mem i = h.mem i
  listed : Clear h p n → ∀ fl sl, ¬ (fl < flIndexCount ∧ sl < slIndexCount) →
    (h.nodMmheapPoolAdd p n).2.blocks fl sl = h.blocks fl sl

/-! ## Pieces -/

/-- The bytes of some blocks, with their headers. -/
def pieceSum (l : List Nat) : Nat := (l.map (· + blkHeaderOverhead)).sum

@[simp] theorem pieceSum_nil : pieceSum [] = 0 := rfl

@[simp] theorem pieceSum_cons : pieceSum (t :: l) = t + 8 + pieceSum l := rfl

@[simp] theorem pieceSum_append : pieceSum (l₁ ++ l₂) = pieceSum l₁ + pieceSum l₂ := by
  rw [pieceSum, List.map_append, List.sum_append]
  rfl

/-- **Cutting and joining loses nothing.** -/
theorem Pieces.sum_eq (hl : Pieces size l) : pieceSum l = size + 8 := by
  induction hl with
  | whole => rfl
  | split a _ hcan ih =>
    have hcan : _ ≥ 32 + a := hcan
    simp only [pieceSum_append, pieceSum_cons, blkHeaderOverhead] at ih ⊢
    omega
  | absorb _ ih =>
    simp only [pieceSum_append, pieceSum_cons, blkHeaderOverhead] at ih ⊢
    omega

theorem le_pieceSum (ht : t ∈ l) : t + 8 ≤ pieceSum l := by
  obtain ⟨l₁, l₂, rfl⟩ := List.append_of_mem ht
  rw [pieceSum_append, pieceSum_cons]
  omega

/-- **No piece is larger than the whole.** -/
theorem Pieces.le (hl : Pieces size l) (ht : t ∈ l) : t ≤ size := by
  have hle := le_pieceSum ht
  rw [hl.sum_eq] at hle
  omega

/-- Blocks as the heap has them can be cut off one after the other. -/
theorem Pieces.of_sum (hl : Pieces size (l₁ ++ [t])) (hmin : ∀ u ∈ l, 24 ≤ u)
    (hsum : pieceSum l = t + 8) : Pieces size (l₁ ++ l) := by
  induction l generalizing l₁ t with
  | nil =>
    rw [pieceSum_nil] at hsum
    omega
  | cons u l ih =>
    have hmin' : ∀ v ∈ l, 24 ≤ v := fun v hv => hmin v (List.mem_cons_of_mem u hv)
    rw [pieceSum_cons] at hsum
    cases l with
    | nil =>
      rw [pieceSum_nil] at hsum
      obtain rfl : u = t := by omega
      exact hl
    | cons v l =>
      have hv : 24 ≤ v := hmin' v List.mem_cons_self
      have hrest := le_pieceSum (l := v :: l) List.mem_cons_self
      have hcan : t ≥ blkStructSize + u := by
        show t ≥ 32 + u
        omega
      have hcut := Pieces.split u hl hcan
      have hcut : Pieces size ((l₁ ++ [u]) ++ [t - (u + 8)]) := by
        rw [List.append_assoc]
        exact hcut
      have := ih hcut hmin' (by omega)
      rw [List.append_assoc] at this
      exact this

/-- **In every run the blocks of a pool are pieces of its first one.** -/
theorem Reachable.pieces (hr : Reachable s) : ∃ pool, Shape s pool ∧ ∀ p ∈ s.heap.poolStart,
    Pieces (Heap.sizeAligned (s.extent p)) ((pool p).map Prod.fst) := by
  obtain ⟨pool, S⟩ := hr.shape
  refine ⟨pool, S, fun p hp => ?_⟩
  have hspan : ∀ bs : List Blk, pieceSum (bs.map Prod.fst) = span bs := by
    intro bs
    induction bs with
    | nil => rfl
    | cons c bs ih =>
      rw [List.map_cons, pieceSum_cons, span_cons, ih]
      omega
  have hwhole : Pieces (Heap.sizeAligned (s.extent p)) ([] ++ [Heap.sizeAligned (s.extent p)]) :=
    .whole
  refine hwhole.of_sum (fun u hu => ?_) ?_
  · obtain ⟨c, hc, rfl⟩ := List.mem_map.mp hu
    exact S.inv.rep.size p hp c hc
  · rw [hspan, S.inv.rep.span_eq p hp]
    rfl

/-! ## The first block -/

theorem indexed_of_lt (ht : t < 2 ^ 30) : Indexed t := mappingInsert_lt ht

/-- **The largest size that is accepted has no list.** -/
theorem not_indexed_max : ¬ Indexed (2 ^ 30) := by
  intro hi
  have hfl : (mappingInsert (2 ^ 30)).1 = 24 := by decide +kernel
  have hlt := hi.1
  rw [hfl] at hlt
  exact absurd hlt (by decide)

/-- The usable size is below 2^30 if the pool is small enough. -/
theorem sizeAligned_lt_iff (hn : n < 2 ^ 64) (hle : Heap.sizeAligned n ≤ 2 ^ 30) :
    Heap.sizeAligned n < 2 ^ 30 ↔ n < 2 ^ 30 + 16 := by
  have hmask : ∀ x, x &&& sub64 alignSize 1 = x % 4 := fun x => Nat.and_two_pow_sub_one_eq_mod x 2
  have hover : 2 * blkHeaderOverhead = 16 := rfl
  rw [Heap.sizeAligned, Heap.alignDown, hmask, hover, sub64] at hle ⊢
  omega

theorem mem_poolHeaders {a : Int} : a ∈ poolHeaders p size ↔
    a = p ∨ a = p + 8 ∨ a = p + 16 ∨ a = p + size ∨ a = p + size + 8 := by
  simp only [poolHeaders, blkHeaderOverhead, blkStartOffset, List.mem_cons, List.not_mem_nil,
    or_false]
  omega

/-- The headers are in the pool. -/
theorem poolHeaders_inside (h24 : 24 ≤ size) (hroom : size + 16 ≤ n) :
    ∀ a ∈ poolHeaders p size, (p : Int) ≤ a ∧ a + 8 ≤ p + n := by
  intro a ha
  rw [mem_poolHeaders] at ha
  omega

section Added

variable (hp : p < 2 ^ 64) (hn : n < 2 ^ 64) (hok : (h.nodMmheapPoolAdd p n).1 = 0)
  (hclear : Clear h p n)

include hok in
/-- The checks of `nod_mmheap_pool_add` are passed. -/
theorem poolAdd_checks : ¬ h.nodMmheapPoolIsFull ∧ p ∉ h.poolStart ∧ p % alignSize = 0 ∧
    24 ≤ Heap.sizeAligned n ∧ Heap.sizeAligned n ≤ 2 ^ 30 := by
  rcases Shape.poolAdd_cases h p n with ⟨err, herr, heq⟩ | hchecks
  · rw [heq] at hok
    exact absurd hok herr
  · exact hchecks

include hp hn hok hclear

/-- Nothing else is written. -/
theorem poolAdd_written {i : Nat}
    (hi : ∀ a ∈ poolHeaders p (Heap.sizeAligned n), (i : Int) < a ∨ a + 8 ≤ i)
    (hlink : i < formerHead h n + 24 ∨ formerHead h n + 32 ≤ i) :
    (h.nodMmheapPoolAdd p n).2.mem i = h.mem i := by
  obtain ⟨hfull, hnew, hp4, h24, hle⟩ := poolAdd_checks hok
  obtain ⟨hstart, hhead⟩ := hclear
  obtain ⟨⟨fl, sl⟩, hc⟩ : ∃ c, mappingInsert (Heap.sizeAligned n) = c := ⟨_, rfl⟩
  rw [formerHead, hc] at hhead hlink
  obtain ⟨m, m', hm, hm', -, heq⟩ := poolAdd_eq h hstart hp hn hfull hnew hp4 h24 hle hc hhead
  have h0 := hi _ (mem_poolHeaders.mpr (Or.inl rfl))
  have h1 := hi _ (mem_poolHeaders.mpr (Or.inr (Or.inl rfl)))
  have h2 := hi _ (mem_poolHeaders.mpr (Or.inr (Or.inr (Or.inl rfl))))
  have h3 := hi _ (mem_poolHeaders.mpr (Or.inr (Or.inr (Or.inr (Or.inl rfl)))))
  have h4 := hi _ (mem_poolHeaders.mpr (Or.inr (Or.inr (Or.inr (Or.inr rfl)))))
  rw [heq]
  show m' i = h.mem i
  rw [hm' i (by omega), ← hm i (by omega)]
  exact Listed.insertFreeBlock_mem (by omega) hlink

/-- **The lists afterwards**: the pool's block is the first of the one for its size. -/
theorem poolAdd_blocks (fl sl : Nat) : (h.nodMmheapPoolAdd p n).2.blocks fl sl =
    if mappingInsert (Heap.sizeAligned n) = (fl, sl) then p - 8 else h.blocks fl sl := by
  obtain ⟨hfull, hnew, hp4, h24, hle⟩ := poolAdd_checks hok
  obtain ⟨hstart, hhead⟩ := hclear
  obtain ⟨⟨i, j⟩, hc⟩ : ∃ c, mappingInsert (Heap.sizeAligned n) = c := ⟨_, rfl⟩
  rw [formerHead, hc] at hhead
  obtain ⟨m, m', -, -, -, heq⟩ := poolAdd_eq h hstart hp hn hfull hnew hp4 h24 hle hc hhead
  rw [heq, hc]
  show Function.update h.blocks i (Function.update (h.blocks i) j (p - 8)) fl sl = _
  rw [Listed.update_update_apply]
  simp only [Prod.mk.injEq, eq_comm]

end Added

/-- **An accepted pool is indexable exactly if it has less than 2^30 + 16 bytes.** -/
theorem poolAdd_indexable_iff (hp : p < 2 ^ 64) (hn : n < 2 ^ 64)
    (hok : (h.nodMmheapPoolAdd p n).1 = 0) : Indexable h p n ↔ n < 2 ^ 30 + 16 := by
  obtain ⟨-, -, -, h24, hle⟩ := poolAdd_checks hok
  obtain ⟨-, hroom⟩ := sizeAligned_spec hn hle
  rw [← sizeAligned_lt_iff hn hle]
  constructor
  · intro hix
    refine Nat.lt_of_le_of_ne hle fun hmax => not_indexed_max ?_
    rw [← hmax]
    exact hix.pieces _ .whole _ List.mem_cons_self
  · intro hlt
    have hpieces : ∀ l, Pieces (Heap.sizeAligned n) l → ∀ t ∈ l, Indexed t :=
      fun l hl t ht => indexed_of_lt (Nat.lt_of_le_of_lt (hl.le ht) hlt)
    refine ⟨hpieces, poolHeaders_inside h24 hroom, fun hclear i hi hlink => ?_,
      fun hclear fl sl hout => ?_⟩
    · exact poolAdd_written hp hn hok hclear hi hlink
    · rw [poolAdd_blocks hp hn hok hclear, if_neg]
      intro hc
      have hlist : Indexed (Heap.sizeAligned n) := indexed_of_lt hlt
      rw [Indexed, hc] at hlist
      exact hout hlist

theorem poolAdd_indexable_small : (smallHeap.nodMmheapCtlInit.nodMmheapPoolAdd 4096 1024).1 = 0 ∧
    Indexable smallHeap.nodMmheapCtlInit 4096 1024 := by
  have hok : (smallHeap.nodMmheapCtlInit.nodMmheapPoolAdd 4096 1024).1 = 0 := by decide +kernel
  exact ⟨hok, (poolAdd_indexable_iff (by decide) (by decide) hok).mpr (by decide)⟩

/-- A heap where the words behind `blocks` have the address of `block_null`, so that the store
through the first of them goes there. -/
def nullBehind : Heap := { smallHeap with blocks := fun _ _ => smallHeap.blockNull }

/-- A pool of 2^30 + 16 bytes is accepted, and its free block is put into the list (24, 0) of 24 by
32. -/
theorem poolAdd_max : (nullBehind.nodMmheapCtlInit.nodMmheapPoolAdd 4194304 (2 ^ 30 + 16)).1 = 0 ∧
    (nullBehind.nodMmheapCtlInit.nodMmheapPoolAdd 4194304 (2 ^ 30 + 16)).2.blocks flIndexCount 0 =
      4194296 ∧
    ¬ Indexable nullBehind.nodMmheapCtlInit 4194304 (2 ^ 30 + 16) := by
  have hfl : mappingInsert (Heap.sizeAligned (2 ^ 30 + 16)) = (flIndexCount, 0) := by
    decide +kernel
  refine ⟨by decide +kernel, by decide +kernel, fun hix => ?_⟩
  have hlt := (hix.pieces _ .whole _ List.mem_cons_self).1
  rw [hfl] at hlt
  exact Nat.lt_irrefl _ hlt

end NoDrop.Mmheap
