import Mathlib.Algebra.Order.BigOperators.Group.List
import Mathlib.Algebra.Order.Group.Nat
import NoDrop.MmheapCanonical

/-! # The books of the heap

`nod_mmheap_pool_check` walks the blocks of a pool by their headers up to the sentinel and adds up
the sizes of the used and of the free ones; `nod_mmheap_check` does so for all pools.  The sums are
`uint32_t`.  There are at most three pools, each smaller than 2^30 bytes, so they do not wrap: on
every heap a program can have, the walk ends and the numbers are right
(`nodMmheapCheck_reports`).
-/
namespace NoDrop.Mmheap

open Bytes

/-! ## The code -/

/-- `nod_mmheap_info_t`. -/
structure HeapInfo where
  used : UInt32
  free : UInt32
deriving DecidableEq, Repr

namespace Heap

variable (h : Heap)

/-- `blk_is_last`. -/
def blkIsLast (blk : Nat) : Bool := h.blkSize blk == 0

/-- The loop of `nod_mmheap_pool_check`. -/
def poolCheckLoop : Nat → Nat → HeapInfo → Option HeapInfo
  | 0, _, _ => none
  | fuel + 1, blk, info =>
    if blk ≠ 0 ∧ h.blkIsLast blk = false then
      poolCheckLoop fuel (h.blkNext blk)
        (if h.blkIsFree blk then { info with free := info.free + .ofNat (h.blkSize blk) }
          else { info with used := info.used + .ofNat (h.blkSize blk) })
    else some info

/-- `nod_mmheap_pool_check`: the error, or what is in `*info`.  `infoNull` is `info == NULL`. -/
def nodMmheapPoolCheck (fuel poolStart : Nat) (infoNull : Bool) : Option (Except Int HeapInfo) :=
  if poolStart = 0 then some (.error objPtrNull)
  else if infoNull then some (.error objPtrNull)
  else (h.poolCheckLoop fuel (offsetToBlk poolStart (-blkHeaderOverhead)) ⟨0, 0⟩).map .ok

/-- The loop of `nod_mmheap_check`. -/
def checkPools (fuel : Nat) : List Nat → HeapInfo → Option (Except Int HeapInfo)
  | [], info => some (.ok info)
  | p :: ps, info =>
    match h.nodMmheapPoolCheck fuel p false with
    | none => none
    | some (.error err) => some (.error err)
    | some (.ok poolInfo) =>
        checkPools fuel ps ⟨info.used + poolInfo.used, info.free + poolInfo.free⟩

/-- `nod_mmheap_check`. -/
def nodMmheapCheck (fuel : Nat) (infoNull : Bool) : Option (Except Int HeapInfo) :=
  if infoNull then some (.error objPtrNull) else h.checkPools fuel h.poolStart ⟨0, 0⟩

end Heap

/-! ## One pool -/

/-- The sizes of the blocks that are free, or of those that are used. -/
def sizeOfBlocks (free : Bool) (l : List Blk) : Nat :=
  ((l.filter fun c => c.2 = free).map Prod.fst).sum

variable {l : List Blk} {c : Blk} {b p fuel : Nat} {f q : Bool} {h : Heap} {info : HeapInfo}

@[simp] theorem sizeOfBlocks_nil : sizeOfBlocks f [] = 0 := rfl

theorem sizeOfBlocks_cons :
    sizeOfBlocks f (c :: l) = (if c.2 = f then c.1 else 0) + sizeOfBlocks f l := by
  unfold sizeOfBlocks
  by_cases hc : c.2 = f
  · rw [List.filter_cons_of_pos (by simpa using hc), List.map_cons, List.sum_cons, if_pos hc]
  · rw [List.filter_cons_of_neg (by simpa using hc), if_neg hc, Nat.zero_add]

/-- With one header for each block, the two sums are what the blocks take. -/
theorem sizeOfBlocks_add (l : List Blk) :
    sizeOfBlocks false l + sizeOfBlocks true l + 8 * l.length = span l := by
  induction l with
  | nil => rfl
  | cons c l ih =>
    obtain ⟨t, f⟩ := c
    rw [sizeOfBlocks_cons, sizeOfBlocks_cons, List.length_cons, span_cons, ← ih]
    cases f <;> simp <;> omega

/-- What a pool adds to the sums. -/
def HeapInfo.plus (info : HeapInfo) (used free : Nat) : HeapInfo :=
  ⟨info.used + .ofNat used, info.free + .ofNat free⟩

theorem HeapInfo.plus_plus (info : HeapInfo) (u f u' f' : Nat) :
    (info.plus u f).plus u' f' = info.plus (u + u') (f + f') := by
  simp only [HeapInfo.plus, UInt32.ofNat_add, UInt32.add_assoc]

/-- **The walk over a pool** ends at the sentinel, with the sizes of all blocks. -/
theorem poolCheckLoop_eq (ht : Tiled h.mem b q l) (hsize : ∀ c ∈ l, 24 ≤ c.1) (hb : 0 < b)
    (hfuel : l.length < fuel) : h.poolCheckLoop fuel b info =
      some (info.plus (sizeOfBlocks false l) (sizeOfBlocks true l)) := by
  induction l generalizing b q fuel info with
  | nil =>
    obtain ⟨n, rfl⟩ : ∃ n, fuel = n + 1 := ⟨fuel - 1, by simp at hfuel; omega⟩
    have hlast : h.blkIsLast b = true := by
      rw [Heap.blkIsLast, blkSize_eq ht]
      rfl
    rw [Heap.poolCheckLoop, if_neg (by rw [hlast]; simp)]
    simp [HeapInfo.plus]
  | cons c l ih =>
    obtain ⟨n, rfl⟩ : ∃ n, fuel = n + 1 := ⟨fuel - 1, by simp at hfuel; omega⟩
    obtain ⟨⟨hhead, -⟩, hl⟩ := ht
    obtain ⟨t, f⟩ := c
    have h24 : 24 ≤ t := hsize _ List.mem_cons_self
    have hlast : h.blkIsLast b = false := by
      rw [Heap.blkIsLast, blkSize_eq hhead]
      simpa using by omega
    rw [Heap.poolCheckLoop, if_pos ⟨by omega, hlast⟩, blkNext_eq hhead, blkIsFree_eq hhead,
      blkSize_eq hhead, ih hl (fun d hd => hsize d (List.mem_cons_of_mem _ hd)) (by omega)
      (Nat.lt_of_succ_lt_succ hfuel), sizeOfBlocks_cons, sizeOfBlocks_cons]
    cases f <;> simp [HeapInfo.plus, UInt32.ofNat_add, UInt32.add_assoc]

/-! ## All pools -/

variable {len : Nat → Nat} {pool : Nat → List Blk} {ps : List Nat}

/-- The sizes of the blocks of some pools. -/
def totalOfBlocks (free : Bool) (pool : Nat → List Blk) (ps : List Nat) : Nat :=
  (ps.map fun p => sizeOfBlocks free (pool p)).sum

@[simp] theorem totalOfBlocks_nil : totalOfBlocks f pool [] = 0 := rfl

@[simp] theorem totalOfBlocks_cons :
    totalOfBlocks f pool (p :: ps) = sizeOfBlocks f (pool p) + totalOfBlocks f pool ps := rfl

/-- A pool has fewer blocks than bytes. -/
theorem Inv.length_lt (I : Inv h len pool) (hp : p ∈ h.poolStart) (hlen : 0 < len p) :
    (pool p).length < len p := by
  have hadd := sizeOfBlocks_add (pool p)
  rw [I.rep.span_eq p hp] at hadd
  omega

theorem Inv.nodMmheapPoolCheck (I : Inv h len pool) (hp : p ∈ h.poolStart) (hlen : 0 < len p)
    (hfuel : len p ≤ fuel) : h.nodMmheapPoolCheck fuel p false =
      some (.ok ((HeapInfo.mk 0 0).plus (sizeOfBlocks false (pool p))
        (sizeOfBlocks true (pool p)))) := by
  have hstart := I.rep.placed.start p hp
  have hlt := I.length_lt hp hlen
  rw [Heap.nodMmheapPoolCheck, if_neg (by omega), if_neg Bool.false_ne_true,
    offsetToBlk_start (by omega), poolCheckLoop_eq (I.rep.tiled p hp) (I.rep.size p hp) (by omega)
    (by omega)]
  rfl

theorem Inv.checkPools (I : Inv h len pool) (hps : ∀ p ∈ ps, p ∈ h.poolStart)
    (hlen : ∀ p ∈ ps, 0 < len p) (hfuel : ∀ p ∈ ps, len p ≤ fuel) :
    h.checkPools fuel ps info =
      some (.ok (info.plus (totalOfBlocks false pool ps) (totalOfBlocks true pool ps))) := by
  induction ps generalizing info with
  | nil => simp [Heap.checkPools, HeapInfo.plus]
  | cons p ps ih =>
    rw [Heap.checkPools, I.nodMmheapPoolCheck (hps p List.mem_cons_self)
      (hlen p List.mem_cons_self) (hfuel p List.mem_cons_self)]
    dsimp only
    rw [ih (fun q hq => hps q (List.mem_cons_of_mem p hq))
      (fun q hq => hlen q (List.mem_cons_of_mem p hq))
      (fun q hq => hfuel q (List.mem_cons_of_mem p hq)), totalOfBlocks_cons, totalOfBlocks_cons,
      ← HeapInfo.plus_plus]
    simp [HeapInfo.plus]

/-! ## At most three pools -/

section Pools

variable (h)

theorem blkRemove_poolStart (x : Nat) : (h.blkRemove x).poolStart = h.poolStart :=
  Listed.removeFreeBlock_poolStart ..

theorem blkMergePrev_poolStart (x : Nat) : (h.blkMergePrev x).2.poolStart = h.poolStart := by
  rw [Heap.blkMergePrev]
  split
  · exact blkRemove_poolStart ..
  · rfl

theorem blkMergeNext_poolStart (x : Nat) : (h.blkMergeNext x).2.poolStart = h.poolStart := by
  rw [Heap.blkMergeNext]
  split
  · exact blkRemove_poolStart ..
  · rfl

theorem blkTrimFree_poolStart (x n : Nat) : (h.blkTrimFree x n).poolStart = h.poolStart := by
  rw [Heap.blkTrimFree]
  split <;> rfl

theorem blkTrimUsed_poolStart (x n : Nat) : (h.blkTrimUsed x n).poolStart = h.poolStart := by
  rw [Heap.blkTrimUsed]
  split
  · exact blkMergeNext_poolStart ..
  · rfl

theorem blkTrimFreeLeading_poolStart (x n : Nat) :
    (h.blkTrimFreeLeading x n).2.poolStart = h.poolStart := by
  rw [Heap.blkTrimFreeLeading]
  split <;> rfl

theorem blkLocateFree_poolStart (n : Nat) : (h.blkLocateFree n).2.poolStart = h.poolStart := by
  rw [Heap.blkLocateFree]
  split
  · rfl
  · dsimp only
    split
    · split
      · rfl
      · exact Listed.removeFreeBlock_poolStart ..
    · rfl

theorem blkPrepareUsed_poolStart (x n : Nat) :
    (h.blkPrepareUsed x n).2.poolStart = h.poolStart := by
  rw [Heap.blkPrepareUsed]
  split
  · rfl
  · exact blkTrimFree_poolStart ..

theorem nodMmheapAlloc_poolStart (n : Nat) : (h.nodMmheapAlloc n).2.poolStart = h.poolStart := by
  rw [Heap.nodMmheapAlloc]
  split
  · rfl
  · dsimp only
    split
    · exact blkLocateFree_poolStart ..
    · rw [blkPrepareUsed_poolStart, blkLocateFree_poolStart]

theorem nodMmheapCalloc_poolStart (num n : Nat) :
    (h.nodMmheapCalloc num n).2.poolStart = h.poolStart := by
  rw [Heap.nodMmheapCalloc]
  dsimp only
  split <;> exact nodMmheapAlloc_poolStart ..

theorem nodMmheapAlignedAlloc_poolStart (n align : Nat) :
    (h.nodMmheapAlignedAlloc n align).2.poolStart = h.poolStart := by
  rw [Heap.nodMmheapAlignedAlloc]
  dsimp only
  split
  · exact blkLocateFree_poolStart ..
  · rw [blkPrepareUsed_poolStart]
    split
    · rw [blkTrimFreeLeading_poolStart, blkLocateFree_poolStart]
    · exact blkLocateFree_poolStart ..

theorem nodMmheapFree_poolStart (ptr : Nat) : (h.nodMmheapFree ptr).poolStart = h.poolStart := by
  rw [Heap.nodMmheapFree]
  split
  · rfl
  · exact (blkMergeNext_poolStart ..).trans (blkMergePrev_poolStart ..)

theorem nodMmheapRealloc_poolStart (ptr n : Nat) :
    (h.nodMmheapRealloc ptr n).2.poolStart = h.poolStart := by
  rw [Heap.nodMmheapRealloc]
  split
  · exact nodMmheapFree_poolStart ..
  · split
    · exact nodMmheapAlloc_poolStart ..
    · dsimp only
      split
      · split
        · exact nodMmheapAlloc_poolStart ..
        · exact (nodMmheapFree_poolStart ..).trans (nodMmheapAlloc_poolStart ..)
      · rw [blkTrimUsed_poolStart]
        split
        · exact blkMergeNext_poolStart ..
        · rfl

theorem nodMmheapPoolAdd_length (p n : Nat) (hle : h.poolStart.length ≤ poolMax) :
    (h.nodMmheapPoolAdd p n).2.poolStart.length ≤ poolMax := by
  rw [Heap.nodMmheapPoolAdd]
  split
  · exact hle
  · rename_i hfull
    rw [Heap.nodMmheapPoolIsFull, beq_iff_eq] at hfull
    have hlt : h.poolStart.length + 1 ≤ poolMax := Nat.lt_of_le_of_ne hle hfull
    repeat' split
    · exact hle
    · exact hle
    · exact hle
    · show (h.poolStart ++ [p]).length ≤ poolMax
      rw [List.length_append]
      exact hlt

theorem nodMmheapPoolRmv_length (p : Nat) (hle : h.poolStart.length ≤ poolMax) :
    (h.nodMmheapPoolRmv p).2.poolStart.length ≤ poolMax := by
  rw [Heap.nodMmheapPoolRmv]
  split
  · exact hle
  · split
    · exact hle
    · dsimp only [Heap.nodMmheapPoolUnrecord]
      rw [Listed.removeFreeBlock_poolStart, List.length_dropLast, List.length_set]
      exact Nat.le_trans (Nat.sub_le _ _) hle

end Pools

variable {s : Sys}

theorem step_pools (op : Op) (hle : s.heap.poolStart.length ≤ poolMax) :
    (s.step op).2.heap.poolStart.length ≤ poolMax := by
  cases op with
  | alloc n => exact (congrArg List.length (nodMmheapAlloc_poolStart s.heap n)).trans_le hle
  | calloc num n =>
    exact (congrArg List.length (nodMmheapCalloc_poolStart s.heap num n)).trans_le hle
  | alignedAlloc n align =>
    exact (congrArg List.length (nodMmheapAlignedAlloc_poolStart s.heap n align)).trans_le hle
  | realloc ptr n =>
    exact (congrArg List.length (nodMmheapRealloc_poolStart s.heap ptr n)).trans_le hle
  | free ptr => exact (congrArg List.length (nodMmheapFree_poolStart s.heap ptr)).trans_le hle
  | poolAdd p n => exact nodMmheapPoolAdd_length s.heap p n hle
  | poolRmv p => exact nodMmheapPoolRmv_length s.heap p hle
  | use ptr off data => exact hle

theorem Reachable.pools_le (hr : Reachable s) : s.heap.poolStart.length ≤ poolMax := by
  induction hr with
  | init _ _ => exact nodMmheapPoolAdd_length _ _ _ (Nat.zero_le _)
  | step _ _ ih => exact step_pools _ ih

/-! ## The report -/

/-- How many blocks some pools have. -/
def countOfBlocks (pool : Nat → List Blk) (ps : List Nat) : Nat :=
  (ps.map fun p => (pool p).length).sum

theorem totalOfBlocks_add (ps : List Nat) :
    totalOfBlocks false pool ps + totalOfBlocks true pool ps + 8 * countOfBlocks pool ps =
      (ps.map fun p => span (pool p)).sum := by
  induction ps with
  | nil => rfl
  | cons p ps ih =>
    have hp := sizeOfBlocks_add (pool p)
    rw [totalOfBlocks_cons, totalOfBlocks_cons, List.map_cons, List.sum_cons, ← ih, ← hp,
      countOfBlocks, List.map_cons, List.sum_cons, ← countOfBlocks]
    omega

theorem sum_map_lt {n k : Nat} {g : Nat → Nat} (hg : ∀ p ∈ ps, g p < n) (hk : ps.length ≤ k) :
    (ps.map g).sum ≤ k * n := by
  have hle : (ps.map g).sum ≤ (ps.map g).length * n :=
    List.sum_le_card_nsmul _ _ fun x hx => by
      obtain ⟨p, hp, rfl⟩ := List.mem_map.mp hx
      exact Nat.le_of_lt (hg p hp)
  rw [List.length_map] at hle
  exact Nat.le_trans hle (Nat.mul_le_mul_right n hk)

theorem le_sizeOfBlocks (hc : c ∈ l) : c.1 ≤ sizeOfBlocks c.2 l :=
  List.le_sum_of_mem (List.mem_map_of_mem (List.mem_filter.mpr ⟨hc, by simp⟩))

theorem le_totalOfBlocks (hp : p ∈ ps) (hc : c ∈ pool p) : c.1 ≤ totalOfBlocks c.2 pool ps :=
  Nat.le_trans (le_sizeOfBlocks hc)
    (List.le_sum_of_mem (List.mem_map_of_mem (f := fun p => sizeOfBlocks c.2 (pool p)) hp))

/-- The sums are below 2^32. -/
theorem Shape.total_lt (S : Shape s pool) (hle : s.heap.poolStart.length ≤ poolMax) :
    totalOfBlocks false pool s.heap.poolStart + totalOfBlocks true pool s.heap.poolStart <
      2 ^ 32 := by
  have hadd : _ = (s.heap.poolStart.map fun p => span (pool p)).sum :=
    totalOfBlocks_add s.heap.poolStart
  have hlt : ∀ p ∈ s.heap.poolStart, span (pool p) < 2 ^ 30 + 8 := fun p hp => by
    rw [S.inv.rep.span_eq p hp]
    exact S.inv.rep.placed.small p hp
  have hsum : _ ≤ 3 * (2 ^ 30 + 8) := sum_map_lt hlt hle
  omega

/-- Nothing is used exactly when nothing is live. -/
theorem Shape.total_used (S : Shape s pool) :
    totalOfBlocks false pool s.heap.poolStart = 0 ↔ ∀ ptr, s.live ptr = none := by
  constructor
  · intro hzero ptr
    rcases hl : s.live ptr with _ | size
    · rfl
    · obtain ⟨x, t, -, ⟨p, hp, hx⟩, -⟩ := S.live ptr size hl
      have h24 := (S.inv.rep.cell_bounds hp hx).2.2
      have hle := le_totalOfBlocks hp (mem_cells hx).2.2
      dsimp only at h24 hle
      omega
  · intro hnone
    refine List.sum_eq_zero fun n hn => ?_
    obtain ⟨p, hp, rfl⟩ := List.mem_map.mp hn
    have hfree : ∀ c ∈ pool p, ¬ c.2 = false := by
      rintro ⟨t, f⟩ hc rfl
      obtain ⟨l₁, l₂, hl⟩ := List.append_of_mem hc
      have hx : Cell s.heap.poolStart pool (p - 8 + span l₁) (t, false) := by
        refine ⟨p, hp, ?_⟩
        rw [hl]
        exact mem_cells_split
      obtain ⟨size, hlive⟩ := S.used _ t hx
      rw [hnone] at hlive
      cases hlive
    show sizeOfBlocks false (pool p) = 0
    rw [sizeOfBlocks, List.filter_eq_nil_iff.mpr fun c hc => by simpa using hfree c hc]
    rfl

/-- **The report of `nod_mmheap_check` is right.**  On every heap a program can have, the walk
ends, and the two numbers are the sizes of the used and of the free blocks: with the headers they
make up the pools, and the first is zero exactly when nothing is live. -/
theorem nodMmheapCheck_reports (hr : Reachable s) : ∃ pool, Shape s pool ∧
    ∀ fuel, (∀ p ∈ s.heap.poolStart, s.len p ≤ fuel) →
      ∃ info, s.heap.nodMmheapCheck fuel false = some (.ok info) ∧
        info.used.toNat = totalOfBlocks false pool s.heap.poolStart ∧
        info.free.toNat = totalOfBlocks true pool s.heap.poolStart ∧
        info.used.toNat + info.free.toNat + 8 * countOfBlocks pool s.heap.poolStart =
          (s.heap.poolStart.map s.len).sum ∧
        (info.used = 0 ↔ ∀ ptr, s.live ptr = none) := by
  obtain ⟨pool, S⟩ := hr.shape
  have hlt := S.total_lt hr.pools_le
  have hlen : ∀ p ∈ s.heap.poolStart, 0 < s.len p := fun p _ => Nat.succ_pos _
  have hmod : ∀ n, n < 2 ^ 32 → (UInt32.ofNat n).toNat = n := fun n hn =>
    UInt32.toNat_ofNat_of_lt' hn
  have hused := hmod (totalOfBlocks false pool s.heap.poolStart) (by omega)
  have hfree := hmod (totalOfBlocks true pool s.heap.poolStart) (by omega)
  refine ⟨pool, S, fun fuel hfuel => ⟨⟨.ofNat _, .ofNat _⟩, ?_, hused, hfree, ?_, ?_⟩⟩
  · rw [Heap.nodMmheapCheck, if_neg Bool.false_ne_true,
      S.inv.checkPools (fun p hp => hp) hlen hfuel]
    simp [HeapInfo.plus]
  · rw [hused, hfree, totalOfBlocks_add]
    exact congrArg List.sum (List.map_congr_left fun p hp => S.inv.rep.span_eq p hp)
  · rw [← S.total_used, ← UInt32.toNat_inj, hused]
    rfl

/-- Of the heap with a gap, 52 bytes are reported as used, and the rest as free. -/
theorem nodMmheapCheck_reports_gapHeap : (∃ pool, Shape gapHeap pool ∧
    ∀ fuel, (∀ p ∈ gapHeap.heap.poolStart, gapHeap.len p ≤ fuel) →
      ∃ info, gapHeap.heap.nodMmheapCheck fuel false = some (.ok info) ∧
        info.used.toNat = totalOfBlocks false pool gapHeap.heap.poolStart ∧
        info.free.toNat = totalOfBlocks true pool gapHeap.heap.poolStart ∧
        info.used.toNat + info.free.toNat + 8 * countOfBlocks pool gapHeap.heap.poolStart =
          (gapHeap.heap.poolStart.map gapHeap.len).sum ∧
        (info.used = 0 ↔ ∀ ptr, gapHeap.live ptr = none)) ∧
    gapHeap.heap.nodMmheapCheck 8 false = some (.ok ⟨52, 932⟩) :=
  ⟨nodMmheapCheck_reports gapHeap_reachable, by decide +kernel⟩

end NoDrop.Mmheap
