import NoDrop.MmheapIndex

/-! # The monitor's heap

The allocator of the monitor, `mmheap.c`, which serves `malloc`, `calloc`, `realloc` and `free`
there.

A block is a header in raw memory, at whatever address the block is.  Its `prev_phys_blk` lies in
the last eight bytes of the block before it, and its list links lie in its own payload; each of
them is only meant while the block in whose payload it lies is free.  So the memory is an image of
bytes, and the fields of a header are the words at fixed distances from the block's address.  The
rest of the control structure is not addressed by pointers and is a record; `block_null` is, and
has an address in the image.

Addresses and sizes are natural numbers.  Where a request can make 64-bit arithmetic wrap, it is
reduced modulo 2^64.
-/
namespace NoDrop.Mmheap

open Bytes

/-- `sizeof(nod_mmheap_blk_t)`. -/
def blkStructSize : Nat := 32

/-- `NOD_MMHEAP_BLK_SIZE_MIN`. -/
def blkSizeMin : Nat := blkStructSize - 8

/-- `NOD_MMHEAP_BLK_SIZE_MAX`. -/
def blkSizeMax : Nat := 1 <<< flIndexMax

/-- `NOD_MMHEAP_BLK_HEADER_OVERHEAD`. -/
def blkHeaderOverhead : Nat := 8

/-- `NOD_MMHEAP_BLK_START_OFFSET`. -/
def blkStartOffset : Nat := 8 + 8

/-- `NOD_MMHEAP_POOL_MAX`. -/
def poolMax : Nat := 3

/-- `NOD_MMHEAP_BLOCK_CURR_FREE`. -/
def blockCurrFree : Nat := 1 <<< 0

/-- `NOD_MMHEAP_BLOCK_PREV_FREE`. -/
def blockPrevFree : Nat := 1 <<< 1

/-- `NOD_MMHEAP_BLOCK_STATE_MASK`. -/
def blockStateMask : Nat := blockCurrFree ||| blockPrevFree

/-- `~x` on 64 bits. -/
def not64 (x : Nat) : Nat := 2 ^ 64 - 1 - x

/-- `x - y` on 64 bits. -/
def sub64 (x y : Nat) : Nat := (x + (2 ^ 64 - y)) % 2 ^ 64

/-- The memory and `nod_mmheap_ctl`.  `poolStart` has the first `pool_cnt` entries. -/
structure Heap where
  mem : Image
  /-- `&nod_mmheap_ctl.block_null` -/
  blockNull : Nat
  poolStart : List Nat
  flBitmap : BitVec 32
  slBitmap : Nat → BitVec 32
  blocks : Nat → Nat → Nat

namespace Heap

variable (h : Heap)

/-! ## Headers -/

/-- `*(uint64_t *)a = v`. -/
def store (a v : Nat) : Heap := { h with mem := h.mem.setWord a v }

/-- `blk->prev_phys_blk`. -/
def prevPhysBlk (blk : Nat) : Nat := h.mem.word blk

/-- `blk->size`. -/
def sizeWord (blk : Nat) : Nat := h.mem.word (blk + 8)

/-- `blk->next_free`. -/
def nextFree (blk : Nat) : Nat := h.mem.word (blk + 16)

/-- `blk->prev_free`. -/
def prevFree (blk : Nat) : Nat := h.mem.word (blk + 24)

def setPrevPhysBlk (blk v : Nat) : Heap := h.store blk v

def setSizeWord (blk v : Nat) : Heap := h.store (blk + 8) v

def setNextFree (blk v : Nat) : Heap := h.store (blk + 16) v

def setPrevFree (blk v : Nat) : Heap := h.store (blk + 24) v

/-- `blk_size`. -/
def blkSize (blk : Nat) : Nat := h.sizeWord blk &&& not64 blockStateMask

/-- `blk_set_size`. -/
def blkSetSize (blk size : Nat) : Heap :=
  h.setSizeWord blk (size ||| (h.sizeWord blk &&& blockStateMask))

/-- `blk_is_free`. -/
def blkIsFree (blk : Nat) : Bool := h.sizeWord blk &&& blockCurrFree != 0

/-- `blk_set_free`. -/
def blkSetFree (blk : Nat) : Heap := h.setSizeWord blk (h.sizeWord blk ||| blockCurrFree)

/-- `blk_set_used`. -/
def blkSetUsed (blk : Nat) : Heap := h.setSizeWord blk (h.sizeWord blk &&& not64 blockCurrFree)

/-- `blk_is_prev_free`. -/
def blkIsPrevFree (blk : Nat) : Bool := h.sizeWord blk &&& blockPrevFree != 0

/-- `blk_set_prev_free`. -/
def blkSetPrevFree (blk : Nat) : Heap := h.setSizeWord blk (h.sizeWord blk ||| blockPrevFree)

/-- `blk_set_prev_used`. -/
def blkSetPrevUsed (blk : Nat) : Heap :=
  h.setSizeWord blk (h.sizeWord blk &&& not64 blockPrevFree)

/-- `blk_from_ptr`. -/
def blkFromPtr (ptr : Nat) : Nat := ptr - blkStartOffset

/-- `blk_to_ptr`. -/
def blkToPtr (blk : Nat) : Nat := blk + blkStartOffset

/-- `offset_to_blk`. -/
def offsetToBlk (ptr : Nat) (diff : Int) : Nat := (ptr + diff).toNat

/-- `blk_prev`. -/
def blkPrev (blk : Nat) : Nat := h.prevPhysBlk blk

/-- `blk_next`. -/
def blkNext (blk : Nat) : Nat :=
  offsetToBlk (blkToPtr blk) (h.blkSize blk - blkHeaderOverhead)

/-- `blk_link_next`. -/
def blkLinkNext (blk : Nat) : Nat × Heap :=
  let next := h.blkNext blk
  (next, h.setPrevPhysBlk next blk)

/-- `blk_mark_as_free`. -/
def blkMarkAsFree (blk : Nat) : Heap :=
  let (next, h) := h.blkLinkNext blk
  (h.blkSetPrevFree next).blkSetFree blk

/-- `blk_mark_as_used`. -/
def blkMarkAsUsed (blk : Nat) : Heap :=
  let next := h.blkNext blk
  (h.blkSetPrevUsed next).blkSetUsed blk

/-! ## Alignment -/

/-- `align_up`, and `align_ptr`. -/
def alignUp (x align : Nat) : Nat := (x + sub64 align 1) % 2 ^ 64 &&& not64 (sub64 align 1)

/-- `align_down`. -/
def alignDown (x align : Nat) : Nat := x - (x &&& sub64 align 1)

/-! ## The lists -/

/-- `insert_free_block`. -/
def insertFreeBlock (blk fl sl : Nat) : Heap :=
  let curr := h.blocks fl sl
  let h := h.setNextFree blk curr
  let h := h.setPrevFree blk h.blockNull
  let h := h.setPrevFree curr blk
  { h with
    blocks := Function.update h.blocks fl (Function.update (h.blocks fl) sl blk)
    flBitmap := h.flBitmap ||| (1#32 <<< fl)
    slBitmap := Function.update h.slBitmap fl (h.slBitmap fl ||| (1#32 <<< sl)) }

/-- The new head of a list whose head has been taken: `blocks` and the bitmaps. -/
def setHead (fl sl next : Nat) : Heap :=
  let h := { h with
    blocks := Function.update h.blocks fl (Function.update (h.blocks fl) sl next) }
  if next = h.blockNull then
    let h := { h with
      slBitmap := Function.update h.slBitmap fl (h.slBitmap fl &&& ~~~(1#32 <<< sl)) }
    if h.slBitmap fl = 0 then { h with flBitmap := h.flBitmap &&& ~~~(1#32 <<< fl) } else h
  else h

/-- `remove_free_block`. -/
def removeFreeBlock (blk fl sl : Nat) : Heap :=
  let prev := h.prevFree blk
  let next := h.nextFree blk
  let h := h.setPrevFree next prev
  let h := h.setNextFree prev next
  if h.blocks fl sl = blk then h.setHead fl sl next else h

/-- `blk_remove`. -/
def blkRemove (blk : Nat) : Heap :=
  let (fl, sl) := mappingInsert (h.blkSize blk)
  h.removeFreeBlock blk fl sl

/-- `blk_insert`. -/
def blkInsert (blk : Nat) : Heap :=
  let (fl, sl) := mappingInsert (h.blkSize blk)
  h.insertFreeBlock blk fl sl

/-! ## Splitting and merging -/

/-- `blk_can_split`. -/
def blkCanSplit (blk size : Nat) : Bool := h.blkSize blk ≥ blkStructSize + size

/-- `blk_split`. -/
def blkSplit (blk size : Nat) : Nat × Heap :=
  let remaining := offsetToBlk (blkToPtr blk) (size - blkHeaderOverhead)
  let remainSize := h.blkSize blk - (size + blkHeaderOverhead)
  let h := h.blkSetSize remaining remainSize
  let h := h.blkSetSize blk size
  (remaining, h.blkMarkAsFree remaining)

/-- `blk_absorb`. -/
def blkAbsorb (prev blk : Nat) : Nat × Heap :=
  let h := h.setSizeWord prev (h.sizeWord prev + (h.blkSize blk + blkHeaderOverhead))
  (prev, (h.blkLinkNext prev).2)

/-- `blk_merge_prev`. -/
def blkMergePrev (blk : Nat) : Nat × Heap :=
  if h.blkIsPrevFree blk then
    let prev := h.blkPrev blk
    (h.blkRemove prev).blkAbsorb prev blk
  else (blk, h)

/-- `blk_merge_next`. -/
def blkMergeNext (blk : Nat) : Nat × Heap :=
  let next := h.blkNext blk
  if h.blkIsFree next then (h.blkRemove next).blkAbsorb blk next else (blk, h)

/-- `blk_trim_free`. -/
def blkTrimFree (blk size : Nat) : Heap :=
  if h.blkCanSplit blk size then
    let (remaining, h) := h.blkSplit blk size
    let h := (h.blkLinkNext blk).2
    let h := h.blkSetPrevFree remaining
    h.blkInsert remaining
  else h

/-- `blk_trim_used`. -/
def blkTrimUsed (blk size : Nat) : Heap :=
  if h.blkCanSplit blk size then
    let (remaining, h) := h.blkSplit blk size
    let h := h.blkSetPrevUsed remaining
    let (remaining, h) := h.blkMergeNext remaining
    h.blkInsert remaining
  else h

/-- `blk_trim_free_leading`. -/
def blkTrimFreeLeading (blk size : Nat) : Nat × Heap :=
  if h.blkCanSplit blk size then
    let (remaining, h) := h.blkSplit blk (size - blkHeaderOverhead)
    let h := h.blkSetPrevFree remaining
    let h := (h.blkLinkNext blk).2
    (remaining, h.blkInsert blk)
  else (blk, h)

/-! ## Finding a block -/

/-- `blk_search_suitable`: the block, 0 if there is none, and its list. -/
def blkSearchSuitable (fl sl : Nat) : Nat × Nat × Nat :=
  let slMap := h.slBitmap fl &&& (BitVec.allOnes 32 <<< sl)
  if slMap = 0 then
    let flMap := h.flBitmap &&& (BitVec.allOnes 32 <<< (fl + 1))
    if flMap = 0 then (0, fl, sl)
    else
      let fl := ffs flMap
      let sl := ffs (h.slBitmap fl)
      (h.blocks fl sl, fl, sl)
  else
    let sl := ffs slMap
    (h.blocks fl sl, fl, sl)

/-- `blk_locate_free`. -/
def blkLocateFree (size : Nat) : Nat × Heap :=
  if size = 0 then (0, h)
  else
    let (fl, sl) := mappingSearch size
    if fl < flIndexCount then
      let (blk, fl, sl) := h.blkSearchSuitable fl sl
      if blk = 0 then (0, h) else (blk, h.removeFreeBlock blk fl sl)
    else (0, h)

/-- `adjust_request_size`. -/
def adjustRequestSize (size align : Nat) : Nat :=
  if size = 0 then 0
  else
    let adjustSize := alignUp size align
    if adjustSize = 0 ∨ adjustSize > blkSizeMax then 0
    else if adjustSize > blkSizeMin then adjustSize else blkSizeMin

/-- `blk_prepare_used`. -/
def blkPrepareUsed (blk size : Nat) : Nat × Heap :=
  if blk = 0 then (0, h) else (blkToPtr blk, (h.blkTrimFree blk size).blkMarkAsUsed blk)

/-! ## The interface -/

/-- `nod_mmheap_alloc`. -/
def nodMmheapAlloc (size : Nat) : Nat × Heap :=
  if size > blkSizeMax then (0, h)
  else
    let adjustSize := adjustRequestSize size alignSize
    let (blk, h) := h.blkLocateFree adjustSize
    if blk = 0 then (0, h) else h.blkPrepareUsed blk adjustSize

/-- `memset(ptr, 0, n)`. -/
def memsetZero (ptr n : Nat) : Heap := { h with mem := h.mem.write ⟨ptr, List.replicate n 0⟩ }

/-- `memcpy(to, from, n)`. -/
def memcpy (dst src n : Nat) : Heap := { h with mem := h.mem.write ⟨dst, h.mem.read src n⟩ }

/-- `nod_mmheap_calloc`. -/
def nodMmheapCalloc (num size : Nat) : Nat × Heap :=
  let (ptr, h) := h.nodMmheapAlloc (num * size % 2 ^ 64)
  if ptr = 0 then (ptr, h) else (ptr, h.memsetZero ptr (num * size % 2 ^ 64))

/-- The size of the block that `nod_mmheap_aligned_alloc` looks for. -/
def alignedSize (size align : Nat) : Nat :=
  let adjustSize := adjustRequestSize size alignSize
  let gapMinimum := blkStructSize
  let sizeWithGap := adjustRequestSize ((adjustSize + align + gapMinimum) % 2 ^ 64) align
  if adjustSize ≠ 0 ∧ align > alignSize then sizeWithGap else adjustSize

/-- The distance from `ptr` to the address that `nod_mmheap_aligned_alloc` chooses: the next
multiple of `align`, or a later one if there is no room for a free block before it. -/
def alignGap (ptr align : Nat) : Nat :=
  let gapMinimum := blkStructSize
  let aligned := alignUp ptr align
  let gap := sub64 aligned ptr
  if gap ≠ 0 ∧ gap < gapMinimum then
    let gapRemain := gapMinimum - gap
    let offset := if gapRemain > align then gapRemain else align
    let nextAligned := (aligned + offset) % 2 ^ 64
    sub64 (alignUp nextAligned align) ptr
  else gap

/-- `nod_mmheap_aligned_alloc`. -/
def nodMmheapAlignedAlloc (size align : Nat) : Nat × Heap :=
  let (blk, h) := h.blkLocateFree (alignedSize size align)
  if blk = 0 then (0, h)
  else
    let gap := alignGap (blkToPtr blk) align
    let cut := if gap ≠ 0 then h.blkTrimFreeLeading blk gap else (blk, h)
    cut.2.blkPrepareUsed cut.1 (adjustRequestSize size alignSize)

/-- `nod_mmheap_free`. -/
def nodMmheapFree (ptr : Nat) : Heap :=
  if ptr = 0 then h
  else
    let blk := blkFromPtr ptr
    let h := h.blkMarkAsFree blk
    let (blk, h) := h.blkMergePrev blk
    let (blk, h) := h.blkMergeNext blk
    h.blkInsert blk

/-- `nod_mmheap_realloc`. -/
def nodMmheapRealloc (ptr size : Nat) : Nat × Heap :=
  if ptr ≠ 0 ∧ size = 0 then (0, h.nodMmheapFree ptr)
  else if ptr = 0 then h.nodMmheapAlloc size
  else
    let curr := blkFromPtr ptr
    let next := h.blkNext curr
    let currSize := h.blkSize curr
    let combinedSize := currSize + h.blkSize next + blkHeaderOverhead
    let adjustSize := adjustRequestSize size alignSize
    if adjustSize > currSize ∧ (h.blkIsFree next = false ∨ adjustSize > combinedSize) then
      let (p, h) := h.nodMmheapAlloc size
      if p = 0 then (p, h)
      else
        let minSize := if currSize < size then currSize else size
        (p, (h.memcpy p ptr minSize).nodMmheapFree ptr)
    else
      let h :=
        if adjustSize > currSize then (h.blkMergeNext curr).2.blkMarkAsUsed curr else h
      (ptr, h.blkTrimUsed curr adjustSize)

/-! ## Pools -/

/-- `NOD_MMHEAP_POOL_OVERFLOW`. -/
def poolOverflow : Int := -1

/-- `NOD_MMHEAP_POOL_ALREADY_EXIST`. -/
def poolAlreadyExist : Int := -2

/-- `NOD_MMHEAP_INVALID_POOL_ADDR`. -/
def invalidPoolAddr : Int := -3

/-- `NOD_MMHEAP_INVALID_POOL_SIZE`. -/
def invalidPoolSize : Int := -4

/-- `NOD_MMHEAP_POOL_NOT_EXIST`. -/
def poolNotExist : Int := -5

/-- `NOD_OBJ_PTR_NULL`. -/
def objPtrNull : Int := -6

/-- `nod_mmheap_pool_is_full`. -/
def nodMmheapPoolIsFull : Bool := h.poolStart.length == poolMax

/-- `nod_mmheap_pool_is_exist`. -/
def nodMmheapPoolIsExist (poolStart : Nat) : Bool := h.poolStart.contains poolStart

/-- `nod_mmheap_pool_record`. -/
def nodMmheapPoolRecord (poolStart : Nat) : Heap :=
  { h with poolStart := h.poolStart ++ [poolStart] }

/-- `nod_mmheap_pool_unrecord`: the last pool takes the place of the first entry that is
`poolStart`. -/
def nodMmheapPoolUnrecord (poolStart : Nat) : Heap :=
  let i := h.poolStart.idxOf poolStart
  { h with
    poolStart := (h.poolStart.set i (h.poolStart.getLastD 0)).dropLast }

/-- The usable size of a pool: `pool_size` less two headers, rounded down. -/
def sizeAligned (poolSize : Nat) : Nat :=
  alignDown (sub64 poolSize (2 * blkHeaderOverhead)) alignSize

/-- `nod_mmheap_pool_add`. -/
def nodMmheapPoolAdd (poolStart poolSize : Nat) : Int × Heap :=
  if h.nodMmheapPoolIsFull then (poolOverflow, h)
  else if h.nodMmheapPoolIsExist poolStart then (poolAlreadyExist, h)
  else if poolStart % alignSize ≠ 0 then (invalidPoolAddr, h)
  else if sizeAligned poolSize < blkSizeMin ∨ sizeAligned poolSize > blkSizeMax then
    (invalidPoolSize, h)
  else
    let curr := offsetToBlk poolStart (-blkHeaderOverhead)
    let h := h.blkSetSize curr (sizeAligned poolSize)
    let h := h.blkSetFree curr
    let h := h.blkSetPrevUsed curr
    let h := h.blkInsert curr
    let (next, h) := h.blkLinkNext curr
    let h := h.blkSetSize next 0
    let h := h.blkSetUsed next
    let h := h.blkSetPrevFree next
    (0, h.nodMmheapPoolRecord poolStart)

/-- `nod_mmheap_pool_rmv`. -/
def nodMmheapPoolRmv (poolStart : Nat) : Int × Heap :=
  if poolStart = 0 then (objPtrNull, h)
  else if h.nodMmheapPoolIsExist poolStart = false then (poolNotExist, h)
  else
    let blk := offsetToBlk poolStart (-blkHeaderOverhead)
    let (fl, sl) := mappingInsert (h.blkSize blk)
    (0, (h.removeFreeBlock blk fl sl).nodMmheapPoolUnrecord poolStart)

/-- `nod_mmheap_ctl_init`. -/
def nodMmheapCtlInit : Heap :=
  let h := (h.setNextFree h.blockNull h.blockNull).setPrevFree h.blockNull h.blockNull
  { h with
    poolStart := []
    flBitmap := 0
    slBitmap := fun i => if i < flIndexCount then 0 else h.slBitmap i
    blocks := fun i j =>
      if i < flIndexCount ∧ j < slIndexCount then h.blockNull else h.blocks i j }

/-- `nod_mmheap_init`. -/
def nodMmheapInit (poolStart poolSize : Nat) : Int × Heap :=
  h.nodMmheapCtlInit.nodMmheapPoolAdd poolStart poolSize

end Heap

end NoDrop.Mmheap
