import NoDrop.MmheapFit

/-! # The blocks are determined by the used ones

A free block never has a free neighbour, so the free blocks of a pool are the gaps between the
used ones: two lists of blocks over the same bytes with the same used blocks are the same
(`blocks_unique`).  Hence what the heap can still serve does not depend on how it got where it
is, on the order of frees, or on what was allocated in between.  It depends on what is live
(`alloc_of_sameLive`).

The order of the free lists does depend on the past, and so which block an allocation gets.
-/
namespace NoDrop.Mmheap

open Bytes

/-! ## Lists of blocks -/

variable {l l' : List Blk} {b x t u : Nat} {p : Bool} {c d : Blk}

/-- The two lists, from `b` on, have the same used blocks. -/
def SameUsedBlocks (b : Nat) (l l' : List Blk) : Prop :=
  ∀ x t, (x, (t, false)) ∈ cells b l ↔ (x, (t, false)) ∈ cells b l'

theorem SameUsedBlocks.symm (h : SameUsedBlocks b l l') : SameUsedBlocks b l' l :=
  fun x t => (h x t).symm

/-- A block at the address where the list begins is the first one. -/
theorem eq_of_mem_cells_start (h : (b, c) ∈ cells b (d :: l)) : c = d := by
  rcases List.mem_cons.mp h with h | h
  · exact (Prod.mk.inj h).2
  · have := (mem_cells h).1
    omega

theorem SameUsedBlocks.tail (h : SameUsedBlocks b (c :: l) (c :: l')) :
    SameUsedBlocks (b + 8 + c.1) l l' := by
  have hone : ∀ {k k' : List Blk}, SameUsedBlocks b (c :: k) (c :: k') → ∀ x t,
      (x, (t, false)) ∈ cells (b + 8 + c.1) k → (x, (t, false)) ∈ cells (b + 8 + c.1) k' := by
    intro k k' h x t hx
    have hlo := (mem_cells hx).1
    rcases List.mem_cons.mp ((h x t).mp (List.mem_cons_of_mem _ hx)) with heq | hx'
    · have := (Prod.mk.inj heq).1
      omega
    · exact hx'
  exact fun x t => ⟨hone h x t, hone h.symm x t⟩

/-- Behind a free block there is a used one or the end, so another free block that begins at the
same address does not go further. -/
theorem free_le (hn : NoAdjacent true l) (hspan : span ((t, true) :: l) = span ((u, true) :: l'))
    (hused : SameUsedBlocks b ((t, true) :: l) ((u, true) :: l')) : u ≤ t := by
  rw [span_cons, span_cons] at hspan
  cases l with
  | nil =>
    rw [span_nil] at hspan
    dsimp only at hspan
    omega
  | cons d l =>
    obtain ⟨v, f⟩ := d
    cases f with
    | true => exact absurd ⟨rfl, rfl⟩ hn.1
    | false =>
      have hd : (b + 8 + t, (v, false)) ∈ cells b ((t, true) :: (v, false) :: l) :=
        List.mem_cons_of_mem _ List.mem_cons_self
      rcases List.mem_cons.mp ((hused _ _).mp hd) with heq | hd'
      · exact absurd (Prod.mk.inj (Prod.mk.inj heq).2).2 Bool.false_ne_true
      · have := (mem_cells hd').1
        omega

/-- **The used blocks determine the free ones.** -/
theorem blocks_unique (hn : NoAdjacent p l) (hn' : NoAdjacent p l') (hspan : span l = span l')
    (hused : SameUsedBlocks b l l') : l = l' := by
  induction l generalizing b p l' with
  | nil =>
    cases l' with
    | nil => rfl
    | cons d l' =>
      rw [span_nil, span_cons] at hspan
      omega
  | cons c l ih =>
    cases l' with
    | nil =>
      rw [span_nil, span_cons] at hspan
      omega
    | cons d l' =>
      have hhead : c = d := by
        obtain ⟨t, f⟩ := c
        obtain ⟨u, g⟩ := d
        cases f with
        | false => exact eq_of_mem_cells_start ((hused b t).mp List.mem_cons_self)
        | true =>
          cases g with
          | false => exact (eq_of_mem_cells_start ((hused b u).mpr List.mem_cons_self)).symm
          | true =>
            have hle := free_le hn.2 hspan hused
            have hge := free_le hn'.2 hspan.symm hused.symm
            rw [Nat.le_antisymm hge hle]
      subst hhead
      rw [span_cons, span_cons] at hspan
      rw [ih hn.2 hn'.2 (by omega) hused.tail]

/-! ## Heaps -/

section Heaps

variable {h h' : Heap} {len len' : Nat → Nat} {pool pool' : Nat → List Blk} {q size : Nat}

/-- Only the blocks of the pools matter. -/
theorem Inv.congr (I : Inv h len pool') (hpool : ∀ q ∈ h.poolStart, pool q = pool' q) :
    Inv h len pool := by
  have hcell : ∀ x c, Cell h.poolStart pool x c ↔ Cell h.poolStart pool' x c := fun x c =>
    exists_congr fun q => and_congr_right fun hq => by rw [hpool q hq]
  constructor
  case rep =>
    refine ⟨I.rep.placed, fun q hq => ?_, fun q hq => ?_, fun q hq => ?_, ?_⟩
    · rw [hpool q hq]
      exact I.rep.span_eq q hq
    · rw [hpool q hq]
      exact I.rep.size q hq
    · rw [hpool q hq]
      exact I.rep.tiled q hq
    · simp only [hcell]
      exact I.rep.listed
  case noAdjacent =>
    intro q hq
    rw [hpool q hq]
    exact I.noAdjacent q hq

/-- **The two heaps have the same pools and the same used blocks.** -/
structure SameLive (h : Heap) (len : Nat → Nat) (pool : Nat → List Blk) (h' : Heap)
    (len' : Nat → Nat) (pool' : Nat → List Blk) : Prop where
  pools : ∀ q, q ∈ h.poolStart ↔ q ∈ h'.poolStart
  len : ∀ q ∈ h.poolStart, len q = len' q
  used : ∀ x t, Cell h.poolStart pool x (t, false) ↔ Cell h'.poolStart pool' x (t, false)

namespace SameLive

theorem symm (L : SameLive h len pool h' len' pool') : SameLive h' len' pool' h len pool where
  pools q := (L.pools q).symm
  len q hq := (L.len q ((L.pools q).mpr hq)).symm
  used x t := (L.used x t).symm

/-- A used block is in the same pool of the other heap. -/
theorem used_in (L : SameLive h len pool h' len' pool') (I : Inv h len pool)
    (I' : Inv h' len' pool') (hq : q ∈ h.poolStart)
    (hx : (x, (t, false)) ∈ cells (q - 8) (pool q)) :
    (x, (t, false)) ∈ cells (q - 8) (pool' q) := by
  obtain ⟨r, hr, hx'⟩ := (L.used x t).mp ⟨q, hq, hx⟩
  have hb := I.rep.cell_bounds hq hx
  have hb' := I'.rep.cell_bounds hr hx'
  have hlen := L.len q hq
  by_cases hqr : q = r
  · rw [hqr]
    exact hx'
  · have hapart := I'.rep.placed.disjoint q ((L.pools q).mp hq) r hr hqr
    dsimp only at hb hb'
    omega

/-- **All blocks are the same.** -/
theorem pool_eq (L : SameLive h len pool h' len' pool') (I : Inv h len pool)
    (I' : Inv h' len' pool') (hq : q ∈ h.poolStart) : pool q = pool' q := by
  have hq' := (L.pools q).mp hq
  refine blocks_unique (b := q - 8) (I.noAdjacent q hq) (I'.noAdjacent q hq') ?_ fun x t => ?_
  · rw [I.rep.span_eq q hq, I'.rep.span_eq q hq', L.len q hq]
  · exact ⟨L.used_in I I' hq, L.symm.used_in I' I hq'⟩

theorem cell_iff (L : SameLive h len pool h' len' pool') (I : Inv h len pool)
    (I' : Inv h' len' pool') : Cell h.poolStart pool x c ↔ Cell h'.poolStart pool' x c := by
  constructor
  · rintro ⟨q, hq, hx⟩
    exact ⟨q, (L.pools q).mp hq, L.pool_eq I I' hq ▸ hx⟩
  · rintro ⟨q, hq, hx⟩
    exact ⟨q, (L.pools q).mpr hq, L.symm.pool_eq I' I hq ▸ hx⟩

/-- The lists that are empty from a class on are the same. -/
theorem emptyFrom_iff (L : SameLive h len pool h' len' pool') (I : Inv h len pool)
    (I' : Inv h' len' pool') (k : Nat × Nat) : EmptyFrom h k ↔ EmptyFrom h' k := by
  rw [I.emptyFrom_iff, I'.emptyFrom_iff]
  simp only [L.cell_iff I I']

/-- **Both heaps serve the same requests.** -/
theorem alloc_iff (L : SameLive h len pool h' len' pool') (I : Inv h len pool)
    (I' : Inv h' len' pool') :
    (h.nodMmheapAlloc size).1 = 0 ↔ (h'.nodMmheapAlloc size).1 = 0 := by
  rcases Nat.eq_zero_or_pos size with rfl | hpos
  · rw [Shape.nodMmheapAlloc_zero, Shape.nodMmheapAlloc_zero]
  · by_cases hmax : size ≤ blkSizeMax
    · rw [I.nodMmheapAlloc_eq_zero hpos.ne' hmax, I'.nodMmheapAlloc_eq_zero hpos.ne' hmax,
        L.emptyFrom_iff I I']
    · rw [Heap.nodMmheapAlloc, Heap.nodMmheapAlloc, if_pos (Nat.lt_of_not_le hmax),
        if_pos (Nat.lt_of_not_le hmax)]

end SameLive

end Heaps

/-! ## Runs -/

section Runs

variable {s s' : Sys} {pool pool' : Nat → List Blk} {size ptr : Nat}

/-- What the program has in two heaps: the same allocations, in blocks of the same sizes, out of
the same pools. -/
structure SameAllocations (s s' : Sys) : Prop where
  pools : ∀ q, q ∈ s.heap.poolStart ↔ q ∈ s'.heap.poolStart
  extent : ∀ q ∈ s.heap.poolStart, s.extent q = s'.extent q
  live : ∀ ptr, s.Live ptr ↔ s'.Live ptr
  blocks : ∀ ptr, s.Live ptr →
    s.heap.blkSize (Heap.blkFromPtr ptr) = s'.heap.blkSize (Heap.blkFromPtr ptr)

theorem SameAllocations.symm (A : SameAllocations s s') : SameAllocations s' s where
  pools q := (A.pools q).symm
  extent q hq := (A.extent q ((A.pools q).mpr hq)).symm
  live ptr := (A.live ptr).symm
  blocks ptr hl := (A.blocks ptr ((A.live ptr).mpr hl)).symm

/-- A used block is a live allocation, and its size is in its header. -/
theorem Shape.blkSize_used (S : Shape s pool) (hx : Cell s.heap.poolStart pool x (t, false)) :
    s.heap.blkSize (Heap.blkFromPtr (x + 16)) = t := by
  obtain ⟨q, hq⟩ := S.inv.rep.cell_header hx
  have hblk : Heap.blkFromPtr (x + 16) = x := Nat.add_sub_cancel x 16
  rw [hblk]
  exact blkSize_eq hq

theorem SameAllocations.used (A : SameAllocations s s') (S : Shape s pool) (S' : Shape s' pool')
    (hx : Cell s.heap.poolStart pool x (t, false)) : Cell s'.heap.poolStart pool' x (t, false) := by
  have hl := S.used x t hx
  obtain ⟨size, hsize⟩ := (A.live _).mp hl
  obtain ⟨y, u, hy, hc, -⟩ := S'.live _ _ hsize
  obtain rfl : x = y := Nat.add_right_cancel hy
  have hblocks := A.blocks _ hl
  rw [S.blkSize_used hx, S'.blkSize_used hc] at hblocks
  rw [hblocks]
  exact hc

theorem SameAllocations.sameLive (A : SameAllocations s s') (S : Shape s pool)
    (S' : Shape s' pool') : SameLive s.heap s.len pool s'.heap s'.len pool' where
  pools := A.pools
  len q hq := by rw [Sys.len, Sys.len, A.extent q hq]
  used x t := ⟨A.used S S', A.symm.used S' S⟩

/-! ### An allocation that is given back -/

/-- A block that is allocated and freed again leaves the same used blocks. -/
theorem Allocated.sameLive {h h' h'' : Heap} {len : Nat → Nat} {a : Nat}
    (A : Allocated h len pool x a h')
    (hfree : ∀ pool' t, Inv h' len pool' → Cell h'.poolStart pool' x (t, false) →
      Freed h' len pool' x h'') :
    ∃ pool'', Inv h'' len pool'' ∧ SameLive h len pool h'' len pool'' := by
  obtain ⟨pool', t, I', hc, -, hnew, K⟩ := A
  obtain ⟨pool'', I'', hgone, K'⟩ := hfree pool' t I' hc
  refine ⟨pool'', I'', fun q => by rw [K'.pools, K.pools], fun q _ => rfl, fun y u => ?_⟩
  by_cases hy : y = x
  · subst hy
    exact iff_of_false (hnew u) (hgone u)
  · exact ((K'.used y u hy).trans (K.used y u hy)).symm

/-- A call that asks for memory and may get none. -/
inductive Op.Asks : Op → Nat → Prop
  | alloc (size : Nat) : Asks (.alloc size) size
  | alignedAlloc (size align : Nat) : Asks (.alignedAlloc size align) size

/-- What such a call does when it gets some. -/
theorem Shape.asked (S : Shape s pool) {op : Op} (hasks : op.Asks size) (hop : s.Allowed op)
    (hne : (s.step op).1 ≠ 0) : ∃ x, (s.step op).1 = x + 16 ∧
      Allocated s.heap s.len pool x size (s.step op).2.heap ∧ (s.step op).2.extent = s.extent ∧
      (s.step op).2.live = Function.update s.live (x + 16) (some size) := by
  have hgot : ∀ r : Nat × Heap, r.1 ≠ 0 → (r = (0, s.heap) ∨ ∃ x, r.1 = x + 16 ∧
      Allocated s.heap s.len pool x size r.2) → ∃ x, r.1 = x + 16 ∧
        Allocated s.heap s.len pool x size r.2 ∧
        s.granted r.1 size = Function.update s.live (x + 16) (some size) := by
    rintro r hr (rfl | ⟨x, hx, A⟩)
    · exact absurd rfl hr
    · refine ⟨x, hx, A, ?_⟩
      rw [Sys.granted, if_neg hr, hx]
  cases hasks with
  | alloc size =>
    obtain ⟨x, hx, A, hlive⟩ := hgot _ hne (S.inv.nodMmheapAlloc hop)
    exact ⟨x, hx, A, rfl, hlive⟩
  | alignedAlloc size align =>
    obtain ⟨hsize, k, hk, rfl⟩ := hop
    obtain ⟨x, hx, A, hlive⟩ := hgot _ hne (S.inv.nodMmheapAlignedAlloc hsize hk)
    exact ⟨x, hx, A, rfl, hlive⟩

/-- The state after a call and the free of what it returned. -/
def Sys.giveBack (s : Sys) (op : Op) : Sys := ((s.step op).2.step (.free (s.step op).1)).2

/-- **Freeing undoes allocating.**  When a request is granted and the memory is given back, the
heap has the blocks it had, the program has what it had, and the same requests are refused as
before. -/
theorem giveBack_restores (hr : Reachable s) {op : Op} (hasks : op.Asks size) (hop : s.Allowed op)
    (hne : (s.step op).1 ≠ 0) :
    (∃ pool, Inv s.heap s.len pool ∧ Inv (s.giveBack op).heap s.len pool) ∧
      (s.giveBack op).live = s.live ∧ (s.giveBack op).store = s.store ∧
      ∀ n, ((s.giveBack op).heap.nodMmheapAlloc n).1 = 0 ↔ (s.heap.nodMmheapAlloc n).1 = 0 := by
  obtain ⟨pool, S⟩ := hr.shape
  obtain ⟨x, hptr, A, hext, hlive⟩ := S.asked hasks hop hne
  have hnone : s.live (x + 16) = none := by
    obtain ⟨-, -, -, -, -, hnew, -⟩ := A
    exact S.live_none hnew
  have hheap : (s.giveBack op).heap = (s.step op).2.heap.nodMmheapFree (x + 16) := by
    rw [Sys.giveBack, hptr]
    rfl
  obtain ⟨pool', I', L⟩ := A.sameLive fun pool' t I' hc => I'.nodMmheapFree hc
  rw [← hheap] at I' L
  refine ⟨⟨pool, S.inv, I'.congr fun q hq => ?_⟩, ?_, ?_, fun n => (L.alloc_iff S.inv I').symm⟩
  · exact L.pool_eq S.inv I' ((L.pools q).mpr hq)
  · show Function.update (s.step op).2.live (s.step op).1 none = s.live
    rw [hptr, hlive, Function.update_idem, ← hnone, Function.update_eq_self]
  · have hG : GrantsSize s.store size (s.step op).1 (s.step op).2.store := by
      cases hasks <;> exact (S.serves hop).2
    rcases hG with ⟨hz, -⟩ | ⟨bs, -, -, hold, hstore⟩
    · exact absurd hz hne
    · obtain ⟨pool₁, S₁⟩ := (S.serves hop).1
      have hlive₁ : (s.step op).2.Live (s.step op).1 :=
        ⟨size, by rw [hlive, hptr, Function.update_self]⟩
      have hfree : (s.giveBack op).store =
          Function.update (s.step op).2.store (s.step op).1 none :=
        (S₁.serves (show Sys.Allowed _ (.free (s.step op).1) from Or.inr hlive₁)).2
      rw [hfree, hstore, Function.update_idem, ← hold, Function.update_eq_self]

theorem giveBack_restores_small :
    let s := Sys.init smallHeap 4096 1024
    (∃ pool, Inv s.heap s.len pool ∧ Inv (s.giveBack (.alloc 100)).heap s.len pool) ∧
      (s.giveBack (.alloc 100)).live = s.live ∧ (s.giveBack (.alloc 100)).store = s.store ∧
      ∀ n, ((s.giveBack (.alloc 100)).heap.nodMmheapAlloc n).1 = 0 ↔
        (s.heap.nodMmheapAlloc n).1 = 0 :=
  giveBack_restores reachable_small (.alloc 100) (show 100 < 2 ^ 64 by decide)
    (by decide +kernel)

/-! ### Any two pasts -/

/-- **What the heap can serve depends on what is live, and not on the past**: after any two
sequences of calls that leave the same allocations, the blocks are the same, free ones included,
and a request is refused in both or in none. -/
theorem alloc_of_sameAllocations (hr : Reachable s) (hr' : Reachable s')
    (A : SameAllocations s s') :
    (∃ pool, Inv s.heap s.len pool ∧ Inv s'.heap s'.len pool) ∧
      ∀ size, (s.heap.nodMmheapAlloc size).1 = 0 ↔ (s'.heap.nodMmheapAlloc size).1 = 0 := by
  obtain ⟨pool, S⟩ := hr.shape
  obtain ⟨pool', S'⟩ := hr'.shape
  have L := A.sameLive S S'
  refine ⟨⟨pool, S.inv, S'.inv.congr fun q hq => ?_⟩, fun size => L.alloc_iff S.inv S'.inv⟩
  exact L.pool_eq S.inv S'.inv ((L.pools q).mpr hq)

/-- A heap with a gap between two allocations, and the same after 40 bytes of the gap have been
allocated and freed. -/
theorem alloc_of_sameAllocations_gapHeap :
    (∃ pool, Inv gapHeap.heap gapHeap.len pool ∧
      Inv (gapHeap.giveBack (.alloc 40)).heap (gapHeap.giveBack (.alloc 40)).len pool) ∧
      ∀ size, (gapHeap.heap.nodMmheapAlloc size).1 = 0 ↔
        ((gapHeap.giveBack (.alloc 40)).heap.nodMmheapAlloc size).1 = 0 := by
  have hpool : gapHeap.heap.poolStart = [4096] := by decide +kernel
  have hpool' : (gapHeap.giveBack (.alloc 40)).heap.poolStart = [4096] := by decide +kernel
  have hptr : (gapHeap.step (.alloc 40)).1 = 4140 := by decide +kernel
  have halloc := Sys.live_alloc gapHeap 40 4140 hptr (by decide)
  have hgive : ∀ s : Sys, (s.giveBack (.alloc 40)).extent = s.extent ∧
      (s.giveBack (.alloc 40)).live =
        Function.update (s.step (.alloc 40)).2.live (s.step (.alloc 40)).1 none :=
    fun _ => ⟨rfl, rfl⟩
  have hlive : (gapHeap.giveBack (.alloc 40)).live = gapHeap.live := by
    rw [(hgive gapHeap).2, hptr, halloc, Function.update_idem]
    refine Function.update_eq_self_iff.mpr ?_
    rw [gapHeap_live]
    rfl
  have hreach : Reachable (gapHeap.giveBack (.alloc 40)) := by
    refine .step (.step gapHeap_reachable (show 40 < 2 ^ 64 by decide)) (.inr ⟨40, ?_⟩)
    rw [halloc, hptr, Function.update_self]
  refine alloc_of_sameAllocations gapHeap_reachable hreach
    ⟨fun q => by rw [hpool, hpool'], fun q _ => by rw [(hgive gapHeap).1], fun ptr => ?_, ?_⟩
  · rw [Sys.Live, Sys.Live, hlive]
  · rintro ptr ⟨size, hl⟩
    rw [gapHeap_live] at hl
    split at hl
    case isTrue hp =>
      subst hp
      decide +kernel
    case isFalse =>
      split at hl
      case isTrue hp =>
        subst hp
        decide +kernel
      case isFalse => cases hl

end Runs

end NoDrop.Mmheap
