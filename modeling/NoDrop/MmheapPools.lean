import NoDrop.MmheapRealloc

/-! # Pools

`nod_mmheap_ctl_init`, `nod_mmheap_pool_add` and `nod_mmheap_pool_rmv`.  A new pool is one free
block and a sentinel, in memory that is apart from all pools and from `block_null`.  A pool
without used blocks is one free block again, since no two free blocks are neighbours.
-/
namespace NoDrop.Mmheap

open Bytes

variable {h h' : Heap} {len : Nat → Nat} {pool pool' : Nat → List Blk} {W : Nat → Prop}
  {p q n s t a x y : Nat} {c : Blk}

/-- **The used blocks are the same, and so is their payload**, though the pools are not. -/
structure SameUsed (h : Heap) (pool : Nat → List Blk) (h' : Heap) (pool' : Nat → List Blk) :
    Prop where
  used : ∀ y t, Cell h'.poolStart pool' y (t, false) ↔ Cell h.poolStart pool y (t, false)
  bytes : ∀ y t, Cell h.poolStart pool y (t, false) →
    ∀ i, y + 16 ≤ i → i < y + 16 + t → h'.mem i = h.mem i

/-! ## The list of the pools -/

/-- `nod_mmheap_pool_unrecord` takes one entry out of the list. -/
theorem unrecord_perm {l : List Nat} (hp : p ∈ l) :
    ((l.set (l.idxOf p) (l.getLastD 0)).dropLast).Perm (l.erase p) := by
  obtain ⟨l₁, l₂, rfl, hl₁⟩ := List.eq_append_cons_of_mem hp
  have hidx : (l₁ ++ p :: l₂).idxOf p = l₁.length := by
    rw [List.idxOf_append_of_notMem hl₁, List.idxOf_cons_self, Nat.add_zero]
  rw [hidx, List.set_append_right _ _ (Nat.le_refl _), Nat.sub_self, List.set_cons_zero,
    List.erase_append_right _ hl₁, List.erase_cons_head]
  cases l₂ using List.reverseRecOn with
  | nil => simp
  | append_singleton l₂ z =>
    have hlast : (l₁ ++ p :: (l₂ ++ [z])).getLastD 0 = z := by
      rw [← List.cons_append, ← List.append_assoc, List.getLastD_concat]
    rw [hlast, ← List.cons_append, ← List.append_assoc, List.dropLast_concat]
    refine List.Perm.append_left l₁ ?_
    exact (List.perm_append_singleton z l₂).symm

/-! ## Memory that is in no pool -/

/-- **Nothing but the pools matters.** -/
theorem Rep.outside (R : Rep h len pool W) (m' : Image)
    (hm : ∀ q ∈ h.poolStart, ∀ i, q ≤ i → i < q + len q + 8 → m' i = h.mem i) :
    Rep { h with mem := m' } len pool W := by
  obtain ⟨lists, L⟩ := R.listed
  refine ⟨R.placed, R.span_eq, R.size, fun q hq => ?_, lists, ?_⟩
  · have hstart := R.placed.start q hq
    refine (R.tiled q hq).congr_meta (fun x c hx i hi => ?_) fun i hlo hhi => ?_
    · have hb := R.cell_bounds hq hx
      have hi' : x + 8 ≤ i ∧ i < x + 16 + c.1 := by
        rcases hi with ⟨_, _⟩ | ⟨_, _, _⟩ <;> omega
      exact hm q hq i (by omega) (by omega)
    · rw [R.span_eq q hq] at hlo hhi
      exact hm q hq i (by omega) (by omega)
  · refine L.congr rfl rfl rfl rfl fun y t hy i hlo hhi => ?_
    obtain ⟨⟨q, hq, hy⟩, -⟩ := hy
    have hb := R.cell_bounds hq hy
    simp only at hb
    exact hm q hq i (by omega) (by omega)

/-! ## `nod_mmheap_pool_rmv` -/

theorem offsetToBlk_start (hp : 8 ≤ p) : Heap.offsetToBlk p (-blkHeaderOverhead) = p - 8 := by
  rw [Heap.offsetToBlk, blkHeaderOverhead]
  omega

/-- No two free blocks are neighbours, so free blocks alone are at most one. -/
theorem NoAdjacent.singleton {l : List Blk} (h : NoAdjacent false l) (hfree : ∀ c ∈ l, c.2 = true)
    (hne : l ≠ []) : ∃ u, l = [(u, true)] := by
  match l with
  | [] => exact absurd rfl hne
  | [(u, g)] =>
    obtain rfl : g = true := hfree _ List.mem_cons_self
    exact ⟨u, rfl⟩
  | c :: d :: l =>
    refine absurd ⟨hfree c List.mem_cons_self, ?_⟩ h.2.1
    exact hfree d (List.mem_cons_of_mem c List.mem_cons_self)

/-- **A pool without used blocks is one free block.** -/
theorem Inv.pool_eq (I : Inv h len pool) (hp : p ∈ h.poolStart) (hlen : 0 < len p)
    (hnone : ∀ y t, (y, (t, false)) ∉ cells (p - 8) (pool p)) : ∃ u, pool p = [(u, true)] := by
  refine (I.noAdjacent p hp).singleton (fun c hc => ?_) fun hnil => ?_
  · obtain ⟨l₁, l₂, hl⟩ := List.append_of_mem hc
    obtain ⟨u, g⟩ := c
    cases g with
    | true => rfl
    | false =>
      refine absurd ?_ (hnone (p - 8 + span l₁) u)
      rw [hl]
      exact mem_cells_split
  · have := I.rep.span_eq p hp
    rw [hnil, span_nil] at this
    omega

/-- The pools but one. -/
theorem Placed.subset {null : Nat} {ps ps' : List Nat} (P : Placed null ps len)
    (hd : ps'.Nodup) (hsub : ∀ q ∈ ps', q ∈ ps) : Placed null ps' len where
  nodup := hd
  start q hq := P.start q (hsub q hq)
  aligned q hq := P.aligned q (hsub q hq)
  small q hq := P.small q (hsub q hq)
  top q hq := P.top q (hsub q hq)
  disjoint q hq r hr := P.disjoint q (hsub q hq) r (hsub r hr)
  null_top := P.null_top
  null q hq := P.null q (hsub q hq)

/-- **`nod_mmheap_pool_rmv`** of a pool without used blocks. -/
theorem Inv.nodMmheapPoolRmv (I : Inv h len pool) (hp : p ∈ h.poolStart) (hlen : 0 < len p)
    (hnone : ∀ y t, (y, (t, false)) ∉ cells (p - 8) (pool p)) :
    (h.nodMmheapPoolRmv p).1 = 0 ∧ Inv (h.nodMmheapPoolRmv p).2 len pool ∧
      (h.nodMmheapPoolRmv p).2.blockNull = h.blockNull ∧
      (∀ q, q ∈ (h.nodMmheapPoolRmv p).2.poolStart ↔ q ∈ h.poolStart ∧ q ≠ p) ∧
      SameUsed h pool (h.nodMmheapPoolRmv p).2 pool := by
  have hstart := I.rep.placed.start p hp
  obtain ⟨u, hpool⟩ := I.pool_eq hp hlen hnone
  have hmem : (p - 8, (u, true)) ∈ cells (p - 8) (pool p) := by
    rw [hpool]
    exact List.mem_cons_self
  have hx : Cell h.poolStart pool (p - 8) (u, true) := ⟨p, hp, hmem⟩
  obtain ⟨⟨p', l₁, l₂, Φ⟩, K⟩ := I.take hx
  have hrmv : h.nodMmheapPoolRmv p =
      (0, (h.blkRemove (p - 8)).nodMmheapPoolUnrecord p) := by
    have hexist : h.nodMmheapPoolIsExist p = true := List.contains_iff_mem.mpr hp
    rw [Heap.nodMmheapPoolRmv, if_neg (by omega), hexist, if_neg (by decide),
      offsetToBlk_start (Nat.le_of_lt hstart)]
    rfl
  rw [hrmv]
  have hperm : ((h.blkRemove (p - 8)).nodMmheapPoolUnrecord p).poolStart.Perm
      (h.poolStart.erase p) := by
    show (((h.blkRemove (p - 8)).poolStart.set _ _).dropLast).Perm _
    rw [K.pools]
    exact unrecord_perm hp
  have hd := I.rep.placed.nodup
  have hiff : ∀ q, q ∈ ((h.blkRemove (p - 8)).nodMmheapPoolUnrecord p).poolStart ↔
      q ∈ h.poolStart ∧ q ≠ p := fun q => by rw [hperm.mem_iff, hd.mem_erase_iff, and_comm]
  have hcell : ∀ y c, Cell ((h.blkRemove (p - 8)).nodMmheapPoolUnrecord p).poolStart pool y c ↔
      Cell h.poolStart pool y c ∧ ¬ In (p - 8) (p - 8 + 8 + u) y := by
    intro y c
    constructor
    · rintro ⟨q, hq, hy⟩
      obtain ⟨hq, hqp⟩ := (hiff q).mp hq
      refine ⟨⟨q, hq, hy⟩, fun hin => hqp ?_⟩
      obtain ⟨rfl, rfl⟩ := I.rep.eq_of_in hx ⟨q, hq, hy⟩ hin
      have hq' := I.rep.cell_bounds hq hy
      have hp' := I.rep.cell_bounds hp hmem
      by_contra hne
      have := I.rep.placed.disjoint q hq p hp hne
      simp only at hq' hp'
      omega
    · rintro ⟨⟨q, hq, hy⟩, hout⟩
      refine ⟨q, (hiff q).mpr ⟨hq, ?_⟩, hy⟩
      rintro rfl
      rw [hpool, cells_cons, cells_nil, List.mem_singleton] at hy
      obtain ⟨rfl, -⟩ := Prod.mk.inj hy
      exact hout ⟨Nat.le_refl _, by omega⟩
  have R := Φ.rep
  have P : Placed h.blockNull h.poolStart len := I.rep.placed
  refine ⟨rfl, ⟨⟨?_, ?_, ?_, ?_, ?_⟩, ?_⟩, K.null, hiff, ?_, ?_⟩
  · have := P.subset (hperm.nodup_iff.mpr (hd.erase p)) fun q hq => ((hiff q).mp hq).1
    rwa [← K.null] at this
  · exact fun q hq => I.rep.span_eq q ((hiff q).mp hq).1
  · exact fun q hq => I.rep.size q ((hiff q).mp hq).1
  · intro q hq
    refine R.tiled q ?_
    rw [K.pools]
    exact ((hiff q).mp hq).1
  · obtain ⟨lists, L⟩ := R.listed
    have L' : Listed (h.blkRemove (p - 8)) (fun y t =>
        Cell ((h.blkRemove (p - 8)).nodMmheapPoolUnrecord p).poolStart pool y (t, true) ∧
          ¬ Nothing y) lists := L.rename fun y t => by
      rw [hcell, K.pools]
      exact and_iff_left id
    exact ⟨lists, L'.congr rfl rfl rfl rfl fun _ _ _ _ _ _ => rfl⟩
  · exact fun q hq => I.noAdjacent q ((hiff q).mp hq).1
  · intro y t
    rw [hcell]
    refine and_iff_left_of_imp fun hc hin => ?_
    exact Bool.noConfusion (Prod.mk.inj (I.rep.eq_of_in hx hc hin).2).2
  · exact fun y t hc i hlo hhi => K.bytes y t id hc i hlo hhi

/-! ## `nod_mmheap_pool_add` -/

/-- **The `n` bytes from `p` on are memory for a pool**, apart from all pools and from
`block_null`. -/
structure Vacant (h : Heap) (len : Nat → Nat) (p n : Nat) : Prop where
  start : 8 < p
  top : p + n ≤ 2 ^ 64
  disjoint : ∀ q ∈ h.poolStart, q + len q + 8 ≤ p ∨ p + n ≤ q
  null : p + n ≤ h.blockNull ∨ h.blockNull + 32 ≤ p

/-- The usable size of a pool is a multiple of 4 and leaves room for two headers. -/
theorem sizeAligned_spec (hn : n < 2 ^ 64) (hsize : Heap.sizeAligned n ≤ 2 ^ 30) :
    Heap.sizeAligned n % 4 = 0 ∧ Heap.sizeAligned n + 16 ≤ n := by
  have hmask : ∀ x, x &&& sub64 alignSize 1 = x % 4 := fun x => Nat.and_two_pow_sub_one_eq_mod x 2
  have hover : 2 * blkHeaderOverhead = 16 := rfl
  rw [Heap.sizeAligned, Heap.alignDown, hmask, hover, sub64] at hsize ⊢
  omega

/-- The links that a new pool's block is inserted between are in other memory. -/
theorem Rep.node_vacant (R : Rep h len pool W) (V : Vacant h len p n) {z : Nat}
    (hz : Spaced.Node h.blockNull (fun x s => Cell h.poolStart pool x (s, true) ∧ ¬ W x) z) :
    z + 32 ≤ p ∨ p + n ≤ z + 8 := by
  rcases hz with rfl | ⟨t, ⟨q, hq, hz⟩, -⟩
  · have := V.null
    omega
  · have hb := R.cell_bounds hq hz
    have := V.disjoint q hq
    simp only at hb
    omega

/-- The header of a new block: whatever was there, it is free, and no free block is before it. -/
theorem newHeader (h : Heap) (b : Nat) (hs : s % 4 = 0) (hlt : s < 2 ^ 32) :
    ∃ m : Image, (∀ i, i < b + 8 ∨ b + 16 ≤ i → m i = h.mem i) ∧ Header m b s true false ∧
      ((h.blkSetSize b s).blkSetFree b).blkSetPrevUsed b = { h with mem := m } := by
  obtain ⟨f, q, hset⟩ := blkSetSize_garbage h b hs
  have H₁ : Header (h.store (b + 8) (hdr s f q)).mem b s f q := Header.stored hs hlt
  have H₂ : Header ((h.store (b + 8) (hdr s f q)).store (b + 8) (hdr s true q)).mem b s true q :=
    Header.stored hs hlt
  refine ⟨((h.mem.setWord (b + 8) (hdr s f q)).setWord (b + 8) (hdr s true q)).setWord (b + 8)
    (hdr s true false), fun i hi => ?_, Header.stored hs hlt, ?_⟩
  · rw [Image.setWord_of_outside (by omega), Image.setWord_of_outside (by omega),
      Image.setWord_of_outside (by omega)]
  · rw [hset, blkSetFree_eq H₁, blkSetPrevUsed_eq H₂]
    rfl

/-- The sentinel behind a new block. -/
theorem newSentinel {b : Nat} (hb : b < 2 ^ 64) (h24 : 24 ≤ s) (H : Header h.mem b s true false) :
    ∃ m : Image, (∀ i, i < b + 8 + s ∨ b + 8 + s + 16 ≤ i → m i = h.mem i) ∧
      Tiled m b false [(s, true)] ∧
      (((h.blkLinkNext b).2.blkSetSize (b + 8 + s) 0).blkSetUsed (b + 8 + s)).blkSetPrevFree
        (b + 8 + s) = { h with mem := m } := by
  obtain ⟨g, r, hsent⟩ := blkSetSize_garbage (h.store (b + 8 + s) b) (b + 8 + s) (Nat.zero_mod 4)
  have N₁ : Header ((h.store (b + 8 + s) b).store (b + 8 + s + 8) (hdr 0 g r)).mem (b + 8 + s) 0
      g r := Header.stored (Nat.zero_mod 4) (Nat.two_pow_pos 32)
  have N₂ : Header (((h.store (b + 8 + s) b).store (b + 8 + s + 8) (hdr 0 g r)).store
      (b + 8 + s + 8) (hdr 0 false r)).mem (b + 8 + s) 0 false r :=
    Header.stored (Nat.zero_mod 4) (Nat.two_pow_pos 32)
  obtain ⟨m, hm⟩ : ∃ m, m = ((((h.mem.setWord (b + 8 + s) b).setWord (b + 8 + s + 8)
    (hdr 0 g r)).setWord (b + 8 + s + 8) (hdr 0 false r)).setWord (b + 8 + s + 8)
    (hdr 0 false true)) := ⟨_, rfl⟩
  refine ⟨m, fun i hi => ?_, ⟨⟨?_, fun _ => ?_⟩, ?_⟩, ?_⟩
  · rw [hm, Image.setWord_of_outside (by omega), Image.setWord_of_outside (by omega),
      Image.setWord_of_outside (by omega), Image.setWord_of_outside (by omega)]
  · rw [hm]
    exact (((H.setWord_of_apart (by omega)).setWord_of_apart (by omega)).setWord_of_apart
      (by omega)).setWord_of_apart (by omega)
  · rw [hm, Image.word_setWord_of_apart (by omega), Image.word_setWord_of_apart (by omega),
      Image.word_setWord_of_apart (by omega), Image.word_setWord hb]
  · rw [hm]
    exact Header.stored (Nat.zero_mod 4) (Nat.two_pow_pos 32)
  · rw [blkLinkNext_eq H]
    dsimp only
    rw [hsent, blkSetUsed_eq N₁, blkSetPrevFree_eq N₂, hm]
    rfl

/-- **What `nod_mmheap_pool_add` writes**: a header, the links, and a sentinel.  The block that was
first in the list is not to have its link where the new header is. -/
theorem poolAdd_eq (h : Heap) (hstart : 8 ≤ p) (htop : p < 2 ^ 64) (hn : n < 2 ^ 64)
    (hfull : ¬ h.nodMmheapPoolIsFull) (hnew : p ∉ h.poolStart) (hp4 : p % alignSize = 0)
    (h24 : 24 ≤ Heap.sizeAligned n) (hle : Heap.sizeAligned n ≤ 2 ^ 30) {fl sl : Nat}
    (hc : mappingInsert (Heap.sizeAligned n) = (fl, sl))
    (hhead : h.blocks fl sl + 32 ≤ p ∨ p + 8 ≤ h.blocks fl sl + 24) :
    ∃ m m' : Image, (∀ i, i < p ∨ p + 8 ≤ i → m i = h.mem i) ∧
      (∀ i, i < p + Heap.sizeAligned n ∨ p + Heap.sizeAligned n + 16 ≤ i →
        m' i = (Heap.insertFreeBlock { h with mem := m } (p - 8) fl sl).mem i) ∧
      Tiled m' (p - 8) false [(Heap.sizeAligned n, true)] ∧
      h.nodMmheapPoolAdd p n = (0,
        { Heap.insertFreeBlock { h with mem := m } (p - 8) fl sl with
          mem := m', poolStart := h.poolStart ++ [p] }) := by
  obtain ⟨hs4, hroom⟩ := sizeAligned_spec hn hle
  have hok : ¬ (Heap.sizeAligned n < blkSizeMin ∨ Heap.sizeAligned n > blkSizeMax) := by
    show ¬ (_ < 24 ∨ _ > 2 ^ 30)
    omega
  have hex : ¬ h.nodMmheapPoolIsExist p = true := by
    rwa [Heap.nodMmheapPoolIsExist, List.contains_iff_mem]
  unfold Heap.nodMmheapPoolAdd
  rw [if_neg hfull, if_neg hex, if_neg (not_not.mpr hp4), if_neg hok, offsetToBlk_start hstart]
  generalize Heap.sizeAligned n = size at hs4 hroom h24 hle hc
  have hb : p - 8 + 8 = p := by omega
  obtain ⟨m, hout, H, hhdr⟩ := newHeader h (p - 8) hs4 (by omega)
  rw [hb] at hout
  -- the block is listed, and its header stays
  have H' : Header (Heap.insertFreeBlock { h with mem := m } (p - 8) fl sl).mem (p - 8) size true
      false := by
    refine H.congr fun i hlo hhi => Listed.insertFreeBlock_mem ?_ ?_
    · omega
    · show i < h.blocks fl sl + 24 ∨ h.blocks fl sl + 32 ≤ i
      omega
  have hins : Heap.blkInsert { h with mem := m } (p - 8) =
      Heap.insertFreeBlock { h with mem := m } (p - 8) fl sl := by
    have hsize : Heap.blkSize { h with mem := m } (p - 8) = size := blkSize_eq H
    rw [Heap.blkInsert, hsize, hc]
  obtain ⟨m', hout', htiled, hsent⟩ := newSentinel (by omega) h24 H'
  rw [hb] at hout' hsent
  have hnext : (Heap.blkLinkNext (Heap.insertFreeBlock { h with mem := m } (p - 8) fl sl)
      (p - 8)).1 = p + size := by
    rw [blkLinkNext_eq H', hb]
  refine ⟨m, m', fun i hi => hout i (by omega), fun i hi => hout' i (by omega), htiled, ?_⟩
  dsimp only
  rw [hhdr, hins, hnext, hsent]
  rfl

/-- The first block of a list is in other memory than a new pool. -/
theorem Inv.head_vacant (I : Inv h len pool) (V : Vacant h len p n) {fl sl : Nat}
    (hfl : fl < flIndexCount) (hsl : sl < slIndexCount) :
    h.blocks fl sl + 32 ≤ p ∨ p + n ≤ h.blocks fl sl + 8 := by
  obtain ⟨lists, L⟩ := I.rep.listed
  exact I.rep.node_vacant V (L.head_node hfl hsl)

section Added

variable (V : Vacant h len p n)

include V

/-- The pools with a new one. -/
theorem Vacant.placed (P : Placed h.blockNull h.poolStart len) (hnew : p ∉ h.poolStart)
    (hp4 : p % 4 = 0) (hsize : s < 2 ^ 30) (hroom : s + 16 ≤ n) :
    Placed h.blockNull (h.poolStart ++ [p]) (Function.update len p (s + 8)) := by
  have hlen : ∀ q ∈ h.poolStart, Function.update len p (s + 8) q = len q := fun q hq =>
    Function.update_of_ne (ne_of_mem_of_not_mem hq hnew) ..
  have hlenp : Function.update len p (s + 8) p = s + 8 := Function.update_self ..
  have hall : ∀ {Q : Nat → Prop}, (∀ q ∈ h.poolStart, Q q) → Q p →
      ∀ q ∈ h.poolStart ++ [p], Q q := by
    intro Q hold hp q hq
    rcases List.mem_append.mp hq with hq | hq
    · exact hold q hq
    · rwa [List.mem_singleton.mp hq]
  have hstart := V.start
  have htop := V.top
  have hnull := V.null
  constructor
  · refine List.nodup_append.mpr ⟨P.nodup, List.nodup_singleton p, fun q hq r hr => ?_⟩
    rw [List.mem_singleton.mp hr]
    exact ne_of_mem_of_not_mem hq hnew
  · exact hall P.start hstart
  · exact hall P.aligned hp4
  · refine hall (fun q hq => ?_) ?_
    · rw [hlen q hq]
      exact P.small q hq
    · omega
  · refine hall (fun q hq => ?_) ?_
    · rw [hlen q hq]
      exact P.top q hq
    · omega
  · refine hall (fun q hq => hall (fun r hr hne => ?_) fun _ => ?_) (hall (fun r hr _ => ?_) ?_)
    · rw [hlen q hq, hlen r hr]
      exact P.disjoint q hq r hr hne
    · have := V.disjoint q hq
      rw [hlen q hq]
      omega
    · have := V.disjoint r hr
      rw [hlen r hr]
      omega
    · exact fun hne => absurd rfl hne
  · exact P.null_top
  · refine hall (fun q hq => ?_) ?_
    · rw [hlen q hq]
      exact P.null q hq
    · omega

omit V in
/-- The blocks with the one of a new pool. -/
theorem cell_added {c d : Blk} (hnew : p ∉ h.poolStart) :
    Cell (h.poolStart ++ [p]) (Function.update pool p [d]) y c ↔
      Cell h.poolStart pool y c ∨ y = p - 8 ∧ c = d := by
  have hold : ∀ q ∈ h.poolStart, Function.update pool p [d] q = pool q := fun q hq =>
    Function.update_of_ne (ne_of_mem_of_not_mem hq hnew) ..
  constructor
  · rintro ⟨q, hq, hy⟩
    rcases List.mem_append.mp hq with hq | hq
    · rw [hold q hq] at hy
      exact Or.inl ⟨q, hq, hy⟩
    · rw [List.mem_singleton.mp hq, Function.update_self, cells_cons, cells_nil,
        List.mem_singleton] at hy
      exact Or.inr (Prod.mk.inj hy)
  · rintro (⟨q, hq, hy⟩ | ⟨rfl, rfl⟩)
    · refine ⟨q, List.mem_append_left _ hq, ?_⟩
      rwa [hold q hq]
    · refine ⟨p, List.mem_append_right _ (List.mem_singleton_self p), ?_⟩
      rw [Function.update_self]
      exact List.mem_cons_self

/-- The block of a new pool is spaced from the others as the lists need it. -/
theorem Vacant.spaced (R : Rep h len pool W) (hsize : s < 2 ^ 30) (hroom : s + 16 ≤ n)
    {F : Nat → Nat → Prop} (hF : ∀ y t, F y t ↔
      (Cell h.poolStart pool y (t, true) ∧ ¬ W y) ∨ y = p - 8 ∧ t = s) :
    Spaced h.blockNull F := by
  have G := R.spaced W
  have hstart := V.start
  have htop := V.top
  have hapart : ∀ y t, Cell h.poolStart pool y (t, true) → y + 16 ≤ p - 8 ∨ p - 8 + 16 ≤ y := by
    rintro y t ⟨q, hq, hy⟩
    have hb := R.cell_bounds hq hy
    have := V.disjoint q hq
    simp only at hb
    omega
  constructor
  · exact G.null_lt
  · intro y t hy
    rcases (hF y t).mp hy with hy | ⟨rfl, rfl⟩
    · exact G.lt y t hy
    · omega
  · intro y t hy
    rcases (hF y t).mp hy with hy | ⟨rfl, rfl⟩
    · exact G.small y t hy
    · exact hsize
  · intro y t u ht hu
    rcases (hF y t).mp ht with ht | ⟨hy, rfl⟩ <;> rcases (hF y u).mp hu with hu | ⟨hy', rfl⟩
    · exact G.unique y t u ht hu
    · have := hapart y t ht.1
      omega
    · have := hapart y u hu.1
      omega
    · rfl
  · intro y t z u hy hz
    rcases (hF y t).mp hy with hy' | ⟨hy', -⟩ <;> rcases (hF z u).mp hz with hz' | ⟨hz', -⟩
    · exact G.apart y t z u hy' hz'
    · exact Or.inr (hz' ▸ hapart y t hy'.1)
    · exact Or.inr (Or.symm (hy' ▸ hapart z u hz'.1))
    · exact Or.inl (hy'.trans hz'.symm)
  · intro y t hy
    rcases (hF y t).mp hy with hy | ⟨rfl, rfl⟩
    · exact G.null_apart y t hy
    · have := V.null
      omega

omit V in
/-- What holds of the old pools and of the new one. -/
theorem forall_added {ps : List Nat} (P : Nat → List Blk → Prop) {l : List Blk} (hnew : p ∉ ps)
    (hold : ∀ q ∈ ps, P q (pool q)) (hp : P p l) :
    ∀ q ∈ ps ++ [p], P q (Function.update pool p l q) := by
  intro q hq
  rcases List.mem_append.mp hq with hq | hq
  · rw [Function.update_of_ne (ne_of_mem_of_not_mem hq hnew)]
    exact hold q hq
  · rw [List.mem_singleton.mp hq, Function.update_self]
    exact hp

/-- **A pool is added**: one free block more. -/
theorem Vacant.poolAdd (I : Inv h len pool) (hfull : ¬ h.nodMmheapPoolIsFull)
    (hnew : p ∉ h.poolStart) (hp4 : p % alignSize = 0) (h24 : 24 ≤ Heap.sizeAligned n)
    (hlt : Heap.sizeAligned n < 2 ^ 30) :
    (h.nodMmheapPoolAdd p n).1 = 0 ∧
      (h.nodMmheapPoolAdd p n).2.blockNull = h.blockNull ∧
      (h.nodMmheapPoolAdd p n).2.poolStart = h.poolStart ++ [p] ∧
      Inv (h.nodMmheapPoolAdd p n).2 (Function.update len p (Heap.sizeAligned n + 8))
        (Function.update pool p [(Heap.sizeAligned n, true)]) ∧
      SameUsed h pool (h.nodMmheapPoolAdd p n).2
        (Function.update pool p [(Heap.sizeAligned n, true)]) := by
  have hstart := V.start
  have htop := V.top
  obtain ⟨hs4, hroom⟩ := sizeAligned_spec (by omega) (Nat.le_of_lt hlt)
  obtain ⟨⟨fl, sl⟩, hc⟩ : ∃ c, mappingInsert (Heap.sizeAligned n) = c := ⟨_, rfl⟩
  have hclass := mappingInsert_lt hlt
  rw [hc] at hclass
  have hhead : h.blocks fl sl + 32 ≤ p ∨ p + n ≤ h.blocks fl sl + 8 :=
    I.head_vacant V hclass.1 hclass.2
  obtain ⟨m, m', hm, hm', htiled, heq⟩ := poolAdd_eq h (by omega) (by omega) (by omega) hfull hnew
    hp4 h24 (Nat.le_of_lt hlt) hc (by omega)
  rw [heq]
  generalize Heap.sizeAligned n = size at *
  have R := I.rep.outside m fun q hq i hlo hhi => hm i (by have := V.disjoint q hq; omega)
  obtain ⟨lists, L⟩ := R.listed
  -- outside the new pool only links have changed
  have hmem : ∀ i, i < p ∨ p + n ≤ i →
      (∀ z, Rep.Linkable { h with mem := m } pool z → i < z + 16 ∨ z + 32 ≤ i) →
      m' i = h.mem i := by
    intro i hi hlink
    rw [hm' i (by omega), L.insert_mem hclass.1 hclass.2 fun z hz => ?_]
    · exact hm i (by omega)
    · rcases hz with hz | rfl
      · exact hlink z (Rep.linkable_of_node hz)
      · omega
  have hF : ∀ y t, (Cell (h.poolStart ++ [p]) (Function.update pool p [(size, true)]) y (t, true) ∧
      ¬ Nothing y) ↔ (Cell h.poolStart pool y (t, true) ∧ ¬ Nothing y) ∨ y = p - 8 ∧ t = size := by
    intro y t
    have hno : ¬ Nothing y := id
    rw [cell_added hnew, and_iff_left hno, and_iff_left hno, Prod.mk.injEq, and_iff_left rfl]
  have hcell : ∀ y c, Cell h.poolStart pool y c → y + 16 + c.1 + 8 ≤ p ∨ p + n ≤ y + 8 := by
    rintro y c ⟨q, hq, hy⟩
    have hb := R.cell_bounds hq hy
    have := V.disjoint q hq
    omega
  have V' : Vacant { h with mem := m } len p n := ⟨V.start, V.top, V.disjoint, V.null⟩
  have L' := L.insert (V'.spaced R hlt hroom hF) hF
    (fun t ht => by have := hcell _ _ ht.1; omega) hc
  refine ⟨rfl, rfl, rfl, ⟨⟨?_, ?_, ?_, ?_, _, L'.congr rfl rfl rfl rfl ?_⟩, ?_⟩, ?_, ?_⟩
  · exact V.placed I.rep.placed hnew hp4 hlt hroom
  · refine forall_added (fun q l => span l = Function.update len p (size + 8) q) hnew
      (fun q hq => ?_) ?_
    · rw [Function.update_of_ne (ne_of_mem_of_not_mem hq hnew)]
      exact I.rep.span_eq q hq
    · rw [Function.update_self, span_cons, span_nil]
      omega
  · exact forall_added (fun _ l => ∀ c ∈ l, 24 ≤ c.1) hnew I.rep.size (by simpa using h24)
  · refine forall_added (fun q l => Tiled m' (q - 8) false l) hnew (fun q hq => ?_) htiled
    have hq8 := I.rep.placed.start q hq
    have hd := V.disjoint q hq
    refine (I.rep.tiled q hq).congr_meta (fun y c hy i hi => ?_) fun i hlo hhi => ?_
    · have hb := R.cell_bounds hq hy
      have hi' : y + 8 ≤ i ∧ i < y + 16 + c.1 := by
        rcases hi with ⟨_, _⟩ | ⟨_, _, _⟩ <;> omega
      exact hmem i (by omega) fun z hz => R.meta_not_link hz ⟨q, hq, hy⟩ hi
    · rw [I.rep.span_eq q hq] at hlo hhi
      exact hmem i (by omega) fun z hz => R.sentinel_not_link hz hq (by omega) (by omega)
  · intro y t hy i hlo hhi
    refine hm' i ?_
    rcases (hF y t).mp hy with hy | ⟨rfl, rfl⟩
    · have := hcell y _ hy.1
      have := (I.rep.cell_size hy.1).1
      simp only at *
      omega
    · omega
  · exact forall_added (fun _ l => NoAdjacent false l) hnew I.noAdjacent
      ⟨fun hc => Bool.false_ne_true hc.1, trivial⟩
  · intro y t
    rw [cell_added hnew]
    exact or_iff_left fun hc => Bool.noConfusion (Prod.mk.inj hc.2).2
  · intro y t hy i hlo hhi
    have := hcell y _ hy
    simp only at this
    exact hmem i (by omega) fun z hz => R.payload_not_link hz hy hlo hhi

end Added

/-! ## `nod_mmheap_ctl_init` -/

/-- **Without pools nothing is listed.** -/
theorem inv_ctlInit (h : Heap) (hnull : h.blockNull + 32 ≤ 2 ^ 64) (len : Nat → Nat)
    (pool : Nat → List Blk) : Inv h.nodMmheapCtlInit len pool := by
  have hno : ∀ {Q : Nat → Prop}, ∀ q ∈ h.nodMmheapCtlInit.poolStart, Q q :=
    fun q hq => absurd hq List.not_mem_nil
  refine ⟨⟨⟨List.nodup_nil, hno, hno, hno, hno, hno, hnull, hno⟩, hno, hno, hno,
    fun _ _ => [], ?_⟩, hno⟩
  constructor
  · exact fun _ _ => trivial
  · exact fun fl sl hfl hsl => if_pos ⟨hfl, hsl⟩
  · exact fun _ _ => List.nodup_nil
  · intro fl sl x
    refine iff_of_false List.not_mem_nil ?_
    rintro ⟨s, ⟨⟨q, hq, -⟩, -⟩, -⟩
    exact absurd hq List.not_mem_nil
  · intro fl sl hfl
    have hz : h.nodMmheapCtlInit.slBitmap fl = 0 := if_pos hfl
    rw [hz]
    simp
  · intro fl
    have hz : h.nodMmheapCtlInit.flBitmap = 0 := rfl
    rw [hz]
    simp

end NoDrop.Mmheap
