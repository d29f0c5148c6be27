import NoDrop.MmheapRuns

/-! # Which block an allocation takes

`nod_mmheap_alloc` looks in the list of `mapping_search` and in those behind it, by the bitmaps, and
takes the first block of the first list that has one.  A size that a block can have is refused only
if all these lists are empty, which is to say that no free block is in one of them
(`nodMmheapAlloc_fit`).
-/
namespace NoDrop.Mmheap

open Bytes

variable {h : Heap} {len : Nat → Nat} {pool : Nat → List Blk} {c : Nat × Nat} {x t size : Nat}

/-- The free block of `s` bytes at `x` will do for `size` bytes: its list is not before the one that
`mapping_search` computes for the adjusted size. -/
def Fits (h : Heap) (pool : Nat → List Blk) (size x s : Nat) : Prop :=
  Cell h.poolStart pool x (s, true) ∧
    ClassLe (mappingSearch (Heap.adjustRequestSize size alignSize)) (mappingInsert s)

/-- A list with a free block in it has a head. -/
theorem Inv.blocks_ne_null (I : Inv h len pool) (hx : Cell h.poolStart pool x (t, true)) :
    h.blocks (mappingInsert t).1 (mappingInsert t).2 ≠ h.blockNull := by
  obtain ⟨lists, L⟩ := I.rep.listed
  obtain ⟨hfl, hsl⟩ := mappingInsert_lt (I.rep.cell_size hx).2
  have hmem : x ∈ lists (mappingInsert t).1 (mappingInsert t).2 :=
    (L.mem _ _ x).mpr ⟨t, ⟨hx, fun hn => hn⟩, rfl⟩
  intro hnull
  rw [(L.blocks_eq_null (I.rep.spaced Nothing) hfl hsl).mp hnull] at hmem
  exact List.not_mem_nil hmem

/-- **The lists from `c` on are empty if no free block is in one of them.** -/
theorem Inv.emptyFrom_iff (I : Inv h len pool) : EmptyFrom h c ↔
    ∀ x t, Cell h.poolStart pool x (t, true) → ¬ ClassLe c (mappingInsert t) := by
  constructor
  · intro hempty x t hx hle
    obtain ⟨hfl, hsl⟩ := mappingInsert_lt (I.rep.cell_size hx).2
    exact I.blocks_ne_null hx (hempty _ _ hfl hsl hle)
  · intro hnone fl sl hfl hsl hle
    obtain ⟨lists, L⟩ := I.rep.listed
    rw [L.blocks_eq_null (I.rep.spaced Nothing) hfl hsl, List.eq_nil_iff_forall_not_mem]
    intro x hx
    obtain ⟨t, ⟨hcell, -⟩, hc⟩ := (L.mem fl sl x).mp hx
    refine hnone x t hcell ?_
    rw [hc]
    exact hle

/-- A list that has a block is not empty. -/
theorem FirstFrom.not_emptyFrom (F : FirstFrom h c x t) (I : Inv h len pool)
    (hx : Cell h.poolStart pool x (t, true)) : ¬ EmptyFrom h c := by
  intro hempty
  exact I.emptyFrom_iff.mp hempty x t hx F.behind

/-- What `nod_mmheap_alloc` returns for a size that a block can have. -/
theorem Inv.nodMmheapAlloc_first (I : Inv h len pool) (hpos : size ≠ 0)
    (hmax : size ≤ blkSizeMax) :
    (EmptyFrom h (mappingSearch (Heap.adjustRequestSize size alignSize)) ∧
      (h.nodMmheapAlloc size).1 = 0) ∨
    ∃ x s, Cell h.poolStart pool x (s, true) ∧
      FirstFrom h (mappingSearch (Heap.adjustRequestSize size alignSize)) x s ∧
      (h.nodMmheapAlloc size).1 = x + 16 := by
  have hadj := (adjustRequestSize_of_le hpos hmax).1
  rw [Heap.nodMmheapAlloc, if_neg (Nat.not_lt.mpr hmax)]
  dsimp only
  rcases I.blkLocateFree_first (a := Heap.adjustRequestSize size alignSize) (by omega) with
    ⟨hempty, hnone⟩ | ⟨x, s, hx, hfirst, hfound⟩
  · rw [hnone]
    exact Or.inl ⟨hempty, rfl⟩
  · have hne := (I.rep.cell_pos hx).ne'
    rw [hfound]
    dsimp only
    rw [if_neg hne, Heap.blkPrepareUsed, if_neg hne]
    exact Or.inr ⟨x, s, hx, hfirst, rfl⟩

/-- `nod_mmheap_alloc` for a size that a block can have fails only if no list has one that will
do. -/
theorem Inv.nodMmheapAlloc_eq_zero (I : Inv h len pool) (hpos : size ≠ 0)
    (hmax : size ≤ blkSizeMax) : (h.nodMmheapAlloc size).1 = 0 ↔
      EmptyFrom h (mappingSearch (Heap.adjustRequestSize size alignSize)) := by
  rcases I.nodMmheapAlloc_first hpos hmax with ⟨hempty, hnone⟩ | ⟨x, s, hx, hfirst, hfound⟩
  · exact iff_of_true hnone hempty
  · rw [hfound]
    exact iff_of_false (Nat.succ_ne_zero _) (hfirst.not_emptyFrom I hx)

/-- **An allocation fails only if no free block will do**, and takes otherwise the first block of
the first list that has one, which is large enough. -/
theorem nodMmheapAlloc_fit (I : Inv h len pool) (hpos : 0 < size) (hmax : size ≤ blkSizeMax) :
    ((h.nodMmheapAlloc size).1 = 0 ↔ ∀ x s, ¬ Fits h pool size x s) ∧
    ((h.nodMmheapAlloc size).1 ≠ 0 → ∃ x s, Fits h pool size x s ∧
      (∀ y t, Fits h pool size y t → ClassLe (mappingInsert s) (mappingInsert t)) ∧
      h.blocks (mappingInsert s).1 (mappingInsert s).2 = x ∧
      Heap.adjustRequestSize size alignSize ≤ s ∧
      (h.nodMmheapAlloc size).1 = Heap.blkToPtr x ∧
      Allocated h len pool x size (h.nodMmheapAlloc size).2) := by
  have hsize : size ≤ 2 ^ 30 := hmax
  constructor
  · rw [I.nodMmheapAlloc_eq_zero hpos.ne' hmax, I.emptyFrom_iff]
    simp only [Fits, not_and]
  · intro hne
    rcases I.nodMmheapAlloc_first hpos.ne' hmax with ⟨-, hnone⟩ | ⟨x, s, hx, hfirst, hfound⟩
    · exact absurd hnone hne
    refine ⟨x, s, ⟨hx, hfirst.behind⟩, fun y t hy => ?_, hfirst.head, ?_, hfound, ?_⟩
    · obtain ⟨hfl, hsl⟩ := mappingInsert_lt (I.rep.cell_size hy.1).2
      exact hfirst.first _ _ hfl hsl hy.2 (I.blocks_ne_null hy.1)
    · obtain ⟨hmod, hadj⟩ := adjustRequestSize_bound (show size < 2 ^ 64 by omega)
      have hs : s < 2 ^ 30 := (I.rep.cell_size hx).2
      exact le_of_search_le hmod hadj (by omega) hfirst.behind
    · rcases I.nodMmheapAlloc (show size < 2 ^ 64 by omega) with hnone | ⟨y, hptr, A⟩
      · exact absurd (congrArg Prod.fst hnone) hne
      · obtain rfl : x = y := by omega
        exact A

/-- In a fresh heap the one free block serves 100 bytes. -/
theorem nodMmheapAlloc_fit_small : ∃ len pool,
    Inv (Sys.init smallHeap 4096 1024).heap len pool ∧
    ((Sys.init smallHeap 4096 1024).heap.nodMmheapAlloc 100).1 = 4104 ∧
    ∃ x s, Fits (Sys.init smallHeap 4096 1024).heap pool 100 x s ∧ 100 ≤ s := by
  obtain ⟨pool, S⟩ := reachable_small.shape
  have hret : ((Sys.init smallHeap 4096 1024).heap.nodMmheapAlloc 100).1 = 4104 := by
    decide +kernel
  obtain ⟨x, s, hfits, -, -, hle, -, -⟩ :=
    (nodMmheapAlloc_fit S.inv (show 0 < 100 by decide) (by decide)).2 (by rw [hret]; decide)
  have hadj : Heap.adjustRequestSize 100 alignSize = 100 := by decide +kernel
  exact ⟨_, pool, S.inv, hret, x, s, hfits, hadj ▸ hle⟩

end NoDrop.Mmheap
