import NoDrop.MmheapHands

/-! # Allocation

`blk_locate_free`, `blk_prepare_used`, and the three functions that allocate.  All of them lead
from a heap at rest to a heap at rest with one used block more, or change nothing
(`Inv.nodMmheapAlloc`, `Inv.nodMmheapAlignedAlloc`).
-/
namespace NoDrop.Mmheap

open Bytes

variable {h h' : Heap} {len : Nat → Nat} {pool pool' : Nat → List Blk} {W : Nat → Prop}
  {l₁ l₂ l₁' l₂' mid mid' : List Blk} {p b n s t a x y : Nat} {f : Bool} {c : Blk}

theorem setMid_setMid : setMid (setMid pool p l₁ mid l₂) p l₁' mid' l₂' =
    setMid pool p l₁' mid' l₂' := by
  rw [setMid, setMid, setMid, Function.update_idem]

theorem setMid_eq (hl : l₁ ++ mid ++ l₂ = l₁' ++ mid' ++ l₂') :
    setMid pool p l₁ mid l₂ = setMid pool p l₁' mid' l₂' := by
  rw [setMid, setMid, hl]

theorem Keeps.of_nothing {E : Nat → Prop} (K : Keeps Nothing h pool h' pool') :
    Keeps E h pool h' pool' := K.mono fun _ hy => hy.elim

/-! ## Finding a block -/

theorem blkLocateFree_zero (h : Heap) : h.blkLocateFree 0 = (0, h) := by
  rw [Heap.blkLocateFree, if_pos rfl]

/-- All lists from `c` on are empty. -/
def EmptyFrom (h : Heap) (c : Nat × Nat) : Prop :=
  ∀ fl sl, fl < flIndexCount → sl < slIndexCount → ClassLe c (fl, sl) →
    h.blocks fl sl = h.blockNull

/-- A block of size `s` heads the first list from `c` on that is not empty, and is at `x`. -/
structure FirstFrom (h : Heap) (c : Nat × Nat) (x s : Nat) : Prop where
  behind : ClassLe c (mappingInsert s)
  head : h.blocks (mappingInsert s).1 (mappingInsert s).2 = x
  first : ∀ fl sl, fl < flIndexCount → sl < slIndexCount → ClassLe c (fl, sl) →
    h.blocks fl sl ≠ h.blockNull → ClassLe (mappingInsert s) (fl, sl)

/-- **`blk_locate_free` takes the first block from the first list that will do**, or changes
nothing, and then there is no such list. -/
theorem Inv.blkLocateFree_first (I : Inv h len pool) (hz : a ≠ 0) :
    (EmptyFrom h (mappingSearch a) ∧ h.blkLocateFree a = (0, h)) ∨
    ∃ x s, Cell h.poolStart pool x (s, true) ∧ FirstFrom h (mappingSearch a) x s ∧
      h.blkLocateFree a = (x, h.blkRemove x) := by
  obtain ⟨lists, L⟩ := I.rep.listed
  have G := I.rep.spaced Nothing
  unfold Heap.blkLocateFree
  rw [if_neg hz]
  simp only
  by_cases hfl : (mappingSearch a).1 < flIndexCount
  · rw [if_pos hfl]
    rcases L.search G (mappingSearch a).2 hfl with ⟨hcls, hhead, hmin⟩ | ⟨hnone, hempty⟩
    · obtain ⟨s, ⟨hx, -⟩, hc⟩ := (L.mem _ _ _).mp (List.mem_of_head? hhead)
      have hne := (I.rep.cell_pos hx).ne'
      rw [if_neg hne]
      refine Or.inr ⟨_, s, hx, ⟨?_, ?_, fun fl sl hfl hsl hle hfull => ?_⟩, ?_⟩
      · rw [hc]
        exact hcls
      · have hlt := mappingInsert_lt (I.rep.cell_size hx).2
        rw [L.head _ _ hlt.1 hlt.2, hc, List.headD_eq_head?_getD, hhead]
        rfl
      · rw [hc]
        exact hmin fl sl hle (mt (L.blocks_eq_null G hfl hsl).mpr hfull)
      · rw [blkRemove_eq I.rep hx]
        simp only [hc]
    · rw [if_pos hnone]
      refine Or.inl ⟨fun fl sl hfl hsl hle => ?_, rfl⟩
      exact (L.blocks_eq_null G hfl hsl).mpr (hempty fl sl hle)
  · rw [if_neg hfl]
    refine Or.inl ⟨fun fl sl hlt _ hle => absurd ?_ hfl, rfl⟩
    rcases hle with hle | ⟨heq, -⟩
    · exact Nat.lt_trans hle hlt
    · rw [heq]
      exact hlt

/-- **The block found is large enough.** -/
theorem Inv.blkLocateFree (I : Inv h len pool) (ha : a % 4 = 0) (hle : a ≤ 2 ^ 30) :
    h.blkLocateFree a = (0, h) ∨ ∃ x s, Cell h.poolStart pool x (s, true) ∧ a ≤ s ∧
      h.blkLocateFree a = (x, h.blkRemove x) := by
  by_cases hz : a = 0
  · rw [hz, blkLocateFree_zero]
    exact Or.inl rfl
  rcases I.blkLocateFree_first hz with ⟨-, hnone⟩ | ⟨x, s, hx, hfirst, hfound⟩
  · exact Or.inl hnone
  · have hs : s < 2 ^ 30 := (I.rep.cell_size hx).2
    exact Or.inr ⟨x, s, hx, le_of_search_le ha hle (by omega) hfirst.behind, hfound⟩

/-! ## Trimming -/

theorem blkCanSplit_eq {q : Bool} (H : Header h.mem b s f q) :
    h.blkCanSplit b a = decide (s ≥ 32 + a) := by
  rw [Heap.blkCanSplit, blkSize_eq H]
  rfl

/-- **`blk_prepare_used`** turns the free block in hand into a used one and, if there is room for
it, a free one behind. -/
theorem Focus.prepareUsed (Φ : Hand h len pool p l₁ [(s, true)] l₂ b n) (ha : a % 4 = 0)
    (h24 : 24 ≤ a) (has : a ≤ s) :
    (h.blkPrepareUsed b a).1 = b + 16 ∧
    ∃ t r, a ≤ t ∧ AtMostOneFree r ∧ span ((t, false) :: r) = 8 + s ∧
      Rep (h.blkPrepareUsed b a).2 len (setMid pool p l₁ ((t, false) :: r) l₂) Nothing ∧
      Keeps (In b n) h pool (h.blkPrepareUsed b a).2
        (setMid pool p l₁ ((t, false) :: r) l₂) := by
  have hstop := Φ.stop
  simp only [span_cons, span_nil] at hstop
  have H : Header h.mem b s true (lastFree false l₁) := Φ.seg.1.1
  rw [Heap.blkPrepareUsed, if_neg Φ.pos.ne']
  refine ⟨rfl, ?_⟩
  simp only
  by_cases hsplit : s ≥ 32 + a
  · have htrim : h.blkTrimFree b a =
        (((h.blkSplit b a).2.blkLinkNext b).2.blkSetPrevFree (b + 8 + a)).blkInsert (b + 8 + a) := by
      have hrem := (Φ.splitFree ha h24 (by omega) (Or.inl rfl)).1
      rw [Heap.blkTrimFree, blkCanSplit_eq H, if_pos (decide_eq_true hsplit)]
      simp only [hrem]
    rw [htrim]
    obtain ⟨-, Φ₁, K₁⟩ := Φ.splitFree ha h24 (by omega) (Or.inl rfl)
    obtain ⟨Φ₂, K₂⟩ := Focus.insertLast [(a, true)] (x := b + 8 + a) Φ₁
      (by simp only [span_cons, span_nil]; omega)
    obtain ⟨Φ₃, K₃⟩ := Φ₂.markAsUsed
    have hpool : setMid (setMid pool p l₁ [(a, true), (s - (a + 8), true)] l₂) p l₁ [(a, false)]
        ((s - (a + 8), true) :: l₂) = setMid pool p l₁ [(a, false), (s - (a + 8), true)] l₂ := by
      rw [setMid_setMid]
      exact setMid_eq (by simp)
    rw [hpool] at Φ₃ K₃
    refine ⟨a, [(s - (a + 8), true)], Nat.le_refl a, Or.inr ⟨_, rfl⟩, ?_, ?_, ?_⟩
    · simp only [span_cons, span_nil]
      omega
    · exact Φ₃.release (by simp)
    · exact (K₁.trans K₂.of_nothing).trans (K₃.mono fun y hy => ⟨hy.1, by have := hy.2; omega⟩)
  · have htrim : h.blkTrimFree b a = h := by
      rw [Heap.blkTrimFree, blkCanSplit_eq H, decide_eq_false hsplit]
      rfl
    rw [htrim]
    obtain ⟨Φ', K⟩ := Φ.markAsUsed
    exact ⟨s, [], has, Or.inl rfl, rfl, Φ'.release (by simp), K⟩

/-! ## The result of an allocation -/

/-- **The used block at `x` is new, and has room for `a` bytes.** -/
def Allocated (h : Heap) (len : Nat → Nat) (pool : Nat → List Blk) (x a : Nat) (h' : Heap) : Prop :=
  ∃ pool' t, Inv h' len pool' ∧ Cell h'.poolStart pool' x (t, false) ∧ a ≤ t ∧
    (∀ t, ¬ Cell h.poolStart pool x (t, false)) ∧ Keeps (fun y => y = x) h pool h' pool'

/-- No free block is next to another: a list with a used block put in. -/
theorem noAdjacent_used (h₁ : NoAdjacent false l₁) (h₂ : NoAdjacent true l₂) {r : List Blk}
    (hr : AtMostOneFree r) : NoAdjacent false (l₁ ++ ((t, false) :: r) ++ l₂) := by
  rw [List.append_assoc, noAdjacent_append]
  refine ⟨h₁, fun hc => Bool.false_ne_true hc.2, ?_⟩
  rcases hr with rfl | ⟨u, rfl⟩
  · exact h₂.weaken
  · exact ⟨fun hc => Bool.false_ne_true hc.1, h₂⟩

/-- A used block is put where free space was. -/
theorem Allocated.of_replaced (I : Inv h len pool) (hp : p ∈ h.poolStart) {r : List Blk}
    (hl : pool p = l₁ ++ [(s, true)] ++ l₂) (hb : b = p - 8 + span l₁) (hn : n = b + 8 + s)
    (l₀ : List Blk) (hr : AtMostOneFree r) (hl₀ : AtMostOneFree l₀)
    (hspan : span (l₀ ++ (t, false) :: r) = 8 + s) (hx : x = b + span l₀) (hat : a ≤ t)
    (hpool : pool' = setMid pool p l₁ (l₀ ++ (t, false) :: r) l₂)
    (R : Rep h' len pool' Nothing) (K : Keeps (In b n) h pool h' pool') :
    Allocated h len pool x a h' := by
  have hno := I.noAdjacent p hp
  rw [hl, List.append_assoc, noAdjacent_append] at hno
  obtain ⟨hno₁, hfirst, hno₂⟩ := hno
  have hlast : lastFree false l₁ = false := by
    by_contra hc
    exact hfirst ⟨Bool.eq_true_of_not_eq_false hc, rfl⟩
  have hp' : p ∈ h'.poolStart := K.pools ▸ hp
  subst hpool
  have hpool' : setMid pool p l₁ (l₀ ++ (t, false) :: r) l₂ p =
      l₁ ++ (l₀ ++ (t, false) :: r) ++ l₂ := setMid_self_apply
  have hno : NoAdjacent false (l₁ ++ (l₀ ++ (t, false) :: r) ++ l₂) := by
    rcases hl₀ with rfl | ⟨u, rfl⟩
    · exact noAdjacent_used hno₁ hno₂ hr
    · have hu : NoAdjacent false (l₁ ++ [(u, true)]) := noAdjacent_append.mpr
        ⟨hno₁, fun hc => Bool.false_ne_true (hlast.symm.trans hc.1), trivial⟩
      simpa using noAdjacent_used (t := t) hu hno₂ hr
  have hcell : Cell h'.poolStart (setMid pool p l₁ (l₀ ++ (t, false) :: r) l₂) x (t, false) := by
    refine ⟨p, hp', ?_⟩
    have : (p - 8 + span (l₁ ++ l₀), _) ∈ cells (p - 8) ((l₁ ++ l₀) ++ (t, false) :: (r ++ l₂)) :=
      mem_cells_split
    rw [hpool', hx, hb]
    simpa only [span_append, List.append_assoc, List.cons_append, Nat.add_assoc] using this
  have hold : ∀ y t, In b n y → ¬ Cell h.poolStart pool y (t, false) := by
    intro y t hy hc
    have hmem := I.rep.cell_window hp hl hb (by simpa [Nat.add_assoc] using hn) hc hy.1 hy.2
    exact AtMostOneFree.not_used (Or.inr ⟨s, rfl⟩) hmem
  have hlen : x < n := by
    rw [span_append, span_cons] at hspan
    simp only at hspan
    omega
  refine ⟨_, t, I.of_setMid K.pools R hno, hcell, hat, fun t => hold x t ⟨by omega, hlen⟩, ?_⟩
  have hn' : n = b + span (l₀ ++ (t, false) :: r) := by omega
  refine K.narrow_window I.rep R hp hl hpool' hb (by simpa [Nat.add_assoc] using hn) hn'
    (fun y u hy => ?_) fun y u hy => ?_
  · exact absurd hy (AtMostOneFree.not_used (Or.inr ⟨s, rfl⟩))
  · rw [cells_append, List.mem_append, cells_cons, List.mem_cons] at hy
    rcases hy with hy | hy | hy
    · exact absurd hy hl₀.not_used
    · rw [(Prod.mk.inj hy).1, hx]
    · exact absurd hy hr.not_used

theorem Allocated.mono {a' : Nat} (A : Allocated h len pool x a h') (ha : a' ≤ a) :
    Allocated h len pool x a' h' := by
  obtain ⟨pool', t, I, hx, hat, hnew, K⟩ := A
  exact ⟨pool', t, I, hx, Nat.le_trans ha hat, hnew, K⟩

/-! ## Sizes asked for -/

theorem sub64_pred {A : Nat} (hpos : 0 < A) (hlt : A < 2 ^ 64) : sub64 A 1 = A - 1 := by
  rw [sub64]
  omega

/-- `align_up` to a power of two clears the low bits of the sum. -/
theorem alignUp_eq {k : Nat} (hk : k < 64) (x : Nat) :
    Heap.alignUp x (2 ^ k) = (x + (2 ^ k - 1)) % 2 ^ 64 / 2 ^ k * 2 ^ k := by
  have hlt : 2 ^ k < 2 ^ 64 := Nat.pow_lt_pow_right (by decide) hk
  have hpos := Nat.two_pow_pos k
  have hmask : not64 (2 ^ k - 1) = 2 ^ 64 - 2 ^ k := by
    rw [not64]
    omega
  rw [Heap.alignUp, sub64_pred hpos hlt, hmask,
    and_highMask (Nat.mod_lt _ (by decide)) (Nat.le_of_lt hk)]

/-- Where the sum does not wrap, the result is the next multiple. -/
theorem alignUp_spec {k : Nat} (hk : k < 64) (htop : x + 2 ^ k ≤ 2 ^ 64) :
    x ≤ Heap.alignUp x (2 ^ k) ∧ Heap.alignUp x (2 ^ k) < x + 2 ^ k ∧
      Heap.alignUp x (2 ^ k) % 2 ^ k = 0 := by
  have hpos := Nat.two_pow_pos k
  rw [alignUp_eq hk, Nat.mod_eq_of_lt (by omega)]
  have hdiv := Nat.div_add_mod (x + (2 ^ k - 1)) (2 ^ k)
  have hmod := Nat.mod_lt (x + (2 ^ k - 1)) hpos
  rw [Nat.mul_comm] at hdiv
  refine ⟨by omega, by omega, Nat.mul_mod_left _ _⟩

/-- A multiple stays. -/
theorem alignUp_of_aligned {k : Nat} (hk : k < 64) (hx : x % 2 ^ k = 0) (htop : x < 2 ^ 64) :
    Heap.alignUp x (2 ^ k) = x := by
  have hpos := Nat.two_pow_pos k
  have hx' : x + 2 ^ k ≤ 2 ^ 64 := by
    obtain ⟨i, rfl⟩ := Nat.dvd_of_mod_eq_zero hx
    have hpow : 2 ^ 64 = 2 ^ k * 2 ^ (64 - k) := by
      rw [← Nat.pow_add]
      congr 1
      omega
    rw [hpow] at htop ⊢
    have hi := Nat.lt_of_mul_lt_mul_left htop
    calc 2 ^ k * i + 2 ^ k = 2 ^ k * (i + 1) := (Nat.mul_succ _ _).symm
      _ ≤ 2 ^ k * 2 ^ (64 - k) := Nat.mul_le_mul_left _ hi
  obtain ⟨hlo, hhi, hmod⟩ := alignUp_spec hk hx'
  -- both are multiples, less than one apart
  obtain ⟨i, hi⟩ := Nat.dvd_of_mod_eq_zero hx
  obtain ⟨j, hj⟩ := Nat.dvd_of_mod_eq_zero hmod
  rw [hj] at hlo hhi ⊢
  rw [hi] at hlo hhi ⊢
  have h1 : i ≤ j := Nat.le_of_mul_le_mul_left hlo hpos
  have h2 : j < i + 1 := by
    rw [← Nat.mul_succ] at hhi
    exact Nat.lt_of_mul_lt_mul_left hhi
  rw [Nat.le_antisymm (Nat.le_of_lt_succ h2) h1]

/-- **What `adjust_request_size` returns is 0 or a size a block can have.** -/
theorem adjustRequestSize_spec {k size : Nat} (hk : 2 ≤ k) (hk' : k < 64) (hsize : size < 2 ^ 64) :
    Heap.adjustRequestSize size (2 ^ k) = 0 ∨
      24 ≤ Heap.adjustRequestSize size (2 ^ k) ∧
      Heap.adjustRequestSize size (2 ^ k) ≤ 2 ^ 30 ∧
      Heap.adjustRequestSize size (2 ^ k) % 4 = 0 ∧
      size ≤ Heap.adjustRequestSize size (2 ^ k) := by
  have hpos := Nat.two_pow_pos k
  unfold Heap.adjustRequestSize
  by_cases hz : size = 0
  · exact Or.inl (if_pos hz)
  rw [if_neg hz]
  simp only
  by_cases hbad : Heap.alignUp size (2 ^ k) = 0 ∨ Heap.alignUp size (2 ^ k) > blkSizeMax
  · exact Or.inl (if_pos hbad)
  rw [if_neg hbad]
  rw [not_or] at hbad
  obtain ⟨hne, hle⟩ := hbad
  have hle : Heap.alignUp size (2 ^ k) ≤ 2 ^ 30 := Nat.le_of_not_lt hle
  have hwrap : size + 2 ^ k ≤ 2 ^ 64 := by
    by_contra hbig
    refine hne ?_
    have hsum : (size + (2 ^ k - 1)) % 2 ^ 64 < 2 ^ k := by omega
    rw [alignUp_eq hk', Nat.div_eq_of_lt hsum, Nat.zero_mul]
  obtain ⟨hlo, -, hmod⟩ := alignUp_spec hk' hwrap
  have hmod4 : Heap.alignUp size (2 ^ k) % 4 = 0 := by
    have hdvd : 4 ∣ 2 ^ k := Nat.pow_dvd_pow 2 hk
    exact Nat.mod_eq_zero_of_dvd (Nat.dvd_trans hdvd (Nat.dvd_of_mod_eq_zero hmod))
  refine Or.inr ?_
  by_cases hmin : Heap.alignUp size (2 ^ k) > blkSizeMin
  · rw [if_pos hmin]
    exact ⟨Nat.le_of_lt hmin, hle, hmod4, hlo⟩
  · rw [if_neg hmin]
    have hmin : Heap.alignUp size (2 ^ k) ≤ 24 := Nat.le_of_not_lt hmin
    exact ⟨Nat.le_refl 24, by decide, rfl, Nat.le_trans hlo hmin⟩

/-- In both cases it is a multiple of 4, up to 2^30. -/
theorem adjustRequestSize_bound {size : Nat} (hsize : size < 2 ^ 64) :
    Heap.adjustRequestSize size alignSize % 4 = 0 ∧
      Heap.adjustRequestSize size alignSize ≤ 2 ^ 30 := by
  rcases adjustRequestSize_spec (k := 2) (by decide) (by decide) hsize with hz | ⟨-, hle, hmod, -⟩
  · have hz : Heap.adjustRequestSize size alignSize = 0 := hz
    rw [hz]
    exact ⟨rfl, Nat.zero_le _⟩
  · exact ⟨hmod, hle⟩

/-! ## `nod_mmheap_alloc` -/

/-- **`nod_mmheap_alloc`** changes nothing or allocates. -/
theorem Inv.nodMmheapAlloc (I : Inv h len pool) {size : Nat} (hsize : size < 2 ^ 64) :
    h.nodMmheapAlloc size = (0, h) ∨ ∃ x, (h.nodMmheapAlloc size).1 = x + 16 ∧
      Allocated h len pool x size (h.nodMmheapAlloc size).2 := by
  unfold Heap.nodMmheapAlloc
  by_cases hmax : size > blkSizeMax
  · rw [if_pos hmax]
    exact Or.inl rfl
  rw [if_neg hmax]
  simp only
  have hadj : Heap.adjustRequestSize size alignSize = 0 ∨ _ :=
    adjustRequestSize_spec (k := 2) (by decide) (by decide) hsize
  obtain ⟨hadj4, hadjle⟩ := adjustRequestSize_bound hsize
  rcases I.blkLocateFree hadj4 hadjle with hnone | ⟨x, s, hx, has, hfound⟩
  · rw [hnone]
    exact Or.inl rfl
  · rw [hfound]
    simp only
    rw [if_neg (I.rep.cell_pos hx).ne']
    obtain ⟨⟨p, l₁, l₂, Φ⟩, K⟩ := I.take hx
    rcases hadj with hz | ⟨h24, -, -, hge⟩
    · -- nothing is found for the size 0
      rw [hz] at hfound
      have : (0, h) = (x, h.blkRemove x) := hfound
      exact absurd (Prod.mk.inj this).1.symm (I.rep.cell_pos hx).ne'
    · obtain ⟨hptr, t, r, hat, hr, hspan, R, K'⟩ := Φ.prepareUsed hadj4 h24 has
      refine Or.inr ⟨x, hptr, Allocated.mono ?_ hge⟩
      exact Allocated.of_replaced I (K.pools ▸ Φ.mem) Φ.split Φ.start rfl [] hr
        (Or.inl rfl) hspan rfl hat rfl R (K.of_nothing.trans K')

/-! ## `nod_mmheap_aligned_alloc` -/

theorem sub64_of_le {u v : Nat} (hle : v ≤ u) (hu : u < 2 ^ 64) : sub64 u v = u - v := by
  rw [sub64]
  omega

theorem mod_four {k u : Nat} (hk : 2 ≤ k) (hu : u % 2 ^ k = 0) : u % 4 = 0 :=
  Nat.mod_eq_zero_of_dvd (Nat.dvd_trans (Nat.pow_dvd_pow 2 hk) (Nat.dvd_of_mod_eq_zero hu))

/-- **The gap is 0 or enough for a free block**, not more than was asked for, and ends at a
multiple. -/
theorem alignGap_spec (ptr : Nat) {k : Nat} (hk : 3 ≤ k) (hk' : k < 64) (hptr : ptr % 4 = 0)
    (htop : ptr + 2 ^ k + 56 ≤ 2 ^ 64) :
    Heap.alignGap ptr (2 ^ k) % 4 = 0 ∧
      (Heap.alignGap ptr (2 ^ k) = 0 ∨ 32 ≤ Heap.alignGap ptr (2 ^ k)) ∧
      Heap.alignGap ptr (2 ^ k) ≤ 2 ^ k + 31 ∧
      (ptr + Heap.alignGap ptr (2 ^ k)) % 2 ^ k = 0 := by
  obtain ⟨hlo, hhi, hmod⟩ := alignUp_spec (x := ptr) hk' (by omega)
  have hmod4 := mod_four (by omega) hmod
  have hgap := sub64_of_le hlo (by omega)
  unfold Heap.alignGap
  simp only
  rw [hgap]
  by_cases hsmall : Heap.alignUp ptr (2 ^ k) - ptr ≠ 0 ∧
      Heap.alignUp ptr (2 ^ k) - ptr < blkStructSize
  · rw [if_pos hsmall]
    obtain ⟨hne, hlt⟩ := hsmall
    have hlt : Heap.alignUp ptr (2 ^ k) - ptr < 32 := hlt
    by_cases hoff : blkStructSize - (Heap.alignUp ptr (2 ^ k) - ptr) > 2 ^ k
    · -- the next address is 32 bytes on
      have hoff32 : 32 - (Heap.alignUp ptr (2 ^ k) - ptr) > 2 ^ k := hoff
      have hsum : Heap.alignUp ptr (2 ^ k) + (32 - (Heap.alignUp ptr (2 ^ k) - ptr)) =
          ptr + 32 := by omega
      have hlt64 : ptr + 32 < 2 ^ 64 := by omega
      rw [if_pos hoff, show blkStructSize = 32 from rfl, hsum, Nat.mod_eq_of_lt hlt64]
      obtain ⟨hlo', hhi', hmod'⟩ := alignUp_spec (x := ptr + 32) hk' (by omega)
      have hmod4' := mod_four (by omega) hmod'
      rw [sub64_of_le (by omega) (by omega), Nat.add_sub_of_le (by omega)]
      exact ⟨by omega, by omega, by omega, hmod'⟩
    · -- the next address is one multiple on
      have hoff32 : ¬ 32 - (Heap.alignUp ptr (2 ^ k) - ptr) > 2 ^ k := hoff
      have hmod' : (Heap.alignUp ptr (2 ^ k) + 2 ^ k) % 2 ^ k = 0 := by
        rw [Nat.add_mod_right]
        exact hmod
      have hlt64 : Heap.alignUp ptr (2 ^ k) + 2 ^ k < 2 ^ 64 := by omega
      rw [if_neg hoff, Nat.mod_eq_of_lt hlt64, alignUp_of_aligned hk' hmod' hlt64,
        sub64_of_le (by omega) hlt64, Nat.add_sub_of_le (by omega)]
      have := mod_four (by omega) hmod'
      exact ⟨by omega, by omega, by omega, hmod'⟩
  · rw [if_neg hsmall, Nat.add_sub_of_le hlo]
    have hsmall : ¬ (Heap.alignUp ptr (2 ^ k) - ptr ≠ 0 ∧ Heap.alignUp ptr (2 ^ k) - ptr < 32) :=
      hsmall
    exact ⟨by omega, by omega, by omega, hmod⟩

/-- An address that is a multiple needs no gap. -/
theorem alignGap_of_aligned {k ptr : Nat} (hk : k < 64) (hptr : ptr % 2 ^ k = 0)
    (htop : ptr < 2 ^ 64) : Heap.alignGap ptr (2 ^ k) = 0 := by
  have hgap : sub64 (Heap.alignUp ptr (2 ^ k)) ptr = 0 := by
    rw [alignUp_of_aligned hk hptr htop, sub64_of_le (Nat.le_refl _) htop, Nat.sub_self]
  unfold Heap.alignGap
  simp only [hgap, ne_eq, not_true_eq_false, false_and, if_false]

theorem mod_of_mod_four {k u : Nat} (hk : k ≤ 2) (hu : u % 4 = 0) : u % 2 ^ k = 0 :=
  Nat.mod_eq_zero_of_dvd (Nat.dvd_trans (Nat.pow_dvd_pow 2 hk) (Nat.dvd_of_mod_eq_zero hu))

/-- **`blk_trim_free_leading`** cuts off and lists the gap, if the block can be split there. -/
theorem Focus.trimFreeLeading {gap : Nat} (Φ : Hand h len pool p l₁ [(s, true)] l₂ b n)
    (hgap4 : gap % 4 = 0) (hgap : 32 ≤ gap) :
    h.blkTrimFreeLeading b gap = (b, h) ∨
    gap + 32 ≤ s ∧ (h.blkTrimFreeLeading b gap).1 = b + gap ∧
    Hand (h.blkTrimFreeLeading b gap).2 len
      (setMid pool p l₁ [(gap - 8, true), (s - gap, true)] l₂) p (l₁ ++ [(gap - 8, true)])
      [(s - gap, true)] l₂ (b + gap) n ∧
    Keeps (In b n) h pool (h.blkTrimFreeLeading b gap).2
      (setMid pool p l₁ [(gap - 8, true), (s - gap, true)] l₂) := by
  have H : Header h.mem b s true (lastFree false l₁) := Φ.seg.1.1
  by_cases hsplit : s ≥ 32 + gap
  · refine Or.inr ⟨by omega, ?_⟩
    have hrem : b + 8 + (gap - 8) = b + gap := by omega
    have hrest : s - (gap - 8 + 8) = s - gap := by omega
    obtain ⟨hfst, Φ₁, K₁⟩ := Φ.splitFree (a := gap - 8) (by omega) (by omega) (by omega)
      (Or.inr rfl)
    have htrim : h.blkTrimFreeLeading b gap = (b + gap,
        (((h.blkSplit b (gap - 8)).2.blkSetPrevFree (b + gap)).blkLinkNext b).2.blkInsert b) := by
      rw [Heap.blkTrimFreeLeading, blkCanSplit_eq H, if_pos (decide_eq_true hsplit)]
      simp only [blkHeaderOverhead, hfst, hrem]
    obtain ⟨Φ₂, K₂⟩ := Φ₁.insertFirst
    rw [htrim]
    rw [hrest] at Φ₂ K₂ K₁
    rw [hrem] at Φ₂ K₂ K₁
    exact ⟨rfl, Φ₂, K₁.trans K₂.of_nothing⟩
  · left
    rw [Heap.blkTrimFreeLeading, blkCanSplit_eq H, decide_eq_false hsplit]
    rfl

/-- The block looked for has room for what is asked, behind the largest gap. -/
theorem alignedSize_spec {k size : Nat} (hk : k < 64) (hsize : size < 2 ^ 64) :
    Heap.alignedSize size (2 ^ k) = 0 ∨
      24 ≤ Heap.adjustRequestSize size alignSize ∧
      Heap.adjustRequestSize size alignSize % 4 = 0 ∧
      size ≤ Heap.adjustRequestSize size alignSize ∧
      Heap.alignedSize size (2 ^ k) % 4 = 0 ∧ Heap.alignedSize size (2 ^ k) ≤ 2 ^ 30 ∧
      Heap.adjustRequestSize size alignSize ≤ Heap.alignedSize size (2 ^ k) ∧
      (3 ≤ k →
        Heap.adjustRequestSize size alignSize + 2 ^ k + 32 ≤ Heap.alignedSize size (2 ^ k)) := by
  have hadj : Heap.adjustRequestSize size alignSize = 0 ∨ _ :=
    adjustRequestSize_spec (k := 2) (by decide) (by decide) hsize
  unfold Heap.alignedSize
  simp only
  rcases hadj with hz | ⟨h24, hle, hmod, hge⟩
  · rw [hz]
    exact Or.inl rfl
  have h24 : 24 ≤ Heap.adjustRequestSize size alignSize := h24
  have hle : Heap.adjustRequestSize size alignSize ≤ 2 ^ 30 := hle
  by_cases hbig : 2 ^ k > alignSize
  · have hk3 : 3 ≤ k := by
      by_contra hlt
      have : 2 ^ k ≤ 2 ^ 2 := Nat.pow_le_pow_right (by decide) (by omega)
      exact Nat.not_lt.mpr this hbig
    have hpow : 2 ^ k ≤ 2 ^ 63 := Nat.pow_le_pow_right (by decide) (by omega)
    have hlt : Heap.adjustRequestSize size alignSize + 2 ^ k + blkStructSize < 2 ^ 64 := by
      show _ + 2 ^ k + 32 < 2 ^ 64
      omega
    rw [if_pos ⟨by omega, hbig⟩, Nat.mod_eq_of_lt hlt]
    rcases adjustRequestSize_spec (by omega) hk hlt with hz' | ⟨-, hle', hmod', hge'⟩
    · exact Or.inl hz'
    · have hge' : Heap.adjustRequestSize size alignSize + 2 ^ k + 32 ≤ _ := hge'
      exact Or.inr ⟨h24, hmod, hge, hmod', hle', by omega, fun _ => hge'⟩
  · have hno : ¬ (Heap.adjustRequestSize size alignSize ≠ 0 ∧ 2 ^ k > alignSize) :=
      fun h => hbig h.2
    rw [if_neg hno]
    refine Or.inr ⟨h24, hmod, hge, hmod, hle, Nat.le_refl _, fun hk3 => ?_⟩
    have : 2 ^ 3 ≤ 2 ^ k := Nat.pow_le_pow_right (by decide) hk3
    exact absurd (Nat.lt_of_lt_of_le (by decide) this) hbig

/-- **`nod_mmheap_aligned_alloc`**, for a power of two, changes nothing or allocates. -/
theorem Inv.nodMmheapAlignedAlloc (I : Inv h len pool) {size k : Nat} (hsize : size < 2 ^ 64)
    (hk : k < 64) :
    h.nodMmheapAlignedAlloc size (2 ^ k) = (0, h) ∨
      ∃ x, (h.nodMmheapAlignedAlloc size (2 ^ k)).1 = x + 16 ∧
        Allocated h len pool x size (h.nodMmheapAlignedAlloc size (2 ^ k)).2 := by
  rw [Heap.nodMmheapAlignedAlloc]
  rcases alignedSize_spec hk hsize with hz | ⟨h24, hadj4, hge, hmod, hle, hadj, hroom⟩
  · rw [hz, blkLocateFree_zero]
    exact Or.inl (if_pos rfl)
  rcases I.blkLocateFree hmod hle with hnone | ⟨x, s, hx, has, hfound⟩
  · rw [hnone]
    exact Or.inl (if_pos rfl)
  refine Or.inr ?_
  rw [hfound]
  simp only
  rw [if_neg (I.rep.cell_pos hx).ne', show Heap.blkToPtr x = x + 16 from rfl]
  obtain ⟨⟨p, l₁, l₂, Φ⟩, K⟩ := I.take hx
  have htop := I.rep.cell_top hx
  have hx4 := (I.rep.cell_aligned hx).1
  simp only at htop
  -- the block as a whole
  have hwhole : ∃ y, ((h.blkRemove x).blkPrepareUsed x
        (Heap.adjustRequestSize size alignSize)).1 = y + 16 ∧
      Allocated h len pool y size ((h.blkRemove x).blkPrepareUsed x
        (Heap.adjustRequestSize size alignSize)).2 := by
    obtain ⟨hptr, t, r, hat, hr, hspan, R, K'⟩ := Φ.prepareUsed hadj4 h24 (by omega)
    refine ⟨x, hptr, Allocated.mono ?_ hge⟩
    exact Allocated.of_replaced I (K.pools ▸ Φ.mem) Φ.split Φ.start rfl [] hr
      (Or.inl rfl) hspan rfl hat rfl R (K.of_nothing.trans K')
  by_cases hk3 : 3 ≤ k
  · have hroom := hroom hk3
    obtain ⟨hgap4, hgap, hgaple, -⟩ := alignGap_spec (x + 16) hk3 hk (by omega) (by omega)
    rcases hgap with hgap | hgap
    · rw [hgap]
      exact hwhole
    · rw [if_pos (by omega)]
      rcases Φ.trimFreeLeading hgap4 hgap with hno | ⟨-, hfst, Φ', K'⟩
      · rw [hno]
        exact hwhole
      · rw [hfst]
        obtain ⟨hptr, t, r, hat, hr, hspan, R, K''⟩ := Φ'.prepareUsed hadj4 h24 (by omega)
        refine ⟨_, hptr, Allocated.mono ?_ hge⟩
        refine Allocated.of_replaced I (K.pools ▸ Φ.mem) Φ.split Φ.start rfl
          [(Heap.alignGap (x + 16) (2 ^ k) - 8, true)] hr (Or.inr ⟨_, rfl⟩) ?_ ?_ hat ?_ R
          ((K.of_nothing.trans K').trans (K''.mono fun y hy => ⟨by have := hy.1; omega, hy.2⟩))
        · rw [List.singleton_append, span_cons, hspan]
          simp only
          omega
        · simp only [span_cons, span_nil]
          omega
        · rw [setMid_setMid]
          exact setMid_eq (by simp)
  · rw [alignGap_of_aligned hk (mod_of_mod_four (by omega) (by omega)) (by omega)]
    exact hwhole

end NoDrop.Mmheap
