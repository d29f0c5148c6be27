import NoDrop.MmheapFree

/-! # Writing into blocks, and resizing them

A used block's payload may be written to: nothing of the heap is there (`Inv.write`).  With that
`nod_mmheap_calloc` and `nod_mmheap_realloc` are what they should be.  A block is resized in its
place if it is large enough, or if it is together with a free block behind it; otherwise another
block is allocated, its contents are copied, and it is freed.
-/
namespace NoDrop.Mmheap

open Bytes

variable {h h' : Heap} {len : Nat → Nat} {pool pool' : Nat → List Blk} {W : Nat → Prop}
  {l₁ l₂ mid : List Blk} {p b n s t a x y : Nat} {f : Bool} {c : Blk}

/-! ## Payloads -/

section Write

variable (I : Inv h len pool) (hx : Cell h.poolStart pool x (s, false)) (m' : Image)
  (hm : ∀ i, i < x + 16 ∨ x + 16 + s ≤ i → m' i = h.mem i)

include I hx

/-- The payload of a used block is apart from the headers and the ends of free blocks. -/
theorem Inv.meta_outside {i : Nat} (hy : Cell h.poolStart pool y c) (hi : Meta y c i) :
    i < x + 16 ∨ x + 16 + s ≤ i := by
  have hi' : y + 8 ≤ i ∧ i < y + 16 + c.1 := by
    have := (I.rep.cell_size hy).1
    rcases hi with ⟨_, _⟩ | ⟨_, _, _⟩ <;> omega
  rcases I.rep.cell_apart hx hy with ⟨rfl, rfl⟩ | hlt | hlt
  · rcases hi with ⟨_, hhi⟩ | ⟨hfree, _⟩
    · exact Or.inl hhi
    · exact absurd hfree Bool.false_ne_true
  · simp only at hlt
    omega
  · omega

theorem Inv.sentinel_outside {i : Nat} (hp : p ∈ h.poolStart) (hlo : p + len p ≤ i)
    (hhi : i < p + len p + 8) : i < x + 16 ∨ x + 16 + s ≤ i := by
  obtain ⟨q, hq, hx⟩ := hx
  have hb := I.rep.cell_bounds hq hx
  simp only at hb
  by_cases hpq : p = q
  · subst hpq
    omega
  · have := I.rep.placed.disjoint p hp q hq hpq
    omega

include hm

/-- **The payload of a used block may be written to.** -/
theorem Inv.write : Inv { h with mem := m' } len pool ∧
    Keeps (fun y => y = x) h pool { h with mem := m' } pool := by
  have htiled : ∀ p ∈ h.poolStart, Tiled m' (p - 8) false (pool p) := by
    intro p hp
    have hstart := I.rep.placed.start p hp
    refine (I.rep.tiled p hp).congr_meta (fun y c hy i hi => ?_) fun i hlo hhi => ?_
    · exact hm i (I.meta_outside hx ⟨p, hp, hy⟩ hi)
    · rw [I.rep.span_eq p hp] at hlo hhi
      exact hm i (I.sentinel_outside hx hp (by omega) (by omega))
  obtain ⟨lists, L⟩ := I.rep.listed
  have L' : Listed { h with mem := m' }
      (fun y t => Cell h.poolStart pool y (t, true) ∧ ¬ Nothing y) lists := by
    refine L.congr rfl rfl rfl rfl fun y t hy i hlo hhi => hm i ?_
    have hsize := (I.rep.cell_size hy.1).1
    rcases I.rep.cell_apart hx hy.1 with ⟨-, hc⟩ | hlt | hlt
    · exact Bool.noConfusion (Prod.mk.inj hc).2
    · simp only at hlt
      omega
    · simp only at hlt hsize
      omega
  refine ⟨⟨⟨I.rep.placed, I.rep.span_eq, I.rep.size, htiled, lists, L'⟩, I.noAdjacent⟩,
    ⟨rfl, rfl, fun _ _ _ => Iff.rfl, fun y t hy hc i hlo hhi => hm i ?_⟩⟩
  rcases I.rep.cell_apart hx hc with ⟨hxy, -⟩ | hlt | hlt
  · exact absurd hxy.symm hy
  · simp only at hlt
    omega
  · simp only at hlt
    omega

end Write

/-! ## `nod_mmheap_calloc` -/

/-- **`nod_mmheap_calloc`** changes nothing or allocates, and then the block is zero. -/
theorem Inv.nodMmheapCalloc (I : Inv h len pool) {num size : Nat} (hsize : num * size < 2 ^ 64) :
    h.nodMmheapCalloc num size = (0, h) ∨ ∃ x, (h.nodMmheapCalloc num size).1 = x + 16 ∧
      Allocated h len pool x (num * size) (h.nodMmheapCalloc num size).2 ∧
      (h.nodMmheapCalloc num size).2.mem.read (x + 16) (num * size) =
        List.replicate (num * size) 0 := by
  rw [Heap.nodMmheapCalloc, Nat.mod_eq_of_lt hsize]
  rcases I.nodMmheapAlloc hsize with hnone | ⟨x, hptr, pool', t, I', hx, hat, hnew, K⟩
  · rw [hnone]
    exact Or.inl rfl
  · refine Or.inr ⟨x, ?_⟩
    dsimp only
    rw [hptr, if_neg (Nat.succ_ne_zero _)]
    generalize (h.nodMmheapAlloc (num * size)).2 = h₁ at I' hx hat hnew K
    have hlen : (List.replicate (num * size) (0 : UInt8)).length = num * size :=
      List.length_replicate
    obtain ⟨I'', K'⟩ := I'.write hx (h₁.mem.write ⟨x + 16, List.replicate (num * size) 0⟩)
      fun i hi => Image.write_of_not_touches fun ht => by
        have hlo : x + 16 ≤ i := ht.1
        have hhi : i < x + 16 + (List.replicate (num * size) (0 : UInt8)).length := ht.2
        omega
    refine ⟨rfl, ⟨pool', t, I'', hx, hat, hnew, K.trans K'⟩, ?_⟩
    have hread := Image.read_write_self h₁.mem ⟨x + 16, List.replicate (num * size) 0⟩
    rwa [hlen] at hread

/-! ## `nod_mmheap_realloc` -/

/-- The bytes that a resized block keeps. -/
def KeepsBytes (h : Heap) (x : Nat) (h' : Heap) (y n : Nat) : Prop :=
  h'.mem.read (y + 16) n = h.mem.read (x + 16) n

/-- **The used block at `x` is free, and one at `y` took its place.** -/
def Moved (h : Heap) (len : Nat → Nat) (pool : Nat → List Blk) (x y a : Nat) (h' : Heap) : Prop :=
  ∃ pool' t, Inv h' len pool' ∧ Cell h'.poolStart pool' y (t, false) ∧ a ≤ t ∧
    (∀ t, ¬ Cell h.poolStart pool y (t, false)) ∧
    (∀ t, ¬ Cell h'.poolStart pool' x (t, false)) ∧
    Keeps (fun z => z = x ∨ z = y) h pool h' pool'

theorem Resized.mono {a' : Nat} (A : Resized h len pool x a h') (ha : a' ≤ a) :
    Resized h len pool x a' h' := by
  obtain ⟨pool', t, I, hx, hat, K⟩ := A
  exact ⟨pool', t, I, hx, Nat.le_trans ha hat, K⟩

theorem KeepsBytes.mono {m : Nat} (hk : KeepsBytes h x h' y n) (hm : m ≤ n) :
    KeepsBytes h x h' y m :=
  Image.read_congr fun _ hi => Image.apply_eq_of_read_eq hk (Nat.lt_of_lt_of_le hi hm)

/-- A block is resized where it is if it is large enough. -/
theorem Inv.shrink (I : Inv h len pool) (hx : Cell h.poolStart pool x (s, false)) (ha : a % 4 = 0)
    (h24 : 24 ≤ a) (has : a ≤ s) :
    Resized h len pool x a (h.blkTrimUsed x a) ∧ KeepsBytes h x (h.blkTrimUsed x a) x a := by
  obtain ⟨p, l₁, l₂, Φ⟩ := I.pick hx
  have hstop := Φ.stop
  have hself := Φ.setMid_self
  obtain ⟨hres, hbytes⟩ := Resized.of_trimUsed [] (t := s) I Φ.mem Φ.split (Or.inl rfl)
    Φ.start hstop (by rw [hself]; exact Φ) (by rw [hself]; exact Keeps.refl _ _ _) ha h24 has
  exact ⟨hres, Image.read_congr fun _ _ => hbytes _ (by omega) (by omega)⟩

/-- A block is resized where it is if there is room behind it. -/
theorem Inv.grow (I : Inv h len pool) (hx : Cell h.poolStart pool x (s, false))
    (hfree : h.blkIsFree (x + 8 + s) = true) (ha : a % 4 = 0) (h24 : 24 ≤ a) (hsa : s < a)
    (hat : a ≤ s + h.blkSize (x + 8 + s) + 8) :
    Resized h len pool x a (((h.blkMergeNext x).2.blkMarkAsUsed x).blkTrimUsed x a) ∧
      KeepsBytes h x (((h.blkMergeNext x).2.blkMarkAsUsed x).blkTrimUsed x a) x s := by
  obtain ⟨p, l₁, l₂, Φ⟩ := I.pick hx
  have H : Header h.mem x s false (lastFree false l₁) := Φ.seg.1.1
  obtain ⟨t, l₃, rfl⟩ := Φ.next_isFree.mp hfree
  obtain ⟨Φ₁, K₁⟩ := Φ.takeNext
  have hsize : h.blkSize (x + 8 + s) = t := by
    obtain ⟨q, N⟩ := Φ.rep.cell_header Φ.cell_next
    exact blkSize_eq N
  have hmerge : h.blkMergeNext x = (h.blkRemove (x + 8 + s)).blkAbsorb x (x + 8 + s) := by
    rw [Heap.blkMergeNext, blkNext_eq H]
    exact if_pos hfree
  obtain ⟨Φ₂, K₂, hbytes₂⟩ := Focus.absorbUsed rfl Φ₁
  rw [hmerge]
  have hspan : x + 8 + s + 8 + t = x + span [(s, false), (t, true)] := by
    simp only [span_cons, span_nil]
    omega
  have hsplit : pool p = l₁ ++ [(s, false), (t, true)] ++ l₃ := by
    rw [Φ.split]
    simp
  obtain ⟨hres, hbytes⟩ := Resized.of_trimUsed [(t, true)] I Φ.mem hsplit (Or.inr ⟨t, rfl⟩)
    Φ.start hspan Φ₂ (K₁.of_nothing.trans K₂) ha h24 (by omega)
  refine ⟨hres, Image.read_congr fun i hi => ?_⟩
  rw [hbytes _ (by omega) (by omega), hbytes₂ _ (by omega) (by omega)]
  exact K₁.bytes x s id hx _ (by omega) (by omega)

/-- A size that a block can have is adjusted to one. -/
theorem adjustRequestSize_of_le {size : Nat} (hpos : size ≠ 0) (hmax : size ≤ 2 ^ 30) :
    24 ≤ Heap.adjustRequestSize size alignSize ∧
      Heap.adjustRequestSize size alignSize % 4 = 0 ∧
      size ≤ Heap.adjustRequestSize size alignSize := by
  rcases adjustRequestSize_spec (k := 2) (by decide) (by decide) (show size < 2 ^ 64 by omega) with
    hz | ⟨h24, -, hmod, hge⟩
  · obtain ⟨hlo, hhi, hmod⟩ := alignUp_spec (x := size) (k := 2) (by decide) (by omega)
    have hfits : ¬ (Heap.alignUp size (2 ^ 2) = 0 ∨ Heap.alignUp size (2 ^ 2) > blkSizeMax) := by
      show ¬ (_ ∨ _ > 2 ^ 30)
      omega
    rw [Heap.adjustRequestSize, if_neg hpos] at hz
    simp only at hz
    rw [if_neg hfits] at hz
    split at hz
    · omega
    · exact absurd hz (by decide)
  · exact ⟨h24, hmod, hge⟩

/-- A block is moved: another one is allocated, and what fits is copied. -/
theorem Allocated.move {h₁ : Heap} (A : Allocated h len pool y a h₁)
    (hx : Cell h.poolStart pool x (s, false)) (hns : n ≤ s) (hna : n ≤ a) :
    Moved h len pool x y a ((h₁.memcpy (y + 16) (x + 16) n).nodMmheapFree (x + 16)) ∧
      KeepsBytes h x ((h₁.memcpy (y + 16) (x + 16) n).nodMmheapFree (x + 16)) y n := by
  obtain ⟨pool₁, t, I₁, hy, hat, hnew, K₁⟩ := A
  have hxy : x ≠ y := by
    rintro rfl
    exact hnew s hx
  have hx₁ := (K₁.used x s hxy).mpr hx
  have hlen : (h₁.mem.read (x + 16) n).length = n := Image.read_length ..
  -- the copy
  obtain ⟨I₂, K₂⟩ := I₁.write hy (h₁.mem.write ⟨y + 16, h₁.mem.read (x + 16) n⟩)
    fun i hi => Image.write_of_not_touches fun ht => by
      have hlo : y + 16 ≤ i := ht.1
      have hhi : i < y + 16 + (h₁.mem.read (x + 16) n).length := ht.2
      omega
  have hcopy : (h₁.memcpy (y + 16) (x + 16) n).mem.read (y + 16) n = h.mem.read (x + 16) n := by
    have hread := Image.read_write_self h₁.mem ⟨y + 16, h₁.mem.read (x + 16) n⟩
    simp only [hlen] at hread
    refine hread.trans (Image.read_congr fun i hi => ?_)
    exact K₁.bytes x s hxy hx _ (by omega) (by omega)
  -- and the old block
  obtain ⟨pool₃, I₃, hgone, K₃⟩ := I₂.nodMmheapFree ((K₂.used x s hxy).mpr hx₁)
  have hy₂ := hy
  have hy₃ := (K₃.used y t hxy.symm).mpr hy₂
  refine ⟨⟨pool₃, t, I₃, hy₃, hat, hnew, hgone, ?_⟩, ?_⟩
  · exact ((K₁.trans K₂).mono fun z hz => Or.inr hz).trans (K₃.mono fun z hz => Or.inl hz)
  · refine Eq.trans (Image.read_congr fun i hi => ?_) hcopy
    exact K₃.bytes y t hxy.symm hy₂ _ (by omega) (by omega)

/-- **`nod_mmheap_realloc`** of a used block changes nothing, resizes the block, or moves it; the
bytes it had are there, as far as they fit. -/
theorem Inv.nodMmheapRealloc (I : Inv h len pool) (hx : Cell h.poolStart pool x (s, false))
    {size : Nat} (hpos : size ≠ 0) (hmax : size ≤ blkSizeMax) :
    h.nodMmheapRealloc (x + 16) size = (0, h) ∨
    ((h.nodMmheapRealloc (x + 16) size).1 = x + 16 ∧
      Resized h len pool x size (h.nodMmheapRealloc (x + 16) size).2 ∧
      KeepsBytes h x (h.nodMmheapRealloc (x + 16) size).2 x (min s size)) ∨
    ∃ y, (h.nodMmheapRealloc (x + 16) size).1 = y + 16 ∧
      Moved h len pool x y size (h.nodMmheapRealloc (x + 16) size).2 ∧
      KeepsBytes h x (h.nodMmheapRealloc (x + 16) size).2 y (min s size) := by
  have hmax' : size ≤ 2 ^ 30 := hmax
  have hsize : size < 2 ^ 64 := by omega
  obtain ⟨q, H⟩ := I.rep.cell_header hx
  have hcurr : Heap.blkFromPtr (x + 16) = x := Nat.add_sub_cancel x 16
  obtain ⟨h24, hmod, hge⟩ := adjustRequestSize_of_le hpos hmax'
  rw [Heap.nodMmheapRealloc, if_neg fun hc => hpos hc.2, if_neg (Nat.succ_ne_zero _)]
  simp only [hcurr, blkNext_eq H, blkSize_eq H]
  generalize Heap.adjustRequestSize size alignSize = adj at h24 hmod hge ⊢
  by_cases hmove : adj > s ∧ (h.blkIsFree (x + 8 + s) = false ∨
      adj > s + h.blkSize (x + 8 + s) + blkHeaderOverhead)
  · rw [if_pos hmove]
    rcases I.nodMmheapAlloc hsize with hnone | ⟨y, hptr, A⟩
    · rw [hnone]
      exact Or.inl rfl
    · have hmin : (if s < size then s else size) = min s size := by
        rw [Nat.min_def]
        split <;> split <;> omega
      rw [hptr, if_neg (Nat.succ_ne_zero _), hmin]
      exact Or.inr (Or.inr ⟨y, rfl, A.move hx (Nat.min_le_left ..) (Nat.min_le_right ..)⟩)
  · rw [if_neg hmove]
    refine Or.inr (Or.inl ⟨rfl, ?_⟩)
    by_cases hgrow : adj > s
    · rw [if_pos hgrow]
      have hroom : h.blkIsFree (x + 8 + s) = true ∧ adj ≤ s + h.blkSize (x + 8 + s) + 8 := by
        rw [not_and, not_or, Bool.not_eq_false, Nat.not_lt] at hmove
        exact hmove hgrow
      obtain ⟨hres, hbytes⟩ := I.grow hx hroom.1 hmod h24 hgrow hroom.2
      exact ⟨hres.mono hge, hbytes.mono (Nat.min_le_left ..)⟩
    · rw [if_neg hgrow]
      obtain ⟨hres, hbytes⟩ := I.shrink hx hmod h24 (Nat.le_of_not_lt hgrow)
      exact ⟨hres.mono hge, hbytes.mono (Nat.le_trans (Nat.min_le_right ..) hge)⟩

end NoDrop.Mmheap
