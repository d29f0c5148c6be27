import NoDrop.MmheapLists

/-! # A heap and its blocks

`Rep h len pool W` relates a heap to the blocks of its pools: every pool is tiled by them, and the
lists hold every free block but those at an address in `W`.  `W` is the part of a pool an
operation has in hand.  Inside it the blocks can be cut and joined at will (`Rep.replace`); a
block enters it by `Rep.remove` and leaves it by `Rep.insert`.

`Keeps E` is what two heaps have in common between two such edits: the used blocks, except at an
address in `E`, and every byte of their payload.
-/
namespace NoDrop.Mmheap

open Bytes

/-- Where the pools are: `len p` bytes of blocks from `p` on and a header behind them, below
2^64, apart from each other and from `block_null`. -/
structure Placed (null : Nat) (ps : List Nat) (len : Nat → Nat) : Prop where
  nodup : ps.Nodup
  start : ∀ p ∈ ps, 8 < p
  aligned : ∀ p ∈ ps, p % 4 = 0
  small : ∀ p ∈ ps, len p < 2 ^ 30 + 8
  top : ∀ p ∈ ps, p + len p + 8 ≤ 2 ^ 64
  disjoint : ∀ p ∈ ps, ∀ q ∈ ps, p ≠ q → p + len p + 8 ≤ q ∨ q + len q + 8 ≤ p
  null_top : null + 32 ≤ 2 ^ 64
  null : ∀ p ∈ ps, p + len p + 8 ≤ null ∨ null + 32 ≤ p

/-- The block `c` is at `x` in one of the pools. -/
def Cell (ps : List Nat) (pool : Nat → List Blk) (x : Nat) (c : Blk) : Prop :=
  ∃ p ∈ ps, (x, c) ∈ cells (p - 8) (pool p)

/-- **The heap has these blocks, and its lists all free ones outside `W`.** -/
structure Rep (h : Heap) (len : Nat → Nat) (pool : Nat → List Blk) (W : Nat → Prop) : Prop where
  placed : Placed h.blockNull h.poolStart len
  span_eq : ∀ p ∈ h.poolStart, span (pool p) = len p
  size : ∀ p ∈ h.poolStart, ∀ c ∈ pool p, 24 ≤ c.1
  tiled : ∀ p ∈ h.poolStart, Tiled h.mem (p - 8) false (pool p)
  listed : ∃ lists, Listed h (fun x s => Cell h.poolStart pool x (s, true) ∧ ¬ W x) lists

theorem Tiled.aligned {m : Image} {b : Nat} {p : Bool} {l : List Blk} (h : Tiled m b p l) :
    ∀ c ∈ l, c.1 % 4 = 0 := by
  induction l generalizing b p with
  | nil => simp
  | cons d l ih =>
    intro c hc
    rcases List.mem_cons.mp hc with rfl | hc
    · exact h.1.1.aligned
    · exact ih h.2 c hc

theorem span_aligned {l : List Blk} (h : ∀ c ∈ l, c.1 % 4 = 0) : span l % 4 = 0 := by
  induction l with
  | nil => rfl
  | cons c l ih =>
    have hc := h c List.mem_cons_self
    have hl := ih fun d hd => h d (List.mem_cons_of_mem c hd)
    rw [span_cons]
    omega

variable {h h' : Heap} {len : Nat → Nat} {pool pool' : Nat → List Blk} {W W' : Nat → Prop}
  {x y s t p : Nat} {c d : Blk} {f : Bool}

namespace Rep

variable (R : Rep h len pool W)

include R

/-! ## Blocks -/

/-- A block is inside its pool. -/
theorem cell_bounds (hp : p ∈ h.poolStart) (hx : (x, c) ∈ cells (p - 8) (pool p)) :
    p ≤ x + 8 ∧ x + 16 + c.1 ≤ p + len p ∧ 24 ≤ c.1 := by
  obtain ⟨hlo, hhi, hc⟩ := mem_cells hx
  have hstart := R.placed.start p hp
  rw [R.span_eq p hp] at hhi
  exact ⟨by omega, by omega, R.size p hp c hc⟩

theorem cell_pos (hx : Cell h.poolStart pool x c) : 0 < x := by
  obtain ⟨p, hp, hx⟩ := hx
  have := (R.cell_bounds hp hx).1
  have := R.placed.start p hp
  omega

theorem cell_size (hx : Cell h.poolStart pool x c) : 24 ≤ c.1 ∧ c.1 < 2 ^ 30 := by
  obtain ⟨p, hp, hx⟩ := hx
  obtain ⟨hlo, hhi, h24⟩ := R.cell_bounds hp hx
  have := R.placed.small p hp
  exact ⟨h24, by omega⟩

theorem cell_top (hx : Cell h.poolStart pool x c) : x + 16 + c.1 + 8 ≤ 2 ^ 64 := by
  obtain ⟨p, hp, hx⟩ := hx
  have := R.placed.top p hp
  have := (R.cell_bounds hp hx).2.1
  omega

/-- **The blocks of all pools are apart.** -/
theorem cell_apart (hx : Cell h.poolStart pool x c) (hy : Cell h.poolStart pool y d) :
    (x = y ∧ c = d) ∨ x + 8 + c.1 ≤ y ∨ y + 8 + d.1 ≤ x := by
  obtain ⟨p, hp, hx⟩ := hx
  obtain ⟨q, hq, hy⟩ := hy
  by_cases hpq : p = q
  · subst hpq
    exact cells_apart hx hy
  · have hbx := R.cell_bounds hp hx
    have hby := R.cell_bounds hq hy
    rcases R.placed.disjoint p hp q hq hpq with hd | hd
    · exact Or.inr (Or.inl (by omega))
    · exact Or.inr (Or.inr (by omega))

theorem cell_unique (hx : Cell h.poolStart pool x c) (hx' : Cell h.poolStart pool x d) : c = d := by
  rcases R.cell_apart hx hx' with hxx | hlt | hlt
  · exact hxx.2
  · omega
  · omega

/-- No block is inside `block_null`. -/
theorem cell_null (hx : Cell h.poolStart pool x c) :
    x + 16 + c.1 + 8 ≤ h.blockNull ∨ h.blockNull + 32 ≤ x + 8 := by
  obtain ⟨p, hp, hx⟩ := hx
  have hb := R.cell_bounds hp hx
  have := R.placed.null p hp
  omega

omit R in
/-- A block as a place in the list of its pool. -/
theorem cell_split (hx : Cell h.poolStart pool x c) :
    ∃ p l₁ l₂, p ∈ h.poolStart ∧ pool p = l₁ ++ c :: l₂ ∧ x = p - 8 + span l₁ := by
  obtain ⟨p, hp, hx⟩ := hx
  obtain ⟨l₁, l₂, hl, rfl⟩ := exists_split_of_mem_cells hx
  exact ⟨p, l₁, l₂, hp, hl, rfl⟩

theorem cell_aligned (hx : Cell h.poolStart pool x c) : x % 4 = 0 ∧ c.1 % 4 = 0 := by
  obtain ⟨p, l₁, l₂, hp, hl, rfl⟩ := cell_split hx
  have halign := (R.tiled p hp).aligned
  rw [hl] at halign
  have hspan := span_aligned fun d hd => halign d (List.mem_append_left _ hd)
  have hc := halign c (List.mem_append_right _ List.mem_cons_self)
  have hp4 := R.placed.aligned p hp
  have hp8 := R.placed.start p hp
  exact ⟨by omega, hc⟩

theorem cell_header (hx : Cell h.poolStart pool x c) : ∃ q, Header h.mem x c.1 c.2 q := by
  obtain ⟨p, l₁, l₂, hp, hl, rfl⟩ := cell_split hx
  have ht := R.tiled p hp
  rw [hl] at ht
  exact ⟨_, ht.blkAt.1.1⟩

/-- The blocks that can be listed are spaced as the lists need it. -/
theorem spaced (W' : Nat → Prop) :
    Spaced h.blockNull fun x s => Cell h.poolStart pool x (s, true) ∧ ¬ W' x where
  null_lt := by
    have := R.placed.null_top
    omega
  lt x s hx := by
    have := R.cell_top hx.1
    omega
  small x s hx := (R.cell_size hx.1).2
  unique x s t hx hx' := (Prod.mk.inj (R.cell_unique hx.1 hx'.1)).1
  apart x s y t hx hy := by
    have hsx := (R.cell_size hx.1).1
    have hsy := (R.cell_size hy.1).1
    rcases R.cell_apart hx.1 hy.1 with hxy | hlt | hlt
    · exact Or.inl hxy.1
    · exact Or.inr (Or.inl (by simp only at hlt hsx; omega))
    · exact Or.inr (Or.inr (by simp only at hlt hsy; omega))
  null_apart x s hx := by
    have := R.cell_null hx.1
    omega

/-- Another window with the same free blocks in it. -/
theorem window (hW : ∀ x s, Cell h.poolStart pool x (s, true) → (W' x ↔ W x)) :
    Rep h len pool W' := by
  obtain ⟨lists, L⟩ := R.listed
  refine { R with listed := ⟨lists, L.rename fun x s => ?_⟩ }
  refine and_congr_right fun hx => ?_
  rw [hW x s hx]

/-! ## Lists -/

/-- A free block or `block_null`: the links written by the lists are in these. -/
def Linkable (h : Heap) (pool : Nat → List Blk) (z : Nat) : Prop :=
  z = h.blockNull ∨ ∃ s, Cell h.poolStart pool z (s, true)

omit R in
theorem linkable_of_node {z : Nat}
    (hz : Spaced.Node h.blockNull (fun x s => Cell h.poolStart pool x (s, true) ∧ ¬ W x) z) :
    Linkable h pool z := by
  rcases hz with hz | ⟨s, hz, -⟩
  · exact Or.inl hz
  · exact Or.inr ⟨s, hz⟩

/-- The links are in no header and not at the end of a block. -/
theorem meta_not_link {z i : Nat} (hz : Linkable h pool z) (hx : Cell h.poolStart pool x c)
    (hi : Meta x c i) : i < z + 16 ∨ z + 32 ≤ i := by
  have hsize := (R.cell_size hx).1
  have hi' : x + 8 ≤ i ∧ i < x + 16 + c.1 ∧ (i < x + 16 ∨ x + 8 + c.1 ≤ i) := by
    rcases hi with ⟨_, _⟩ | ⟨_, _, _⟩ <;> omega
  rcases hz with rfl | ⟨s, hz⟩
  · have := R.cell_null hx
    omega
  · have hzs := (R.cell_size hz).1
    have := R.cell_apart hz hx
    simp only at this hzs
    omega

/-- The links are in no used block. -/
theorem payload_not_link {z i : Nat} (hz : Linkable h pool z)
    (hx : Cell h.poolStart pool x (t, false)) (hlo : x + 16 ≤ i) (hhi : i < x + 16 + t) :
    i < z + 16 ∨ z + 32 ≤ i := by
  rcases hz with rfl | ⟨s, hz⟩
  · have := R.cell_null hx
    simp only at this
    omega
  · have hzs := (R.cell_size hz).1
    rcases R.cell_apart hz hx with hzx | hlt | hlt
    · exact Bool.noConfusion (Prod.mk.inj hzx.2).2
    · simp only at hlt hzs
      omega
    · simp only at hlt
      omega

/-- The sentinel's header is no link either. -/
theorem sentinel_not_link {z i : Nat} (hz : Linkable h pool z) (hp : p ∈ h.poolStart)
    (hlo : p + len p ≤ i) (hhi : i < p + len p + 8) : i < z + 16 ∨ z + 32 ≤ i := by
  rcases hz with rfl | ⟨s, q, hq, hz⟩
  · have := R.placed.null p hp
    omega
  · have hb := R.cell_bounds hq hz
    simp only at hb
    by_cases hpq : p = q
    · subst hpq
      omega
    · have := R.placed.disjoint p hp q hq hpq
      omega

/-- A change of links only leaves the blocks as they are. -/
theorem tiled_of_links {m' : Image}
    (hm : ∀ i, (∀ z, Linkable h pool z → i < z + 16 ∨ z + 32 ≤ i) → m' i = h.mem i)
    (hp : p ∈ h.poolStart) : Tiled m' (p - 8) false (pool p) := by
  have hstart := R.placed.start p hp
  refine (R.tiled p hp).congr_meta (fun x c hx i hi => ?_) fun i hlo hhi => ?_
  · exact hm i fun z hz => R.meta_not_link hz ⟨p, hp, hx⟩ hi
  · rw [R.span_eq p hp] at hlo hhi
    exact hm i fun z hz => R.sentinel_not_link hz hp (by omega) (by omega)

end Rep

/-! ## What two heaps have in common -/

/-- **The used blocks but those at an address in `E` are the same, and so is their payload.** -/
structure Keeps (E : Nat → Prop) (h : Heap) (pool : Nat → List Blk) (h' : Heap)
    (pool' : Nat → List Blk) : Prop where
  null : h'.blockNull = h.blockNull
  pools : h'.poolStart = h.poolStart
  used : ∀ y t, ¬ E y →
    (Cell h'.poolStart pool' y (t, false) ↔ Cell h.poolStart pool y (t, false))
  bytes : ∀ y t, ¬ E y → Cell h.poolStart pool y (t, false) →
    ∀ i, y + 16 ≤ i → i < y + 16 + t → h'.mem i = h.mem i

namespace Keeps

variable {E E' : Nat → Prop} {h'' : Heap} {pool'' : Nat → List Blk}

theorem refl (E : Nat → Prop) (h : Heap) (pool : Nat → List Blk) : Keeps E h pool h pool :=
  ⟨rfl, rfl, fun _ _ _ => Iff.rfl, fun _ _ _ _ _ _ _ => rfl⟩

theorem trans (K : Keeps E h pool h' pool') (K' : Keeps E h' pool' h'' pool'') :
    Keeps E h pool h'' pool'' where
  null := K'.null.trans K.null
  pools := K'.pools.trans K.pools
  used y t hy := (K'.used y t hy).trans (K.used y t hy)
  bytes y t hy hc i hlo hhi :=
    (K'.bytes y t hy ((K.used y t hy).mpr hc) i hlo hhi).trans (K.bytes y t hy hc i hlo hhi)

theorem mono (K : Keeps E h pool h' pool') (hE : ∀ y, E y → E' y) : Keeps E' h pool h' pool' where
  null := K.null
  pools := K.pools
  used y t hy := K.used y t fun h => hy (hE y h)
  bytes y t hy := K.bytes y t fun h => hy (hE y h)

/-- Addresses with no used block, before and after, need no exception. -/
theorem narrow (K : Keeps E h pool h' pool')
    (hold : ∀ y t, E y → Cell h.poolStart pool y (t, false) → E' y)
    (hnew : ∀ y t, E y → Cell h'.poolStart pool' y (t, false) → E' y) :
    Keeps E' h pool h' pool' where
  null := K.null
  pools := K.pools
  used y t hy := by
    by_cases hE : E y
    · exact iff_of_false (fun hc => hy (hnew y t hE hc)) (fun hc => hy (hold y t hE hc))
    · exact K.used y t hE
  bytes y t hy hc := K.bytes y t (fun hE => hy (hold y t hE hc)) hc

end Keeps

namespace Rep

variable (R : Rep h len pool W)

include R

/-- A change of links only keeps the used blocks. -/
theorem keeps_of_links (hnull : h'.blockNull = h.blockNull) (hpools : h'.poolStart = h.poolStart)
    (hm : ∀ i, (∀ z, Linkable h pool z → i < z + 16 ∨ z + 32 ≤ i) → h'.mem i = h.mem i) :
    Keeps (fun _ => False) h pool h' pool where
  null := hnull
  pools := hpools
  used y t _ := by rw [hpools]
  bytes y t _ hy i hlo hhi := hm i fun z hz => R.payload_not_link hz hy hlo hhi

/-- **`remove_free_block` takes a free block into the window.** -/
theorem remove (V : Nat → Prop) {fl sl : Nat} (hx : Cell h.poolStart pool x (s, true)) (hxW : ¬ W x)
    (hc : mappingInsert s = (fl, sl))
    (hW : ∀ y t, Cell h.poolStart pool y (t, true) → (V y ↔ W y ∨ y = x)) :
    Rep (h.removeFreeBlock x fl sl) len pool V ∧
      Keeps (fun _ => False) h pool (h.removeFreeBlock x fl sl) pool := by
  obtain ⟨lists, L⟩ := R.listed
  have hnull := Listed.removeFreeBlock_blockNull h x fl sl
  have hpools := Listed.removeFreeBlock_poolStart h x fl sl
  have hm : ∀ i, (∀ z, Linkable h pool z → i < z + 16 ∨ z + 32 ≤ i) →
      (h.removeFreeBlock x fl sl).mem i = h.mem i := fun i hi =>
    L.remove_mem ⟨hx, hxW⟩ hc fun z hz => hi z (linkable_of_node hz)
  refine ⟨?_, R.keeps_of_links hnull hpools hm⟩
  constructor
  · rw [hnull, hpools]
    exact R.placed
  · rw [hpools]
    exact R.span_eq
  · rw [hpools]
    exact R.size
  · rw [hpools]
    exact fun p hp => R.tiled_of_links hm hp
  · rw [hpools]
    refine L.remove (R.spaced W) ⟨hx, hxW⟩ hc fun y t => ?_
    rw [and_assoc]
    refine and_congr_right fun hy => ?_
    rw [hW y t hy, not_or]

/-- **`insert_free_block` lets a free block out of the window.** -/
theorem insert (V : Nat → Prop) {fl sl : Nat} (hx : Cell h.poolStart pool x (s, true)) (hxW : W x)
    (hc : mappingInsert s = (fl, sl))
    (hW : ∀ y t, Cell h.poolStart pool y (t, true) → (V y ↔ W y ∧ y ≠ x)) :
    Rep (h.insertFreeBlock x fl sl) len pool V ∧
      Keeps (fun _ => False) h pool (h.insertFreeBlock x fl sl) pool := by
  obtain ⟨lists, L⟩ := R.listed
  have hclass := mappingInsert_lt (R.cell_size hx).2
  rw [hc] at hclass
  have hm : ∀ i, (∀ z, Linkable h pool z → i < z + 16 ∨ z + 32 ≤ i) →
      (h.insertFreeBlock x fl sl).mem i = h.mem i := by
    intro i hi
    refine L.insert_mem hclass.1 hclass.2 fun z hz => hi z ?_
    rcases hz with hz | rfl
    · exact linkable_of_node hz
    · exact Or.inr ⟨s, hx⟩
  refine ⟨?_, R.keeps_of_links rfl rfl hm⟩
  refine ⟨R.placed, R.span_eq, R.size, fun p hp => R.tiled_of_links hm hp, _,
    L.insert (R.spaced V) (fun y t => ?_) (fun t ht => ht.2 hxW) hc⟩
  constructor
  · rintro ⟨hy, hyW⟩
    by_cases hyx : y = x
    · subst hyx
      exact Or.inr ⟨rfl, (Prod.mk.inj (R.cell_unique hy hx)).1⟩
    · exact Or.inl ⟨hy, fun h => hyW ((hW y t hy).mpr ⟨h, hyx⟩)⟩
  · rintro (⟨hy, hyW⟩ | ⟨rfl, rfl⟩)
    · exact ⟨hy, fun h => hyW ((hW y t hy).mp h).1⟩
    · exact ⟨hx, fun h => ((hW y t hx).mp h).2 rfl⟩

/-! ## Cutting and joining blocks -/

variable {l₁ l₂ mid mid' : List Blk} {b n : Nat} {m' : Image}

/-- The blocks at an address in the window are those of the window. -/
theorem cell_window (hp : p ∈ h.poolStart) (hl : pool p = l₁ ++ mid ++ l₂)
    (hb : b = p - 8 + span l₁) (hn : n = b + span mid) (hy : Cell h.poolStart pool y c)
    (hlo : b ≤ y) (hhi : y < n) : (y, c) ∈ cells b mid := by
  obtain ⟨q, hq, hy⟩ := hy
  have hlen := R.span_eq p hp
  rw [hl, span_append, span_append] at hlen
  by_cases hpq : p = q
  · subst hpq
    rw [hl, cells_append, cells_append, List.mem_append, List.mem_append, ← hb] at hy
    rcases hy with (hy | hy) | hy
    · have := (mem_cells hy).2.1
      omega
    · exact hy
    · have := (mem_cells hy).1
      rw [span_append] at this
      omega
  · have hbounds := R.cell_bounds hq hy
    have hstart := R.placed.start p hp
    have := R.placed.disjoint p hp q hq hpq
    omega

omit R in
/-- Outside the window the blocks are the same. -/
theorem cell_replace (hl : pool p = l₁ ++ mid ++ l₂) (hb : b = p - 8 + span l₁)
    (hn : n = b + span mid) (hspan : span mid' = span mid) (hout : y < b ∨ n ≤ y) :
    Cell h.poolStart (Function.update pool p (l₁ ++ mid' ++ l₂)) y c ↔
      Cell h.poolStart pool y c := by
  refine exists_congr fun q => and_congr_right fun _ => ?_
  by_cases hq : q = p
  · subst hq
    have hnot : ∀ l, span l = span mid → (y, c) ∉ cells b l := by
      intro l hspan hy
      have := mem_cells hy
      omega
    rw [Function.update_self, hl]
    simp only [cells_append, List.mem_append, span_append, ← hb, hnot _ hspan, hnot _ rfl, hspan]
  · rw [Function.update_of_ne hq]

/-- **Inside the window the blocks may be cut and joined.**  The memory changes between the first
header of the window and the header behind it, which gets the flag of the new last block. -/
theorem replace (hp : p ∈ h.poolStart) (hl : pool p = l₁ ++ mid ++ l₂)
    (hb : b = p - 8 + span l₁) (hn : n = b + span mid) (hW : ∀ y, b ≤ y → y < n → W y)
    (hspan : span mid' = span mid) (hsize : ∀ c ∈ mid', 24 ≤ c.1)
    (hout : ∀ i, i < b + 8 ∨ n + 16 ≤ i → m' i = h.mem i)
    (hseg : Seg m' b (lastFree false l₁) mid')
    (hnext : ∀ s f q, Header h.mem n s f q →
      Header m' n s f (lastFree (lastFree false l₁) mid')) :
    Rep { h with mem := m' } len (Function.update pool p (l₁ ++ mid' ++ l₂)) W ∧
      Keeps (fun y => b ≤ y ∧ y < n) h pool { h with mem := m' }
        (Function.update pool p (l₁ ++ mid' ++ l₂)) := by
  have hlen := R.span_eq p hp
  have htiled := R.tiled p hp
  have hstart := R.placed.start p hp
  have hsizes := R.size p hp
  rw [hl] at hlen htiled hsizes
  simp only [span_append] at hlen
  have hcells : ∀ y c, y < b ∨ n ≤ y →
      (Cell h.poolStart (Function.update pool p (l₁ ++ mid' ++ l₂)) y c ↔
        Cell h.poolStart pool y c) := fun y c hy => cell_replace hl hb hn hspan hy
  have hwindow : ∀ y c, Cell h.poolStart pool y c → ¬ (b ≤ y ∧ y < n) →
      y + 8 + c.1 ≤ b ∨ n ≤ y := by
    rintro y c ⟨q, hq, hy⟩ hno
    by_cases hpq : p = q
    · subst hpq
      rw [hl, cells_append, cells_append, List.mem_append, List.mem_append, ← hb] at hy
      rcases hy with (hy | hy) | hy
      · exact Or.inl (by have := (mem_cells hy).2.1; omega)
      · have := mem_cells hy
        omega
      · exact Or.inr (by have := (mem_cells hy).1; rw [span_append] at this; omega)
    · have hbounds := R.cell_bounds hq hy
      have := R.placed.disjoint p hp q hq hpq
      omega
  refine ⟨⟨R.placed, ?_, ?_, ?_, ?_⟩, ⟨rfl, rfl, ?_, ?_⟩⟩
  · intro q hq
    by_cases hqp : q = p
    · subst hqp
      rw [Function.update_self]
      simp only [span_append]
      omega
    · rw [Function.update_of_ne hqp]
      exact R.span_eq q hq
  · intro q hq c hc
    by_cases hqp : q = p
    · subst hqp
      rw [Function.update_self, List.mem_append, List.mem_append] at hc
      rcases hc with (hc | hc) | hc
      · exact hsizes c (List.mem_append_left _ (List.mem_append_left _ hc))
      · exact hsize c hc
      · exact hsizes c (List.mem_append_right _ hc)
    · rw [Function.update_of_ne hqp] at hc
      exact R.size q hq c hc
  · intro q hq
    by_cases hqp : q = p
    · subst hqp
      rw [Function.update_self, Tiled.append_iff, Seg.append_iff]
      rw [Tiled.append_iff, Seg.append_iff] at htiled
      obtain ⟨⟨h₁, -⟩, h₂⟩ := htiled
      rw [span_append, ← Nat.add_assoc, ← hb, ← hn, lastFree_append] at h₂
      rw [span_append, ← Nat.add_assoc, ← hb, hspan, ← hn, lastFree_append]
      refine ⟨⟨h₁.congr fun i hlo hhi => hout i (by omega), hseg⟩, ?_⟩
      exact h₂.setPrev (fun c hc => hsizes c (List.mem_append_right _ hc))
        (fun i hlo _ => hout i (by omega)) fun s f hh => hnext s f _ hh
    · rw [Function.update_of_ne hqp]
      have hq8 := R.placed.start q hq
      have hlenq := R.span_eq q hq
      have hd := R.placed.disjoint q hq p hp hqp
      refine (R.tiled q hq).congr_meta (fun x c hx i hi => ?_) fun i hlo hhi => hout i (by omega)
      have hbounds := R.cell_bounds hq hx
      have hi' : x + 8 ≤ i ∧ i < x + 16 + c.1 := by rcases hi with ⟨_, _⟩ | ⟨_, _, _⟩ <;> omega
      exact hout i (by omega)
  · obtain ⟨lists, L⟩ := R.listed
    have L' : Listed { h with mem := m' } _ lists :=
      L.congr rfl rfl rfl rfl fun y s hy i hlo hhi => by
        have hysize := (R.cell_size hy.1).1
        have hyout := hwindow y _ hy.1 fun h => hy.2 (hW y h.1 h.2)
        simp only at hyout hysize
        exact hout i (by omega)
    refine ⟨lists, L'.rename fun y s => ?_⟩
    · by_cases hyW : b ≤ y ∧ y < n
      · exact iff_of_false (fun h => h.2 (hW y hyW.1 hyW.2)) (fun h => h.2 (hW y hyW.1 hyW.2))
      · exact and_congr_left fun _ => hcells y _ (by omega)
  · intro y t hy
    exact hcells y _ (by omega)
  · intro y t hy hc i hlo hhi
    have hyout := hwindow y _ hc hy
    simp only at hyout
    exact hout i (by omega)

end Rep

end NoDrop.Mmheap
