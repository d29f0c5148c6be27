import NoDrop.MmheapRep

/-! # Cutting and joining blocks

The header writes of `mmheap.c`, seen on the blocks.  An operation has some neighbouring blocks of
one pool in hand (`Focus`), none of them listed, and turns them into others that take the same
space.  Between two of its steps a header may be wrong, so the steps are taken together where the
blocks are right again: a split with the writes that repair its two halves, an absorption of the
next block with the flag behind it.
-/
namespace NoDrop.Mmheap

open Bytes

variable {h : Heap} {len : Nat → Nat} {pool : Nat → List Blk} {W : Nat → Prop}
  {l₁ l₂ mid mid' : List Blk} {p b n s a : Nat} {f : Bool}

/-- The blocks of pool `p` after a change in the middle. -/
def setMid (pool : Nat → List Blk) (p : Nat) (l₁ mid l₂ : List Blk) : Nat → List Blk :=
  Function.update pool p (l₁ ++ mid ++ l₂)

/-- **The blocks `mid` of pool `p`, from `b` to `n`, are in hand.** -/
structure Focus (h : Heap) (len : Nat → Nat) (pool : Nat → List Blk) (W : Nat → Prop) (p : Nat)
    (l₁ mid l₂ : List Blk) (b n : Nat) : Prop where
  rep : Rep h len pool W
  mem : p ∈ h.poolStart
  split : pool p = l₁ ++ mid ++ l₂
  start : b = p - 8 + span l₁
  stop : n = b + span mid
  window : ∀ y, b ≤ y → y < n → W y

/-- The address is in hand. -/
def In (b n : Nat) (y : Nat) : Prop := b ≤ y ∧ y < n

namespace Focus

variable (Φ : Focus h len pool W p l₁ mid l₂ b n)

include Φ

theorem seg : Seg h.mem b (lastFree false l₁) mid := by
  have ht := Φ.rep.tiled p Φ.mem
  rw [Φ.split, List.append_assoc, Tiled.append_iff, Tiled.append_iff, ← Φ.start] at ht
  exact ht.2.1

/-- The header behind the blocks in hand. -/
theorem next : ∃ t g, Header h.mem n t g (lastFree (lastFree false l₁) mid) := by
  have ht := Φ.rep.tiled p Φ.mem
  rw [Φ.split, List.append_assoc, Tiled.append_iff, Tiled.append_iff, ← Φ.start, ← Φ.stop] at ht
  exact ht.2.2.header

theorem top : n + 16 ≤ 2 ^ 64 := by
  have hlen := Φ.rep.span_eq p Φ.mem
  have htop := Φ.rep.placed.top p Φ.mem
  have hstart := Φ.rep.placed.start p Φ.mem
  have hb := Φ.start
  have hn := Φ.stop
  rw [Φ.split] at hlen
  simp only [span_append] at hlen
  omega

theorem pos : 0 < b := by
  have := Φ.rep.placed.start p Φ.mem
  have := Φ.start
  omega

theorem size_lt : span mid < 2 ^ 30 + 8 := by
  have hlen := Φ.rep.span_eq p Φ.mem
  have hsmall := Φ.rep.placed.small p Φ.mem
  rw [Φ.split] at hlen
  simp only [span_append] at hlen
  omega

theorem sizes : ∀ c ∈ mid, 24 ≤ c.1 := by
  intro c hc
  refine Φ.rep.size p Φ.mem c ?_
  rw [Φ.split]
  exact List.mem_append_left _ (List.mem_append_right _ hc)

/-- A block in hand is a block of the pool. -/
theorem cell {x : Nat} {c : Blk} (hx : (x, c) ∈ cells b mid) : Cell h.poolStart pool x c := by
  refine ⟨p, Φ.mem, ?_⟩
  rw [Φ.split, cells_append, cells_append, List.mem_append, List.mem_append, ← Φ.start]
  exact Or.inl (Or.inr hx)

theorem cells_of {x : Nat} {c : Blk} (hx : Cell h.poolStart pool x c) (hin : In b n x) :
    (x, c) ∈ cells b mid :=
  Φ.rep.cell_window Φ.mem Φ.split Φ.start Φ.stop hx hin.1 hin.2

/-- **The blocks in hand are replaced.** -/
theorem replace (m' : Image) (mid' : List Blk) (hspan : span mid' = span mid)
    (hsize : ∀ c ∈ mid', 24 ≤ c.1) (hout : ∀ i, i < b + 8 ∨ n + 16 ≤ i → m' i = h.mem i)
    (hseg : Seg m' b (lastFree false l₁) mid') {t : Nat} {g q : Bool} (N : Header h.mem n t g q)
    (N' : Header m' n t g (lastFree (lastFree false l₁) mid')) :
    Focus { h with mem := m' } len (setMid pool p l₁ mid' l₂) W p l₁ mid' l₂ b n ∧
      Keeps (In b n) h pool { h with mem := m' } (setMid pool p l₁ mid' l₂) := by
  obtain ⟨R, K⟩ := Φ.rep.replace Φ.mem Φ.split Φ.start Φ.stop Φ.window hspan hsize hout hseg
    fun s f q hn => by
      obtain ⟨rfl, rfl, -⟩ := N.unique hn
      exact N'
  refine ⟨⟨R, Φ.mem, ?_, Φ.start, ?_, Φ.window⟩, K⟩
  · rw [setMid, Function.update_self]
  · rw [hspan]
    exact Φ.stop

end Focus

/-- A block by itself. -/
theorem seg_singleton {m : Image} {q : Bool} (hh : Header m b s f q)
    (hfoot : f = true → m.word (b + 8 + s) = b) : Seg m b q [(s, f)] :=
  ⟨⟨hh, hfoot⟩, trivial⟩

/-! ## Marking -/

/-- **`blk_mark_as_used`.** -/
theorem Focus.markAsUsed (Φ : Focus h len pool W p l₁ [(s, true)] l₂ b n) :
    Focus (h.blkMarkAsUsed b) len (setMid pool p l₁ [(s, false)] l₂) W p l₁ [(s, false)] l₂ b n ∧
      Keeps (In b n) h pool (h.blkMarkAsUsed b) (setMid pool p l₁ [(s, false)] l₂) := by
  have hn : n = b + 8 + s := by simpa [Nat.add_assoc] using Φ.stop
  have hs : 24 ≤ s := Φ.sizes _ List.mem_cons_self
  obtain ⟨t, g, N⟩ := Φ.next
  have H : Header h.mem b s true (lastFree false l₁) := Φ.seg.1.1
  obtain ⟨m', hm, hop⟩ : ∃ m', m' = (h.mem.setWord (n + 8) (hdr t g false)).setWord (b + 8)
      (hdr s false (lastFree false l₁)) ∧ h.blkMarkAsUsed b = { h with mem := m' } := by
    have H₁ : Header (h.store (n + 8) (hdr t g false)).mem b s true (lastFree false l₁) :=
      H.setWord_of_apart (by omega)
    refine ⟨_, rfl, ?_⟩
    rw [Heap.blkMarkAsUsed, blkNext_eq H, ← hn]
    rw [blkSetPrevUsed_eq N, blkSetUsed_eq H₁]
    rfl
  rw [hop]
  refine Φ.replace m' [(s, false)] rfl (by simpa using hs) (fun i hi => ?_) ?_ N ?_
  · rw [hm, Image.setWord_of_outside (by omega), Image.setWord_of_outside (by omega)]
  · refine seg_singleton ?_ fun hfree => absurd hfree Bool.false_ne_true
    rw [hm]
    exact Header.stored H.aligned H.small
  · rw [hm]
    exact (Header.stored N.aligned N.small).setWord_of_apart (by omega)

/-- **`blk_mark_as_free`.** -/
theorem Focus.markAsFree (Φ : Focus h len pool W p l₁ [(s, false)] l₂ b n) :
    Focus (h.blkMarkAsFree b) len (setMid pool p l₁ [(s, true)] l₂) W p l₁ [(s, true)] l₂ b n ∧
      Keeps (In b n) h pool (h.blkMarkAsFree b) (setMid pool p l₁ [(s, true)] l₂) := by
  have hn : n = b + 8 + s := by simpa [Nat.add_assoc] using Φ.stop
  have hs : 24 ≤ s := Φ.sizes _ List.mem_cons_self
  have htop := Φ.top
  obtain ⟨t, g, N⟩ := Φ.next
  have H : Header h.mem b s false (lastFree false l₁) := Φ.seg.1.1
  obtain ⟨m', hm, hop⟩ : ∃ m', m' = ((h.mem.setWord n b).setWord (n + 8) (hdr t g true)).setWord
      (b + 8) (hdr s true (lastFree false l₁)) ∧ h.blkMarkAsFree b = { h with mem := m' } := by
    have N₁ : Header (h.store n b).mem n t g _ := N.setWord_of_apart (by omega)
    have H₁ : Header ((h.store n b).store (n + 8) (hdr t g true)).mem b s false
        (lastFree false l₁) :=
      (H.setWord_of_apart (by omega)).setWord_of_apart (by omega)
    refine ⟨_, rfl, ?_⟩
    rw [Heap.blkMarkAsFree, blkLinkNext_eq H, ← hn]
    show ((h.store n b).blkSetPrevFree n).blkSetFree b = _
    rw [blkSetPrevFree_eq N₁, blkSetFree_eq H₁]
    rfl
  rw [hop]
  refine Φ.replace m' [(s, true)] rfl (by simpa using hs) (fun i hi => ?_) ?_ N ?_
  · rw [hm, Image.setWord_of_outside (by omega), Image.setWord_of_outside (by omega),
      Image.setWord_of_outside (by omega)]
  · rw [hm]
    refine seg_singleton (Header.stored H.aligned H.small) fun _ => ?_
    rw [← hn, Image.word_setWord_of_apart (by omega), Image.word_setWord_of_apart (by omega),
      Image.word_setWord (by omega)]
  · rw [hm]
    exact (Header.stored N.aligned N.small).setWord_of_apart (by omega)

/-! ## Joining -/

/-- **`blk_absorb` of two free blocks.** -/
theorem Focus.absorb {s₁ s₂ : Nat} {next : Nat} (hnext : next = b + 8 + s₁)
    (Φ : Focus h len pool W p l₁ [(s₁, true), (s₂, true)] l₂ b n) :
    (h.blkAbsorb b next).1 = b ∧
    Focus (h.blkAbsorb b next).2 len (setMid pool p l₁ [(s₁ + (s₂ + 8), true)] l₂) W p l₁
      [(s₁ + (s₂ + 8), true)] l₂ b n ∧
    Keeps (In b n) h pool (h.blkAbsorb b next).2
      (setMid pool p l₁ [(s₁ + (s₂ + 8), true)] l₂) := by
  have hn : n = b + 8 + (s₁ + (s₂ + 8)) := by
    rw [Φ.stop]
    simp only [span_cons, span_nil]
    omega
  have hs : 24 ≤ s₁ := Φ.sizes _ List.mem_cons_self
  have hlt := Φ.size_lt
  simp only [span_cons, span_nil] at hlt
  have htop := Φ.top
  obtain ⟨t, g, N⟩ := Φ.next
  have N : Header h.mem n t g true := N
  have H : Header h.mem b s₁ true (lastFree false l₁) := Φ.seg.1.1
  have H₂ : Header h.mem next s₂ true true := hnext ▸ Φ.seg.2.1.1
  have hal : (s₁ + (s₂ + 8)) % 4 = 0 := by
    have := H.aligned
    have := H₂.aligned
    omega
  obtain ⟨m', hm, hop⟩ : ∃ m', m' = (h.mem.setWord (b + 8)
      (hdr (s₁ + (s₂ + 8)) true (lastFree false l₁))).setWord n b ∧
      h.blkAbsorb b next = (b, { h with mem := m' }) := by
    have H₁ : Header (h.store (b + 8) (hdr (s₁ + (s₂ + 8)) true (lastFree false l₁))).mem b
        (s₁ + (s₂ + 8)) true (lastFree false l₁) := Header.stored hal (by omega)
    refine ⟨_, rfl, ?_⟩
    rw [Heap.blkAbsorb, blkSize_eq H₂, Heap.sizeWord, H.word, blkHeaderOverhead, hdr_add]
    show (b, ((h.store (b + 8) _).blkLinkNext b).2) = _
    rw [blkLinkNext_eq H₁, ← hn]
    rfl
  rw [hop]
  refine ⟨rfl, Φ.replace m' [(s₁ + (s₂ + 8), true)] ?_ ?_ (fun i hi => ?_) ?_ N ?_⟩
  · simp only [span_cons, span_nil]
    omega
  · rintro c hc
    rw [List.mem_singleton.mp hc]
    show 24 ≤ s₁ + (s₂ + 8)
    omega
  · rw [hm, Image.setWord_of_outside (by omega), Image.setWord_of_outside (by omega)]
  · rw [hm]
    refine seg_singleton ((Header.stored hal (by omega)).setWord_of_apart (by omega)) fun _ => ?_
    rw [← hn, Image.word_setWord (by omega)]
  · rw [hm]
    exact (N.setWord_of_apart (by omega)).setWord_of_apart (by omega)

/-- **`blk_absorb` of a free block into the used one before it**, with the flag behind it. -/
theorem Focus.absorbUsed {s₁ s₂ : Nat} {next : Nat} (hnext : next = b + 8 + s₁)
    (Φ : Focus h len pool W p l₁ [(s₁, false), (s₂, true)] l₂ b n) :
    Focus ((h.blkAbsorb b next).2.blkMarkAsUsed b) len
      (setMid pool p l₁ [(s₁ + (s₂ + 8), false)] l₂) W p l₁ [(s₁ + (s₂ + 8), false)] l₂ b n ∧
    Keeps (In b n) h pool ((h.blkAbsorb b next).2.blkMarkAsUsed b)
      (setMid pool p l₁ [(s₁ + (s₂ + 8), false)] l₂) ∧
    ∀ i, b + 16 ≤ i → i < b + 16 + s₁ →
      ((h.blkAbsorb b next).2.blkMarkAsUsed b).mem i = h.mem i := by
  have hn : n = b + 8 + (s₁ + (s₂ + 8)) := by
    rw [Φ.stop]
    simp only [span_cons, span_nil]
    omega
  have hs : 24 ≤ s₁ := Φ.sizes _ List.mem_cons_self
  have hlt := Φ.size_lt
  simp only [span_cons, span_nil] at hlt
  obtain ⟨t, g, N⟩ := Φ.next
  have N : Header h.mem n t g true := N
  have H : Header h.mem b s₁ false (lastFree false l₁) := Φ.seg.1.1
  have H₂ : Header h.mem next s₂ true false := hnext ▸ Φ.seg.2.1.1
  have hal : (s₁ + (s₂ + 8)) % 4 = 0 := by
    have := H.aligned
    have := H₂.aligned
    omega
  obtain ⟨m', hm, hop⟩ : ∃ m', m' = (((h.mem.setWord (b + 8)
      (hdr (s₁ + (s₂ + 8)) false (lastFree false l₁))).setWord n b).setWord (n + 8)
      (hdr t g false)).setWord (b + 8) (hdr (s₁ + (s₂ + 8)) false (lastFree false l₁)) ∧
      (h.blkAbsorb b next).2.blkMarkAsUsed b = { h with mem := m' } := by
    have H₁ : Header (h.store (b + 8) (hdr (s₁ + (s₂ + 8)) false (lastFree false l₁))).mem b
        (s₁ + (s₂ + 8)) false (lastFree false l₁) := Header.stored hal (by omega)
    have H₃ : Header ((h.store (b + 8) (hdr (s₁ + (s₂ + 8)) false (lastFree false l₁))).store
        n b).mem b (s₁ + (s₂ + 8)) false (lastFree false l₁) := H₁.setWord_of_apart (by omega)
    have N₁ : Header ((h.store (b + 8) (hdr (s₁ + (s₂ + 8)) false (lastFree false l₁))).store
        n b).mem n t g true := (N.setWord_of_apart (by omega)).setWord_of_apart (by omega)
    have H₄ : Header (((h.store (b + 8) (hdr (s₁ + (s₂ + 8)) false (lastFree false l₁))).store
        n b).store (n + 8) (hdr t g false)).mem b (s₁ + (s₂ + 8)) false (lastFree false l₁) :=
      H₃.setWord_of_apart (by omega)
    refine ⟨_, rfl, ?_⟩
    rw [Heap.blkAbsorb, blkSize_eq H₂, Heap.sizeWord, H.word, blkHeaderOverhead, hdr_add]
    show ((h.store (b + 8) _).blkLinkNext b).2.blkMarkAsUsed b = _
    rw [blkLinkNext_eq H₁, ← hn]
    show ((h.store (b + 8) _).store n b).blkMarkAsUsed b = _
    rw [Heap.blkMarkAsUsed, blkNext_eq H₃, ← hn]
    rw [blkSetPrevUsed_eq N₁, blkSetUsed_eq H₄]
    rfl
  rw [hop]
  obtain ⟨Φ', K⟩ := Φ.replace m' [(s₁ + (s₂ + 8), false)]
    (by simp only [span_cons, span_nil]; omega)
    (by
      rintro c hc
      rw [List.mem_singleton.mp hc]
      show 24 ≤ s₁ + (s₂ + 8)
      omega)
    (fun i hi => by
      rw [hm, Image.setWord_of_outside (by omega), Image.setWord_of_outside (by omega),
        Image.setWord_of_outside (by omega), Image.setWord_of_outside (by omega)])
    (seg_singleton (by rw [hm]; exact Header.stored hal (by omega))
      fun hfree => absurd hfree Bool.false_ne_true) N
    (by rw [hm]; exact (Header.stored N.aligned N.small).setWord_of_apart (by omega))
  refine ⟨Φ', K, fun i hlo hhi => ?_⟩
  show m' i = h.mem i
  rw [hm, Image.setWord_of_outside (by omega), Image.setWord_of_outside (by omega),
    Image.setWord_of_outside (by omega), Image.setWord_of_outside (by omega)]

/-! ## Cutting -/

/-- The writes of `blk_split`.  The rest is free; whether the block before it is, is not yet
right: two bits are left of what was there. -/
theorem blkSplit_eq {t : Nat} {g q u : Bool} (H : Header h.mem b s f q)
    (N : Header h.mem (b + 8 + s) t g u) (ha : a % 4 = 0) (has : a + 32 ≤ s) :
    ∃ f₀ p₀, h.blkSplit b a = (b + 8 + a,
      ((((h.store (b + 8 + a + 8) (hdr (s - (a + 8)) f₀ p₀)).store (b + 8) (hdr a f q)).store
        (b + 8 + s) (b + 8 + a)).store (b + 8 + s + 8) (hdr t g true)).store (b + 8 + a + 8)
        (hdr (s - (a + 8)) true p₀)) := by
  have hal := H.aligned
  have hlt := H.small
  have hr : (s - (a + 8)) % 4 = 0 := by omega
  obtain ⟨f₀, p₀, hrem⟩ := blkSetSize_garbage h (b + 8 + a) hr
  have hoff : Heap.offsetToBlk (Heap.blkToPtr b) (a - blkHeaderOverhead) = b + 8 + a := by
    rw [Heap.offsetToBlk, Heap.blkToPtr, blkStartOffset, blkHeaderOverhead]
    omega
  have H₁ : Header (h.store (b + 8 + a + 8) (hdr (s - (a + 8)) f₀ p₀)).mem b s f q :=
    H.setWord_of_apart (by omega)
  have M₂ : Header ((h.store (b + 8 + a + 8) (hdr (s - (a + 8)) f₀ p₀)).store (b + 8)
      (hdr a f q)).mem (b + 8 + a) (s - (a + 8)) f₀ p₀ :=
    (Header.stored hr (by omega)).setWord_of_apart (by omega)
  have M₃ := M₂.setWord_of_apart (a := b + 8 + s) (v := b + 8 + a) (by omega)
  have M₄ := M₃.setWord_of_apart (a := b + 8 + s + 8) (v := hdr t g true) (by omega)
  have N₃ := ((N.setWord_of_apart (a := b + 8 + a + 8) (v := hdr (s - (a + 8)) f₀ p₀)
    (by omega)).setWord_of_apart (a := b + 8) (v := hdr a f q) (by omega)).setWord_of_apart
    (a := b + 8 + s) (v := b + 8 + a) (by omega)
  have hnext : b + 8 + a + 8 + (s - (a + 8)) = b + 8 + s := by omega
  refine ⟨f₀, p₀, ?_⟩
  rw [Heap.blkSplit, hoff, blkSize_eq H, blkHeaderOverhead]
  rw [hrem, blkSetSize_eq H₁ ha, Heap.blkMarkAsFree, blkLinkNext_eq M₂, hnext]
  simp only
  rw [blkSetPrevFree_eq N₃, blkSetFree_eq M₄]

/-- The two halves of a block that has been split, in the memory. -/
theorem seg_pair {m : Image} {q : Bool} {r : Nat} (h₁ : Header m b a f q)
    (hfoot : f = true → m.word (b + 8 + a) = b) (h₂ : Header m (b + 8 + a) r true f)
    (hfoot₂ : m.word (b + 8 + a + 8 + r) = b + 8 + a) : Seg m b q [(a, f), (r, true)] :=
  ⟨⟨h₁, hfoot⟩, ⟨h₂, fun _ => hfoot₂⟩, trivial⟩

/-- **`blk_split` of a free block**, with the address and the flag that belong to the seam: the
same writes, in whichever order the last two are made. -/
theorem Focus.splitFree (Φ : Focus h len pool W p l₁ [(s, true)] l₂ b n) (ha : a % 4 = 0)
    (h24 : 24 ≤ a) (has : a + 32 ≤ s) {h' : Heap}
    (hop : h' = ((h.blkSplit b a).2.blkLinkNext b).2.blkSetPrevFree (b + 8 + a) ∨
      h' = (((h.blkSplit b a).2.blkSetPrevFree (b + 8 + a)).blkLinkNext b).2) :
    (h.blkSplit b a).1 = b + 8 + a ∧
    Focus h' len (setMid pool p l₁ [(a, true), (s - (a + 8), true)] l₂) W p l₁
      [(a, true), (s - (a + 8), true)] l₂ b n ∧
    Keeps (In b n) h pool h' (setMid pool p l₁ [(a, true), (s - (a + 8), true)] l₂) := by
  have hn : n = b + 8 + s := by simpa [Nat.add_assoc] using Φ.stop
  have htop := Φ.top
  obtain ⟨t, g, N⟩ := Φ.next
  have N : Header h.mem n t g true := N
  have H : Header h.mem b s true (lastFree false l₁) := Φ.seg.1.1
  have hal := H.aligned
  have hlt := H.small
  have hr : (s - (a + 8)) % 4 = 0 := by omega
  subst hn
  obtain ⟨f₀, p₀, hsplit⟩ := blkSplit_eq H N ha has
  refine ⟨by rw [hsplit], ?_⟩
  rw [hsplit] at hop
  simp only at hop
  -- the header of either half before the seam is repaired
  have A : Header (((((h.mem.setWord (b + 8 + a + 8) (hdr (s - (a + 8)) f₀ p₀)).setWord (b + 8)
      (hdr a true (lastFree false l₁))).setWord (b + 8 + s) (b + 8 + a)).setWord (b + 8 + s + 8)
      (hdr t g true)).setWord (b + 8 + a + 8) (hdr (s - (a + 8)) true p₀)) b a true
      (lastFree false l₁) :=
    (((Header.stored ha (by omega)).setWord_of_apart (by omega)).setWord_of_apart
      (by omega)).setWord_of_apart (by omega)
  have B : Header (((((h.mem.setWord (b + 8 + a + 8) (hdr (s - (a + 8)) f₀ p₀)).setWord (b + 8)
      (hdr a true (lastFree false l₁))).setWord (b + 8 + s) (b + 8 + a)).setWord (b + 8 + s + 8)
      (hdr t g true)).setWord (b + 8 + a + 8) (hdr (s - (a + 8)) true p₀)) (b + 8 + a)
      (s - (a + 8)) true p₀ := Header.stored hr (by omega)
  obtain ⟨m', hm, hop⟩ : ∃ m', (m' = ((((((h.mem.setWord (b + 8 + a + 8)
      (hdr (s - (a + 8)) f₀ p₀)).setWord (b + 8) (hdr a true (lastFree false l₁))).setWord
      (b + 8 + s) (b + 8 + a)).setWord (b + 8 + s + 8) (hdr t g true)).setWord (b + 8 + a + 8)
      (hdr (s - (a + 8)) true p₀)).setWord (b + 8 + a) b).setWord (b + 8 + a + 8)
      (hdr (s - (a + 8)) true true) ∨ m' = ((((((h.mem.setWord (b + 8 + a + 8)
      (hdr (s - (a + 8)) f₀ p₀)).setWord (b + 8) (hdr a true (lastFree false l₁))).setWord
      (b + 8 + s) (b + 8 + a)).setWord (b + 8 + s + 8) (hdr t g true)).setWord (b + 8 + a + 8)
      (hdr (s - (a + 8)) true p₀)).setWord (b + 8 + a + 8)
      (hdr (s - (a + 8)) true true)).setWord (b + 8 + a) b) ∧ h' = { h with mem := m' } := by
    rcases hop with rfl | rfl
    · refine ⟨_, Or.inl rfl, ?_⟩
      rw [blkLinkNext_eq A]
      simp only
      rw [blkSetPrevFree_eq (B.setWord_of_apart (by omega))]
      rfl
    · refine ⟨_, Or.inr rfl, ?_⟩
      rw [blkSetPrevFree_eq B]
      rw [blkLinkNext_eq (A.setWord_of_apart (by omega))]
      rfl
  rw [hop]
  have hnext : b + 8 + a + 8 + (s - (a + 8)) = b + 8 + s := by omega
  refine Φ.replace m' [(a, true), (s - (a + 8), true)] ?_ ?_ (fun i hi => ?_) ?_ N ?_
  · simp only [span_cons, span_nil]
    omega
  · intro c hc
    rcases List.mem_cons.mp hc with rfl | hc
    · exact h24
    · rw [List.mem_singleton.mp hc]
      show 24 ≤ s - (a + 8)
      omega
  · rcases hm with rfl | rfl <;>
      repeat rw [Image.setWord_of_outside (by omega)]
  · rcases hm with rfl | rfl
    · refine seg_pair ((A.setWord_of_apart (by omega)).setWord_of_apart (by omega)) (fun _ => ?_)
        (Header.stored hr (by omega)) ?_
      · rw [Image.word_setWord_of_apart (by omega), Image.word_setWord (by omega)]
      · rw [hnext, Image.word_setWord_of_apart (by omega), Image.word_setWord_of_apart (by omega),
          Image.word_setWord_of_apart (by omega), Image.word_setWord_of_apart (by omega),
          Image.word_setWord (by omega)]
    · refine seg_pair ((A.setWord_of_apart (by omega)).setWord_of_apart (by omega)) (fun _ => ?_)
        ((Header.stored hr (by omega)).setWord_of_apart (by omega)) ?_
      · rw [Image.word_setWord (by omega)]
      · rw [hnext, Image.word_setWord_of_apart (by omega), Image.word_setWord_of_apart (by omega),
          Image.word_setWord_of_apart (by omega), Image.word_setWord_of_apart (by omega),
          Image.word_setWord (by omega)]
  · have N' := Header.stored (m := ((h.mem.setWord (b + 8 + a + 8)
      (hdr (s - (a + 8)) f₀ p₀)).setWord (b + 8) (hdr a true (lastFree false l₁))).setWord
      (b + 8 + s) (b + 8 + a)) (b := b + 8 + s) (f := g) (p := true) N.aligned N.small
    rcases hm with rfl | rfl
    · exact ((N'.setWord_of_apart (by omega)).setWord_of_apart (by omega)).setWord_of_apart
        (by omega)
    · exact ((N'.setWord_of_apart (by omega)).setWord_of_apart (by omega)).setWord_of_apart
        (by omega)

/-- **`blk_split` of a used block**, with the flag of the rest. -/
theorem Focus.splitUsed (Φ : Focus h len pool W p l₁ [(s, false)] l₂ b n) (ha : a % 4 = 0)
    (h24 : 24 ≤ a) (has : a + 32 ≤ s) :
    (h.blkSplit b a).1 = b + 8 + a ∧
    Focus ((h.blkSplit b a).2.blkSetPrevUsed (b + 8 + a)) len
      (setMid pool p l₁ [(a, false), (s - (a + 8), true)] l₂) W p l₁
      [(a, false), (s - (a + 8), true)] l₂ b n ∧
    Keeps (In b n) h pool ((h.blkSplit b a).2.blkSetPrevUsed (b + 8 + a))
      (setMid pool p l₁ [(a, false), (s - (a + 8), true)] l₂) ∧
    ∀ i, b + 16 ≤ i → i < b + 16 + a →
      ((h.blkSplit b a).2.blkSetPrevUsed (b + 8 + a)).mem i = h.mem i := by
  have hn : n = b + 8 + s := by simpa [Nat.add_assoc] using Φ.stop
  have htop := Φ.top
  obtain ⟨t, g, N⟩ := Φ.next
  have N : Header h.mem n t g false := N
  have H : Header h.mem b s false (lastFree false l₁) := Φ.seg.1.1
  have hal := H.aligned
  have hlt := H.small
  have hr : (s - (a + 8)) % 4 = 0 := by omega
  subst hn
  obtain ⟨f₀, p₀, hsplit⟩ := blkSplit_eq H N ha has
  refine ⟨by rw [hsplit], ?_⟩
  rw [hsplit]
  simp only
  obtain ⟨m', hm, hop⟩ : ∃ m', m' = (((((h.mem.setWord (b + 8 + a + 8)
      (hdr (s - (a + 8)) f₀ p₀)).setWord (b + 8) (hdr a false (lastFree false l₁))).setWord
      (b + 8 + s) (b + 8 + a)).setWord (b + 8 + s + 8) (hdr t g true)).setWord (b + 8 + a + 8)
      (hdr (s - (a + 8)) true p₀)).setWord (b + 8 + a + 8) (hdr (s - (a + 8)) true false) ∧
      (((((h.store (b + 8 + a + 8) (hdr (s - (a + 8)) f₀ p₀)).store (b + 8)
      (hdr a false (lastFree false l₁))).store (b + 8 + s) (b + 8 + a)).store (b + 8 + s + 8)
      (hdr t g true)).store (b + 8 + a + 8) (hdr (s - (a + 8)) true p₀)).blkSetPrevUsed
      (b + 8 + a) = { h with mem := m' } := by
    have B := Header.stored (m := (((h.mem.setWord (b + 8 + a + 8)
      (hdr (s - (a + 8)) f₀ p₀)).setWord (b + 8) (hdr a false (lastFree false l₁))).setWord
      (b + 8 + s) (b + 8 + a)).setWord (b + 8 + s + 8) (hdr t g true)) (b := b + 8 + a) (f := true)
      (p := p₀) hr (by omega)
    refine ⟨_, rfl, ?_⟩
    rw [blkSetPrevUsed_eq B]
    rfl
  rw [hop]
  have hnext : b + 8 + a + 8 + (s - (a + 8)) = b + 8 + s := by omega
  have hseg : Seg m' b (lastFree false l₁) [(a, false), (s - (a + 8), true)] := by
    rw [hm]
    refine seg_pair ?_ (fun hfree => absurd hfree Bool.false_ne_true) (Header.stored hr (by omega)) ?_
    · exact ((((Header.stored ha (by omega)).setWord_of_apart (by omega)).setWord_of_apart
        (by omega)).setWord_of_apart (by omega)).setWord_of_apart (by omega)
    · rw [hnext, Image.word_setWord_of_apart (by omega), Image.word_setWord_of_apart (by omega),
        Image.word_setWord_of_apart (by omega), Image.word_setWord (by omega)]
  have N' : Header m' (b + 8 + s) t g true := by
    rw [hm]
    exact ((Header.stored N.aligned N.small).setWord_of_apart (by omega)).setWord_of_apart
      (by omega)
  have hsize : ∀ c ∈ [(a, false), (s - (a + 8), true)], 24 ≤ c.1 := by
    intro c hc
    rcases List.mem_cons.mp hc with rfl | hc
    · exact h24
    · rw [List.mem_singleton.mp hc]
      show 24 ≤ s - (a + 8)
      omega
  obtain ⟨Φ', K⟩ := Φ.replace m' [(a, false), (s - (a + 8), true)]
    (by simp only [span_cons, span_nil]; omega) hsize
    (fun i hi => by rw [hm]; repeat rw [Image.setWord_of_outside (by omega)]) hseg N N'
  refine ⟨Φ', K, fun i hlo hhi => ?_⟩
  show m' i = h.mem i
  rw [hm]
  repeat rw [Image.setWord_of_outside (by omega)]

end NoDrop.Mmheap
