import NoDrop.Mmheap

/-! # Headers and the blocks of a pool

What the words of a pool mean.  A size word is a size with two flags (`hdr`), and the setters of
`mmheap.c` act on the three parts separately.  The blocks of a pool are a list of sizes with a
flag each, free or used: `Tiled` says that they are laid out in the memory from an address on,
with a sentinel behind them.  Parts of a list are laid out by `Seg`, and `Tiled.append_iff` cuts
a pool at a block.
-/
namespace NoDrop.Mmheap

open Bytes

/-! ## Size words -/

/-- A size word: the size, `CURR_FREE` and `PREV_FREE`. -/
def hdr (s : Nat) (f p : Bool) : Nat := s + (f.toNat + 2 * p.toNat)

section Hdr

variable {s s' : Nat} {f p f' p' : Bool}

theorem flags_lt (f p : Bool) : f.toNat + 2 * p.toNat < 4 := by
  cases f <;> cases p <;> decide

theorem hdr_eq_or (hs : s % 4 = 0) : hdr s f p = s ||| hdr 0 f p := by
  rw [hdr, hdr, Nat.zero_add]
  exact (or_eq_add (k := 2) hs (flags_lt f p)).symm

theorem hdr_lt (hlt : s < 2 ^ 32) : hdr s f p < 2 ^ 64 := by
  have := flags_lt f p
  rw [hdr]
  omega

/-- A mask that has all bits from the third on, or none of them. -/
theorem and_of_high {M : Nat} (hs : s % 4 = 0) (hlt : s < 2 ^ 32)
    (hM : (2 ^ 64 - 2 ^ 2) &&& M = 2 ^ 64 - 2 ^ 2) : s &&& M = s := by
  have hself : s &&& (2 ^ 64 - 2 ^ 2) = s := by
    rw [and_highMask (by omega) (by decide)]
    omega
  rw [← hself, Nat.and_assoc, hM]

theorem and_of_low {M : Nat} (hs : s % 4 = 0) (hlt : s < 2 ^ 32)
    (hM : (2 ^ 64 - 2 ^ 2) &&& M = 0) : s &&& M = 0 := by
  have hself := and_of_high hs hlt (Nat.and_self _)
  rw [← hself, Nat.and_assoc, hM, Nat.and_zero]

theorem hdr_and (M : Nat) (hs : s % 4 = 0) : hdr s f p &&& M = (s &&& M) ||| (hdr 0 f p &&& M) := by
  rw [hdr_eq_or hs, Nat.and_or_distrib_right]

theorem hdr_size (hs : s % 4 = 0) (hlt : s < 2 ^ 32) : hdr s f p &&& not64 blockStateMask = s := by
  have hlow : hdr 0 f p &&& not64 blockStateMask = 0 := by cases f <;> cases p <;> rfl
  rw [hdr_and _ hs, hlow, Nat.or_zero, and_of_high hs hlt rfl]

theorem hdr_state (hs : s % 4 = 0) (hlt : s < 2 ^ 32) :
    hdr s f p &&& blockStateMask = hdr 0 f p := by
  have hlow : hdr 0 f p &&& blockStateMask = hdr 0 f p := by cases f <;> cases p <;> rfl
  rw [hdr_and _ hs, hlow, and_of_low hs hlt rfl, Nat.zero_or]

theorem hdr_setSize (hs : s % 4 = 0) (hlt : s < 2 ^ 32) (hs' : s' % 4 = 0) :
    s' ||| (hdr s f p &&& blockStateMask) = hdr s' f p := by
  rw [hdr_state hs hlt, hdr_eq_or hs']

theorem hdr_isFree (hs : s % 4 = 0) (hlt : s < 2 ^ 32) :
    (hdr s f p &&& blockCurrFree != 0) = f := by
  have hlow : (hdr 0 f p &&& blockCurrFree != 0) = f := by cases f <;> cases p <;> rfl
  rw [hdr_and _ hs, and_of_low hs hlt rfl, Nat.zero_or, hlow]

theorem hdr_isPrevFree (hs : s % 4 = 0) (hlt : s < 2 ^ 32) :
    (hdr s f p &&& blockPrevFree != 0) = p := by
  have hlow : (hdr 0 f p &&& blockPrevFree != 0) = p := by cases f <;> cases p <;> rfl
  rw [hdr_and _ hs, and_of_low hs hlt rfl, Nat.zero_or, hlow]

theorem hdr_setFree (hs : s % 4 = 0) : hdr s f p ||| blockCurrFree = hdr s true p := by
  have hlow : hdr 0 f p ||| blockCurrFree = hdr 0 true p := by cases f <;> cases p <;> rfl
  rw [hdr_eq_or hs, Nat.or_assoc, hlow, ← hdr_eq_or hs]

theorem hdr_setPrevFree (hs : s % 4 = 0) : hdr s f p ||| blockPrevFree = hdr s f true := by
  have hlow : hdr 0 f p ||| blockPrevFree = hdr 0 f true := by cases f <;> cases p <;> rfl
  rw [hdr_eq_or hs, Nat.or_assoc, hlow, ← hdr_eq_or hs]

theorem hdr_setUsed (hs : s % 4 = 0) (hlt : s < 2 ^ 32) :
    hdr s f p &&& not64 blockCurrFree = hdr s false p := by
  have hlow : hdr 0 f p &&& not64 blockCurrFree = hdr 0 false p := by cases f <;> cases p <;> rfl
  rw [hdr_and _ hs, and_of_high hs hlt rfl, hlow, ← hdr_eq_or hs]

theorem hdr_setPrevUsed (hs : s % 4 = 0) (hlt : s < 2 ^ 32) :
    hdr s f p &&& not64 blockPrevFree = hdr s f false := by
  have hlow : hdr 0 f p &&& not64 blockPrevFree = hdr 0 f false := by cases f <;> cases p <;> rfl
  rw [hdr_and _ hs, and_of_high hs hlt rfl, hlow, ← hdr_eq_or hs]

theorem hdr_add (n : Nat) : hdr s f p + n = hdr (s + n) f p := by
  simp only [hdr]
  omega

theorem hdr_inj (hs : s % 4 = 0) (hs' : s' % 4 = 0) (h : hdr s f p = hdr s' f' p') :
    s = s' ∧ f = f' ∧ p = p' := by
  have h1 := flags_lt f p
  have h2 := flags_lt f' p'
  simp only [hdr] at h
  have hflags : f.toNat + 2 * p.toNat = f'.toNat + 2 * p'.toNat := by omega
  refine ⟨by omega, ?_⟩
  revert hflags
  cases f <;> cases p <;> cases f' <;> cases p' <;> decide

end Hdr

/-! ## Headers in the memory -/

variable {m m' : Image} {h : Heap} {b s s' a v : Nat} {f p f' p' : Bool}

/-- The block at `b` has size `s` and these two flags. -/
structure Header (m : Image) (b s : Nat) (f p : Bool) : Prop where
  word : m.word (b + 8) = hdr s f p
  aligned : s % 4 = 0
  small : s < 2 ^ 32

namespace Header

theorem unique (h : Header m b s f p) (h' : Header m b s' f' p') : s = s' ∧ f = f' ∧ p = p' :=
  hdr_inj h.aligned h'.aligned (h.word.symm.trans h'.word)

theorem congr (h : Header m b s f p) (hm : ∀ i, b + 8 ≤ i → i < b + 16 → m' i = m i) :
    Header m' b s f p :=
  ⟨(Image.word_congr hm).trans h.word, h.aligned, h.small⟩

/-- The header just stored. -/
theorem stored (hs : s % 4 = 0) (hlt : s < 2 ^ 32) :
    Header (m.setWord (b + 8) (hdr s f p)) b s f p :=
  ⟨Image.word_setWord (hdr_lt hlt), hs, hlt⟩

theorem setWord_of_apart (h : Header m b s f p) (ha : b + 16 ≤ a ∨ a + 8 ≤ b + 8) :
    Header (m.setWord a v) b s f p :=
  h.congr fun _ hlo hhi => Image.setWord_of_outside (by omega)

end Header

section Setters

variable (H : Header h.mem b s f p)

include H

theorem blkSize_eq : h.blkSize b = s := by
  rw [Heap.blkSize, Heap.sizeWord, H.word, hdr_size H.aligned H.small]

theorem blkIsFree_eq : h.blkIsFree b = f := by
  rw [Heap.blkIsFree, Heap.sizeWord, H.word, hdr_isFree H.aligned H.small]

theorem blkIsPrevFree_eq : h.blkIsPrevFree b = p := by
  rw [Heap.blkIsPrevFree, Heap.sizeWord, H.word, hdr_isPrevFree H.aligned H.small]

theorem blkNext_eq : h.blkNext b = b + 8 + s := by
  rw [Heap.blkNext, blkSize_eq H, Heap.offsetToBlk, Heap.blkToPtr, blkStartOffset,
    blkHeaderOverhead]
  omega

theorem blkSetSize_eq (hs : s' % 4 = 0) : h.blkSetSize b s' = h.store (b + 8) (hdr s' f p) := by
  rw [Heap.blkSetSize, Heap.setSizeWord, Heap.sizeWord, H.word, hdr_setSize H.aligned H.small hs]

theorem blkSetFree_eq : h.blkSetFree b = h.store (b + 8) (hdr s true p) := by
  rw [Heap.blkSetFree, Heap.setSizeWord, Heap.sizeWord, H.word, hdr_setFree H.aligned]

theorem blkSetUsed_eq : h.blkSetUsed b = h.store (b + 8) (hdr s false p) := by
  rw [Heap.blkSetUsed, Heap.setSizeWord, Heap.sizeWord, H.word, hdr_setUsed H.aligned H.small]

theorem blkSetPrevFree_eq : h.blkSetPrevFree b = h.store (b + 8) (hdr s f true) := by
  rw [Heap.blkSetPrevFree, Heap.setSizeWord, Heap.sizeWord, H.word, hdr_setPrevFree H.aligned]

theorem blkSetPrevUsed_eq : h.blkSetPrevUsed b = h.store (b + 8) (hdr s f false) := by
  rw [Heap.blkSetPrevUsed, Heap.setSizeWord, Heap.sizeWord, H.word,
    hdr_setPrevUsed H.aligned H.small]

theorem blkLinkNext_eq : h.blkLinkNext b = (b + 8 + s, h.store (b + 8 + s) b) := by
  rw [Heap.blkLinkNext, blkNext_eq H]
  rfl

end Setters

/-- `blk_set_size` on memory that has never been a header keeps two bits of it. -/
theorem blkSetSize_garbage (h : Heap) (b : Nat) (hs : s % 4 = 0) :
    ∃ f p, h.blkSetSize b s = h.store (b + 8) (hdr s f p) := by
  have hmask : h.mem.word (b + 8) &&& blockStateMask = h.mem.word (b + 8) % 4 :=
    Nat.and_two_pow_sub_one_eq_mod _ 2
  have hflags : ∀ n < 4, ∃ f p, n = hdr 0 f p := by
    intro n hn
    refine ⟨n % 2 == 1, n / 2 == 1, ?_⟩
    revert n
    decide
  obtain ⟨f, p, hfp⟩ := hflags _ (Nat.mod_lt (h.mem.word (b + 8)) (by decide : 4 > 0))
  refine ⟨f, p, ?_⟩
  rw [Heap.blkSetSize, Heap.setSizeWord, Heap.sizeWord, hmask, hfp, hdr_eq_or hs]

/-! ## Lists of blocks -/

/-- A block of a pool: its size and whether it is free. -/
abbrev Blk := Nat × Bool

/-- The bytes some blocks take, each with one header. -/
def span : List Blk → Nat
  | [] => 0
  | c :: l => 8 + c.1 + span l

/-- Whether the last block is free, `p` if there is none. -/
def lastFree : Bool → List Blk → Bool
  | p, [] => p
  | _, c :: l => lastFree c.2 l

/-- The blocks with their addresses, from `b` on. -/
def cells : Nat → List Blk → List (Nat × Blk)
  | _, [] => []
  | b, c :: l => (b, c) :: cells (b + 8 + c.1) l

/-- **No two neighbours are free**, nor the first block if `p`. -/
def NoAdjacent : Bool → List Blk → Prop
  | _, [] => True
  | p, c :: l => ¬ (p = true ∧ c.2 = true) ∧ NoAdjacent c.2 l

variable {l l₁ l₂ : List Blk} {c d : Blk} {x y : Nat}

@[simp] theorem span_nil : span [] = 0 := rfl

@[simp] theorem span_cons : span (c :: l) = 8 + c.1 + span l := rfl

@[simp] theorem span_append : span (l₁ ++ l₂) = span l₁ + span l₂ := by
  induction l₁ with
  | nil => simp
  | cons c l₁ ih =>
    rw [List.cons_append, span_cons, span_cons, ih]
    omega

@[simp] theorem lastFree_nil : lastFree p [] = p := rfl

@[simp] theorem lastFree_cons : lastFree p (c :: l) = lastFree c.2 l := rfl

@[simp] theorem lastFree_append : lastFree p (l₁ ++ l₂) = lastFree (lastFree p l₁) l₂ := by
  induction l₁ generalizing p with
  | nil => rfl
  | cons c l₁ ih => rw [List.cons_append, lastFree_cons, lastFree_cons, ih]

@[simp] theorem cells_nil : cells b [] = [] := rfl

@[simp] theorem cells_cons : cells b (c :: l) = (b, c) :: cells (b + 8 + c.1) l := rfl

@[simp] theorem cells_append : cells b (l₁ ++ l₂) = cells b l₁ ++ cells (b + span l₁) l₂ := by
  induction l₁ generalizing b with
  | nil => rfl
  | cons c l₁ ih =>
    rw [List.cons_append, cells_cons, cells_cons, ih, span_cons, List.cons_append,
      show b + 8 + c.1 + span l₁ = b + (8 + c.1 + span l₁) by omega]

theorem noAdjacent_append : NoAdjacent p (l₁ ++ l₂) ↔
    NoAdjacent p l₁ ∧ NoAdjacent (lastFree p l₁) l₂ := by
  induction l₁ generalizing p with
  | nil => simp [NoAdjacent]
  | cons c l₁ ih => rw [List.cons_append, NoAdjacent, NoAdjacent, ih, lastFree_cons, and_assoc]

/-- A block behind no free one is as well behind a used one. -/
theorem NoAdjacent.weaken (h : NoAdjacent p l) : NoAdjacent false l := by
  cases l with
  | nil => trivial
  | cons c l => exact ⟨fun hc => Bool.false_ne_true hc.1, h.2⟩

theorem mem_cells (h : (x, c) ∈ cells b l) : b ≤ x ∧ x + 8 + c.1 ≤ b + span l ∧ c ∈ l := by
  induction l generalizing b with
  | nil => simp at h
  | cons d l ih =>
    rw [cells_cons, List.mem_cons] at h
    rw [span_cons]
    rcases h with h | h
    · obtain ⟨rfl, rfl⟩ := Prod.mk.inj h
      exact ⟨Nat.le_refl _, by omega, List.mem_cons_self⟩
    · obtain ⟨hlo, hhi, hc⟩ := ih h
      exact ⟨by omega, by omega, List.mem_cons_of_mem d hc⟩

/-- **Blocks do not overlap.** -/
theorem cells_apart (hx : (x, c) ∈ cells b l) (hy : (y, d) ∈ cells b l) :
    (x = y ∧ c = d) ∨ x + 8 + c.1 ≤ y ∨ y + 8 + d.1 ≤ x := by
  induction l generalizing b with
  | nil => simp at hx
  | cons e l ih =>
    rw [cells_cons, List.mem_cons] at hx hy
    rcases hx with hx | hx <;> rcases hy with hy | hy
    · obtain ⟨rfl, rfl⟩ := Prod.mk.inj hx
      obtain ⟨rfl, rfl⟩ := Prod.mk.inj hy
      exact Or.inl ⟨rfl, rfl⟩
    · obtain ⟨rfl, rfl⟩ := Prod.mk.inj hx
      exact Or.inr (Or.inl (mem_cells hy).1)
    · obtain ⟨rfl, rfl⟩ := Prod.mk.inj hy
      exact Or.inr (Or.inr (mem_cells hx).1)
    · exact ih hx hy

/-- A block is somewhere in the list. -/
theorem exists_split_of_mem_cells (h : (x, c) ∈ cells b l) :
    ∃ l₁ l₂, l = l₁ ++ c :: l₂ ∧ x = b + span l₁ := by
  induction l generalizing b with
  | nil => simp at h
  | cons d l ih =>
    rw [cells_cons, List.mem_cons] at h
    rcases h with h | h
    · obtain ⟨rfl, rfl⟩ := Prod.mk.inj h
      exact ⟨[], l, rfl, rfl⟩
    · obtain ⟨l₁, l₂, rfl, rfl⟩ := ih h
      exact ⟨d :: l₁, l₂, rfl, by rw [span_cons]; omega⟩

theorem mem_cells_split : (b + span l₁, c) ∈ cells b (l₁ ++ c :: l₂) := by
  rw [cells_append, cells_cons]
  exact List.mem_append_right _ List.mem_cons_self

/-! ## Blocks in the memory -/

/-- The block at `x` is there, as a free one with its address at its end. -/
def BlkAt (m : Image) (x : Nat) (c : Blk) (p : Bool) : Prop :=
  Header m x c.1 c.2 p ∧ (c.2 = true → m.word (x + 8 + c.1) = x)

/-- These blocks are laid out from `b` on; `p` says whether a free block is before them. -/
def Seg (m : Image) : Nat → Bool → List Blk → Prop
  | _, _, [] => True
  | b, p, c :: l => BlkAt m b c p ∧ Seg m (b + 8 + c.1) c.2 l

/-- **The blocks of a pool, behind them the sentinel.** -/
def Tiled (m : Image) : Nat → Bool → List Blk → Prop
  | b, p, [] => Header m b 0 false p
  | b, p, c :: l => BlkAt m b c p ∧ Tiled m (b + 8 + c.1) c.2 l

/-- The bytes a block needs for its header and, while it is free, for its address at its end. -/
def Meta (x : Nat) (c : Blk) (i : Nat) : Prop :=
  x + 8 ≤ i ∧ i < x + 16 ∨ c.2 = true ∧ x + 8 + c.1 ≤ i ∧ i < x + 16 + c.1

theorem BlkAt.congr (h : BlkAt m x c p) (hm : ∀ i, Meta x c i → m' i = m i) :
    BlkAt m' x c p := by
  refine ⟨h.1.congr fun i hlo hhi => hm i (Or.inl ⟨hlo, hhi⟩), fun hf => ?_⟩
  refine (Image.word_congr fun i hlo hhi => ?_).trans (h.2 hf)
  exact hm i (Or.inr ⟨hf, hlo, by omega⟩)

theorem Seg.append_iff : Seg m b p (l₁ ++ l₂) ↔
    Seg m b p l₁ ∧ Seg m (b + span l₁) (lastFree p l₁) l₂ := by
  induction l₁ generalizing b p with
  | nil => simp [Seg]
  | cons c l₁ ih =>
    rw [List.cons_append, Seg, Seg, ih, lastFree_cons, span_cons, and_assoc,
      show b + 8 + c.1 + span l₁ = b + (8 + c.1 + span l₁) by omega]

theorem Tiled.append_iff : Tiled m b p (l₁ ++ l₂) ↔
    Seg m b p l₁ ∧ Tiled m (b + span l₁) (lastFree p l₁) l₂ := by
  induction l₁ generalizing b p with
  | nil => simp [Seg]
  | cons c l₁ ih =>
    rw [List.cons_append, Tiled, Seg, ih, lastFree_cons, span_cons, and_assoc,
      show b + 8 + c.1 + span l₁ = b + (8 + c.1 + span l₁) by omega]

/-- The blocks before a boundary do not see what is behind it. -/
theorem Seg.congr (h : Seg m b p l)
    (hm : ∀ i, b + 8 ≤ i → i < b + span l + 8 → m' i = m i) : Seg m' b p l := by
  induction l generalizing b p with
  | nil => trivial
  | cons c l ih =>
    rw [span_cons] at hm
    refine ⟨h.1.congr fun i hi => hm i ?_ ?_, ih h.2 fun i hlo hhi => hm i ?_ ?_⟩
    all_goals first | (rcases hi with ⟨_, _⟩ | ⟨_, _, _⟩ <;> omega) | omega

/-- Only the headers, and the ends of the free blocks, matter. -/
theorem Tiled.congr_meta (h : Tiled m b p l)
    (hm : ∀ x c, (x, c) ∈ cells b l → ∀ i, Meta x c i → m' i = m i)
    (he : ∀ i, b + span l + 8 ≤ i → i < b + span l + 16 → m' i = m i) : Tiled m' b p l := by
  induction l generalizing b p with
  | nil => exact Header.congr h he
  | cons c l ih =>
    rw [span_cons] at he
    refine ⟨h.1.congr fun i hi => hm b c List.mem_cons_self i hi, ih h.2 ?_ ?_⟩
    · exact fun x d hd => hm x d (List.mem_cons_of_mem _ hd)
    · exact fun i hlo hhi => he i (by omega) (by omega)

/-- The header the next block, or the sentinel, has. -/
theorem Tiled.header (h : Tiled m b p l) : ∃ s f, Header m b s f p := by
  cases l with
  | nil => exact ⟨0, false, h⟩
  | cons c l => exact ⟨c.1, c.2, h.1.1⟩

/-- Another flag in the first header, and nothing else changed from there on. -/
theorem Tiled.setPrev (h : Tiled m b p l) (hsize : ∀ c ∈ l, 24 ≤ c.1)
    (hm : ∀ i, b + 16 ≤ i → i < b + span l + 16 → m' i = m i)
    (hh : ∀ s f, Header m b s f p → Header m' b s f p') : Tiled m' b p' l := by
  cases l with
  | nil => exact hh _ _ h
  | cons c l =>
    have h24 := hsize c List.mem_cons_self
    rw [span_cons] at hm
    obtain ⟨⟨hhead, hfoot⟩, hl⟩ := h
    refine ⟨⟨hh _ _ hhead, fun hf => ?_⟩, ?_⟩
    · refine (Image.word_congr fun i hlo hhi => ?_).trans (hfoot hf)
      exact hm i (by omega) (by omega)
    · refine hl.congr_meta (fun x d hd i hi => ?_) fun i hlo hhi => hm i (by omega) (by omega)
      obtain ⟨hlo, hhi, -⟩ := mem_cells hd
      rcases hi with ⟨_, _⟩ | ⟨_, _, _⟩
      · exact hm i (by omega) (by omega)
      · exact hm i (by omega) (by omega)

/-- The block at an address, and the flag in its header. -/
theorem Tiled.blkAt (h : Tiled m b p (l₁ ++ c :: l₂)) :
    BlkAt m (b + span l₁) c (lastFree p l₁) ∧ Tiled m (b + span l₁ + 8 + c.1) c.2 l₂ :=
  (Tiled.append_iff.mp h).2

end NoDrop.Mmheap
