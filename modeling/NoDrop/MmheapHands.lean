import NoDrop.MmheapBlocks

/-! # Blocks in hand

How blocks come into the hand of an operation and leave it.  `Inv` is the heap at rest: all free
blocks are listed and no two of them are neighbours.  From there a used block is picked up as it
is (`Inv.pick`) and a free one by its removal from its list (`Inv.take`); the free neighbours of
what is in hand follow (`Focus.takeNext`, `Focus.takePrev`).  What is in hand is put back into its
list (`Focus.insertLast`, `Focus.insertFirst`) or left as a used block (`Focus.release`).
-/
namespace NoDrop.Mmheap

open Bytes

variable {h h' : Heap} {len : Nat → Nat} {pool pool' : Nat → List Blk} {W : Nat → Prop}
  {l₁ l₂ mid : List Blk} {p b n s t x y : Nat} {f : Bool} {c : Blk}

/-- Nothing is in hand. -/
def Nothing (_ : Nat) : Prop := False

/-- **A heap at rest.** -/
structure Inv (h : Heap) (len : Nat → Nat) (pool : Nat → List Blk) : Prop where
  rep : Rep h len pool Nothing
  noAdjacent : ∀ p ∈ h.poolStart, NoAdjacent false (pool p)

/-- The blocks `mid` are in hand, and nothing else. -/
abbrev Hand (h : Heap) (len : Nat → Nat) (pool : Nat → List Blk) (p : Nat)
    (l₁ mid l₂ : List Blk) (b n : Nat) : Prop :=
  Focus h len pool (In b n) p l₁ mid l₂ b n

theorem blkRemove_eq (R : Rep h len pool W) (hx : Cell h.poolStart pool x c) :
    h.blkRemove x = h.removeFreeBlock x (mappingInsert c.1).1 (mappingInsert c.1).2 := by
  obtain ⟨q, H⟩ := R.cell_header hx
  rw [Heap.blkRemove, blkSize_eq H]

theorem blkInsert_eq (R : Rep h len pool W) (hx : Cell h.poolStart pool x c) :
    h.blkInsert x = h.insertFreeBlock x (mappingInsert c.1).1 (mappingInsert c.1).2 := by
  obtain ⟨q, H⟩ := R.cell_header hx
  rw [Heap.blkInsert, blkSize_eq H]

/-! ## Picking up -/

/-- The only block in a range that begins with it and ends with it is itself. -/
theorem Rep.eq_of_in (R : Rep h len pool W) (hx : Cell h.poolStart pool x (s, f))
    (hy : Cell h.poolStart pool y c) (hin : In x (x + 8 + s) y) : y = x ∧ c = (s, f) := by
  obtain ⟨hlo, hhi⟩ := hin
  rcases R.cell_apart hx hy with hxy | hlt | hlt
  · exact ⟨hxy.1.symm, hxy.2.symm⟩
  · simp only at hlt
    omega
  · omega

/-- **A used block is picked up.** -/
theorem Inv.pick (I : Inv h len pool) (hx : Cell h.poolStart pool x (s, false)) :
    ∃ p l₁ l₂, Hand h len pool p l₁ [(s, false)] l₂ x (x + 8 + s) := by
  obtain ⟨p, l₁, l₂, hp, hl, hb⟩ := Rep.cell_split hx
  refine ⟨p, l₁, l₂, ?_, hp, ?_, hb, ?_, fun y hlo hhi => ⟨hlo, hhi⟩⟩
  · refine I.rep.window fun y t hy => iff_of_false (fun hin => ?_) id
    exact Bool.noConfusion (Prod.mk.inj (I.rep.eq_of_in hx hy hin).2).2
  · rw [hl, List.append_assoc]
    rfl
  · simp only [span_cons, span_nil]
    omega

/-- **A free block is taken out of its list.** -/
theorem Inv.take (I : Inv h len pool) (hx : Cell h.poolStart pool x (s, true)) :
    (∃ p l₁ l₂, Hand (h.blkRemove x) len pool p l₁ [(s, true)] l₂ x (x + 8 + s)) ∧
      Keeps Nothing h pool (h.blkRemove x) pool := by
  rw [blkRemove_eq I.rep hx]
  obtain ⟨R, K⟩ := I.rep.remove (In x (x + 8 + s)) hx id rfl fun y t hy => by
    constructor
    · exact fun hin => Or.inr (I.rep.eq_of_in hx hy hin).1
    · rintro (hno | rfl)
      · exact hno.elim
      · exact ⟨Nat.le_refl y, by omega⟩
  refine ⟨?_, K⟩
  obtain ⟨p, l₁, l₂, hp, hl, hb⟩ := Rep.cell_split hx
  refine ⟨p, l₁, l₂, R, K.pools ▸ hp, ?_, hb, ?_, fun y hlo hhi => ⟨hlo, hhi⟩⟩
  · rw [hl, List.append_assoc]
    rfl
  · simp only [span_cons, span_nil]
    omega

namespace Focus

/-- The block behind what is in hand. -/
theorem cell_next (Φ : Focus h len pool W p l₁ mid (c :: l₂) b n) : Cell h.poolStart pool n c := by
  refine ⟨p, Φ.mem, ?_⟩
  rw [Φ.split, cells_append, span_append, ← Nat.add_assoc, ← Φ.start, ← Φ.stop]
  exact List.mem_append_right _ List.mem_cons_self

/-- The free block behind is taken along. -/
theorem takeNext (Φ : Hand h len pool p l₁ mid ((t, true) :: l₂) b n) :
    Hand (h.blkRemove n) len pool p l₁ (mid ++ [(t, true)]) l₂ b (n + 8 + t) ∧
      Keeps Nothing h pool (h.blkRemove n) pool := by
  have hstop := Φ.stop
  have hx := Φ.cell_next
  rw [blkRemove_eq Φ.rep hx]
  obtain ⟨R, K⟩ := Φ.rep.remove (In b (n + 8 + t)) hx (fun hin => Nat.lt_irrefl n hin.2) rfl
    fun y u hy => by
      constructor
      · rintro ⟨hlo, hhi⟩
        by_cases hyn : y < n
        · exact Or.inl ⟨hlo, hyn⟩
        · exact Or.inr (Φ.rep.eq_of_in hx hy ⟨Nat.le_of_not_lt hyn, hhi⟩).1
      · rintro (⟨hlo, hhi⟩ | rfl)
        · exact ⟨hlo, by omega⟩
        · exact ⟨by omega, by omega⟩
  refine ⟨⟨R, K.pools ▸ Φ.mem, ?_, Φ.start, ?_, fun y hlo hhi => ⟨hlo, hhi⟩⟩, K⟩
  · rw [Φ.split]
    simp only [List.append_assoc, List.cons_append, List.nil_append]
  · simp only [span_append, span_cons, span_nil]
    omega

/-- The free block before is taken along. -/
theorem takePrev (Φ : Hand h len pool p (l₁ ++ [(t, true)]) mid l₂ b n) :
    ∃ a, b = a + 8 + t ∧ Hand (h.blkRemove a) len pool p l₁ ((t, true) :: mid) l₂ a n ∧
      Keeps Nothing h pool (h.blkRemove a) pool := by
  have hstart := Φ.start
  have hstop := Φ.stop
  simp only [span_append, span_cons, span_nil] at hstart
  refine ⟨p - 8 + span l₁, by omega, ?_⟩
  have hx : Cell h.poolStart pool (p - 8 + span l₁) (t, true) := by
    refine ⟨p, Φ.mem, ?_⟩
    rw [Φ.split, List.append_assoc, List.append_assoc]
    exact mem_cells_split
  have hout : ¬ In b n (p - 8 + span l₁) := fun hin => by
    have := hin.1
    omega
  rw [blkRemove_eq Φ.rep hx]
  obtain ⟨R, K⟩ := Φ.rep.remove (In (p - 8 + span l₁) n) hx hout rfl fun y u hy => by
      constructor
      · rintro ⟨hlo, hhi⟩
        by_cases hyb : b ≤ y
        · exact Or.inl ⟨hyb, hhi⟩
        · exact Or.inr (Φ.rep.eq_of_in hx hy ⟨hlo, by omega⟩).1
      · rintro (⟨hlo, hhi⟩ | rfl)
        · exact ⟨by omega, hhi⟩
        · exact ⟨Nat.le_refl _, by omega⟩
  refine ⟨⟨R, K.pools ▸ Φ.mem, ?_, rfl, ?_, fun y hlo hhi => ⟨hlo, hhi⟩⟩, K⟩
  · rw [Φ.split]
    simp only [List.append_assoc, List.cons_append, List.nil_append]
  · simp only [span_cons]
    omega

/-! ## Putting down -/

/-- The last block in hand is put into its list. -/
theorem insertLast (mid : List Blk) (Φ : Hand h len pool p l₁ (mid ++ [(t, true)]) l₂ b n)
    (hx : x = b + span mid) :
    Hand (h.blkInsert x) len pool p l₁ mid ((t, true) :: l₂) b x ∧
      Keeps Nothing h pool (h.blkInsert x) pool := by
  have hstop := Φ.stop
  simp only [span_append, span_cons, span_nil] at hstop
  have hcell : Cell h.poolStart pool x (t, true) := by
    refine Φ.cell ?_
    rw [hx]
    exact mem_cells_split
  rw [blkInsert_eq Φ.rep hcell]
  obtain ⟨R, K⟩ := Φ.rep.insert (In b x) hcell ⟨by omega, by omega⟩ rfl fun y u hy => by
    constructor
    · rintro ⟨hlo, hhi⟩
      exact ⟨⟨hlo, by omega⟩, Nat.ne_of_lt hhi⟩
    · rintro ⟨⟨hlo, hhi⟩, hne⟩
      refine ⟨hlo, Nat.lt_of_not_le fun hle => hne ?_⟩
      exact (Φ.rep.eq_of_in hcell hy ⟨hle, by omega⟩).1
  refine ⟨⟨R, Φ.mem, ?_, Φ.start, hx, fun y hlo hhi => ⟨hlo, hhi⟩⟩, K⟩
  rw [Φ.split]
  simp only [List.append_assoc, List.cons_append, List.nil_append]

/-- The first block in hand is put into its list. -/
theorem insertFirst (Φ : Hand h len pool p l₁ ((t, true) :: mid) l₂ b n) :
    Hand (h.blkInsert b) len pool p (l₁ ++ [(t, true)]) mid l₂ (b + 8 + t) n ∧
      Keeps Nothing h pool (h.blkInsert b) pool := by
  have hstart := Φ.start
  have hstop := Φ.stop
  simp only [span_cons] at hstop
  have hcell : Cell h.poolStart pool b (t, true) := Φ.cell List.mem_cons_self
  rw [blkInsert_eq Φ.rep hcell]
  obtain ⟨R, K⟩ := Φ.rep.insert (In (b + 8 + t) n) hcell ⟨Nat.le_refl b, by omega⟩ rfl
    fun y u hy => by
      constructor
      · rintro ⟨hlo, hhi⟩
        exact ⟨⟨by omega, hhi⟩, by omega⟩
      · rintro ⟨⟨hlo, hhi⟩, hne⟩
        refine ⟨Nat.le_of_not_lt fun hlt => hne ?_, hhi⟩
        exact (Φ.rep.eq_of_in hcell hy ⟨hlo, hlt⟩).1
  refine ⟨⟨R, Φ.mem, ?_, ?_, ?_, fun y hlo hhi => ⟨hlo, hhi⟩⟩, K⟩
  · rw [Φ.split]
    simp only [List.append_assoc, List.cons_append, List.nil_append]
  · simp only [span_append, span_cons, span_nil]
    omega
  · omega

/-- **Only used blocks are left in hand.** -/
theorem release (Φ : Hand h len pool p l₁ mid l₂ b n) (hused : ∀ c ∈ mid, c.2 = false) :
    Rep h len pool Nothing := by
  refine Φ.rep.window fun y u hy => iff_of_false id fun hin => ?_
  have := hused _ (mem_cells (Φ.cells_of hy hin)).2.2
  exact Bool.noConfusion this

end Focus

/-! ## A window of a heap at rest -/

theorem setMid_self_apply : setMid pool p l₁ mid l₂ p = l₁ ++ mid ++ l₂ := by
  rw [setMid, Function.update_self]

/-- **The heap is at rest again** if no two free blocks are neighbours in the pool that was
changed. -/
theorem Inv.of_setMid (I : Inv h len pool) (hpools : h'.poolStart = h.poolStart)
    (R : Rep h' len (setMid pool p l₁ mid l₂) Nothing) (hno : NoAdjacent false (l₁ ++ mid ++ l₂)) :
    Inv h' len (setMid pool p l₁ mid l₂) := by
  refine ⟨R, fun q hq => ?_⟩
  by_cases hqp : q = p
  · rw [hqp, setMid_self_apply]
    exact hno
  · rw [setMid, Function.update_of_ne hqp]
    exact I.noAdjacent q (hpools ▸ hq)

/-- No block, or one free block. -/
def AtMostOneFree (r : List Blk) : Prop := r = [] ∨ ∃ u, r = [(u, true)]

/-- The used blocks in a window, before and after, are at `x` only. -/
theorem Keeps.narrow_window {W' : Nat → Prop} {mid' : List Blk} (R : Rep h len pool W)
    (R' : Rep h' len pool' W') (K : Keeps (In b n) h pool h' pool') (hp : p ∈ h.poolStart)
    (hl : pool p = l₁ ++ mid ++ l₂) (hl' : pool' p = l₁ ++ mid' ++ l₂)
    (hb : b = p - 8 + span l₁) (hn : n = b + span mid) (hn' : n = b + span mid')
    (hold : ∀ y t, (y, (t, false)) ∈ cells b mid → y = x)
    (hnew : ∀ y t, (y, (t, false)) ∈ cells b mid' → y = x) :
    Keeps (fun y => y = x) h pool h' pool' := by
  have hp' : p ∈ h'.poolStart := K.pools ▸ hp
  refine K.narrow (fun y t hy hc => hold y t ?_) (fun y t hy hc => hnew y t ?_)
  · exact R.cell_window hp hl hb hn hc hy.1 hy.2
  · exact R'.cell_window hp' hl' hb hn' hc hy.1 hy.2

/-- No used block is among at most one free one. -/
theorem AtMostOneFree.not_used {r : List Blk} (hr : AtMostOneFree r) :
    (y, (t, false)) ∉ cells b r := by
  rcases hr with rfl | ⟨u, rfl⟩
  · simp
  · simp

end NoDrop.Mmheap
