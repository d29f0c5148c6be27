import NoDrop.MmheapAlloc

/-! # Freeing and resizing

`blk_merge_prev`, `blk_merge_next`, `nod_mmheap_free`, `blk_trim_used` and `nod_mmheap_realloc`.
A block that becomes free is joined with its free neighbours, so that in the end none of its
neighbours is free.
-/
namespace NoDrop.Mmheap

open Bytes

variable {h h' : Heap} {len : Nat → Nat} {pool pool' : Nat → List Blk} {W : Nat → Prop}
  {l₁ l₂ mid : List Blk} {p b n s t a x y : Nat} {f : Bool} {c : Blk}

theorem Focus.setMid_self (Φ : Focus h len pool W p l₁ mid l₂ b n) :
    setMid pool p l₁ mid l₂ = pool := by
  rw [setMid, ← Φ.split, Function.update_eq_self]

/-! ## Merging -/

/-- The block at the end of those before. -/
theorem Focus.prevPhys (Φ : Focus h len pool W p (l₁ ++ [(t, true)]) mid l₂ b n) :
    h.mem.word b = p - 8 + span l₁ := by
  have ht := Φ.rep.tiled p Φ.mem
  have hb := Φ.start
  rw [Φ.split, List.append_assoc, List.append_assoc] at ht
  have hfoot : h.mem.word (p - 8 + span l₁ + 8 + t) = p - 8 + span l₁ := ht.blkAt.1.2 rfl
  simp only [span_append, span_cons, span_nil] at hb
  rw [show p - 8 + span l₁ + 8 + t = b by omega] at hfoot
  exact hfoot

/-- **`blk_merge_prev`** joins the free block in hand with a free block before it. -/
theorem Focus.mergePrev (Φ : Hand h len pool p l₁ [(s, true)] l₂ b n)
    (hno : NoAdjacent false l₁) :
    ∃ l₀ pre u, l₁ = l₀ ++ pre ∧ AtMostOneFree pre ∧ lastFree false l₀ = false ∧
      span pre + (8 + s) = 8 + u ∧ (h.blkMergePrev b).1 = p - 8 + span l₀ ∧
      Hand (h.blkMergePrev b).2 len (setMid pool p l₀ [(u, true)] l₂) p l₀ [(u, true)] l₂
        (p - 8 + span l₀) n ∧
      Keeps (In (p - 8 + span l₀) n) h pool (h.blkMergePrev b).2
        (setMid pool p l₀ [(u, true)] l₂) := by
  have H : Header h.mem b s true (lastFree false l₁) := Φ.seg.1.1
  by_cases hprev : lastFree false l₁ = true
  · cases l₁ using List.reverseRecOn with
    | nil => exact absurd hprev Bool.false_ne_true
    | append_singleton l₀ c =>
      obtain ⟨t, g⟩ := c
      rw [lastFree_append] at hprev
      obtain rfl : g = true := hprev
      have hword := Φ.prevPhys
      obtain ⟨a, hb, Φ₁, K₁⟩ := Φ.takePrev
      have ha : a = p - 8 + span l₀ := Φ₁.start
      have hmerge : h.blkMergePrev b = (h.blkRemove a).blkAbsorb a b := by
        rw [Heap.blkMergePrev, blkIsPrevFree_eq H, lastFree_append, Heap.blkPrev,
          Heap.prevPhysBlk, hword, ← ha]
        exact if_pos rfl
      obtain ⟨hfst, Φ₂, K₂⟩ := Φ₁.absorb hb
      have hlast : lastFree false l₀ = false := by
        have := (noAdjacent_append.mp hno).2.1
        by_contra hc
        exact this ⟨Bool.eq_true_of_not_eq_false hc, rfl⟩
      subst ha
      refine ⟨l₀, [(t, true)], t + (s + 8), rfl, Or.inr ⟨t, rfl⟩, hlast, ?_, ?_, ?_, ?_⟩
      · simp only [span_cons, span_nil]
        omega
      · rw [hmerge, hfst]
      · rw [hmerge]
        exact Φ₂
      · rw [hmerge]
        exact K₁.of_nothing.trans K₂
  · have hprev := Bool.eq_false_of_not_eq_true hprev
    have hmerge : h.blkMergePrev b = (b, h) := by
      rw [Heap.blkMergePrev, blkIsPrevFree_eq H, hprev]
      exact if_neg Bool.false_ne_true
    have hb := Φ.start
    subst hb
    refine ⟨l₁, [], s, (List.append_nil l₁).symm, Or.inl rfl, hprev, ?_, ?_, ?_, ?_⟩
    · rw [span_nil, Nat.zero_add]
    · rw [hmerge]
    · rw [hmerge, Φ.setMid_self]
      exact Φ
    · rw [hmerge, Φ.setMid_self]
      exact Keeps.refl _ _ _

/-- The header behind what is in hand says whether a free block is next. -/
theorem Focus.next_isFree (Φ : Focus h len pool W p l₁ mid l₂ b n) :
    h.blkIsFree n = true ↔ ∃ t l, l₂ = (t, true) :: l := by
  have ht := Φ.rep.tiled p Φ.mem
  rw [Φ.split, Tiled.append_iff, span_append, ← Nat.add_assoc, ← Φ.start, ← Φ.stop] at ht
  have ht := ht.2
  cases l₂ with
  | nil =>
    have hh : Header h.mem n 0 false _ := ht
    rw [blkIsFree_eq hh]
    simp
  | cons c l =>
    rw [blkIsFree_eq ht.1.1]
    obtain ⟨t, g⟩ := c
    simp

/-- **`blk_merge_next`** joins the free block in hand with a free block behind it. -/
theorem Focus.mergeNext (Φ : Hand h len pool p l₁ [(s, true)] l₂ b n)
    (hno : NoAdjacent false l₂) :
    ∃ post l₃ u n', l₂ = post ++ l₃ ∧ AtMostOneFree post ∧ NoAdjacent true l₃ ∧
      8 + s + span post = 8 + u ∧ n' = n + span post ∧ (h.blkMergeNext b).1 = b ∧
      Hand (h.blkMergeNext b).2 len (setMid pool p l₁ [(u, true)] l₃) p l₁ [(u, true)] l₃ b n' ∧
      Keeps (In b n') h pool (h.blkMergeNext b).2 (setMid pool p l₁ [(u, true)] l₃) := by
  have hn : n = b + 8 + s := by simpa [Nat.add_assoc] using Φ.stop
  have H : Header h.mem b s true (lastFree false l₁) := Φ.seg.1.1
  by_cases hfree : h.blkIsFree n = true
  · obtain ⟨t, l₃, rfl⟩ := Φ.next_isFree.mp hfree
    have hmerge : h.blkMergeNext b = (h.blkRemove n).blkAbsorb b n := by
      rw [Heap.blkMergeNext, blkNext_eq H, ← hn]
      exact if_pos hfree
    obtain ⟨Φ₁, K₁⟩ := Φ.takeNext
    obtain ⟨hfst, Φ₂, K₂⟩ := Focus.absorb hn Φ₁
    refine ⟨[(t, true)], l₃, s + (t + 8), n + 8 + t, rfl, Or.inr ⟨t, rfl⟩, hno.2, ?_, ?_, ?_, ?_, ?_⟩
    · simp only [span_cons, span_nil]
      omega
    · simp only [span_cons, span_nil]
      omega
    · rw [hmerge, hfst]
    · rw [hmerge]
      exact Φ₂
    · rw [hmerge]
      exact K₁.of_nothing.trans K₂
  · have hmerge : h.blkMergeNext b = (b, h) := by
      rw [Heap.blkMergeNext, blkNext_eq H, ← hn]
      exact if_neg hfree
    refine ⟨[], l₂, s, n, rfl, Or.inl rfl, ?_, ?_, ?_, ?_, ?_, ?_⟩
    · cases l₂ with
      | nil => trivial
      | cons c l =>
        obtain ⟨t, g⟩ := c
        refine ⟨fun hc => hfree (Φ.next_isFree.mpr ⟨t, l, ?_⟩), hno.2⟩
        have hg : g = true := hc.2
        rw [hg]
    · rw [span_nil, Nat.add_zero]
    · rw [span_nil, Nat.add_zero]
    · rw [hmerge]
    · rw [hmerge, Φ.setMid_self]
      exact Φ
    · rw [hmerge, Φ.setMid_self]
      exact Keeps.refl _ _ _

/-- **The free block in hand is put into its list, and nothing is left in hand.** -/
theorem Focus.insertAll (Φ : Hand h len pool p l₁ [(s, true)] l₂ b n) :
    Rep (h.blkInsert b) len pool Nothing ∧ Keeps Nothing h pool (h.blkInsert b) pool := by
  obtain ⟨Φ', K⟩ := Focus.insertLast [] (x := b) Φ rfl
  exact ⟨Φ'.release (by simp), K⟩

/-! ## `nod_mmheap_free` -/

/-- **The block at `x` is no longer used.** -/
def Freed (h : Heap) (len : Nat → Nat) (pool : Nat → List Blk) (x : Nat) (h' : Heap) : Prop :=
  ∃ pool', Inv h' len pool' ∧ (∀ t, ¬ Cell h'.poolStart pool' x (t, false)) ∧
    Keeps (fun y => y = x) h pool h' pool'

/-- **`nod_mmheap_free`** of a used block. -/
theorem Inv.nodMmheapFree (I : Inv h len pool) (hx : Cell h.poolStart pool x (s, false)) :
    Freed h len pool x (h.nodMmheapFree (x + 16)) := by
  obtain ⟨p, l₁, l₂, Φ⟩ := I.pick hx
  have hno := I.noAdjacent p Φ.mem
  rw [Φ.split, List.append_assoc, noAdjacent_append] at hno
  obtain ⟨hno₁, -, hno₂⟩ := hno
  obtain ⟨Φ₁, K₁⟩ := Φ.markAsFree
  obtain ⟨l₀, pre, u, hl₁, hpre, hlast, hu, hfst, Φ₂, K₂⟩ := Φ₁.mergePrev hno₁
  obtain ⟨post, l₃, v, n, hl₂, hpost, hno₃, hv, hn, hfst', Φ₃, K₃⟩ := Φ₂.mergeNext hno₂
  obtain ⟨R, K₄⟩ := Φ₃.insertAll
  have hfree : h.nodMmheapFree (x + 16) =
      (((h.blkMarkAsFree x).blkMergePrev x).2.blkMergeNext (p - 8 + span l₀)).2.blkInsert
        (p - 8 + span l₀) := by
    rw [Heap.nodMmheapFree, if_neg (Nat.succ_ne_zero _),
      show Heap.blkFromPtr (x + 16) = x from Nat.add_sub_cancel x 16]
    simp only [hfst, hfst']
  rw [hfree]
  simp only [setMid_setMid] at K₂ Φ₃ K₃ R K₄
  generalize hb : p - 8 + span l₀ = b at *
  have hx₀ : x = b + span pre := by
    have hstart := Φ.start
    rw [hl₁, span_append] at hstart
    omega
  have hsplit : pool p = l₀ ++ (pre ++ (s, false) :: post) ++ l₃ := by
    rw [Φ.split, hl₁, hl₂]
    simp
  have hsplit' : setMid pool p l₀ [(v, true)] l₃ p = l₀ ++ [(v, true)] ++ l₃ := setMid_self_apply
  have hno : NoAdjacent false (l₀ ++ [(v, true)] ++ l₃) := by
    rw [hl₁, noAdjacent_append] at hno₁
    rw [List.append_assoc, noAdjacent_append]
    exact ⟨hno₁.1, fun hc => Bool.false_ne_true (hlast.symm.trans hc.1), hno₃⟩
  have K : Keeps (In b n) h pool _ (setMid pool p l₀ [(v, true)] l₃) :=
    (((K₁.mono fun y hy => ⟨by have := hy.1; omega, by have := hy.2; omega⟩).trans
      (K₂.mono fun y hy => ⟨hy.1, by have := hy.2; omega⟩)).trans K₃).trans K₄.of_nothing
  have hspan : n = b + span (pre ++ (s, false) :: post) := by
    rw [span_append, span_cons]
    omega
  have hspan' : n = b + span [(v, true)] := by
    simp only [span_cons, span_nil]
    omega
  have hK := K.narrow_window (x := x) I.rep R Φ.mem hsplit hsplit' hb.symm hspan hspan' ?_ ?_
  · refine ⟨_, I.of_setMid K.pools R hno, fun t hc => ?_, hK⟩
    have hmem := R.cell_window (K.pools ▸ Φ.mem) hsplit' hb.symm hspan' hc (by omega) (by omega)
    exact AtMostOneFree.not_used (Or.inr ⟨v, rfl⟩) hmem
  · intro y t hy
    rw [cells_append, List.mem_append, cells_cons, List.mem_cons, ← hx₀] at hy
    rcases hy with hy | hy | hy
    · exact absurd hy hpre.not_used
    · exact (Prod.mk.inj hy).1
    · exact absurd hy hpost.not_used
  · exact fun y t hy => absurd hy (AtMostOneFree.not_used (Or.inr ⟨v, rfl⟩))

/-! ## `blk_trim_used` -/

/-- A used block at the front is left out of the hand. -/
theorem Focus.dropFirst (Φ : Hand h len pool p l₁ ((a, false) :: mid) l₂ b n) :
    Hand h len pool p (l₁ ++ [(a, false)]) mid l₂ (b + 8 + a) n := by
  have hstart := Φ.start
  have hstop := Φ.stop
  rw [span_cons] at hstop
  have hcell : Cell h.poolStart pool b (a, false) := Φ.cell List.mem_cons_self
  refine ⟨Φ.rep.window fun y t hy => ?_, Φ.mem, ?_, ?_, ?_, fun y hlo hhi => ⟨hlo, hhi⟩⟩
  · constructor
    · exact fun hin => ⟨by have := hin.1; omega, hin.2⟩
    · rintro ⟨hlo, hhi⟩
      refine ⟨Nat.le_of_not_lt fun hlt => ?_, hhi⟩
      exact Bool.noConfusion (Prod.mk.inj (Φ.rep.eq_of_in hcell hy ⟨hlo, hlt⟩).2).2
  · rw [Φ.split]
    simp only [List.append_assoc, List.cons_append, List.nil_append]
  · simp only [span_append, span_cons, span_nil]
    omega
  · simp only at hstop
    omega

/-- **`blk_trim_used`** cuts off what is not needed and joins it with a free block behind. -/
theorem Focus.trimUsed (Φ : Hand h len pool p l₁ [(s, false)] l₂ b n)
    (hno : NoAdjacent false l₂) (ha : a % 4 = 0) (h24 : 24 ≤ a) (has : a ≤ s) :
    ∃ t r post l₃ n', a ≤ t ∧ AtMostOneFree r ∧ AtMostOneFree post ∧ l₂ = post ++ l₃ ∧
      NoAdjacent false (r ++ l₃) ∧ n' = n + span post ∧ n' = b + span ((t, false) :: r) ∧
      Rep (h.blkTrimUsed b a) len (setMid pool p l₁ ((t, false) :: r) l₃) Nothing ∧
      Keeps (In b n') h pool (h.blkTrimUsed b a) (setMid pool p l₁ ((t, false) :: r) l₃) ∧
      ∀ i, b + 16 ≤ i → i < b + 16 + a → (h.blkTrimUsed b a).mem i = h.mem i := by
  have hstop := Φ.stop
  simp only [span_cons, span_nil] at hstop
  have H : Header h.mem b s false (lastFree false l₁) := Φ.seg.1.1
  by_cases hsplit : s ≥ 32 + a
  · obtain ⟨hrem, Φ₁, K₁, hbytes₁⟩ := Φ.splitUsed ha h24 (by omega)
    have hcell := Φ₁.cell (x := b) (c := (a, false)) List.mem_cons_self
    obtain ⟨post, l₃, u, n', hl₂, hpost, hno₃, hu, hn', hfst, Φ₂, K₂⟩ :=
      Φ₁.dropFirst.mergeNext hno
    obtain ⟨R, K₃⟩ := Φ₂.insertAll
    have htrim : h.blkTrimUsed b a = (((h.blkSplit b a).2.blkSetPrevUsed
        (b + 8 + a)).blkMergeNext (b + 8 + a)).2.blkInsert (b + 8 + a) := by
      rw [Heap.blkTrimUsed, blkCanSplit_eq H, if_pos (decide_eq_true hsplit)]
      simp only [hrem, hfst]
    have hpool : setMid (setMid pool p l₁ [(a, false), (s - (a + 8), true)] l₂) p
        (l₁ ++ [(a, false)]) [(u, true)] l₃ = setMid pool p l₁ [(a, false), (u, true)] l₃ := by
      rw [setMid_setMid]
      exact setMid_eq (by simp)
    rw [hpool] at K₂ R K₃
    have hout : ¬ In (b + 8 + a) n' b := fun hin => by
      have := hin.1
      omega
    rw [htrim]
    refine ⟨a, [(u, true)], post, l₃, n', Nat.le_refl a, Or.inr ⟨u, rfl⟩, hpost, hl₂,
      ⟨fun hc => Bool.false_ne_true hc.1, hno₃⟩, hn', ?_, R, ?_, fun i hlo hhi => ?_⟩
    · simp only [span_cons, span_nil]
      omega
    · exact ((K₁.mono fun y hy => ⟨hy.1, by have := hy.2; omega⟩).trans
        (K₂.mono fun y hy => ⟨by have := hy.1; omega, hy.2⟩)).trans K₃.of_nothing
    · rw [K₃.bytes b a id ((K₂.used b a hout).mpr hcell) i hlo hhi,
        K₂.bytes b a hout hcell i hlo hhi, hbytes₁ i hlo hhi]
  · have htrim : h.blkTrimUsed b a = h := by
      rw [Heap.blkTrimUsed, blkCanSplit_eq H, decide_eq_false hsplit]
      rfl
    rw [htrim]
    refine ⟨s, [], [], l₂, n, has, Or.inl rfl, Or.inl rfl, rfl, hno, rfl, ?_, ?_, ?_,
      fun i _ _ => rfl⟩
    · simp only [span_cons, span_nil]
      omega
    · rw [Φ.setMid_self]
      exact Φ.release (by simp)
    · rw [Φ.setMid_self]
      exact Keeps.refl _ _ _

/-! ## `nod_mmheap_realloc` -/

/-- **The used block at `x` has room for `a` bytes now.** -/
def Resized (h : Heap) (len : Nat → Nat) (pool : Nat → List Blk) (x a : Nat) (h' : Heap) : Prop :=
  ∃ pool' t, Inv h' len pool' ∧ Cell h'.poolStart pool' x (t, false) ∧ a ≤ t ∧
    Keeps (fun y => y = x) h pool h' pool'

/-- A used block, perhaps with the free one behind it, is trimmed. -/
theorem Resized.of_trimUsed (grown : List Blk) {h₁ : Heap} (I : Inv h len pool)
    (hp : p ∈ h.poolStart) (hl : pool p = l₁ ++ ((s, false) :: grown) ++ l₂)
    (hgrown : AtMostOneFree grown) (hx : x = p - 8 + span l₁)
    (hn : n = x + span ((s, false) :: grown))
    (Φ : Hand h₁ len (setMid pool p l₁ [(t, false)] l₂) p l₁ [(t, false)] l₂ x n)
    (K : Keeps (In x n) h pool h₁ (setMid pool p l₁ [(t, false)] l₂)) (ha : a % 4 = 0)
    (h24 : 24 ≤ a) (hat : a ≤ t) :
    Resized h len pool x a (h₁.blkTrimUsed x a) ∧
      ∀ i, x + 16 ≤ i → i < x + 16 + a → (h₁.blkTrimUsed x a).mem i = h₁.mem i := by
  have hno := I.noAdjacent p hp
  rw [hl, List.append_assoc, noAdjacent_append] at hno
  obtain ⟨hno₁, -, hno₂⟩ := hno
  obtain ⟨v, r, post, l₃, n', hav, hr, hpost, hl₂, hno₃, hn', hspan', R, K', hbytes⟩ :=
    Φ.trimUsed (noAdjacent_append.mp hno₂).2.weaken ha h24 hat
  rw [setMid_setMid] at R K'
  have hsplit : pool p = l₁ ++ ((s, false) :: (grown ++ post)) ++ l₃ := by
    rw [hl, hl₂]
    simp
  have hsplit' : setMid pool p l₁ ((v, false) :: r) l₃ p = l₁ ++ ((v, false) :: r) ++ l₃ :=
    setMid_self_apply
  have hno : NoAdjacent false (l₁ ++ ((v, false) :: r) ++ l₃) := by
    rw [List.append_assoc, noAdjacent_append]
    exact ⟨hno₁, fun hc => Bool.false_ne_true hc.2, hno₃⟩
  have hspan : n' = x + span ((s, false) :: (grown ++ post)) := by
    rw [span_cons] at hn ⊢
    rw [span_append]
    omega
  have hwide := (K.mono fun y hy => show In x n' y from ⟨hy.1, by have := hy.2; omega⟩).trans K'
  refine ⟨⟨_, v, I.of_setMid hwide.pools R hno, ?_, hav, ?_⟩, hbytes⟩
  · refine ⟨p, hwide.pools ▸ hp, ?_⟩
    rw [hsplit', hx, List.append_assoc]
    exact mem_cells_split
  · refine hwide.narrow_window I.rep R hp hsplit hsplit' hx hspan hspan' ?_ ?_
    · intro y u hy
      rw [cells_cons, cells_append, List.mem_cons, List.mem_append] at hy
      rcases hy with hy | hy | hy
      · exact (Prod.mk.inj hy).1
      · exact absurd hy hgrown.not_used
      · exact absurd hy hpost.not_used
    · intro y u hy
      rw [cells_cons, List.mem_cons] at hy
      rcases hy with hy | hy
      · exact (Prod.mk.inj hy).1
      · exact absurd hy hr.not_used

end NoDrop.Mmheap
