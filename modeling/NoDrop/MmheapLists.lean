import NoDrop.MmheapLayout
import NoDrop.Lib.Links

/-! # The free lists and the bitmaps

`Listed h F lists` says that the lists of the heap hold exactly the blocks of `F`, each in the
list for its size, that they are linked both ways between `block_null` and `block_null`, and that
the bitmaps show which of them are empty.  `F` is any set of blocks, not only the free ones:
while an operation is at work, the blocks it has in hand are in no list.

`insert_free_block` and `remove_free_block` are the two edits of `Links`.  `block_null` is the
neighbour of every first and last block, so its own links are overwritten all the time; nobody
reads them.
-/
namespace NoDrop.Mmheap

open Bytes

/-! ## Link fields -/

/-- Two headers are the same or do not share a link. -/
def Apart (x y : Nat) : Prop := x = y ∨ x + 16 ≤ y ∨ y + 16 ≤ x

section Fields

variable {h : Heap} {a y v : Nat}

theorem nextFree_setNextFree (ha : Apart a y) (hv : v < 2 ^ 64) :
    (h.setNextFree a v).nextFree y = if y = a then v else h.nextFree y := by
  by_cases hy : y = a
  · rw [if_pos hy, hy]
    exact Image.word_setWord hv
  · rw [if_neg hy]
    exact Image.word_setWord_of_apart (by rcases ha with ha | ha | ha <;> omega)

theorem prevFree_setPrevFree (ha : Apart a y) (hv : v < 2 ^ 64) :
    (h.setPrevFree a v).prevFree y = if y = a then v else h.prevFree y := by
  by_cases hy : y = a
  · rw [if_pos hy, hy]
    exact Image.word_setWord hv
  · rw [if_neg hy]
    exact Image.word_setWord_of_apart (by rcases ha with ha | ha | ha <;> omega)

theorem nextFree_setPrevFree (ha : Apart a y) : (h.setPrevFree a v).nextFree y = h.nextFree y :=
  Image.word_setWord_of_apart (by rcases ha with ha | ha | ha <;> omega)

theorem prevFree_setNextFree (ha : Apart a y) : (h.setNextFree a v).prevFree y = h.prevFree y :=
  Image.word_setWord_of_apart (by rcases ha with ha | ha | ha <;> omega)

end Fields

/-! ## Bits -/

section Bits

variable {x : BitVec 32} {i k : Nat}

theorem getLsbD_setBit (hk : k < 32) :
    (x ||| (1#32 <<< k)).getLsbD i = true ↔ x.getLsbD i = true ∨ i = k := by
  rw [BitVec.getLsbD_or, ← BitVec.twoPow, BitVec.getLsbD_twoPow]
  have hcomm : k = i ↔ i = k := eq_comm
  simp [hk, hcomm]

theorem getLsbD_clearBit (hk : k < 32) :
    (x &&& ~~~(1#32 <<< k)).getLsbD i = true ↔ x.getLsbD i = true ∧ i ≠ k := by
  rw [BitVec.getLsbD_and, BitVec.getLsbD_not, ← BitVec.twoPow, BitVec.getLsbD_twoPow]
  constructor
  · intro hbit
    rw [Bool.and_eq_true] at hbit
    refine ⟨hbit.1, ?_⟩
    rintro rfl
    simp [hk] at hbit
  · rintro ⟨hbit, hne⟩
    simp [hbit, BitVec.lt_of_getLsbD hbit, hk, hne.symm]

theorem getLsbD_from (k : Nat) : (x &&& (BitVec.allOnes 32 <<< k)).getLsbD i = true ↔
    x.getLsbD i = true ∧ k ≤ i := by
  rw [BitVec.getLsbD_and, BitVec.getLsbD_shiftLeft, BitVec.getLsbD_allOnes]
  constructor
  · intro hbit
    simp only [Bool.and_eq_true, Bool.not_eq_true', decide_eq_true_eq, decide_eq_false_iff_not] at hbit
    exact ⟨hbit.1, by omega⟩
  · rintro ⟨hbit, hle⟩
    have hi := BitVec.lt_of_getLsbD hbit
    simp [hbit, hi, hle]
    omega

theorem eq_zero_iff_getLsbD : x = 0 ↔ ∀ i, ¬ x.getLsbD i = true := by
  constructor
  · rintro rfl i
    simp
  · intro hno
    exact BitVec.eq_of_getLsbD_eq fun i _ => by simpa using hno i

end Bits

/-! ## The lists -/

/-- Where listed blocks are: apart from each other and from `block_null`. -/
structure Spaced (null : Nat) (F : Nat → Nat → Prop) : Prop where
  null_lt : null < 2 ^ 64
  lt : ∀ x s, F x s → x < 2 ^ 64
  small : ∀ x s, F x s → s < 2 ^ 30
  unique : ∀ x s t, F x s → F x t → s = t
  apart : ∀ x s y t, F x s → F y t → Apart x y
  null_apart : ∀ x s, F x s → x + 16 ≤ null ∨ null + 16 ≤ x

/-- **The lists hold exactly the blocks of `F`, each once and in the list for its size, and the
bitmaps show which lists have a block.** -/
structure Listed (h : Heap) (F : Nat → Nat → Prop) (lists : Nat → Nat → List Nat) : Prop where
  links : ∀ fl sl, Links h.nextFree h.prevFree h.blockNull (lists fl sl) h.blockNull
  head : ∀ fl sl, fl < flIndexCount → sl < slIndexCount →
    h.blocks fl sl = (lists fl sl).headD h.blockNull
  nodup : ∀ fl sl, (lists fl sl).Nodup
  mem : ∀ fl sl x, x ∈ lists fl sl ↔ ∃ s, F x s ∧ mappingInsert s = (fl, sl)
  slBit : ∀ fl sl, fl < flIndexCount →
    ((h.slBitmap fl).getLsbD sl = true ↔ lists fl sl ≠ [])
  flBit : ∀ fl, h.flBitmap.getLsbD fl = true ↔ ∃ sl, lists fl sl ≠ []

variable {h : Heap} {F F' : Nat → Nat → Prop} {lists : Nat → Nat → List Nat} {x s fl sl : Nat}

namespace Spaced

variable {null : Nat}

/-- A listed block or `block_null`. -/
def Node (null : Nat) (F : Nat → Nat → Prop) (y : Nat) : Prop := y = null ∨ ∃ t, F y t

theorem node_apart (G : Spaced null F) {y z : Nat} (hy : Node null F y) (hz : Node null F z) :
    Apart y z := by
  rcases hy with rfl | ⟨t, hy⟩ <;> rcases hz with rfl | ⟨u, hz⟩
  · exact Or.inl rfl
  · rcases G.null_apart z u hz with h | h
    · exact Or.inr (Or.inr h)
    · exact Or.inr (Or.inl h)
  · rcases G.null_apart y t hy with h | h
    · exact Or.inr (Or.inl h)
    · exact Or.inr (Or.inr h)
  · exact G.apart y t z u hy hz

theorem node_lt (G : Spaced null F) {y : Nat} (hy : Node null F y) : y < 2 ^ 64 := by
  rcases hy with rfl | ⟨t, hy⟩
  · exact G.null_lt
  · exact G.lt y t hy

theorem mono (G : Spaced null F') (hsub : ∀ y t, F y t → F' y t) : Spaced null F where
  null_lt := G.null_lt
  lt y t hy := G.lt y t (hsub y t hy)
  small y t hy := G.small y t (hsub y t hy)
  unique y t u hy hy' := G.unique y t u (hsub y t hy) (hsub y u hy')
  apart y t z u hy hz := G.apart y t z u (hsub y t hy) (hsub z u hz)
  null_apart y t hy := G.null_apart y t (hsub y t hy)

theorem ne_null (G : Spaced null F) (hx : F x s) : x ≠ null := by
  have := G.null_apart x s hx
  omega

end Spaced

namespace Listed

open Spaced

theorem node_of_mem (L : Listed h F lists) {y : Nat} (hy : y ∈ lists fl sl) :
    Node h.blockNull F y := by
  obtain ⟨s, hs, -⟩ := (L.mem fl sl y).mp hy
  exact Or.inr ⟨s, hs⟩

theorem null_notMem (L : Listed h F lists) (G : Spaced h.blockNull F) :
    h.blockNull ∉ lists fl sl := by
  intro hmem
  obtain ⟨s, hs, -⟩ := (L.mem fl sl _).mp hmem
  exact G.ne_null hs rfl

/-- The list of a size that blocks have. -/
theorem class_lt (L : Listed h F lists) (G : Spaced h.blockNull F) (hne : lists fl sl ≠ []) :
    fl < flIndexCount ∧ sl < slIndexCount := by
  obtain ⟨y, hy⟩ := List.exists_mem_of_ne_nil _ hne
  obtain ⟨s, hs, hc⟩ := (L.mem fl sl y).mp hy
  have := mappingInsert_lt (G.small y s hs)
  rwa [hc] at this

/-- A list is empty if its head is `block_null`. -/
theorem blocks_eq_null (L : Listed h F lists) (G : Spaced h.blockNull F) (hfl : fl < flIndexCount)
    (hsl : sl < slIndexCount) : h.blocks fl sl = h.blockNull ↔ lists fl sl = [] := by
  rw [L.head fl sl hfl hsl]
  cases hl : lists fl sl with
  | nil => simp
  | cons y l =>
    have hy : y ∈ lists fl sl := hl ▸ List.mem_cons_self
    constructor
    · intro hnull
      have hnull : y = h.blockNull := hnull
      rw [hnull] at hy
      exact absurd hy (L.null_notMem G)
    · exact fun hc => absurd hc (List.cons_ne_nil y l)

/-- A block is in one list only. -/
theorem class_unique (L : Listed h F lists) (G : Spaced h.blockNull F) {i j i' j' y : Nat}
    (hy : y ∈ lists i j) (hy' : y ∈ lists i' j') : i = i' ∧ j = j' := by
  obtain ⟨t, ht, hc⟩ := (L.mem i j y).mp hy
  obtain ⟨u, hu, hc'⟩ := (L.mem i' j' y).mp hy'
  rw [G.unique y t u ht hu, hc'] at hc
  exact ⟨(Prod.mk.inj hc).1.symm, (Prod.mk.inj hc).2.symm⟩

/-- **Only links, `block_null` and the bitmaps matter.** -/
theorem congr (L : Listed h F lists) {h' : Heap} (hnull : h'.blockNull = h.blockNull)
    (hblocks : h'.blocks = h.blocks) (hfl : h'.flBitmap = h.flBitmap)
    (hsl : h'.slBitmap = h.slBitmap)
    (hmem : ∀ y s, F y s → ∀ i, y + 16 ≤ i → i < y + 32 → h'.mem i = h.mem i) :
    Listed h' F lists where
  links fl sl := by
    rw [hnull]
    refine (L.links fl sl).congr (fun y hy => ?_) (fun y hy => ?_)
    all_goals
      obtain ⟨s, hs, -⟩ := (L.mem fl sl y).mp hy
      exact Image.word_congr fun i hlo hhi => hmem y s hs i (by omega) (by omega)
  head fl sl hfl' hsl' := by rw [hblocks, hnull, L.head fl sl hfl' hsl']
  nodup := L.nodup
  mem := L.mem
  slBit fl sl hfl' := by rw [hsl, L.slBit fl sl hfl']
  flBit fl := by rw [hfl, L.flBit fl]

/-- The same blocks by another name. -/
theorem rename (L : Listed h F lists) (hF : ∀ y t, F' y t ↔ F y t) : Listed h F' lists :=
  { L with mem := fun fl sl y => by simp only [L.mem, hF] }

theorem head_node (L : Listed h F lists) (hfl : fl < flIndexCount) (hsl : sl < slIndexCount) :
    Node h.blockNull F (h.blocks fl sl) := by
  rw [L.head fl sl hfl hsl]
  cases hl : lists fl sl with
  | nil => exact Or.inl rfl
  | cons y l =>
    have hy : y ∈ lists fl sl := by
      rw [hl]
      exact List.mem_cons_self
    exact L.node_of_mem hy

/-! ### Inserting -/

/-- The links after `insert_free_block`. -/
theorem links_insert (G : Spaced h.blockNull F) (hx : F x s) {curr : Nat}
    (hcurr : curr = h.blocks fl sl) (hnode : Node h.blockNull F curr) (hne : curr ≠ x) {y : Nat}
    (hy : Node h.blockNull F y) :
    (h.insertFreeBlock x fl sl).nextFree y = (if y = x then curr else h.nextFree y) ∧
    (h.insertFreeBlock x fl sl).prevFree y =
      if y = curr then x else if y = x then h.blockNull else h.prevFree y := by
  have hxn : Node h.blockNull F x := Or.inr ⟨s, hx⟩
  have hxy := G.node_apart hxn hy
  have hcy := G.node_apart hnode hy
  subst hcurr
  constructor
  · show (((h.setNextFree x _).setPrevFree x _).setPrevFree _ x).nextFree y = _
    rw [nextFree_setPrevFree hcy, nextFree_setPrevFree hxy,
      nextFree_setNextFree hxy (G.node_lt hnode)]
  · show (((h.setNextFree x _).setPrevFree x h.blockNull).setPrevFree _ x).prevFree y = _
    rw [prevFree_setPrevFree hcy (G.node_lt hxn), prevFree_setPrevFree hxy G.null_lt,
      prevFree_setNextFree hxy]

/-- An entry of a table of lists is replaced. -/
theorem update_update_apply (f : Nat → Nat → Nat) (fl sl v i j : Nat) :
    Function.update f fl (Function.update (f fl) sl v) i j = if i = fl ∧ j = sl then v else f i j := by
  by_cases hi : i = fl
  · subst hi
    rw [Function.update_self]
    by_cases hj : j = sl
    · rw [hj, Function.update_self, if_pos ⟨rfl, rfl⟩]
    · rw [Function.update_of_ne hj, if_neg fun h => hj h.2]
  · rw [Function.update_of_ne hi, if_neg fun h => hi h.1]

/-- The blocks that `insert_free_block` may link to are not the new one. -/
theorem head_ne_new (L : Listed h F lists) (hfl : fl < flIndexCount) (hsl : sl < slIndexCount)
    (hnull : x ≠ h.blockNull) (hx : ∀ t, ¬ F x t) : h.blocks fl sl ≠ x := by
  intro heq
  rcases L.head_node hfl hsl with hhead | ⟨t, ht⟩
  · exact hnull (heq.symm.trans hhead)
  · exact hx t (heq ▸ ht)

/-- The head of one list is in no other. -/
theorem class_of_head_mem (L : Listed h F lists) (G : Spaced h.blockNull F)
    (hfl : fl < flIndexCount) (hsl : sl < slIndexCount) {i j : Nat}
    (hmem : h.blocks fl sl ∈ lists i j) : i = fl ∧ j = sl := by
  have hown : h.blocks fl sl ∈ lists fl sl := by
    rw [L.head fl sl hfl hsl] at hmem ⊢
    cases hl : lists fl sl with
    | nil =>
      rw [hl] at hmem
      exact absurd hmem (L.null_notMem G)
    | cons z l => exact List.mem_cons_self
  exact L.class_unique G hmem hown

theorem links_of_insert (L : Listed h F lists) (G : Spaced h.blockNull F')
    (hF : ∀ y t, F y t → F' y t) (hxs : F' x s) (hx : ∀ t, ¬ F x t) (hfl : fl < flIndexCount)
    (hsl : sl < slIndexCount) (i j : Nat) :
    Links (h.insertFreeBlock x fl sl).nextFree (h.insertFreeBlock x fl sl).prevFree h.blockNull
      (if i = fl ∧ j = sl then x :: lists i j else lists i j) h.blockNull := by
  have hsub : ∀ y, Node h.blockNull F y → Node h.blockNull F' y := by
    rintro y (rfl | ⟨t, hy⟩)
    · exact Or.inl rfl
    · exact Or.inr ⟨t, hF y t hy⟩
  have hcx := L.head_ne_new hfl hsl (G.ne_null hxs) hx
  have hcurr := hsub _ (L.head_node hfl hsl)
  have hlink : ∀ y, y ∈ lists i j →
      (h.insertFreeBlock x fl sl).nextFree y = h.nextFree y ∧
      (h.insertFreeBlock x fl sl).prevFree y =
        if y = h.blocks fl sl then x else h.prevFree y := by
    intro y hy
    have hyx : y ≠ x := by
      rintro rfl
      obtain ⟨t, ht, -⟩ := (L.mem i j y).mp hy
      exact hx t ht
    have hl := links_insert G hxs rfl hcurr hcx (hsub y (L.node_of_mem hy))
    simpa only [hyx, if_false] using hl
  by_cases hij : i = fl ∧ j = sl
  · obtain ⟨rfl, rfl⟩ := hij
    rw [if_pos ⟨rfl, rfl⟩]
    have hown := links_insert G hxs rfl hcurr hcx hcurr
    have hownx := links_insert G hxs rfl hcurr hcx (Or.inr ⟨s, hxs⟩)
    have hhead := L.head i j hfl hsl
    refine (L.links i j).push (L.nodup i j) ?_ ?_ (fun y hy => (hlink y hy).1) ?_ ?_
    · rw [hownx.1, if_pos rfl, hhead]
    · rw [hownx.2, if_neg (Ne.symm hcx), if_pos rfl]
    · intro y hy hne
      rw [(hlink y hy).2, if_neg (by rwa [hhead])]
    · intro y hy
      have hyc : y = h.blocks i j := by
        rw [hhead]
        cases hl : lists i j with
        | nil => simp [hl] at hy
        | cons z l => simpa [hl, eq_comm] using hy
      rw [hyc, hown.2, if_pos rfl]
  · rw [if_neg hij]
    refine (L.links i j).congr (fun y hy => (hlink y hy).1) (fun y hy => ?_)
    rw [(hlink y hy).2, if_neg]
    rintro rfl
    exact hij (L.class_of_head_mem (G.mono hF) hfl hsl hy)

/-- The bitmaps after `insert_free_block`: the two bits are set. -/
theorem bits_of_insert (L : Listed h F lists) (hfl : fl < flIndexCount) (hsl : sl < slIndexCount) :
    (∀ i j, i < flIndexCount →
      (((h.insertFreeBlock x fl sl).slBitmap i).getLsbD j = true ↔
        (if i = fl ∧ j = sl then x :: lists i j else lists i j) ≠ [])) ∧
    ∀ i, (h.insertFreeBlock x fl sl).flBitmap.getLsbD i = true ↔
      ∃ j, (if i = fl ∧ j = sl then x :: lists i j else lists i j) ≠ [] := by
  constructor
  · intro i j hi
    show (Function.update h.slBitmap fl (h.slBitmap fl ||| (1#32 <<< sl)) i).getLsbD j = true ↔ _
    by_cases hifl : i = fl
    · subst hifl
      rw [Function.update_self, getLsbD_setBit hsl, L.slBit i j hi]
      by_cases hj : j = sl
      · simp [hj]
      · simp [hj]
    · have hij : ¬ (i = fl ∧ j = sl) := fun h => hifl h.1
      rw [Function.update_of_ne hifl, L.slBit i j hi, if_neg hij]
  · intro i
    show (h.flBitmap ||| (1#32 <<< fl)).getLsbD i = true ↔ _
    have hfl32 : fl < 32 := Nat.lt_trans hfl (by decide)
    rw [getLsbD_setBit hfl32, L.flBit i]
    constructor
    · rintro (⟨j, hj⟩ | rfl)
      · refine ⟨j, ?_⟩
        split
        · exact List.cons_ne_nil _ _
        · exact hj
      · exact ⟨sl, by simp⟩
    · rintro ⟨j, hj⟩
      by_cases hij : i = fl ∧ j = sl
      · exact Or.inr hij.1
      · rw [if_neg hij] at hj
        exact Or.inl ⟨j, hj⟩

/-- **`insert_free_block` puts a block at the front of its list.** -/
theorem insert (L : Listed h F lists) (G : Spaced h.blockNull F')
    (hF : ∀ y t, F' y t ↔ F y t ∨ y = x ∧ t = s) (hx : ∀ t, ¬ F x t)
    (hc : mappingInsert s = (fl, sl)) :
    Listed (h.insertFreeBlock x fl sl) F'
      fun i j => if i = fl ∧ j = sl then x :: lists i j else lists i j := by
  have hxs : F' x s := (hF x s).mpr (Or.inr ⟨rfl, rfl⟩)
  have hclass := mappingInsert_lt (G.small x s hxs)
  rw [hc] at hclass
  obtain ⟨hfl, hsl⟩ := hclass
  obtain ⟨hslb, hflb⟩ := L.bits_of_insert (x := x) hfl hsl
  constructor
  case links => exact L.links_of_insert G (fun y t hy => (hF y t).mpr (Or.inl hy)) hxs hx hfl hsl
  case head =>
    intro i j hi hj
    refine (update_update_apply h.blocks fl sl x i j).trans ?_
    by_cases hij : i = fl ∧ j = sl
    · rw [if_pos hij, if_pos hij]
      rfl
    · rw [if_neg hij, if_neg hij]
      exact L.head i j hi hj
  case nodup =>
    intro i j
    by_cases hij : i = fl ∧ j = sl
    · rw [if_pos hij]
      refine List.nodup_cons.mpr ⟨fun hmem => ?_, L.nodup i j⟩
      obtain ⟨t, ht, -⟩ := (L.mem i j x).mp hmem
      exact hx t ht
    · rw [if_neg hij]
      exact L.nodup i j
  case mem =>
    intro i j y
    have hsplit : (∃ t, F' y t ∧ mappingInsert t = (i, j)) ↔
        y ∈ lists i j ∨ y = x ∧ i = fl ∧ j = sl := by
      rw [L.mem i j y]
      constructor
      · rintro ⟨t, ht, hct⟩
        rcases (hF y t).mp ht with ht | ⟨rfl, rfl⟩
        · exact Or.inl ⟨t, ht, hct⟩
        · rw [hc] at hct
          exact Or.inr ⟨rfl, (Prod.mk.inj hct).1.symm, (Prod.mk.inj hct).2.symm⟩
      · rintro (⟨t, ht, hct⟩ | ⟨rfl, rfl, rfl⟩)
        · exact ⟨t, (hF y t).mpr (Or.inl ht), hct⟩
        · exact ⟨s, hxs, hc⟩
    rw [hsplit]
    by_cases hij : i = fl ∧ j = sl
    · simp only [hij, and_self, if_true, List.mem_cons, and_true]
      exact or_comm
    · simp [hij]
  case slBit => exact hslb
  case flBit => exact hflb

/-! ### Removing -/

/-- A new head is an entry of the table, whatever becomes of the bitmaps. -/
theorem setHead_eq (h : Heap) (fl sl next : Nat) : ∃ flBitmap slBitmap, h.setHead fl sl next =
    { h with
      blocks := Function.update h.blocks fl (Function.update (h.blocks fl) sl next)
      flBitmap := flBitmap
      slBitmap := slBitmap } := by
  unfold Heap.setHead
  simp only
  split
  · split
    · exact ⟨_, _, rfl⟩
    · exact ⟨_, _, rfl⟩
  · exact ⟨_, _, rfl⟩

theorem setHead_mem (h : Heap) (fl sl next : Nat) : (h.setHead fl sl next).mem = h.mem := by
  obtain ⟨_, _, hs⟩ := setHead_eq h fl sl next
  rw [hs]

theorem setHead_blockNull (h : Heap) (fl sl next : Nat) :
    (h.setHead fl sl next).blockNull = h.blockNull := by
  obtain ⟨_, _, hs⟩ := setHead_eq h fl sl next
  rw [hs]

theorem setHead_poolStart (h : Heap) (fl sl next : Nat) :
    (h.setHead fl sl next).poolStart = h.poolStart := by
  obtain ⟨_, _, hs⟩ := setHead_eq h fl sl next
  rw [hs]

theorem setHead_blocks (h : Heap) (fl sl next i j : Nat) :
    (h.setHead fl sl next).blocks i j = if i = fl ∧ j = sl then next else h.blocks i j := by
  obtain ⟨_, _, hs⟩ := setHead_eq h fl sl next
  rw [hs]
  exact update_update_apply h.blocks fl sl next i j

/-- The bitmaps after the last block of a list has been taken. -/
theorem setHead_bits (h : Heap) {fl sl : Nat} (hfl : fl < 32) (hsl : sl < 32) :
    (∀ i j, ((h.setHead fl sl h.blockNull).slBitmap i).getLsbD j = true ↔
      (h.slBitmap i).getLsbD j = true ∧ ¬ (i = fl ∧ j = sl)) ∧
    ∀ i, (h.setHead fl sl h.blockNull).flBitmap.getLsbD i = true ↔
      h.flBitmap.getLsbD i = true ∧
        (i = fl → ∃ j, (h.slBitmap fl).getLsbD j = true ∧ j ≠ sl) := by
  have hsl' : ∀ i j, (Function.update h.slBitmap fl
      (h.slBitmap fl &&& ~~~(1#32 <<< sl)) i).getLsbD j = true ↔
      (h.slBitmap i).getLsbD j = true ∧ ¬ (i = fl ∧ j = sl) := by
    intro i j
    by_cases hi : i = fl
    · subst hi
      rw [Function.update_self, getLsbD_clearBit hsl]
      simp
    · rw [Function.update_of_ne hi]
      simp [hi]
  unfold Heap.setHead
  simp only [if_true, Function.update_self]
  by_cases hz : h.slBitmap fl &&& ~~~(1#32 <<< sl) = 0
  · rw [if_pos hz]
    refine ⟨hsl', fun i => ?_⟩
    show (h.flBitmap &&& ~~~(1#32 <<< fl)).getLsbD i = true ↔ _
    rw [getLsbD_clearBit hfl]
    refine and_congr_right fun _ => ⟨fun hne heq => absurd heq hne, fun hex heq => ?_⟩
    obtain ⟨j, hj, hne⟩ := hex heq
    exact eq_zero_iff_getLsbD.mp hz j ((getLsbD_clearBit hsl).mpr ⟨hj, hne⟩)
  · rw [if_neg hz]
    refine ⟨hsl', fun i => ?_⟩
    show h.flBitmap.getLsbD i = true ↔ _
    refine (and_iff_left fun _ => ?_).symm
    rw [eq_zero_iff_getLsbD] at hz
    simp only [not_forall, not_not] at hz
    obtain ⟨j, hj⟩ := hz
    exact ⟨j, (getLsbD_clearBit hsl).mp hj⟩

theorem setHead_bits_of_ne (h : Heap) {next : Nat} (hne : next ≠ h.blockNull) :
    (h.setHead fl sl next).slBitmap = h.slBitmap ∧
    (h.setHead fl sl next).flBitmap = h.flBitmap := by
  unfold Heap.setHead
  simp only [hne, if_false, and_self]

/-- What `remove_free_block` does before it looks at the head: the neighbours are linked. -/
def bypass (h : Heap) (x : Nat) : Heap :=
  (h.setPrevFree (h.nextFree x) (h.prevFree x)).setNextFree (h.prevFree x) (h.nextFree x)

theorem removeFreeBlock_eq (h : Heap) (x fl sl : Nat) : h.removeFreeBlock x fl sl =
    if h.blocks fl sl = x then (bypass h x).setHead fl sl (h.nextFree x) else bypass h x := rfl

/-- The neighbours of a listed block. -/
theorem neighbours (L : Listed h F lists) {l₁ l₂ : List Nat} (hl : lists fl sl = l₁ ++ x :: l₂) :
    h.prevFree x = l₁.getLastD h.blockNull ∧ h.nextFree x = l₂.headD h.blockNull := by
  have hlinks := L.links fl sl
  rw [hl] at hlinks
  exact hlinks.neighbours

theorem neighbours_node (L : Listed h F lists) {l₁ l₂ : List Nat}
    (hl : lists fl sl = l₁ ++ x :: l₂) :
    Node h.blockNull F (h.prevFree x) ∧ Node h.blockNull F (h.nextFree x) := by
  obtain ⟨hprev, hnext⟩ := L.neighbours hl
  have hnode : ∀ y ∈ l₁ ++ x :: l₂, Node h.blockNull F y := by
    intro y hy
    have hmem : y ∈ lists fl sl := by
      rw [hl]
      exact hy
    exact L.node_of_mem hmem
  rw [hprev, hnext]
  constructor
  · cases l₁ using List.reverseRecOn with
    | nil => exact Or.inl rfl
    | append_singleton l z =>
      rw [List.getLastD_concat]
      exact hnode z (by simp)
  · cases l₂ with
    | nil => exact Or.inl rfl
    | cons z l => exact hnode z (by simp)

/-- The links after the neighbours have been linked to each other. -/
theorem links_bypass (L : Listed h F lists) (G : Spaced h.blockNull F) {l₁ l₂ : List Nat}
    (hl : lists fl sl = l₁ ++ x :: l₂) {y : Nat} (hy : Node h.blockNull F y) :
    (bypass h x).nextFree y =
      (if y = l₁.getLastD h.blockNull then l₂.headD h.blockNull else h.nextFree y) ∧
    (bypass h x).prevFree y =
      if y = l₂.headD h.blockNull then l₁.getLastD h.blockNull else h.prevFree y := by
  obtain ⟨hprev, hnext⟩ := L.neighbours_node hl
  have hpy := G.node_apart hprev hy
  have hny := G.node_apart hnext hy
  rw [← (L.neighbours hl).1, ← (L.neighbours hl).2]
  constructor
  · show ((h.setPrevFree _ _).setNextFree _ _).nextFree y = _
    rw [nextFree_setNextFree hpy (G.node_lt hnext), nextFree_setPrevFree hny]
  · show ((h.setPrevFree _ _).setNextFree _ _).prevFree y = _
    rw [prevFree_setNextFree hpy, prevFree_setPrevFree hny (G.node_lt hprev)]

/-- The lists of the bypassed block: its own is shorter, the others are as they were. -/
theorem links_of_bypass (L : Listed h F lists) (G : Spaced h.blockNull F) {l₁ l₂ : List Nat}
    (hl : lists fl sl = l₁ ++ x :: l₂) (i j : Nat) :
    Links (bypass h x).nextFree (bypass h x).prevFree h.blockNull
      (if i = fl ∧ j = sl then l₁ ++ l₂ else lists i j) h.blockNull := by
  have hsub : ∀ y ∈ l₁ ++ l₂, y ∈ lists fl sl := by
    intro y hy
    rw [hl]
    rcases List.mem_append.mp hy with hy | hy
    · exact List.mem_append_left _ hy
    · exact List.mem_append_right _ (List.mem_cons_of_mem x hy)
  have hnull : h.blockNull ∉ l₁ ++ l₂ := fun hmem => L.null_notMem G (hsub _ hmem)
  by_cases hij : i = fl ∧ j = sl
  · rw [if_pos hij]
    have hlinks := L.links fl sl
    have hd := L.nodup fl sl
    rw [hl] at hlinks hd
    have hfields : ∀ y ∈ l₁ ++ l₂, _ := fun y hy =>
      L.links_bypass G hl (L.node_of_mem (hsub y hy))
    refine hlinks.unlink hd ?_ ?_ ?_ ?_ ?_ ?_
    · intro y hy hne
      rw [(hfields y hy).1, if_neg hne]
    · intro y hy hne
      rw [(hfields y hy).2, if_neg hne]
    · intro y hy
      have hmem : y ∈ l₁ ++ l₂ := List.mem_append_left _ (List.mem_of_getLast? hy)
      rw [(hfields y hmem).1, if_pos]
      rw [List.getLastD_eq_getLast?, Option.mem_def.mp hy, Option.getD_some]
    · intro y hy
      have hmem : y ∈ l₁ ++ l₂ := List.mem_append_right _ (List.mem_of_head? hy)
      rw [(hfields y hmem).2, if_pos]
      rw [List.headD_eq_head?_getD, Option.mem_def.mp hy, Option.getD_some]
    · exact fun hmem => hnull (List.mem_append_right _ hmem)
    · exact fun hmem => hnull (List.mem_append_left _ hmem)
  · rw [if_neg hij]
    -- the neighbours are in the list of `x`, or `block_null`
    have hother : ∀ y ∈ lists i j, y ≠ l₁.getLastD h.blockNull ∧ y ≠ l₂.headD h.blockNull := by
      intro y hy
      have hnot : y ∉ lists fl sl := fun hmem => hij (L.class_unique G hy hmem)
      have hyn : y ≠ h.blockNull := fun heq => L.null_notMem G (heq ▸ hy)
      constructor
      · rintro rfl
        cases l₁ using List.reverseRecOn with
        | nil => exact hyn rfl
        | append_singleton l z =>
          rw [List.getLastD_concat] at hnot
          exact hnot (hsub z (by simp))
      · rintro rfl
        cases l₂ with
        | nil => exact hyn rfl
        | cons z l => exact hnot (hsub z (by simp))
    refine (L.links i j).congr (fun y hy => ?_) (fun y hy => ?_)
    · rw [(L.links_bypass G hl (L.node_of_mem hy)).1, if_neg (hother y hy).1]
    · rw [(L.links_bypass G hl (L.node_of_mem hy)).2, if_neg (hother y hy).2]

theorem removeFreeBlock_mem (h : Heap) (x fl sl : Nat) :
    (h.removeFreeBlock x fl sl).mem = (bypass h x).mem := by
  rw [removeFreeBlock_eq]
  split
  · rw [setHead_mem]
  · rfl

theorem removeFreeBlock_blockNull (h : Heap) (x fl sl : Nat) :
    (h.removeFreeBlock x fl sl).blockNull = h.blockNull := by
  rw [removeFreeBlock_eq]
  split
  · rw [setHead_blockNull]
    rfl
  · rfl

theorem removeFreeBlock_poolStart (h : Heap) (x fl sl : Nat) :
    (h.removeFreeBlock x fl sl).poolStart = h.poolStart := by
  rw [removeFreeBlock_eq]
  split
  · rw [setHead_poolStart]
    rfl
  · rfl

/-- Whether the block is the first of its list. -/
theorem head_eq_iff (L : Listed h F lists) (hfl : fl < flIndexCount) (hsl : sl < slIndexCount)
    {l₁ l₂ : List Nat} (hl : lists fl sl = l₁ ++ x :: l₂) : h.blocks fl sl = x ↔ l₁ = [] := by
  rw [L.head fl sl hfl hsl, hl]
  cases l₁ with
  | nil => simp
  | cons y l =>
    have hd := L.nodup fl sl
    rw [hl, List.cons_append, List.nodup_cons] at hd
    simp only [List.cons_append, List.headD_cons, reduceCtorEq, iff_false]
    rintro rfl
    exact hd.1 (by simp)

theorem heads_of_remove (L : Listed h F lists) (hfl : fl < flIndexCount)
    (hsl : sl < slIndexCount) {l₁ l₂ : List Nat} (hl : lists fl sl = l₁ ++ x :: l₂) (i j : Nat) :
    (h.removeFreeBlock x fl sl).blocks i j =
      if i = fl ∧ j = sl then (l₁ ++ l₂).headD h.blockNull else h.blocks i j := by
  rw [removeFreeBlock_eq]
  by_cases hfirst : h.blocks fl sl = x
  · obtain rfl := (L.head_eq_iff hfl hsl hl).mp hfirst
    rw [if_pos hfirst, setHead_blocks, (L.neighbours hl).2]
    rfl
  · rw [if_neg hfirst]
    show h.blocks i j = _
    by_cases hij : i = fl ∧ j = sl
    · rw [if_pos hij, hij.1, hij.2, L.head fl sl hfl hsl, hl]
      cases l₁ with
      | nil => exact absurd ((L.head_eq_iff hfl hsl hl).mpr rfl) hfirst
      | cons y l => rfl
    · rw [if_neg hij]

/-- The bitmaps after `remove_free_block`: the two bits are cleared if the lists are empty. -/
theorem bits_of_remove (L : Listed h F lists) (G : Spaced h.blockNull F)
    (hfl : fl < flIndexCount) (hsl : sl < slIndexCount) {l₁ l₂ : List Nat}
    (hl : lists fl sl = l₁ ++ x :: l₂) :
    (∀ i j, i < flIndexCount →
      (((h.removeFreeBlock x fl sl).slBitmap i).getLsbD j = true ↔
        (if i = fl ∧ j = sl then l₁ ++ l₂ else lists i j) ≠ [])) ∧
    ∀ i, (h.removeFreeBlock x fl sl).flBitmap.getLsbD i = true ↔
      ∃ j, (if i = fl ∧ j = sl then l₁ ++ l₂ else lists i j) ≠ [] := by
  have hne : lists fl sl ≠ [] := by rw [hl]; simp
  rw [removeFreeBlock_eq]
  by_cases hlast : l₁ ++ l₂ = []
  · obtain ⟨rfl, rfl⟩ := List.append_eq_nil_iff.mp hlast
    have hnext : h.nextFree x = (bypass h x).blockNull := (L.neighbours hl).2
    have hfl32 : fl < 32 := Nat.lt_trans hfl (by decide)
    obtain ⟨hslb, hflb⟩ := setHead_bits (bypass h x) hfl32 hsl
    rw [if_pos ((L.head_eq_iff hfl hsl hl).mpr rfl), hnext]
    constructor
    · intro i j hi
      rw [hslb]
      show (h.slBitmap i).getLsbD j = true ∧ _ ↔ _
      rw [L.slBit i j hi]
      by_cases hij : i = fl ∧ j = sl
      · simp [hij]
      · simp [hij]
    · intro i
      rw [hflb]
      show h.flBitmap.getLsbD i = true ∧ (i = fl → ∃ j, (h.slBitmap fl).getLsbD j = true ∧ _) ↔ _
      rw [L.flBit i]
      simp only [L.slBit fl _ hfl]
      by_cases hi : i = fl
      · subst hi
        constructor
        · rintro ⟨-, hex⟩
          obtain ⟨j, hj, hjne⟩ := hex rfl
          exact ⟨j, by simpa [hjne] using hj⟩
        · rintro ⟨j, hj⟩
          by_cases hjsl : j = sl
          · simp [hjsl] at hj
          · rw [if_neg fun h => hjsl h.2] at hj
            exact ⟨⟨j, hj⟩, fun _ => ⟨j, hj, hjsl⟩⟩
      · simp [hi]
  · -- the list keeps a block, and no bit changes
    have hsame : ∀ i j, (if i = fl ∧ j = sl then l₁ ++ l₂ else lists i j) ≠ [] ↔
        lists i j ≠ [] := by
      intro i j
      by_cases hij : i = fl ∧ j = sl
      · rw [if_pos hij, hij.1, hij.2]
        exact iff_of_true hlast hne
      · rw [if_neg hij]
    have hbits : ∀ h' : Heap, h' = (if h.blocks fl sl = x then
        (bypass h x).setHead fl sl (h.nextFree x) else bypass h x) →
        h'.slBitmap = h.slBitmap ∧ h'.flBitmap = h.flBitmap := by
      rintro h' rfl
      by_cases hfirst : h.blocks fl sl = x
      · obtain rfl := (L.head_eq_iff hfl hsl hl).mp hfirst
        rw [if_pos hfirst]
        refine setHead_bits_of_ne _ ?_
        rw [(L.neighbours hl).2]
        intro hnull
        cases l₂ with
        | nil => exact hlast rfl
        | cons z l =>
          have hmem : h.blockNull ∈ lists fl sl := by
            rw [hl, ← show z = h.blockNull from hnull]
            simp
          exact L.null_notMem G hmem
      · rw [if_neg hfirst]
        exact ⟨rfl, rfl⟩
    obtain ⟨hs, hf⟩ := hbits _ rfl
    rw [hs, hf]
    constructor
    · intro i j hi
      rw [hsame, L.slBit i j hi]
    · intro i
      simp only [hsame]
      exact L.flBit i

/-- **`remove_free_block` takes a block out of its list.** -/
theorem remove (L : Listed h F lists) (G : Spaced h.blockNull F) (hx : F x s)
    (hc : mappingInsert s = (fl, sl)) (hF : ∀ y t, F' y t ↔ F y t ∧ y ≠ x) :
    ∃ lists', Listed (h.removeFreeBlock x fl sl) F' lists' := by
  have hclass := mappingInsert_lt (G.small x s hx)
  rw [hc] at hclass
  obtain ⟨hfl, hsl⟩ := hclass
  obtain ⟨l₁, l₂, hl⟩ := List.append_of_mem ((L.mem fl sl x).mpr ⟨s, hx, hc⟩)
  obtain ⟨hslb, hflb⟩ := L.bits_of_remove G hfl hsl hl
  have hd := L.nodup fl sl
  rw [hl, List.nodup_append, List.nodup_cons] at hd
  refine ⟨fun i j => if i = fl ∧ j = sl then l₁ ++ l₂ else lists i j, ?_⟩
  constructor
  case links =>
    intro i j
    have hnext : (h.removeFreeBlock x fl sl).nextFree = (bypass h x).nextFree := by
      funext y
      rw [Heap.nextFree, removeFreeBlock_mem]
      rfl
    have hprev : (h.removeFreeBlock x fl sl).prevFree = (bypass h x).prevFree := by
      funext y
      rw [Heap.prevFree, removeFreeBlock_mem]
      rfl
    rw [removeFreeBlock_blockNull, hnext, hprev]
    exact L.links_of_bypass G hl i j
  case head =>
    intro i j hi hj
    rw [L.heads_of_remove hfl hsl hl, removeFreeBlock_blockNull, L.head i j hi hj]
    split <;> rfl
  case nodup =>
    intro i j
    split
    · exact List.nodup_append.mpr ⟨hd.1, hd.2.1.2, fun y hy z hz =>
        hd.2.2 y hy z (List.mem_cons_of_mem x hz)⟩
    · exact L.nodup i j
  case mem =>
    intro i j y
    have hF' : (∃ t, F' y t ∧ mappingInsert t = (i, j)) ↔ y ∈ lists i j ∧ y ≠ x := by
      rw [L.mem i j y]
      constructor
      · rintro ⟨t, ht, hct⟩
        obtain ⟨ht, hne⟩ := (hF y t).mp ht
        exact ⟨⟨t, ht, hct⟩, hne⟩
      · rintro ⟨⟨t, ht, hct⟩, hne⟩
        exact ⟨t, (hF y t).mpr ⟨ht, hne⟩, hct⟩
    rw [hF']
    by_cases hij : i = fl ∧ j = sl
    · rw [if_pos hij, hij.1, hij.2, hl]
      have hx₁ : x ∉ l₁ := fun hmem => hd.2.2 x hmem x List.mem_cons_self rfl
      constructor
      · intro hy
        refine ⟨?_, ?_⟩
        · rcases List.mem_append.mp hy with hy | hy
          · exact List.mem_append_left _ hy
          · exact List.mem_append_right _ (List.mem_cons_of_mem x hy)
        · rintro rfl
          rcases List.mem_append.mp hy with hy | hy
          · exact hx₁ hy
          · exact hd.2.1.1 hy
      · rintro ⟨hy, hne⟩
        rcases List.mem_append.mp hy with hy | hy
        · exact List.mem_append_left _ hy
        · exact List.mem_append_right _ ((List.mem_cons.mp hy).resolve_left hne)
    · rw [if_neg hij]
      refine ⟨fun hy => ⟨hy, ?_⟩, And.left⟩
      rintro rfl
      exact hij (L.class_unique G hy (by rw [hl]; simp))
  case slBit => exact hslb
  case flBit => exact hflb

/-! ### Searching -/

/-- The first list at or behind `(fl, sl)` that has a block, and its first block. -/
def Suitable (lists : Nat → Nat → List Nat) (fl sl : Nat) (r : Nat × Nat × Nat) : Prop :=
  ClassLe (fl, sl) r.2 ∧ (lists r.2.1 r.2.2).head? = some r.1 ∧
    ∀ i j, ClassLe (fl, sl) (i, j) → lists i j ≠ [] → ClassLe r.2 (i, j)

theorem suitable_of_ne (L : Listed h F lists) (G : Spaced h.blockNull F) {i j : Nat}
    (hne : lists i j ≠ []) (hle : ClassLe (fl, sl) (i, j))
    (hmin : ∀ i' j', ClassLe (fl, sl) (i', j') → lists i' j' ≠ [] → ClassLe (i, j) (i', j')) :
    Suitable lists fl sl (h.blocks i j, i, j) := by
  obtain ⟨hi, hj⟩ := L.class_lt G hne
  refine ⟨hle, ?_, hmin⟩
  show (lists i j).head? = some (h.blocks i j)
  rw [L.head i j hi hj]
  cases hl : lists i j with
  | nil => exact absurd hl hne
  | cons y l => rfl

/-- **`blk_search_suitable` finds the first list that has a block**, if there is one. -/
theorem search (L : Listed h F lists) (G : Spaced h.blockNull F) (sl : Nat)
    (hfl : fl < flIndexCount) :
    Suitable lists fl sl (h.blkSearchSuitable fl sl) ∨
      (h.blkSearchSuitable fl sl).1 = 0 ∧ ∀ i j, ClassLe (fl, sl) (i, j) → lists i j = [] := by
  unfold Heap.blkSearchSuitable
  simp only
  by_cases hslMap : h.slBitmap fl &&& (BitVec.allOnes 32 <<< sl) = 0
  · rw [if_pos hslMap]
    have hrow : ∀ j, sl ≤ j → lists fl j = [] := by
      intro j hj
      by_contra hne
      exact eq_zero_iff_getLsbD.mp hslMap j
        ((getLsbD_from sl).mpr ⟨(L.slBit fl j hfl).mpr hne, hj⟩)
    by_cases hflMap : h.flBitmap &&& (BitVec.allOnes 32 <<< (fl + 1)) = 0
    · rw [if_pos hflMap]
      refine Or.inr ⟨rfl, fun i j hle => ?_⟩
      rcases hle with hlt | ⟨heq, hle⟩
      · by_contra hne
        exact eq_zero_iff_getLsbD.mp hflMap i
          ((getLsbD_from (fl + 1)).mpr ⟨(L.flBit i).mpr ⟨j, hne⟩, hlt⟩)
      · obtain rfl : fl = i := heq
        exact hrow j hle
    · rw [if_neg hflMap]
      obtain ⟨-, hbit, hlow⟩ := ffs_spec hflMap
      obtain ⟨hbit, hgt⟩ := (getLsbD_from (fl + 1)).mp hbit
      obtain ⟨j₀, hj₀⟩ := (L.flBit _).mp hbit
      have hi := (L.class_lt G hj₀).1
      have hne : h.slBitmap (ffs (h.flBitmap &&& (BitVec.allOnes 32 <<< (fl + 1)))) ≠ 0 := by
        intro hz
        exact eq_zero_iff_getLsbD.mp hz j₀ ((L.slBit _ j₀ hi).mpr hj₀)
      obtain ⟨-, hsbit, hslow⟩ := ffs_spec hne
      refine Or.inl (L.suitable_of_ne G ((L.slBit _ _ hi).mp hsbit) (Or.inl hgt) ?_)
      intro i j hle hij
      rcases hle with hlt | ⟨heq, hle⟩
      · have hmap : (h.flBitmap &&& (BitVec.allOnes 32 <<< (fl + 1))).getLsbD i = true :=
          (getLsbD_from (fl + 1)).mpr ⟨(L.flBit i).mpr ⟨j, hij⟩, hlt⟩
        rcases Nat.lt_trichotomy (ffs (h.flBitmap &&& (BitVec.allOnes 32 <<< (fl + 1)))) i with
          hlt | heq | hgt
        · exact Or.inl hlt
        · refine Or.inr ⟨heq, Nat.le_of_not_lt fun hjlt => ?_⟩
          have hjbit := hslow j hjlt
          rw [heq] at hjbit hi
          rw [(L.slBit i j hi).mpr hij] at hjbit
          exact Bool.noConfusion hjbit
        · have := hlow i hgt
          rw [hmap] at this
          exact Bool.noConfusion this
      · obtain rfl : fl = i := heq
        exact absurd (hrow j hle) hij
  · rw [if_neg hslMap]
    obtain ⟨-, hbit, hlow⟩ := ffs_spec hslMap
    obtain ⟨hbit, hge⟩ := (getLsbD_from sl).mp hbit
    refine Or.inl (L.suitable_of_ne G ((L.slBit fl _ hfl).mp hbit) (Or.inr ⟨rfl, hge⟩) ?_)
    intro i j hle hij
    rcases hle with hlt | ⟨heq, hle⟩
    · exact Or.inl hlt
    · obtain rfl : fl = i := heq
      refine Or.inr ⟨rfl, Nat.le_of_not_lt fun hjlt => ?_⟩
      have hjbit := hlow j hjlt
      rw [(getLsbD_from sl).mpr ⟨(L.slBit fl j hfl).mpr hij, hle⟩] at hjbit
      exact Bool.noConfusion hjbit

/-! ### What an edit changes -/

/-- `insert_free_block` writes the links of the block, and one of the block that was first. -/
theorem insertFreeBlock_mem {i : Nat} (hx : i < x + 16 ∨ x + 32 ≤ i)
    (hcurr : i < h.blocks fl sl + 24 ∨ h.blocks fl sl + 32 ≤ i) :
    (h.insertFreeBlock x fl sl).mem i = h.mem i := by
  show (((h.mem.setWord (x + 16) _).setWord (x + 24) _).setWord (h.blocks fl sl + 24) _) i = _
  rw [Image.setWord_of_outside (by omega), Image.setWord_of_outside (by omega),
    Image.setWord_of_outside (by omega)]

theorem insert_mem (L : Listed h F lists) (hfl : fl < flIndexCount) (hsl : sl < slIndexCount)
    {i : Nat}
    (hi : ∀ y, Node h.blockNull F y ∨ y = x → i < y + 16 ∨ y + 32 ≤ i) :
    (h.insertFreeBlock x fl sl).mem i = h.mem i := by
  have hx := hi x (Or.inr rfl)
  have hcurr := hi _ (Or.inl (L.head_node hfl hsl))
  exact insertFreeBlock_mem (by omega) (by omega)

theorem remove_mem (L : Listed h F lists) (hx : F x s) (hc : mappingInsert s = (fl, sl)) {i : Nat}
    (hi : ∀ y, Node h.blockNull F y → i < y + 16 ∨ y + 32 ≤ i) :
    (h.removeFreeBlock x fl sl).mem i = h.mem i := by
  obtain ⟨l₁, l₂, hl⟩ := List.append_of_mem ((L.mem fl sl x).mpr ⟨s, hx, hc⟩)
  obtain ⟨hprev, hnext⟩ := L.neighbours_node hl
  have hp := hi _ hprev
  have hn := hi _ hnext
  rw [removeFreeBlock_mem]
  show ((h.mem.setWord (_ + 24) _).setWord (_ + 16) _) i = _
  rw [Image.setWord_of_outside (by omega), Image.setWord_of_outside (by omega)]

end Listed

end NoDrop.Mmheap
