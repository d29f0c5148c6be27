import NoDrop.MmheapPools

/-! # Runs of the allocator

A program initialises the heap with a pool and then calls the allocator as it likes, as long as it
only passes pointers that it has, adds pools that are memory of their own and removes pools in
which it has nothing.  Beside the heap, `Sys` knows what the program knows: how large the pools
are, and which pointers it has, with the sizes it asked for.

`Shape` is what holds after every call.  What the heap is for is said by `Store`, which has for
every pointer the bytes the program keeps there: `Serves` is what a call may do to it, and
`Shape.serves` that it does no more.
-/
namespace NoDrop.Mmheap

open Bytes

/-! ## Calls -/

/-- A call of the allocator, or a write of the program to an allocation. -/
inductive Op where
  | alloc (size : Nat)
  | calloc (num size : Nat)
  | alignedAlloc (size align : Nat)
  | realloc (ptr size : Nat)
  | free (ptr : Nat)
  | poolAdd (start size : Nat)
  | poolRmv (start : Nat)
  | use (ptr off : Nat) (data : List UInt8)
deriving DecidableEq, Repr

/-- The heap, the sizes of its pools, and the sizes of the live allocations. -/
structure Sys where
  heap : Heap
  extent : Nat → Nat
  live : Nat → Option Nat

namespace Sys

variable (s : Sys)

/-- The allocation at `ptr` has become live, unless there is none. -/
def granted (ptr size : Nat) : Nat → Option Nat :=
  if ptr = 0 then s.live else Function.update s.live ptr (some size)

/-- A call and what it returns; 0 where it returns no pointer. -/
def step : Op → Nat × Sys
  | .alloc size =>
      let (ptr, h) := s.heap.nodMmheapAlloc size
      (ptr, { s with heap := h, live := s.granted ptr size })
  | .calloc num size =>
      let (ptr, h) := s.heap.nodMmheapCalloc num size
      (ptr, { s with heap := h, live := s.granted ptr (num * size) })
  | .alignedAlloc size align =>
      let (ptr, h) := s.heap.nodMmheapAlignedAlloc size align
      (ptr, { s with heap := h, live := s.granted ptr size })
  | .realloc ptr size =>
      let (p, h) := s.heap.nodMmheapRealloc ptr size
      let live :=
        if size = 0 then Function.update s.live ptr none
        else if p = 0 then s.live
        else Function.update (Function.update s.live ptr none) p (some size)
      (p, { s with heap := h, live := live })
  | .free ptr =>
      (0, { s with heap := s.heap.nodMmheapFree ptr, live := Function.update s.live ptr none })
  | .poolAdd start size =>
      let (err, h) := s.heap.nodMmheapPoolAdd start size
      let extent := if err = 0 then Function.update s.extent start size else s.extent
      (0, { s with heap := h, extent := extent })
  | .poolRmv start => (0, { s with heap := (s.heap.nodMmheapPoolRmv start).2 })
  | .use ptr off data =>
      (0, { s with heap := { s.heap with mem := s.heap.mem.write ⟨ptr + off, data⟩ } })

/-- The pointer is to a live allocation. -/
def Live (ptr : Nat) : Prop := ∃ size, s.live ptr = some size

/-- **Memory for a pool**, apart from the other pools and from `block_null`, whose usable size is
below 2^30. -/
structure Offered (p n : Nat) : Prop where
  start : 8 < p
  top : p + n ≤ 2 ^ 64
  disjoint : ∀ q ∈ s.heap.poolStart, q ≠ p → q + s.extent q ≤ p ∨ p + n ≤ q
  null : p + n ≤ s.heap.blockNull ∨ s.heap.blockNull + 32 ≤ p
  usable : Heap.sizeAligned n < 2 ^ 30

/-- **What the program may ask for.** -/
def Allowed : Op → Prop
  | .alloc size => size < 2 ^ 64
  | .calloc num size => num * size < 2 ^ 64
  | .alignedAlloc size align => size < 2 ^ 64 ∧ ∃ k < 64, align = 2 ^ k
  | .realloc ptr size => (ptr = 0 ∨ s.Live ptr) ∧ size ≤ blkSizeMax
  | .free ptr => ptr = 0 ∨ s.Live ptr
  | .poolAdd p n => s.Offered p n
  | .poolRmv p => ∀ ptr, s.Live ptr → ¬ (p ≤ ptr ∧ ptr < p + s.extent p)
  | .use ptr off data => ∃ size, s.live ptr = some size ∧ off + data.length ≤ size

/-- After `nod_mmheap_init`. -/
def init (h : Heap) (p n : Nat) : Sys := ⟨(h.nodMmheapInit p n).2, fun _ => n, fun _ => none⟩

end Sys

/-- **The heap after any sequence of calls.**  A pool that is not aligned is refused, so it may be
any. -/
inductive Reachable : Sys → Prop
  | init {h : Heap} {p n : Nat} (hnull : h.blockNull + 32 ≤ 2 ^ 64)
      (hoff : Sys.Offered ⟨h.nodMmheapCtlInit, fun _ => n, fun _ => none⟩ p n) :
      Reachable (Sys.init h p n)
  | step {s : Sys} {op : Op} (hs : Reachable s) (hop : s.Allowed op) : Reachable (s.step op).2

/-! ## What holds after every call -/

/-- The bytes of blocks in a pool. -/
def Sys.len (s : Sys) (p : Nat) : Nat := Heap.sizeAligned (s.extent p) + 8

/-- **The heap has these blocks, and the used ones are the live allocations.** -/
structure Shape (s : Sys) (pool : Nat → List Blk) : Prop where
  inv : Inv s.heap s.len pool
  fits : ∀ p ∈ s.heap.poolStart, 24 ≤ Heap.sizeAligned (s.extent p) ∧
    Heap.sizeAligned (s.extent p) + 16 ≤ s.extent p
  live : ∀ ptr size, s.live ptr = some size →
    ∃ x t, ptr = x + 16 ∧ Cell s.heap.poolStart pool x (t, false) ∧ size ≤ t
  used : ∀ x t, Cell s.heap.poolStart pool x (t, false) → s.Live (x + 16)

/-! ## What the heap is for -/

/-- The bytes that a program keeps, by pointer. -/
abbrev Store := Nat → Option (List UInt8)

def Sys.store (s : Sys) : Store := fun ptr => (s.live ptr).map (s.heap.mem.read ptr)

/-- A new allocation with these bytes, and nothing else has changed. -/
def Grants (A : Store) (ptr : Nat) (bs : List UInt8) (A' : Store) : Prop :=
  ptr ≠ 0 ∧ A ptr = none ∧ A' = Function.update A ptr (some bs)

/-- An allocation of `size` bytes, or none. -/
def GrantsSize (A : Store) (size ptr : Nat) (A' : Store) : Prop :=
  (ptr = 0 ∧ A' = A) ∨ ∃ bs, bs.length = size ∧ Grants A ptr bs A'

/-- An allocation is replaced by one of `size` bytes, which has the old bytes as far as they
fit. -/
def Regrants (A : Store) (ptr size r : Nat) (A' : Store) : Prop :=
  ∃ old bs, A ptr = some old ∧ bs.length = size ∧
    bs.take (min old.length size) = old.take (min old.length size) ∧
    Grants (Function.update A ptr none) r bs A'

/-- **What a call may do to what the program keeps**, with what it returns. -/
def Serves (A : Store) : Op → Nat → Store → Prop
  | .alloc size, r, A' => GrantsSize A size r A'
  | .calloc num size, r, A' =>
      (r = 0 ∧ A' = A) ∨ Grants A r (List.replicate (num * size) 0) A'
  | .alignedAlloc size _, r, A' => GrantsSize A size r A'
  | .realloc ptr size, r, A' =>
      if ptr = 0 then GrantsSize A size r A'
      else if size = 0 then r = 0 ∧ A' = Function.update A ptr none
      else (r = 0 ∧ A' = A) ∨ Regrants A ptr size r A'
  | .free ptr, _, A' => A' = Function.update A ptr none
  | .poolAdd _ _, _, A' => A' = A
  | .poolRmv _, _, A' => A' = A
  | .use ptr off data, _, A' => ∃ old, A ptr = some old ∧
      A' = Function.update A ptr (some (old.take off ++ data ++ old.drop (off + data.length)))

/-- **The live allocations are aligned, each inside one pool, and apart.** -/
def Sys.Separate (s : Sys) : Prop :=
  ∀ ptr size, s.live ptr = some size → ptr % 4 = 0 ∧
    (∃ p ∈ s.heap.poolStart, p ≤ ptr ∧ ptr + size ≤ p + s.extent p) ∧
    ∀ ptr' size', s.live ptr' = some size' → ptr' ≠ ptr →
      ptr + size ≤ ptr' ∨ ptr' + size' ≤ ptr

variable {s : Sys} {h' : Heap} {pool pool' : Nat → List Blk} {ptr size x y t a p n : Nat}

theorem Sys.store_of_some (hl : s.live ptr = some size) :
    s.store ptr = some (s.heap.mem.read ptr size) := by
  rw [Sys.store, hl]
  rfl

theorem Sys.store_of_none (hl : s.live ptr = none) : s.store ptr = none := by
  rw [Sys.store, hl]
  rfl

namespace Shape

theorem separate (S : Shape s pool) : s.Separate := by
  intro ptr size hl
  obtain ⟨x, t, rfl, hx, hle⟩ := S.live ptr size hl
  have hal := (S.inv.rep.cell_aligned hx).1
  refine ⟨by omega, ?_, fun ptr' size' hl' hne => ?_⟩
  · obtain ⟨p, hp, hx'⟩ := hx
    have hb := S.inv.rep.cell_bounds hp hx'
    have hf := (S.fits p hp).2
    simp only [Sys.len] at hb
    exact ⟨p, hp, by omega, by omega⟩
  · obtain ⟨y, u, rfl, hy, hle'⟩ := S.live ptr' size' hl'
    rcases S.inv.rep.cell_apart hx hy with ⟨rfl, -⟩ | hlt | hlt
    · exact absurd rfl hne
    · simp only at hlt
      omega
    · simp only at hlt
      omega

theorem live_zero (S : Shape s pool) : s.live 0 = none := by
  rcases hl : s.live 0 with _ | size
  · rfl
  · obtain ⟨x, t, hx, -⟩ := S.live 0 size hl
    exact absurd hx.symm (Nat.succ_ne_zero _)

theorem live_none (S : Shape s pool) (hx : ∀ t, ¬ Cell s.heap.poolStart pool x (t, false)) :
    s.live (x + 16) = none := by
  rcases hl : s.live (x + 16) with _ | size
  · rfl
  · obtain ⟨y, t, hy, hc, -⟩ := S.live _ size hl
    rw [Nat.add_right_cancel hy] at hx
    exact absurd hc (hx t)

/-- **A change that is confined to the used blocks in `E`**: whatever is live there afterwards, the
rest of what the program keeps is the same. -/
theorem of_keeps {E : Nat → Prop} (live' : Nat → Option Nat) (S : Shape s pool)
    (I : Inv h' s.len pool') (K : Keeps E s.heap pool h' pool')
    (hlive : ∀ ptr, (∀ x, ptr = x + 16 → ¬ E x) → live' ptr = s.live ptr)
    (hsound : ∀ x, E x → ∀ size, live' (x + 16) = some size →
      ∃ t, Cell h'.poolStart pool' x (t, false) ∧ size ≤ t)
    (hused : ∀ x, E x → ∀ t, Cell h'.poolStart pool' x (t, false) →
      ∃ size, live' (x + 16) = some size) :
    Shape { s with heap := h', live := live' } pool' ∧
      ∀ ptr, (∀ x, ptr = x + 16 → ¬ E x) →
        Sys.store { s with heap := h', live := live' } ptr = s.store ptr := by
  have hold : ∀ ptr size, (∀ x, ptr = x + 16 → ¬ E x) → s.live ptr = some size →
      ∃ x t, ptr = x + 16 ∧ ¬ E x ∧ Cell s.heap.poolStart pool x (t, false) ∧ size ≤ t := by
    intro ptr size hE hl
    obtain ⟨x, t, hx, hc, hle⟩ := S.live ptr size hl
    exact ⟨x, t, hx, hE x hx, hc, hle⟩
  refine ⟨⟨I, fun p hp => S.fits p (K.pools ▸ hp), fun ptr size hl => ?_, fun x t hc => ?_⟩,
    fun ptr hE => ?_⟩
  · by_cases hE : ∃ x, ptr = x + 16 ∧ E x
    · obtain ⟨x, rfl, hx⟩ := hE
      obtain ⟨t, hc, hle⟩ := hsound x hx size hl
      exact ⟨x, t, rfl, hc, hle⟩
    · have hE' : ∀ x, ptr = x + 16 → ¬ E x := fun x hx h => hE ⟨x, hx, h⟩
      have hl' : s.live ptr = some size := (hlive ptr hE').symm.trans hl
      obtain ⟨x, t, rfl, hx, hc, hle⟩ := hold ptr size hE' hl'
      exact ⟨x, t, rfl, (K.used x t hx).mpr hc, hle⟩
  · by_cases hE : E x
    · exact hused x hE t hc
    · have hE' : ∀ y, x + 16 = y + 16 → ¬ E y := fun y hy => Nat.add_right_cancel hy ▸ hE
      obtain ⟨size, hl⟩ := S.used x t ((K.used x t hE).mp hc)
      exact ⟨size, (hlive _ hE').trans hl⟩
  · show (live' ptr).map _ = (s.live ptr).map _
    rw [hlive ptr hE]
    rcases hl : s.live ptr with _ | size
    · rfl
    · obtain ⟨x, t, rfl, hx, hc, hle⟩ := hold ptr size hE hl
      refine congrArg some (Image.read_congr fun i hi => ?_)
      exact K.bytes x t hx hc _ (by omega) (by omega)

/-- A block has been allocated. -/
theorem allocated (S : Shape s pool) (A : Allocated s.heap s.len pool x size h') :
    (∃ pool', Shape { s with heap := h', live := Function.update s.live (x + 16) (some size) }
      pool') ∧
      Grants s.store (x + 16) (h'.mem.read (x + 16) size)
        (Sys.store { s with heap := h', live := Function.update s.live (x + 16) (some size) }) := by
  obtain ⟨pool', t, I, hc, hat, hnew, K⟩ := A
  obtain ⟨S', hstore⟩ := of_keeps (Function.update s.live (x + 16) (some size)) S I K
    (fun ptr hE => Function.update_of_ne (fun heq => hE x heq rfl) _ _)
    (fun y hy size' hl => by
      rw [hy, Function.update_self, Option.some.injEq] at hl
      exact ⟨t, hy ▸ hc, hl ▸ hat⟩)
    (fun y hy _ _ => ⟨size, by rw [hy, Function.update_self]⟩)
  refine ⟨⟨pool', S'⟩, Nat.succ_ne_zero _, Sys.store_of_none (S.live_none hnew), ?_⟩
  refine Function.eq_update_iff.mpr ⟨Sys.store_of_some (Function.update_self ..), ?_⟩
  exact fun ptr hptr => hstore ptr fun y hy hyx => hptr (hyx ▸ hy)

/-- The outcome of an allocation. -/
theorem grants (S : Shape s pool) {r : Nat × Heap} (hr : r = (0, s.heap) ∨
      ∃ x, r.1 = x + 16 ∧ Allocated s.heap s.len pool x size r.2) :
    (∃ pool', Shape { s with heap := r.2, live := s.granted r.1 size } pool') ∧
      GrantsSize s.store size r.1
        (Sys.store { s with heap := r.2, live := s.granted r.1 size }) := by
  rcases hr with rfl | ⟨x, hptr, A⟩
  · exact ⟨⟨pool, S⟩, Or.inl ⟨rfl, rfl⟩⟩
  · have hlive : s.granted r.1 size = Function.update s.live (x + 16) (some size) := by
      rw [Sys.granted, hptr, if_neg (Nat.succ_ne_zero _)]
    rw [hlive, hptr]
    obtain ⟨hS, hG⟩ := S.allocated A
    exact ⟨hS, Or.inr ⟨_, Image.read_length .., hG⟩⟩

/-- A block has been freed. -/
theorem freed (S : Shape s pool) (F : Freed s.heap s.len pool x h') :
    (∃ pool', Shape { s with heap := h', live := Function.update s.live (x + 16) none } pool') ∧
      Sys.store { s with heap := h', live := Function.update s.live (x + 16) none } =
        Function.update s.store (x + 16) none := by
  obtain ⟨pool', I, hgone, K⟩ := F
  obtain ⟨S', hstore⟩ := of_keeps (Function.update s.live (x + 16) none) S I K
    (fun ptr hE => Function.update_of_ne (fun heq => hE x heq rfl) _ _)
    (fun y hy size' hl => by
      rw [hy, Function.update_self] at hl
      cases hl)
    (fun y hy t hc => absurd (hy ▸ hc) (hgone t))
  refine ⟨⟨pool', S'⟩, ?_⟩
  refine Function.eq_update_iff.mpr ⟨Sys.store_of_none (Function.update_self ..), ?_⟩
  exact fun ptr hptr => hstore ptr fun y hy hyx => hptr (hyx ▸ hy)

/-- The bytes are where the block is now. -/
theorem regrants {old : Nat} {A' : Store} (hl : s.live (x + 16) = some old) (hold : old ≤ t)
    (hbytes : KeepsBytes s.heap x h' y (min t size))
    (G : Grants (Function.update s.store (x + 16) none) (y + 16) (h'.mem.read (y + 16) size) A') :
    Regrants s.store (x + 16) size (y + 16) A' := by
  refine ⟨_, _, Sys.store_of_some hl, Image.read_length .., ?_, G⟩
  rw [Image.read_length, Image.take_read _ _ (Nat.min_le_right ..),
    Image.take_read _ _ (Nat.min_le_left ..)]
  exact hbytes.mono (by omega)

/-- A block has been resized in its place. -/
theorem resized (S : Shape s pool) {old : Nat} (hl : s.live (x + 16) = some old) (hold : old ≤ t)
    (Z : Resized s.heap s.len pool x size h') (hbytes : KeepsBytes s.heap x h' x (min t size)) :
    (∃ pool', Shape { s with
      heap := h'
      live := Function.update (Function.update s.live (x + 16) none) (x + 16) (some size) }
      pool') ∧
      Regrants s.store (x + 16) size (x + 16) (Sys.store { s with
        heap := h'
        live := Function.update (Function.update s.live (x + 16) none) (x + 16) (some size) }) := by
  obtain ⟨pool', u, I, hc, hau, K⟩ := Z
  rw [Function.update_idem]
  obtain ⟨S', hstore⟩ := of_keeps (Function.update s.live (x + 16) (some size)) S I K
    (fun ptr hE => Function.update_of_ne (fun heq => hE x heq rfl) _ _)
    (fun y hy size' hl => by
      rw [hy, Function.update_self, Option.some.injEq] at hl
      exact ⟨u, hy ▸ hc, hl ▸ hau⟩)
    (fun y hy _ _ => ⟨size, by rw [hy, Function.update_self]⟩)
  refine ⟨⟨pool', S'⟩, regrants hl hold hbytes ⟨Nat.succ_ne_zero _, Function.update_self .., ?_⟩⟩
  refine Function.eq_update_iff.mpr ⟨Sys.store_of_some (Function.update_self ..), ?_⟩
  intro ptr hptr
  rw [Function.update_of_ne hptr]
  exact hstore ptr fun y hy hyx => hptr (hyx ▸ hy)

/-- A block has been moved. -/
theorem moved (S : Shape s pool) {old : Nat} (hl : s.live (x + 16) = some old) (hold : old ≤ t)
    (hx : Cell s.heap.poolStart pool x (t, false)) (M : Moved s.heap s.len pool x y size h')
    (hbytes : KeepsBytes s.heap x h' y (min t size)) :
    (∃ pool', Shape { s with
      heap := h'
      live := Function.update (Function.update s.live (x + 16) none) (y + 16) (some size) }
      pool') ∧
      Regrants s.store (x + 16) size (y + 16) (Sys.store { s with
        heap := h'
        live := Function.update (Function.update s.live (x + 16) none) (y + 16) (some size) }) := by
  obtain ⟨pool', u, I, hc, hau, hnew, hgone, K⟩ := M
  have hxy : x + 16 ≠ y + 16 := fun heq => hnew t (Nat.add_right_cancel heq ▸ hx)
  have hrest : ∀ ptr, (∀ z, ptr = z + 16 → ¬ (z = x ∨ z = y)) → ptr ≠ y + 16 ∧ ptr ≠ x + 16 :=
    fun ptr hE => ⟨fun heq => hE y heq (Or.inr rfl), fun heq => hE x heq (Or.inl rfl)⟩
  obtain ⟨S', hstore⟩ := of_keeps
    (Function.update (Function.update s.live (x + 16) none) (y + 16) (some size)) S I K
    (fun ptr hE => by
      rw [Function.update_of_ne (hrest ptr hE).1, Function.update_of_ne (hrest ptr hE).2])
    (fun z hz size' hl => by
      rcases hz with rfl | rfl
      · rw [Function.update_of_ne hxy, Function.update_self] at hl
        cases hl
      · rw [Function.update_self, Option.some.injEq] at hl
        exact ⟨u, hc, hl ▸ hau⟩)
    (fun z hz v hv => by
      rcases hz with rfl | rfl
      · exact absurd hv (hgone v)
      · exact ⟨size, Function.update_self ..⟩)
  refine ⟨⟨pool', S'⟩, regrants hl hold hbytes ⟨Nat.succ_ne_zero _, ?_, ?_⟩⟩
  · rw [Function.update_of_ne hxy.symm]
    exact Sys.store_of_none (S.live_none hnew)
  · refine Function.eq_update_iff.mpr ⟨Sys.store_of_some (Function.update_self ..), ?_⟩
    intro ptr hptr
    by_cases hptr' : ptr = x + 16
    · rw [hptr', Function.update_self]
      refine Sys.store_of_none ((Function.update_of_ne hxy _ _).trans ?_)
      exact Function.update_self ..
    · rw [Function.update_of_ne hptr']
      refine hstore ptr fun z hz hzE => ?_
      rcases hzE with rfl | rfl
      · exact hptr' hz
      · exact hptr hz

omit s in
theorem nodMmheapAlloc_zero (h : Heap) : h.nodMmheapAlloc 0 = (0, h) := by
  have hadj : Heap.adjustRequestSize 0 alignSize = 0 := if_pos rfl
  rw [Heap.nodMmheapAlloc, if_neg (Nat.not_lt_zero _), hadj]
  dsimp only
  rw [blkLocateFree_zero]
  exact if_pos rfl

/-- `nod_mmheap_calloc`. -/
theorem calloc (S : Shape s pool) {num : Nat} (hop : s.Allowed (.calloc num size)) :
    (∃ pool', Shape (s.step (.calloc num size)).2 pool') ∧
      Serves s.store (.calloc num size) (s.step (.calloc num size)).1
        (s.step (.calloc num size)).2.store := by
  simp only [Sys.step, Serves]
  rcases S.inv.nodMmheapCalloc hop with heq | ⟨x, hptr, A, hzero⟩
  · rw [heq]
    exact ⟨⟨pool, S⟩, Or.inl ⟨rfl, rfl⟩⟩
  · have hlive : s.granted (x + 16) (num * size) =
        Function.update s.live (x + 16) (some (num * size)) := if_neg (Nat.succ_ne_zero _)
    obtain ⟨hS, hG⟩ := S.allocated A
    rw [hptr, hlive]
    rw [hzero] at hG
    exact ⟨hS, Or.inr hG⟩

/-- `nod_mmheap_free`, also of no pointer. -/
theorem free (S : Shape s pool) (hop : s.Allowed (.free ptr)) :
    (∃ pool', Shape (s.step (.free ptr)).2 pool') ∧
      (s.step (.free ptr)).2.store = Function.update s.store ptr none := by
  simp only [Sys.step]
  rcases hop with rfl | ⟨size, hl⟩
  · have hfree : s.heap.nodMmheapFree 0 = s.heap := if_pos rfl
    have hlive : Function.update s.live 0 none = s.live := by
      rw [← S.live_zero, Function.update_eq_self]
    have hstore : Function.update s.store 0 none = s.store := by
      rw [← Sys.store_of_none S.live_zero, Function.update_eq_self]
    rw [hfree, hlive, hstore]
    exact ⟨⟨pool, S⟩, rfl⟩
  · obtain ⟨x, t, rfl, hx, -⟩ := S.live ptr size hl
    exact S.freed (S.inv.nodMmheapFree hx)

/-- `nod_mmheap_realloc`, in all its uses. -/
theorem realloc (S : Shape s pool) (hop : s.Allowed (.realloc ptr size)) :
    (∃ pool', Shape (s.step (.realloc ptr size)).2 pool') ∧
      Serves s.store (.realloc ptr size) (s.step (.realloc ptr size)).1
        (s.step (.realloc ptr size)).2.store := by
  obtain ⟨hptr, hmax⟩ := hop
  have hmax' : size ≤ 2 ^ 30 := hmax
  simp only [Sys.step, Serves]
  by_cases hnull : ptr = 0
  · -- as `nod_mmheap_alloc`
    have hself : Function.update s.live 0 none = s.live := by
      rw [← S.live_zero, Function.update_eq_self]
    have halloc : s.heap.nodMmheapRealloc 0 size = s.heap.nodMmheapAlloc size := by
      rw [Heap.nodMmheapRealloc, if_neg fun hc => hc.1 rfl, if_pos rfl]
    rw [if_pos hnull, hnull, halloc, hself]
    by_cases hz : size = 0
    · rw [hz, nodMmheapAlloc_zero]
      exact ⟨⟨pool, S⟩, Or.inl ⟨rfl, rfl⟩⟩
    · rw [if_neg hz]
      exact S.grants (S.inv.nodMmheapAlloc (show size < 2 ^ 64 by omega))
  · obtain ⟨old, hl⟩ := hptr.resolve_left hnull
    obtain ⟨x, t, rfl, hx, hold⟩ := S.live ptr old hl
    rw [if_neg hnull]
    by_cases hz : size = 0
    · have hfree : s.heap.nodMmheapRealloc (x + 16) size =
          (0, s.heap.nodMmheapFree (x + 16)) := by
        rw [Heap.nodMmheapRealloc, if_pos ⟨hnull, hz⟩]
      rw [if_pos hz, if_pos hz, hfree]
      obtain ⟨hS, hstore⟩ := S.freed (S.inv.nodMmheapFree hx)
      exact ⟨hS, rfl, hstore⟩
    · rw [if_neg hz, if_neg hz]
      rcases S.inv.nodMmheapRealloc hx hz hmax with heq | ⟨hp, Z, hbytes⟩ | ⟨y, hp, M, hbytes⟩
      · rw [heq]
        exact ⟨⟨pool, S⟩, Or.inl ⟨rfl, rfl⟩⟩
      · rw [hp, if_neg (Nat.succ_ne_zero _)]
        exact (S.resized hl hold Z hbytes).imp_right Or.inr
      · rw [hp, if_neg (Nat.succ_ne_zero _)]
        exact (S.moved hl hold hx M hbytes).imp_right Or.inr

/-- The program has written to an allocation. -/
theorem use (S : Shape s pool) {off : Nat} {data : List UInt8}
    (hop : s.Allowed (.use ptr off data)) :
    (∃ pool', Shape (s.step (.use ptr off data)).2 pool') ∧
      Serves s.store (.use ptr off data) 0 (s.step (.use ptr off data)).2.store := by
  obtain ⟨size, hl, hfit⟩ := hop
  obtain ⟨x, t, rfl, hx, hle⟩ := S.live ptr size hl
  obtain ⟨I, K⟩ := S.inv.write hx (s.heap.mem.write ⟨x + 16 + off, data⟩)
    fun i hi => Image.write_of_not_touches fun ht => by
      have hlo : x + 16 + off ≤ i := ht.1
      have hhi : i < x + 16 + off + data.length := ht.2
      omega
  obtain ⟨S', hstore⟩ := of_keeps s.live S I K (fun _ _ => rfl)
    (fun y hy size' hl' => by
      rw [hy, hl, Option.some.injEq] at hl'
      exact ⟨t, hy ▸ hx, hl' ▸ hle⟩)
    (fun y hy _ _ => ⟨size, hy ▸ hl⟩)
  refine ⟨⟨pool, S'⟩, _, Sys.store_of_some hl, Function.eq_update_iff.mpr ⟨?_, ?_⟩⟩
  · rw [← Image.read_write_inside _ hfit]
    exact Sys.store_of_some hl
  · exact fun ptr hptr => hstore ptr fun y hy hyx => hptr (hyx ▸ hy)

/-! ### Pools -/

/-- The pools have changed, and no used block. -/
theorem of_sameUsed {s' : Sys} (S : Shape s pool) (hlive : s'.live = s.live)
    (I : Inv s'.heap s'.len pool') (hfits : ∀ p ∈ s'.heap.poolStart,
      24 ≤ Heap.sizeAligned (s'.extent p) ∧ Heap.sizeAligned (s'.extent p) + 16 ≤ s'.extent p)
    (U : SameUsed s.heap pool s'.heap pool') : Shape s' pool' ∧ s'.store = s.store := by
  refine ⟨⟨I, hfits, fun ptr size hl => ?_, fun x t hx => ?_⟩, ?_⟩
  · rw [hlive] at hl
    obtain ⟨x, t, hptr, hx, hle⟩ := S.live ptr size hl
    exact ⟨x, t, hptr, (U.used x t).mpr hx, hle⟩
  · obtain ⟨size, hl⟩ := S.used x t ((U.used x t).mp hx)
    exact ⟨size, hlive ▸ hl⟩
  · funext ptr
    rw [Sys.store, Sys.store, hlive]
    rcases hl : s.live ptr with _ | size
    · rfl
    · obtain ⟨x, t, rfl, hx, hle⟩ := S.live ptr size hl
      refine congrArg some (Image.read_congr fun i hi => ?_)
      exact U.bytes x t hx _ (by omega) (by omega)

omit s in
/-- `nod_mmheap_pool_add` refuses a pool, or its checks are passed. -/
theorem poolAdd_cases (h : Heap) (p n : Nat) :
    (∃ err, err ≠ 0 ∧ h.nodMmheapPoolAdd p n = (err, h)) ∨
      ¬ h.nodMmheapPoolIsFull ∧ p ∉ h.poolStart ∧ p % alignSize = 0 ∧
        24 ≤ Heap.sizeAligned n ∧ Heap.sizeAligned n ≤ 2 ^ 30 := by
  unfold Heap.nodMmheapPoolAdd
  by_cases hfull : h.nodMmheapPoolIsFull
  · rw [if_pos hfull]
    exact Or.inl ⟨_, by decide, rfl⟩
  by_cases hexist : h.nodMmheapPoolIsExist p
  · rw [if_neg hfull, if_pos hexist]
    exact Or.inl ⟨_, by decide, rfl⟩
  by_cases haligned : p % alignSize ≠ 0
  · rw [if_neg hfull, if_neg hexist, if_pos haligned]
    exact Or.inl ⟨_, by decide, rfl⟩
  by_cases hsize : Heap.sizeAligned n < blkSizeMin ∨ Heap.sizeAligned n > blkSizeMax
  · rw [if_neg hfull, if_neg hexist, if_neg haligned, if_pos hsize]
    exact Or.inl ⟨_, by decide, rfl⟩
  · refine Or.inr ⟨hfull, fun hp => hexist (List.contains_iff_mem.mpr hp), not_not.mp haligned, ?_⟩
    rw [not_or] at hsize
    exact ⟨Nat.le_of_not_lt hsize.1, Nat.le_of_not_lt hsize.2⟩

/-- `nod_mmheap_pool_add`. -/
theorem poolAdd (S : Shape s pool) (hop : s.Offered p n) :
    (∃ pool', Shape (s.step (.poolAdd p n)).2 pool') ∧
      (s.step (.poolAdd p n)).2.store = s.store := by
  simp only [Sys.step]
  rcases poolAdd_cases s.heap p n with ⟨err, herr, heq⟩ | ⟨hfull, hnew, hp4, h24, -⟩
  · rw [heq, if_neg herr]
    exact ⟨⟨pool, S⟩, rfl⟩
  · have hold : ∀ q ∈ s.heap.poolStart, q ≠ p := fun q hq => ne_of_mem_of_not_mem hq hnew
    have V : Vacant s.heap s.len p n := by
      refine ⟨hop.start, hop.top, fun q hq => ?_, hop.null⟩
      have hdis := hop.disjoint q hq (hold q hq)
      have hfit := (S.fits q hq).2
      rw [Sys.len]
      omega
    obtain ⟨herr, -, hpools, I, U⟩ := V.poolAdd S.inv hfull hnew hp4 h24 hop.usable
    have hlen : Sys.len ⟨(s.heap.nodMmheapPoolAdd p n).2, Function.update s.extent p n, s.live⟩ =
        Function.update s.len p (Heap.sizeAligned n + 8) := by
      refine Function.eq_update_iff.mpr ⟨?_, fun q hq => ?_⟩
      · show Heap.sizeAligned (Function.update s.extent p n p) + 8 = _
        rw [Function.update_self]
      · show Heap.sizeAligned (Function.update s.extent p n q) + 8 = _
        rw [Function.update_of_ne hq]
        rfl
    have hroom := (sizeAligned_spec (show n < 2 ^ 64 by have := hop.start; have := hop.top; omega)
      (Nat.le_of_lt hop.usable)).2
    have hfits : ∀ q ∈ (s.heap.nodMmheapPoolAdd p n).2.poolStart,
        24 ≤ Heap.sizeAligned (Function.update s.extent p n q) ∧
          Heap.sizeAligned (Function.update s.extent p n q) + 16 ≤
            Function.update s.extent p n q := by
      intro q hq
      rw [hpools] at hq
      rcases List.mem_append.mp hq with hq | hq
      · rw [Function.update_of_ne (hold q hq)]
        exact S.fits q hq
      · rw [List.mem_singleton.mp hq, Function.update_self]
        exact ⟨h24, hroom⟩
    rw [if_pos herr]
    have hshape : Shape ⟨(s.heap.nodMmheapPoolAdd p n).2, Function.update s.extent p n, s.live⟩ _ ∧
        Sys.store ⟨(s.heap.nodMmheapPoolAdd p n).2, Function.update s.extent p n, s.live⟩ =
          s.store := S.of_sameUsed rfl (hlen ▸ I) hfits U
    exact ⟨⟨_, hshape.1⟩, hshape.2⟩

/-- `nod_mmheap_pool_rmv`. -/
theorem poolRmv (S : Shape s pool) (hop : s.Allowed (.poolRmv p)) :
    (∃ pool', Shape (s.step (.poolRmv p)).2 pool') ∧ (s.step (.poolRmv p)).2.store = s.store := by
  by_cases hp : p ∈ s.heap.poolStart
  · have hnone : ∀ y t, (y, (t, false)) ∉ cells (p - 8) (pool p) := by
      intro y t hy
      have hb := S.inv.rep.cell_bounds hp hy
      have hf := (S.fits p hp).2
      simp only [Sys.len] at hb
      exact hop _ (S.used y t ⟨p, hp, hy⟩) ⟨by omega, by omega⟩
    obtain ⟨-, I, -, hpools, U⟩ := S.inv.nodMmheapPoolRmv hp (Nat.succ_pos _) hnone
    have hshape : Shape ⟨(s.heap.nodMmheapPoolRmv p).2, s.extent, s.live⟩ pool ∧
        Sys.store ⟨(s.heap.nodMmheapPoolRmv p).2, s.extent, s.live⟩ = s.store :=
      S.of_sameUsed rfl I (fun q hq => S.fits q ((hpools q).mp hq).1) U
    exact ⟨⟨_, hshape.1⟩, hshape.2⟩
  · have hsame : (s.heap.nodMmheapPoolRmv p).2 = s.heap := by
      have hexist : s.heap.nodMmheapPoolIsExist p = false := by
        rw [Heap.nodMmheapPoolIsExist, List.contains_eq_mem, decide_eq_false hp]
      unfold Heap.nodMmheapPoolRmv
      by_cases hz : p = 0
      · rw [if_pos hz]
      · rw [if_neg hz, if_pos hexist]
    simp only [Sys.step]
    rw [hsame]
    exact ⟨⟨pool, S⟩, rfl⟩

/-! ### Every call -/

/-- **Every call that is allowed keeps the heap in shape, and does what it is for.** -/
theorem serves (S : Shape s pool) {op : Op} (hop : s.Allowed op) :
    (∃ pool', Shape (s.step op).2 pool') ∧ Serves s.store op (s.step op).1 (s.step op).2.store := by
  cases op with
  | alloc size => exact S.grants (S.inv.nodMmheapAlloc hop)
  | calloc num size => exact S.calloc hop
  | alignedAlloc size align =>
    obtain ⟨hsize, k, hk, rfl⟩ := hop
    exact S.grants (S.inv.nodMmheapAlignedAlloc hsize hk)
  | realloc ptr size => exact S.realloc hop
  | free ptr => exact S.free hop
  | poolAdd p n => exact S.poolAdd hop
  | poolRmv p => exact S.poolRmv hop
  | use ptr off data => exact S.use hop

end Shape

/-! ## Every run -/

/-- The heap after `nod_mmheap_init`. -/
theorem shape_init {h : Heap} (hnull : h.blockNull + 32 ≤ 2 ^ 64)
    (hoff : Sys.Offered ⟨h.nodMmheapCtlInit, fun _ => n, fun _ => none⟩ p n) :
    ∃ pool, Shape (Sys.init h p n) pool := by
  have S : Shape ⟨h.nodMmheapCtlInit, fun _ => n, fun _ => none⟩ fun _ => [] := by
    refine ⟨inv_ctlInit h hnull _ _, fun q hq => absurd hq List.not_mem_nil,
      fun ptr size hl => (by cases hl), ?_⟩
    rintro x t ⟨q, hq, -⟩
    exact absurd hq List.not_mem_nil
  have hinit : (Sys.step ⟨h.nodMmheapCtlInit, fun _ => n, fun _ => none⟩ (.poolAdd p n)).2 =
      Sys.init h p n := by
    have hext : Function.update (fun _ : Nat => n) p n = fun _ => n :=
      Function.update_eq_self p fun _ => n
    simp only [Sys.step, hext, ite_self]
    rfl
  rw [← hinit]
  exact (S.poolAdd hoff).1

theorem Reachable.shape (hr : Reachable s) : ∃ pool, Shape s pool := by
  induction hr with
  | init hnull hoff => exact shape_init hnull hoff
  | step _ hop ih =>
    obtain ⟨pool, S⟩ := ih
    exact (S.serves hop).1

/-- **The representation invariant of the heap**: after every call the pools are tiled by blocks,
and the lists and the bitmaps show the free ones. -/
theorem heap_invariant (hr : Reachable s) : ∃ pool, Inv s.heap s.len pool := by
  obtain ⟨pool, S⟩ := hr.shape
  exact ⟨pool, S.inv⟩

/-- A pool of 1024 bytes at 4096, in memory that is zero. -/
def smallHeap : Heap := ⟨fun _ => 0, 1048576, [], 0, fun _ => 0, fun _ _ => 0⟩

theorem reachable_small : Reachable (Sys.init smallHeap 4096 1024) := by
  refine Reachable.init (by decide) ⟨by decide, by decide, fun q hq => ?_, by decide, ?_⟩
  · exact absurd hq List.not_mem_nil
  · decide +kernel

theorem heap_invariant_small :
    ∃ pool, Inv ((Sys.init smallHeap 4096 1024).step (.alloc 100)).2.heap
      ((Sys.init smallHeap 4096 1024).step (.alloc 100)).2.len pool :=
  heap_invariant (.step reachable_small (show 100 < 2 ^ 64 by decide))

/-- **The heap keeps what the program keeps in it**: after every call the live allocations are
apart, and whatever call comes next does what it is for and nothing else. -/
theorem heap_refines (hr : Reachable s) :
    s.Separate ∧ ∀ op, s.Allowed op → Serves s.store op (s.step op).1 (s.step op).2.store := by
  obtain ⟨pool, S⟩ := hr.shape
  exact ⟨S.separate, fun op hop => (S.serves hop).2⟩

theorem heap_refines_small :
    ((Sys.init smallHeap 4096 1024).step (.alloc 100)).2.Separate ∧
      ∀ op, ((Sys.init smallHeap 4096 1024).step (.alloc 100)).2.Allowed op →
        Serves ((Sys.init smallHeap 4096 1024).step (.alloc 100)).2.store op
          (((Sys.init smallHeap 4096 1024).step (.alloc 100)).2.step op).1
          (((Sys.init smallHeap 4096 1024).step (.alloc 100)).2.step op).2.store :=
  heap_refines (.step reachable_small (show 100 < 2 ^ 64 by decide))

/-- Blocks of 28, 64 and 24 bytes from 4096 on, of which the second is free again. -/
def gapHeap : Sys :=
  let s := Sys.init smallHeap 4096 1024
  let s := (s.step (.alloc 28)).2
  let s := (s.step (.alloc 64)).2
  let s := (s.step (.alloc 24)).2
  (s.step (.free 4140)).2

theorem gapHeap_reachable : Reachable gapHeap := by
  refine .step (.step (.step (.step reachable_small ?_) ?_) ?_) (Or.inr ⟨64, ?_⟩)
  · show 28 < 2 ^ 64
    decide
  · show 64 < 2 ^ 64
    decide
  · show 24 < 2 ^ 64
    decide
  · decide +kernel

theorem Sys.live_alloc (s : Sys) (size ptr : Nat) (h : (s.step (.alloc size)).1 = ptr)
    (hne : ptr ≠ 0) : (s.step (.alloc size)).2.live = Function.update s.live ptr (some size) := by
  show s.granted (s.step (.alloc size)).1 size = _
  rw [h, Sys.granted, if_neg hne]

/-- The two that are left. -/
theorem gapHeap_live (ptr : Nat) :
    gapHeap.live ptr = if ptr = 4104 then some 28 else if ptr = 4212 then some 24 else none := by
  have h₁ := Sys.live_alloc (Sys.init smallHeap 4096 1024) 28 4104 (by decide +kernel) (by decide)
  have h₂ := Sys.live_alloc ((Sys.init smallHeap 4096 1024).step (.alloc 28)).2 64 4140
    (by decide +kernel) (by decide)
  have h₃ := Sys.live_alloc (((Sys.init smallHeap 4096 1024).step (.alloc 28)).2.step
    (.alloc 64)).2 24 4212 (by decide +kernel) (by decide)
  rw [h₂, h₁] at h₃
  refine Eq.trans (congrFun (congrArg (fun live : Nat → Option Nat =>
    Function.update live 4140 none) h₃) ptr) ?_
  simp only [Function.update_apply]
  by_cases hp : ptr = 4140
  · subst hp
    rfl
  · by_cases hq : ptr = 4104
    · subst hq
      rfl
    · simp only [hp, hq, if_false]
      rfl

end NoDrop.Mmheap
