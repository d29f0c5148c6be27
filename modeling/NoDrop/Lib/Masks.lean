import Mathlib.Data.List.Pairwise
import Mathlib.Data.UInt

/-! # Flags under other names

A word of flags is translated bit by bit: a table of pairs says which flag of one word stands for which of
the other (`translate`).  As long as no two entries share a bit on the right (`Independent`), the entries
can be told apart afterwards (`translate_bit`), and those whose left side is a single bit are found again by
the table read backwards (`translate_back`).
-/
namespace NoDrop.Masks

/-- All bits of some words. -/
def union (ws : List UInt64) : UInt64 := ws.foldr (· ||| ·) 0

@[simp] theorem union_nil : union [] = 0 := rfl

@[simp] theorem union_cons (w : UInt64) (ws : List UInt64) : union (w :: ws) = w ||| union ws := rfl

theorem and_or (v x y : UInt64) : v &&& (x ||| y) = v &&& x ||| v &&& y := by
  apply UInt64.toBitVec_inj.mp
  simp only [UInt64.toBitVec_and, UInt64.toBitVec_or, BitVec.and_or_distrib_left]

theorem and_union (v : UInt64) (ws : List UInt64) : v &&& union ws = union (ws.map (v &&& ·)) := by
  induction ws with
  | nil => exact UInt64.and_zero
  | cons w ws ih => rw [union_cons, and_or, ih, List.map_cons, union_cons]

theorem union_ne_zero {ws : List UInt64} : union ws ≠ 0 ↔ ∃ w ∈ ws, w ≠ 0 := by
  induction ws with
  | nil => simp
  | cons w ws ih =>
    rw [union_cons, ne_eq, UInt64.or_eq_zero_iff, not_and_or, List.exists_mem_cons_iff]
    exact or_congr Iff.rfl ih

theorem union_lt {ws : List UInt64} {n : Nat} (h : ∀ w ∈ ws, w.toNat < 2 ^ n) :
    (union ws).toNat < 2 ^ n := by
  induction ws with
  | nil => exact Nat.two_pow_pos n
  | cons w ws ih =>
    rw [union_cons, UInt64.toNat_or]
    apply Nat.or_lt_two_pow
    · exact h w List.mem_cons_self
    · exact ih fun x hx => h x (List.mem_cons_of_mem w hx)

/-! ## Single bits -/

/-- One bit. -/
def isFlag (w : UInt64) : Bool := (List.range 64).any fun i => w.toBitVec == BitVec.twoPow 64 i

/-- It is in a word or not. -/
theorem and_of_isFlag {w : UInt64} (h : isFlag w = true) (v : UInt64) :
    v &&& w = 0 ∨ v &&& w = w := by
  obtain ⟨i, -, hi⟩ := List.any_eq_true.mp h
  have hi : w.toBitVec = BitVec.twoPow 64 i := eq_of_beq hi
  have hand : (v &&& w).toBitVec = if v.toBitVec.getLsbD i then w.toBitVec else 0#64 := by
    rw [UInt64.toBitVec_and, hi, BitVec.and_twoPow]
  cases hbit : v.toBitVec.getLsbD i with
  | false =>
    rw [hbit] at hand
    exact .inl (UInt64.toBitVec_inj.mp hand)
  | true =>
    rw [hbit] at hand
    exact .inr (UInt64.toBitVec_inj.mp hand)

/-! ## Tables -/

/-- The flags on the right for those on the left that are set. -/
def translate (table : List (UInt64 × UInt64)) (v : UInt64) : UInt64 :=
  union ((table.filter fun p => v &&& p.1 ≠ 0).map Prod.snd)

@[simp] theorem translate_nil (v : UInt64) : translate [] v = 0 := rfl

theorem translate_cons (p : UInt64 × UInt64) (table : List (UInt64 × UInt64)) (v : UInt64) :
    translate (p :: table) v = (if v &&& p.1 ≠ 0 then p.2 else 0) ||| translate table v := by
  unfold translate
  rw [List.filter_cons]
  by_cases h : v &&& p.1 ≠ 0
  · rw [if_pos (decide_eq_true h), if_pos h, List.map_cons, union_cons]
  · rw [if_neg (by simpa using h), if_neg h, UInt64.zero_or]

/-- The entries can be told apart by their right sides. -/
structure Independent (table : List (UInt64 × UInt64)) : Prop where
  nonzero : ∀ p ∈ table, p.2 ≠ 0
  apart : table.Pairwise fun p q => p.2 &&& q.2 = 0

/-- The check of a table. -/
def tellsApart : List (UInt64 × UInt64) → Bool
  | [] => true
  | p :: table => p.2 != 0 && table.all (fun q => p.2 &&& q.2 == 0) && tellsApart table

section Table

variable {table : List (UInt64 × UInt64)} {p q : UInt64 × UInt64}

theorem independent_of_tellsApart (h : tellsApart table = true) : Independent table := by
  induction table with
  | nil => exact ⟨fun _ hp => absurd hp List.not_mem_nil, List.Pairwise.nil⟩
  | cons p table ih =>
    rw [tellsApart, Bool.and_eq_true, Bool.and_eq_true, bne_iff_ne] at h
    obtain ⟨⟨hne, hall⟩, hrest⟩ := h
    obtain ⟨hnonzero, hapart⟩ := ih hrest
    refine ⟨List.forall_mem_cons.mpr ⟨hne, hnonzero⟩, List.pairwise_cons.mpr ⟨fun q hq => ?_, hapart⟩⟩
    exact eq_of_beq (List.all_eq_true.mp hall q hq)

theorem Independent.eq_of_shared (h : Independent table) (hp : p ∈ table) (hq : q ∈ table)
    (hne : p.2 &&& q.2 ≠ 0) : p = q := by
  have hsymm : Std.Symm fun p q : UInt64 × UInt64 => p.2 &&& q.2 = 0 :=
    ⟨fun p q hpq => (UInt64.and_comm q.2 p.2).trans hpq⟩
  by_contra hpq
  exact hne (h.apart.forall hp hq hpq)

/-- **What becomes of a flag**: it is there if one that it stands for was, whatever other bits there are. -/
theorem translate_bit (h : Independent table) (hp : p ∈ table) {x : UInt64} (hx : x &&& p.2 = 0)
    (v : UInt64) : (x ||| translate table v) &&& p.2 ≠ 0 ↔ v &&& p.1 ≠ 0 := by
  rw [UInt64.and_comm, and_or, UInt64.and_comm p.2 x, hx, UInt64.zero_or, translate, and_union,
    union_ne_zero]
  constructor
  · rintro ⟨w, hw, hne⟩
    rw [List.map_map] at hw
    obtain ⟨q, hq, rfl⟩ := List.mem_map.mp hw
    obtain ⟨hq, hset⟩ := List.mem_filter.mp hq
    obtain rfl := h.eq_of_shared hp hq hne
    exact of_decide_eq_true hset
  · intro hset
    refine ⟨p.2 &&& p.2, List.mem_map_of_mem (List.mem_map_of_mem ?_), ?_⟩
    · exact List.mem_filter.mpr ⟨hp, decide_eq_true hset⟩
    · rw [UInt64.and_self]
      exact h.nonzero p hp

/-- **Translating back**, as far as the flags are single bits. -/
theorem translate_back (h : Independent table) {known : List (UInt64 × UInt64)}
    (hsub : ∀ p ∈ known, p ∈ table) (hflag : ∀ p ∈ known, isFlag p.1 = true) {x : UInt64}
    (hx : ∀ p ∈ known, x &&& p.2 = 0) (v : UInt64) :
    translate (known.map Prod.swap) (x ||| translate table v) = v &&& union (known.map Prod.fst) := by
  generalize hr : x ||| translate table v = r
  have hbit : ∀ p ∈ known, r &&& p.2 ≠ 0 ↔ v &&& p.1 ≠ 0 := fun p hp =>
    hr ▸ translate_bit h (hsub p hp) (hx p hp) v
  clear hsub hx hr
  induction known with
  | nil => exact (UInt64.and_zero).symm
  | cons p known ih =>
    have hrest := ih (fun q hq => hflag q (List.mem_cons_of_mem p hq)) fun q hq =>
      hbit q (List.mem_cons_of_mem p hq)
    have hp := hbit p List.mem_cons_self
    rw [List.map_cons, List.map_cons, union_cons, and_or, ← hrest, translate_cons,
      Prod.fst_swap, Prod.snd_swap, if_congr hp rfl rfl]
    -- a flag that is set is the whole of what the word has of it
    congr 1
    rcases and_of_isFlag (hflag p List.mem_cons_self) v with hzero | hone
    · rw [if_neg (not_not.mpr hzero), hzero]
    · split
      · exact hone.symm
      · rename_i hset
        exact (not_not.mp hset).symm

end Table

end NoDrop.Masks
