import Mathlib.Data.List.Pairwise

/-! # Address spaces as sorted lists of areas

An address space is a list of areas, half-open ranges of addresses that carry a value, in
the order of their addresses and without overlap.  Mapping an area first takes away what
lies in its range, which may cut an area of the list in two.

The list is how a kernel keeps an address space.  What an address space is for is the
function from addresses to values (`lookup`); `lookup_unmap` and `lookup_map` say what the
two operations do to it.
-/
namespace Areas

variable {κ : Type}

/-- The addresses from `start` up to, not including, `stop`. -/
structure Area (κ : Type) where
  start : Nat
  stop : Nat
  val : κ
deriving DecidableEq, Repr

namespace Area

/-- The area contains address `x`. -/
def Has (a : Area κ) (x : Nat) : Prop := a.start ≤ x ∧ x < a.stop

instance instDecidableHas (a : Area κ) (x : Nat) : Decidable (a.Has x) :=
  inferInstanceAs (Decidable (_ ∧ _))

/-- What is left of an area when the addresses from `s` up to `e` are taken away. -/
def carve (s e : Nat) (a : Area κ) : List (Area κ) :=
  (if a.start < min s a.stop then [⟨a.start, min s a.stop, a.val⟩] else []) ++
    (if max e a.start < a.stop then [⟨max e a.start, a.stop, a.val⟩] else [])

end Area

/-- The areas are in the order of their addresses, do not overlap, and none is empty. -/
structure Sorted (l : List (Area κ)) : Prop where
  apart : l.Pairwise fun a b => a.stop ≤ b.start
  nonempty : ∀ a ∈ l, a.start < a.stop

theorem Sorted.tail {a : Area κ} {l : List (Area κ)} (h : Sorted (a :: l)) : Sorted l :=
  ⟨(List.pairwise_cons.mp h.apart).2, fun b hb => h.nonempty b (List.mem_cons_of_mem a hb)⟩

/-- An area lies below those that follow it. -/
theorem Sorted.start_le {a b : Area κ} {l : List (Area κ)} (h : Sorted (a :: l)) (hb : b ∈ l) :
    a.start ≤ b.start := by
  have hab := (List.pairwise_cons.mp h.apart).1 b hb
  have ha := h.nonempty a List.mem_cons_self
  omega

/-! ## Looking up, taking away and mapping -/

/-- The value at address `x`. -/
def lookup (l : List (Area κ)) (x : Nat) : Option κ := (l.find? fun a => a.Has x).map Area.val

/-- The addresses from `s` up to `e` are taken away. -/
def unmap (s e : Nat) (l : List (Area κ)) : List (Area κ) := l.flatMap (Area.carve s e)

/-- An area is put in its place among areas that it does not overlap. -/
def insert (a : Area κ) : List (Area κ) → List (Area κ)
  | [] => [a]
  | b :: l => if a.stop ≤ b.start then a :: b :: l else b :: insert a l

/-- An area is mapped, over what is there. -/
def map (a : Area κ) (l : List (Area κ)) : List (Area κ) := insert a (unmap a.start a.stop l)

theorem mem_carve {s e : Nat} {a b : Area κ} (h : b ∈ a.carve s e) :
    b.val = a.val ∧ b.start < b.stop ∧ a.start ≤ b.start ∧ b.stop ≤ a.stop ∧
      (b.stop ≤ s ∨ e ≤ b.start) := by
  unfold Area.carve at h
  rcases List.mem_append.mp h with h | h
  · split at h
    · obtain rfl := List.mem_singleton.mp h
      exact ⟨rfl, by assumption, Nat.le_refl _, by dsimp only; omega, .inl (by dsimp only; omega)⟩
    · cases h
  · split at h
    · obtain rfl := List.mem_singleton.mp h
      exact ⟨rfl, by assumption, by dsimp only; omega, Nat.le_refl _, .inr (by dsimp only; omega)⟩
    · cases h

/-- What is left ends where the area did, or where the gap begins. -/
theorem ends_of_mem_carve {s e : Nat} {a b : Area κ} (h : b ∈ a.carve s e) :
    (b.start = a.start ∨ b.start = e) ∧ (b.stop = a.stop ∨ b.stop = s) := by
  unfold Area.carve at h
  rcases List.mem_append.mp h with h | h
  · split at h
    · obtain rfl := List.mem_singleton.mp h
      exact ⟨.inl rfl, by dsimp only; omega⟩
    · cases h
  · split at h
    · obtain rfl := List.mem_singleton.mp h
      exact ⟨by dsimp only; omega, .inl rfl⟩
    · cases h

/-- The addresses of an area that are not taken away are still there. -/
theorem exists_mem_carve {s e x : Nat} {a : Area κ} (hx : a.Has x) (hout : x < s ∨ e ≤ x) :
    ∃ b ∈ a.carve s e, b.Has x ∧ b.val = a.val := by
  obtain ⟨hlo, hhi⟩ := hx
  unfold Area.carve
  rcases hout with hout | hout
  · rw [if_pos (by omega)]
    exact ⟨⟨a.start, min s a.stop, a.val⟩, List.mem_append_left _ List.mem_cons_self,
      ⟨hlo, by dsimp only; omega⟩, rfl⟩
  · refine ⟨⟨max e a.start, a.stop, a.val⟩, List.mem_append_right _ ?_,
      ⟨by dsimp only; omega, hhi⟩, rfl⟩
    rw [if_pos (by omega)]
    exact List.mem_cons_self

theorem mem_insert {a b : Area κ} {l : List (Area κ)} : b ∈ insert a l ↔ b = a ∨ b ∈ l := by
  induction l with
  | nil => simp [insert]
  | cons c l ih =>
    rw [insert]
    split
    · exact List.mem_cons
    · rw [List.mem_cons, ih, List.mem_cons]
      exact or_left_comm

theorem Sorted.nil : Sorted ([] : List (Area κ)) := ⟨List.Pairwise.nil, fun _ h => by cases h⟩

theorem Sorted.insert {a : Area κ} {l : List (Area κ)} (h : Sorted l) (ha : a.start < a.stop)
    (hd : ∀ b ∈ l, a.stop ≤ b.start ∨ b.stop ≤ a.start) : Sorted (insert a l) := by
  induction l with
  | nil =>
    refine ⟨List.pairwise_singleton .., ?_⟩
    intro b hb
    rw [List.mem_singleton.mp hb]
    exact ha
  | cons c l ih =>
    rw [Areas.insert]
    have hc := hd c List.mem_cons_self
    split
    · rename_i hle
      refine ⟨List.pairwise_cons.mpr ⟨?_, h.apart⟩, ?_⟩
      · intro b hb
        rcases List.mem_cons.mp hb with rfl | hb
        · exact hle
        · exact Nat.le_trans hle (h.start_le hb)
      · intro b hb
        rcases List.mem_cons.mp hb with rfl | hb
        · exact ha
        · exact h.nonempty b hb
    · rename_i hle
      have ih := ih h.tail fun b hb => hd b (List.mem_cons_of_mem c hb)
      refine ⟨List.pairwise_cons.mpr ⟨?_, ih.apart⟩, ?_⟩
      · intro b hb
        rcases mem_insert.mp hb with rfl | hb
        · omega
        · exact (List.pairwise_cons.mp h.apart).1 b hb
      · intro b hb
        rcases List.mem_cons.mp hb with rfl | hb
        · exact h.nonempty b List.mem_cons_self
        · exact ih.nonempty b hb

theorem Sorted.unmap {l : List (Area κ)} (h : Sorted l) {s e : Nat} (hse : s ≤ e) :
    Sorted (unmap s e l) := by
  refine ⟨List.pairwise_flatMap.mpr ⟨?_, ?_⟩, ?_⟩
  · intro a _
    unfold Area.carve
    split
    · split
      · refine List.pairwise_cons.mpr ⟨?_, List.pairwise_singleton ..⟩
        intro b hb
        obtain rfl := List.mem_singleton.mp hb
        dsimp only
        omega
      · exact List.pairwise_singleton ..
    · split
      · exact List.pairwise_singleton ..
      · exact List.Pairwise.nil
  · refine h.apart.imp ?_
    intro a b hab x hx y hy
    obtain ⟨-, -, -, hxa, -⟩ := mem_carve hx
    obtain ⟨-, -, hby, -, -⟩ := mem_carve hy
    omega
  · intro b hb
    obtain ⟨a, -, hb⟩ := List.mem_flatMap.mp hb
    exact (mem_carve hb).2.1

theorem Sorted.map {a : Area κ} {l : List (Area κ)} (h : Sorted l) (ha : a.start < a.stop) :
    Sorted (map a l) := by
  refine (h.unmap (Nat.le_of_lt ha)).insert ha ?_
  intro b hb
  obtain ⟨c, -, hb⟩ := List.mem_flatMap.mp hb
  exact (mem_carve hb).2.2.2.2.symm

/-- In a sorted list no two areas share an address. -/
theorem Sorted.eq_of_has {l : List (Area κ)} (h : Sorted l) {a b : Area κ} {x : Nat} (ha : a ∈ l)
    (hb : b ∈ l) (hax : a.Has x) (hbx : b.Has x) : a = b := by
  induction l with
  | nil => cases ha
  | cons c l ih =>
    have hc := (List.pairwise_cons.mp h.apart).1
    rcases List.mem_cons.mp ha with rfl | hal <;> rcases List.mem_cons.mp hb with rfl | hbl
    · rfl
    · have hle := hc b hbl
      exact absurd hbx.1 (by have := hax.2; omega)
    · have hle := hc a hal
      exact absurd hax.1 (by have := hbx.2; omega)
    · exact ih h.tail hal hbl

theorem lookup_eq_some_iff {l : List (Area κ)} (h : Sorted l) {x : Nat} {v : κ} :
    lookup l x = some v ↔ ∃ a ∈ l, a.Has x ∧ a.val = v := by
  unfold lookup
  rw [Option.map_eq_some_iff]
  constructor
  · rintro ⟨a, ha, rfl⟩
    exact ⟨a, List.mem_of_find?_eq_some ha, by simpa using List.find?_some ha, rfl⟩
  · rintro ⟨a, ha, hx, rfl⟩
    cases hf : l.find? fun a => a.Has x with
    | none => exact absurd hx (by simpa using List.find?_eq_none.mp hf a ha)
    | some b =>
      have hbx : b.Has x := by simpa using List.find?_some hf
      exact ⟨b, rfl, congrArg _ (h.eq_of_has (List.mem_of_find?_eq_some hf) ha hbx hx)⟩

/-- **What taking away does**: the addresses in the range have no value any more. -/
theorem lookup_unmap {l : List (Area κ)} (h : Sorted l) {s e : Nat} (hse : s ≤ e) (x : Nat) :
    lookup (unmap s e l) x = if s ≤ x ∧ x < e then none else lookup l x := by
  refine Option.ext fun v => ?_
  rw [lookup_eq_some_iff (h.unmap hse)]
  split
  · rename_i hin
    refine ⟨?_, fun h => by cases h⟩
    rintro ⟨b, hb, hx, -⟩
    obtain ⟨a, -, hb⟩ := List.mem_flatMap.mp hb
    have := (mem_carve hb).2.2.2.2
    have := hx.1
    have := hx.2
    omega
  · rename_i hout
    rw [lookup_eq_some_iff h]
    constructor
    · rintro ⟨b, hb, hx, rfl⟩
      obtain ⟨a, ha, hb⟩ := List.mem_flatMap.mp hb
      obtain ⟨hval, -, hlo, hhi, -⟩ := mem_carve hb
      exact ⟨a, ha, ⟨Nat.le_trans hlo hx.1, Nat.lt_of_lt_of_le hx.2 hhi⟩, hval.symm⟩
    · rintro ⟨a, ha, hx, rfl⟩
      obtain ⟨b, hb, hbx, hval⟩ := exists_mem_carve hx (by omega : x < s ∨ e ≤ x)
      exact ⟨b, List.mem_flatMap.mpr ⟨a, ha, hb⟩, hbx, hval⟩

/-- **What mapping does**: the addresses of the area have its value, the others keep theirs. -/
theorem lookup_map {l : List (Area κ)} (h : Sorted l) {a : Area κ} (ha : a.start < a.stop) (x : Nat) :
    lookup (map a l) x = if a.Has x then some a.val else lookup l x := by
  have hse := Nat.le_of_lt ha
  have hu : lookup (unmap a.start a.stop l) x = if a.Has x then none else lookup l x :=
    lookup_unmap h hse x
  refine Option.ext fun v => ?_
  rw [lookup_eq_some_iff (h.map ha)]
  split
  · rename_i hx
    rw [if_pos hx] at hu
    constructor
    · rintro ⟨b, hb, hbx, rfl⟩
      rcases mem_insert.mp hb with rfl | hb
      · rfl
      · have hsome := (lookup_eq_some_iff (h.unmap hse)).mpr ⟨b, hb, hbx, rfl⟩
        rw [hu] at hsome
        cases hsome
    · intro hv
      exact ⟨a, mem_insert.mpr (.inl rfl), hx, Option.some.inj hv⟩
  · rename_i hx
    rw [if_neg hx] at hu
    rw [← hu, lookup_eq_some_iff (h.unmap hse)]
    constructor
    · rintro ⟨b, hb, hbx, rfl⟩
      rcases mem_insert.mp hb with rfl | hb
      · exact absurd hbx hx
      · exact ⟨b, hb, hbx, rfl⟩
    · rintro ⟨b, hb, hbx, rfl⟩
      exact ⟨b, mem_insert.mpr (.inr hb), hbx, rfl⟩

end Areas
