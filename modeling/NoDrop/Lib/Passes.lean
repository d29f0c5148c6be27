import NoDrop.Lib.Words

/-! # Passes over a table

A loop that walks a table and stores something for each entry.  What an entry stores may depend
on the memory, so in general the order matters.  When no entry reads what an earlier one has
stored, the whole pass is a list of stores that can be read off the memory before it
(`pass_eq`); and when the stores do not overlap, each of them is there in the end
(`read_writes_of_apart`).

The loop itself counts the bytes of the table down to zero (`tableLoop`).
-/
namespace NoDrop.Bytes

variable {α : Type}

/-- The entries change the image, one after the other. -/
def pass (each : α → Image → Image) (l : List α) (m : Image) : Image :=
  l.foldl (fun m a => each a m) m

@[simp] theorem pass_nil (each : α → Image → Image) (m : Image) : pass each [] m = m := rfl

@[simp] theorem pass_cons (each : α → Image → Image) (a : α) (l : List α) (m : Image) :
    pass each (a :: l) m = pass each l (each a m) := rfl

theorem pass_append (each : α → Image → Image) (l₁ l₂ : List α) (m : Image) :
    pass each (l₁ ++ l₂) m = pass each l₂ (pass each l₁ m) := List.foldl_append ..

theorem pass_map {β : Type} (each : α → Image → Image) (f : β → α) (l : List β) (m : Image) :
    pass each (l.map f) m = pass (fun b => each (f b)) l m := List.foldl_map ..

/-- **A pass whose entries do not see each other's stores** is the list of their stores. -/
theorem pass_eq {each : α → Image → Image} {reads : α → Nat → Prop} {eff : α → List Write}
    {m : Image} {l : List α} (hstep : ∀ a ∈ l, ∀ m', (∀ i, reads a i → m' i = m i) →
      each a m' = m'.writes (eff a))
    (hapart : l.Pairwise fun a b => ∀ w ∈ eff a, ∀ i, reads b i → ¬ w.Touches i) :
    pass each l m = m.writes (l.flatMap eff) := by
  -- generalised over the stores made so far, which no entry to come reads
  suffices h : ∀ ws : List Write, (∀ a ∈ l, ∀ w ∈ ws, ∀ i, reads a i → ¬ w.Touches i) →
      pass each l (m.writes ws) = m.writes (ws ++ l.flatMap eff) from
    h [] fun _ _ w hw => absurd hw List.not_mem_nil
  induction l with
  | nil =>
    intro ws _
    rw [List.flatMap_nil, List.append_nil, pass_nil]
  | cons a l ih =>
    intro ws hws
    obtain ⟨hhead, htail⟩ := List.pairwise_cons.mp hapart
    have hsame : ∀ i, reads a i → m.writes ws i = m i := fun i hi =>
      Image.writes_of_untouched fun w hw => hws a List.mem_cons_self w hw i hi
    rw [pass_cons, hstep a List.mem_cons_self _ hsame, ← Image.writes_append,
      ih (fun b hb => hstep b (List.mem_cons_of_mem a hb)) htail, List.flatMap_cons,
      List.append_assoc]
    intro b hb w hw i hi
    rcases List.mem_append.mp hw with hw | hw
    · exact hws b (List.mem_cons_of_mem a hb) w hw i hi
    · exact hhead b hb w hw i hi

/-- Two stores have no byte in common. -/
def Write.Apart (v w : Write) : Prop := v.stop ≤ w.off ∨ w.stop ≤ v.off

theorem Write.Apart.not_touches {v w : Write} (h : v.Apart w) {i : Nat}
    (hi : v.Touches i) : ¬ w.Touches i := by
  rintro ⟨hlo, hhi⟩
  obtain ⟨hlo', hhi'⟩ := hi
  rcases h with h | h <;> omega

/-- **Of stores that do not overlap, each is there in the end.** -/
theorem read_writes_of_apart {ws : List Write} (hapart : ws.Pairwise Write.Apart) {w : Write}
    (hw : w ∈ ws) (m : Image) : (m.writes ws).read w.off w.data.length = w.data := by
  obtain ⟨pre, post, rfl⟩ := List.append_of_mem hw
  refine Image.read_writes_of_last m pre post w fun v hv i hi => ?_
  have hwv := (List.pairwise_cons.mp (List.pairwise_append.mp hapart).2.1).1 v hv
  exact hwv.not_touches ⟨Nat.le_add_right .., Nat.add_lt_add_left hi w.off⟩

/-! ## The loop over a table -/

/-- `for (; size; rel += entry, size -= entry)` over bytes, with fuel: `none` if the count has
not come down to zero. -/
def tableLoop (entry : Nat) (each : Nat → Image → Image) :
    Nat → Nat → Nat → Image → Option Image
  | 0, _, size, m => if size = 0 then some m else none
  | fuel + 1, rel, size, m =>
    if size = 0 then some m
    else tableLoop entry each fuel ((rel + entry) % 2 ^ 64) ((size + (2 ^ 64 - entry)) % 2 ^ 64)
      (each rel m)

/-- Where the entries of a table are. -/
def entryAddrs (entry rel n : Nat) : List Nat := (List.range n).map fun i => rel + entry * i

theorem entryAddrs_succ (entry rel n : Nat) :
    entryAddrs entry rel (n + 1) = rel :: entryAddrs entry (rel + entry) n := by
  rw [entryAddrs, List.range_succ_eq_map, List.map_cons, List.map_map, Nat.mul_zero, Nat.add_zero]
  refine congrArg (rel :: ·) (List.map_congr_left fun i _ => ?_)
  show rel + entry * (i + 1) = rel + entry + entry * i
  rw [Nat.mul_succ]
  omega

/-- **A table of whole entries is passed over**, each entry once. -/
theorem tableLoop_eq {entry : Nat} (hpos : 0 < entry) (each : Nat → Image → Image) {n fuel : Nat}
    (hfuel : n ≤ fuel) {rel : Nat} (htop : rel + entry * n ≤ 2 ^ 64) (m : Image)
    (hlt : entry * n < 2 ^ 64) :
    tableLoop entry each fuel rel (entry * n) m = some (pass each (entryAddrs entry rel n) m) := by
  induction n generalizing fuel rel m with
  | zero =>
    rw [Nat.mul_zero]
    cases fuel <;> exact if_pos rfl
  | succ n ih =>
    obtain ⟨f, rfl⟩ : ∃ f, fuel = f + 1 := ⟨fuel - 1, by omega⟩
    rw [Nat.mul_succ] at htop hlt ⊢
    have hsize : (entry * n + entry + (2 ^ 64 - entry)) % 2 ^ 64 = entry * n := by omega
    rw [tableLoop, if_neg (by omega), hsize, entryAddrs_succ, pass_cons]
    rcases Nat.eq_zero_or_pos n with rfl | hn
    · -- after the last entry the address is not looked at
      rw [Nat.mul_zero]
      cases f <;> exact if_pos rfl
    · have hstep : 0 < entry * n := Nat.mul_pos hpos hn
      rw [Nat.mod_eq_of_lt (by omega)]
      exact ih (Nat.le_of_succ_le_succ hfuel) (by omega) _ (by omega)

end NoDrop.Bytes
