import Mathlib.Data.List.Basic
import Mathlib.Data.UInt

/-! # Little-endian integers and byte images

The general part of a development about records in raw memory.  An integer field
is the list of its bytes, least significant first (`leBytes`, `leNat`).  A memory
region is an `Image`, a total map from offsets to bytes, so that a store outside
the region is an ordinary value that a bound can then rule out; a program's effect
on it is the list of its stores (`Write`), applied in order (`Image.writes`).

The facts a client needs are of six kinds: what a store leaves alone
(`writes_of_untouched`), what a store puts there (`read_write_self`), that a byte
covered by some store does not depend on what was there before
(`writes_eq_of_covered`), that the same stores at another base address leave
the same bytes there (`writes_shift`), when two lists of stores leave the same
byte whatever was there (`Agree`), and how far a list of stores goes (`reach`).
-/
namespace NoDrop.Bytes

/-! ## Little-endian integers -/

/-- The `n` low bytes of `v`, least significant first. -/
def leBytes : Nat → Nat → List UInt8
  | 0, _ => []
  | n + 1, v => UInt8.ofNat v :: leBytes n (v / 256)

/-- The number a list of bytes denotes, least significant byte first. -/
def leNat : List UInt8 → Nat
  | [] => 0
  | b :: bs => b.toNat + 256 * leNat bs

@[simp] theorem leBytes_length (n v : Nat) : (leBytes n v).length = n := by
  induction n generalizing v with
  | zero => rfl
  | succ n ih => simp [leBytes, ih]

/-- Reading an `n`-byte field back truncates the value to the field's width. -/
theorem leNat_leBytes (n v : Nat) : leNat (leBytes n v) = v % 256 ^ n := by
  induction n generalizing v with
  | zero => simp [leBytes, leNat, Nat.mod_one]
  | succ n ih =>
    have hb : (UInt8.ofNat v).toNat = v % 256 := by simp
    rw [leBytes, leNat, ih, hb, Nat.pow_succ', Nat.mod_mul]

/-- A field wide enough for the value reads back as the value. -/
theorem leNat_leBytes_of_lt {n v : Nat} (h : v < 256 ^ n) : leNat (leBytes n v) = v := by
  rw [leNat_leBytes, Nat.mod_eq_of_lt h]

/-! ## Images and stores -/

/-- The contents of a memory region, by offset. -/
abbrev Image := Nat → UInt8

/-- One store: `data` at offset `off`. -/
structure Write where
  off : Nat
  data : List UInt8
deriving DecidableEq, Repr

namespace Write

/-- The offset after the last byte stored. -/
def stop (w : Write) : Nat := w.off + w.data.length

/-- The store touches offset `i`. -/
def Touches (w : Write) (i : Nat) : Prop := w.off ≤ i ∧ i < w.stop

instance (w : Write) (i : Nat) : Decidable (w.Touches i) :=
  inferInstanceAs (Decidable (_ ∧ _))

/-- The same store `d` bytes further up. -/
def shift (d : Nat) (w : Write) : Write := ⟨d + w.off, w.data⟩

@[simp] theorem shift_zero (w : Write) : shift 0 w = w := by
  simp [shift]

@[simp] theorem map_shift_zero (ws : List Write) : ws.map (shift 0) = ws := by
  induction ws with
  | nil => rfl
  | cons w ws ih => rw [List.map_cons, ih, shift_zero]

@[simp] theorem stop_shift (d : Nat) (w : Write) : (w.shift d).stop = d + w.stop := by
  simp [shift, stop, Nat.add_assoc]

theorem touches_shift (d i : Nat) (w : Write) : (w.shift d).Touches (d + i) ↔ w.Touches i := by
  simp [Touches, shift, stop, Nat.add_assoc]

end Write

namespace Image

/-- The image after one store. -/
def write (img : Image) (w : Write) : Image := fun i =>
  if w.Touches i then w.data.getD (i - w.off) 0 else img i

/-- The image after a list of stores, the first one first. -/
def writes (img : Image) (ws : List Write) : Image := ws.foldl write img

/-- The `n` bytes from offset `off` on. -/
def read (img : Image) (off n : Nat) : List UInt8 :=
  (List.range n).map fun i => img (off + i)

@[simp] theorem writes_nil (img : Image) : img.writes [] = img := rfl

@[simp] theorem writes_cons (img : Image) (w : Write) (ws : List Write) :
    img.writes (w :: ws) = (img.write w).writes ws := rfl

theorem writes_append (img : Image) (ws vs : List Write) :
    img.writes (ws ++ vs) = (img.writes ws).writes vs :=
  List.foldl_append ..

theorem write_of_not_touches {img : Image} {w : Write} {i : Nat} (h : ¬ w.Touches i) :
    img.write w i = img i := if_neg h

theorem write_of_touches {img : Image} {w : Write} {i : Nat} (h : w.Touches i) :
    img.write w i = w.data.getD (i - w.off) 0 := if_pos h

/-- A store of no bytes. -/
theorem write_nil (img : Image) (off : Nat) : img.write ⟨off, []⟩ = img := by
  funext i
  refine write_of_not_touches ?_
  rintro ⟨hlo, hhi⟩
  exact absurd hhi (Nat.not_lt.mpr hlo)

/-- A byte no store touches keeps its value. -/
theorem writes_of_untouched {img : Image} {ws : List Write} {i : Nat}
    (h : ∀ w ∈ ws, ¬ w.Touches i) : img.writes ws i = img i := by
  induction ws generalizing img with
  | nil => rfl
  | cons w ws ih =>
    rw [writes_cons, ih fun v hv => h v (List.mem_cons_of_mem _ hv),
      write_of_not_touches (h w List.mem_cons_self)]

/-- Two images that agree at an offset still agree there after the same stores. -/
theorem writes_congr {img img' : Image} {i : Nat} (h : img i = img' i) (ws : List Write) :
    img.writes ws i = img'.writes ws i := by
  induction ws generalizing img img' with
  | nil => exact h
  | cons w ws ih =>
    apply ih
    simp only [write, h]

/-- A byte that some store touches does not depend on the image before. -/
theorem writes_eq_of_covered {ws : List Write} {i : Nat} (h : ∃ w ∈ ws, w.Touches i)
    (img img' : Image) : img.writes ws i = img'.writes ws i := by
  induction ws generalizing img img' with
  | nil => simp at h
  | cons w ws ih =>
    by_cases hw : w.Touches i
    · exact writes_congr (by rw [write_of_touches hw, write_of_touches hw]) ws
    · obtain ⟨v, hv, ht⟩ := h
      rcases List.mem_cons.mp hv with rfl | hv
      · exact absurd ht hw
      · exact ih ⟨v, hv, ht⟩ _ _

/-- The same stores at another base leave the same bytes relative to that base. -/
theorem writes_shift (img : Image) (d : Nat) (ws : List Write) (i : Nat) :
    img.writes (ws.map (Write.shift d)) (d + i) = writes (fun j => img (d + j)) ws i := by
  induction ws generalizing img with
  | nil => rfl
  | cons w ws ih =>
    rw [List.map_cons, writes_cons, writes_cons, ih]
    refine congrArg (fun m : Image => m.writes ws i) (funext fun j => ?_)
    by_cases hw : w.Touches j
    · rw [write_of_touches hw, write_of_touches ((Write.touches_shift d j w).mpr hw)]
      simp [Write.shift, Nat.add_sub_add_left]
    · rw [write_of_not_touches hw, write_of_not_touches (mt (Write.touches_shift d j w).mp hw)]

/-! ### Reading -/

@[simp] theorem read_length (img : Image) (off n : Nat) : (img.read off n).length = n := by
  simp [read]

@[simp] theorem read_zero (img : Image) (off : Nat) : img.read off 0 = [] := rfl

theorem read_getElem? (img : Image) (off n i : Nat) (h : i < n) :
    (img.read off n)[i]? = some (img (off + i)) := by
  simp [read, h]

/-- A list as memory. -/
theorem read_getD {l : List UInt8} {off n : Nat} (h : off + n ≤ l.length) :
    read (fun i => l.getD i 0) off n = (l.drop off).take n := by
  apply List.ext_getElem
  · rw [read_length, List.length_take, List.length_drop]
    omega
  · intro i h1 h2
    rw [read_length] at h1
    have hget := read_getElem? (fun i => l.getD i 0) off n i h1
    rw [List.getElem?_eq_getElem (by simpa using h1)] at hget
    rw [Option.some.inj hget, List.getElem_take, List.getElem_drop, List.getD_eq_getElem?_getD,
      List.getElem?_eq_getElem (by omega)]
    rfl

theorem read_add (img : Image) (off m n : Nat) :
    img.read off (m + n) = img.read off m ++ img.read (off + m) n := by
  simp [read, List.range_add, Nat.add_assoc, Function.comp_def]

theorem read_congr {img img' : Image} {off off' n : Nat}
    (h : ∀ i < n, img (off + i) = img' (off' + i)) : img.read off n = img'.read off' n :=
  List.map_congr_left fun i hi => h i (List.mem_range.mp hi)

/-- Equal reads agree byte by byte. -/
theorem apply_eq_of_read_eq {img img' : Image} {off off' n : Nat}
    (h : img.read off n = img'.read off' n) {i : Nat} (hi : i < n) :
    img (off + i) = img' (off' + i) := by
  have hg := congrArg (fun l : List UInt8 => l[i]?) h
  simpa [read_getElem? _ _ _ _ hi] using hg

theorem take_read (img : Image) (off : Nat) {k n : Nat} (h : k ≤ n) :
    (img.read off n).take k = img.read off k := by
  obtain ⟨d, rfl⟩ := Nat.exists_eq_add_of_le h
  rw [read_add, List.take_left' (read_length ..)]

theorem drop_read (img : Image) (off : Nat) {k n : Nat} (h : k ≤ n) :
    (img.read off n).drop k = img.read (off + k) (n - k) := by
  obtain ⟨d, rfl⟩ := Nat.exists_eq_add_of_le h
  rw [read_add, List.drop_left' (read_length ..), Nat.add_sub_cancel_left]

/-- The bytes just stored. -/
theorem read_write_self (img : Image) (w : Write) :
    (img.write w).read w.off w.data.length = w.data := by
  apply List.ext_getElem?
  intro i
  by_cases h : i < w.data.length
  · have ht : w.Touches (w.off + i) := ⟨Nat.le_add_right .., Nat.add_lt_add_left h _⟩
    rw [read_getElem? _ _ _ _ h, write_of_touches ht, Nat.add_sub_cancel_left]
    simp [List.getD, h]
  · rw [List.getElem?_eq_none (by simpa using h), List.getElem?_eq_none (by simpa using h)]

/-- A store inside a range replaces a part of what is read there. -/
theorem read_write_inside (img : Image) {a off n : Nat} {data : List UInt8}
    (h : off + data.length ≤ n) :
    (img.write ⟨a + off, data⟩).read a n =
      (img.read a n).take off ++ data ++ (img.read a n).drop (off + data.length) := by
  obtain ⟨k, rfl⟩ := Nat.exists_eq_add_of_le h
  have hout : ∀ b m, b + m ≤ a + off ∨ a + off + data.length ≤ b →
      (img.write ⟨a + off, data⟩).read b m = img.read b m := fun b m hb =>
    read_congr fun i hi => write_of_not_touches fun ht => by
      have hlo : a + off ≤ b + i := ht.1
      have hhi : b + i < a + off + data.length := ht.2
      omega
  rw [take_read _ _ (by omega), drop_read _ _ h, Nat.add_sub_cancel_left, read_add, read_add,
    hout a off (Or.inl (Nat.le_refl _)), hout _ k (Or.inr (by omega))]
  congr 2
  exact read_write_self img ⟨a + off, data⟩

/-- A range no store touches reads the same after the stores. -/
theorem read_writes_of_untouched {img : Image} {ws : List Write} {off n : Nat}
    (h : ∀ w ∈ ws, ∀ i < n, ¬ w.Touches (off + i)) :
    (img.writes ws).read off n = img.read off n :=
  read_congr fun i hi => writes_of_untouched fun w hw => h w hw i hi

/-- A store that no later store overlaps is there in the end. -/
theorem read_writes_of_last (img : Image) (pre post : List Write) (w : Write)
    (h : ∀ v ∈ post, ∀ i < w.data.length, ¬ v.Touches (w.off + i)) :
    (img.writes (pre ++ w :: post)).read w.off w.data.length = w.data := by
  rw [writes_append, writes_cons, read_writes_of_untouched h, read_write_self]

/-- The first bytes of a store are there in the end if all later stores are behind them. -/
theorem read_writes_of_behind (img : Image) {off n : Nat} {data : List UInt8} {ws : List Write}
    (hn : n ≤ data.length) (h : ∀ w ∈ ws, off + n ≤ w.off) :
    (img.writes (⟨off, data⟩ :: ws)).read off n = data.take n := by
  have hout : ∀ w ∈ ws, ∀ i < n, ¬ w.Touches (off + i) := by
    intro w hw i hi ht
    have hlo := h w hw
    have hle : w.off ≤ off + i := ht.1
    omega
  rw [writes_cons, read_writes_of_untouched hout, ← take_read _ _ hn]
  exact congrArg (List.take n) (read_write_self img ⟨off, data⟩)

end Image

/-! ## Comparing two lists of stores -/

/-- The two lists of stores leave the same byte at offset `i`, whatever was there. -/
def Agree (ws ws' : List Write) (i : Nat) : Prop :=
  ∀ img img' : Image, img.writes ws i = img'.writes ws' i

namespace Agree

variable {ws ws' vs vs' : List Write} {i : Nat}

theorem of_covered (h : ∃ w ∈ ws, w.Touches i) : Agree ws ws i :=
  Image.writes_eq_of_covered h

/-- Later stores decide. -/
theorem append_right (ws ws' : List Write) (h : Agree vs vs' i) :
    Agree (ws ++ vs) (ws' ++ vs') i := by
  intro img img'
  rw [Image.writes_append, Image.writes_append]
  exact h ..

/-- Later stores elsewhere change nothing. -/
theorem append_left (h : Agree ws ws' i) (hv : ∀ v ∈ vs, ¬ v.Touches i)
    (hv' : ∀ v ∈ vs', ¬ v.Touches i) : Agree (ws ++ vs) (ws' ++ vs') i := by
  intro img img'
  rw [Image.writes_append, Image.writes_append, Image.writes_of_untouched hv,
    Image.writes_of_untouched hv']
  exact h ..

theorem shift (d : Nat) (h : Agree ws ws' i) :
    Agree (ws.map (Write.shift d)) (ws'.map (Write.shift d)) (d + i) := by
  intro img img'
  rw [Image.writes_shift, Image.writes_shift]
  exact h ..

/-- Two stores at the front that begin with the same `k` bytes. -/
theorem of_take_eq {bs bs' : List UInt8} {k : Nat} (h : bs.take k = bs'.take k)
    (hk : k ≤ bs.length) (hi : i < k) : Agree [⟨0, bs⟩] [⟨0, bs'⟩] i := by
  have hk' : k ≤ bs'.length := by
    have := congrArg List.length h
    simp only [List.length_take] at this
    omega
  have hget : bs[i]? = bs'[i]? := by
    have := congrArg (fun l : List UInt8 => l[i]?) h
    simpa [List.getElem?_take, hi] using this
  intro img img'
  have ht : Write.Touches ⟨0, bs⟩ i := ⟨Nat.zero_le _, by simp only [Write.stop]; omega⟩
  have ht' : Write.Touches ⟨0, bs'⟩ i := ⟨Nat.zero_le _, by simp only [Write.stop]; omega⟩
  simp only [Image.writes_cons, Image.writes_nil, Image.write_of_touches ht,
    Image.write_of_touches ht', Nat.sub_zero, List.getD, hget]

end Agree

/-- Stores that agree throughout leave the same range. -/
theorem read_writes_of_agree {ws ws' : List Write} {off n : Nat}
    (h : ∀ i < n, Agree ws ws' (off + i)) (img img' : Image) :
    (img.writes ws).read off n = (img'.writes ws').read off n :=
  Image.read_congr fun i hi => h i hi img img'

/-! ## How far stores go -/

/-- The offset after the last byte some stores touch. -/
def reach : List Write → Nat
  | [] => 0
  | w :: ws => max (if w.data = [] then 0 else w.stop) (reach ws)

@[simp] theorem reach_nil : reach [] = 0 := rfl

@[simp] theorem reach_append (ws vs : List Write) :
    reach (ws ++ vs) = max (reach ws) (reach vs) := by
  induction ws with
  | nil => simp
  | cons w ws ih => rw [List.cons_append, reach, ih, reach, Nat.max_assoc]

theorem reach_singleton {w : Write} (h : w.data ≠ []) : reach [w] = w.stop := by
  simp [reach, h]

theorem stop_le_iff_touches {w : Write} (h : w.data ≠ []) (n : Nat) :
    w.stop ≤ n ↔ ∀ i, w.Touches i → i < n := by
  have hpos := List.length_pos_of_ne_nil h
  constructor
  · intro hle i hi
    exact Nat.lt_of_lt_of_le hi.2 hle
  · intro hall
    -- the last byte
    have hlast := hall (w.stop - 1) ⟨by simp only [Write.stop]; omega, by simp only [Write.stop]; omega⟩
    omega

/-- The bound `reach` is the least one. -/
theorem reach_le_iff (ws : List Write) (n : Nat) :
    reach ws ≤ n ↔ ∀ w ∈ ws, ∀ i, w.Touches i → i < n := by
  induction ws with
  | nil => simp
  | cons w ws ih =>
    rw [reach, Nat.max_le, ih, List.forall_mem_cons]
    refine and_congr_left fun _ => ?_
    by_cases h : w.data = []
    · rw [if_pos h]
      refine iff_of_true (Nat.zero_le _) ?_
      rintro i ⟨hi, hi'⟩
      simp only [Write.stop, h, List.length_nil] at hi'
      omega
    · rw [if_neg h, stop_le_iff_touches h]

theorem reach_map_shift (d : Nat) (ws : List Write) :
    reach (ws.map (Write.shift d)) = if reach ws = 0 then 0 else d + reach ws := by
  induction ws with
  | nil => rfl
  | cons w ws ih =>
    rw [List.map_cons, reach, reach, ih, Write.stop_shift]
    by_cases h : w.data = []
    · simp [Write.shift, h]
    · have hpos : 0 < w.stop := by
        have := List.length_pos_of_ne_nil h
        simp only [Write.stop]
        omega
      simp only [Write.shift, h, if_false]
      split <;> split <;> omega

end NoDrop.Bytes
