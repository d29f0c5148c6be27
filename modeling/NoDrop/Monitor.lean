import NoDrop.BufferQueue

/-! # The monitor's loop

`nod_monitor_main` of `monitor/src/main.c`: step from record to record by `hdr->len` until
`tail`, hand each to the consumers, then reset the shared counters.  A record of length
zero would keep the loop where it is, so the model runs it with fuel.

`nodMonitorMain_holds` is its specification: from a buffer that holds a queue, the
monitor is handed the queue's records, in order, and what stays is the parked one.
-/
namespace NoDrop

open Bytes

/-- The loop of `nod_monitor_main` from `ptr`: the records handed over, or `none` if it has
not reached `stop` after `fuel` of them. -/
def monitorLoop (img : Image) (stop : Nat) : Nat → Nat → Option (List (List UInt8))
  | 0, ptr => if ptr < stop then none else some []
  | fuel + 1, ptr =>
      if ptr < stop then
        let len := leNat (img.read (ptr + 16) 4)
        (monitorLoop img stop fuel (ptr + len)).map (img.read ptr len :: ·)
      else some []

/-- `nod_monitor_main`: the records handed over, and the buffer afterwards. -/
def nodMonitorMain (fuel : Nat) (b : NodBuffer) : Option (List (List UInt8) × NodBuffer) :=
  (monitorLoop (b.mem .buffer) b.info.tail.toNat fuel 0).map fun evts =>
    (evts, { b with info := { b.info with
      nevents := 0, tail := 0, nSolvedEvts := b.info.nSolvedEvts + evts.length } })

/-- On framed records the loop hands over exactly these. -/
theorem monitorLoop_framed {img : Image} {recs : List (List UInt8)}
    (h : ∀ r ∈ recs, Framed r) {ptr : Nat}
    (hb : img.read ptr recs.flatten.length = recs.flatten) {fuel : Nat} (hf : recs.length ≤ fuel) :
    monitorLoop img (ptr + recs.flatten.length) fuel ptr = some recs := by
  induction recs generalizing ptr fuel with
  | nil => cases fuel <;> simp [monitorLoop]
  | cons r rs ih =>
    obtain ⟨hhdr, hlen⟩ := h r List.mem_cons_self
    simp only [hdrSize] at hhdr
    simp only [List.flatten_cons, List.length_append] at hb ⊢
    rw [Image.read_add] at hb
    obtain ⟨hr, hrs⟩ := List.append_inj hb (Image.read_length ..)
    have hfield : leNat (img.read (ptr + 16) 4) = r.length := by
      rw [← hlen, field, ← hr, Image.drop_read _ _ (by omega), Image.take_read _ _ (by omega)]
    obtain ⟨n, rfl⟩ : ∃ n, fuel = n + 1 := by
      cases fuel with
      | zero => simp at hf
      | succ n => exact ⟨n, rfl⟩
    have hrest := ih (fun s hs => h s (List.mem_cons_of_mem _ hs)) hrs
      (Nat.le_of_succ_le_succ hf)
    rw [monitorLoop, if_pos (by omega)]
    simp only [hfield, hr, ← Nat.add_assoc, hrest, Option.map_some]

/-- Whatever the fuel, a loop that ends on framed records has handed over these. -/
theorem monitorLoop_eq_of_some {img : Image} {stop fuel ptr : Nat} {evts : List (List UInt8)}
    (h : monitorLoop img stop fuel ptr = some evts) {n : Nat} (hn : fuel ≤ n) :
    monitorLoop img stop n ptr = some evts := by
  induction fuel generalizing ptr n evts with
  | zero =>
    cases n with
    | zero => exact h
    | succ n =>
      unfold monitorLoop at h ⊢
      split at h
      · cases h
      · rename_i hlt
        rw [if_neg hlt]
        exact h
  | succ fuel ih =>
    obtain ⟨m, rfl⟩ : ∃ m, n = m + 1 := ⟨n - 1, by omega⟩
    rw [monitorLoop] at h ⊢
    split at h
    · rename_i hlt
      rw [if_pos hlt]
      obtain ⟨rest, hrest, rfl⟩ := Option.map_eq_some_iff.mp h
      simp only [ih hrest (Nat.le_of_succ_le_succ hn), Option.map_some]
    · rename_i hlt
      rw [if_neg hlt]
      exact h

/-- **The monitor is handed the records of the buffer, in order, once each**, and leaves
the parked record behind. -/
theorem nodMonitorMain_holds {b b' : NodBuffer} {q : Queue (List UInt8)} (h : Holds b q)
    {fuel : Nat} {evts : List (List UInt8)} (hm : nodMonitorMain fuel b = some (evts, b')) :
    evts = q.main ∧ Holds b' ⟨[], q.parked⟩ := by
  obtain ⟨evts', hloop, heq⟩ := Option.map_eq_some_iff.mp hm
  obtain ⟨rfl, rfl⟩ := Prod.mk.inj heq
  have hlen : b.info.tail.toNat = q.main.flatten.length := by
    rw [← h.bytes, Image.read_length]
  have hfull := monitorLoop_framed (fun r hr => h.framed r (List.mem_append_left _ hr))
    (hlen ▸ h.bytes) (Nat.le_max_right fuel q.main.length)
  rw [Nat.zero_add, ← hlen, monitorLoop_eq_of_some hloop (Nat.le_max_left ..)] at hfull
  refine ⟨Option.some.inj hfull, rfl, rfl, ?_, h.filled, h.parked, Nat.zero_le _, h.page_le⟩
  intro r hr
  exact h.framed r (List.mem_append_right _ (by simpa [Queue.contents] using hr))

/-- The loop does end: as many rounds as there are records are enough. -/
theorem nodMonitorMain_returns {b : NodBuffer} {q : Queue (List UInt8)} (h : Holds b q) :
    ∃ r, nodMonitorMain q.main.length b = some r := by
  have hlen : b.info.tail.toNat = q.main.flatten.length := by
    rw [← h.bytes, Image.read_length]
  have hfull := monitorLoop_framed (fun r hr => h.framed r (List.mem_append_left _ hr))
    (hlen ▸ h.bytes) (Nat.le_refl q.main.length)
  rw [Nat.zero_add, ← hlen] at hfull
  exact ⟨_, by rw [nodMonitorMain, hfull, Option.map_some]⟩

end NoDrop
