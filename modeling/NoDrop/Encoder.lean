import NoDrop.Asserts
import NoDrop.FreeSpace

/-! # The books of the encoder

Every byte of a record goes through `val_to_ring`.  Three things are asked of it.

* It stays in bounds and keeps its books (`valToRing_keepsBooks`): it stores into its own length
  and the room it was given, what is used and what is left make up the buffer, and the length is
  the number of bytes by which the offset went up.
* A call that fails changes nothing a later call can see (`valToRing_harmless_iff`).  It does if
  the value of a `PT_DYN` parameter does not fit behind its index byte: the byte stays accounted
  for.
* Every byte of an argument was written by the call (`valToRing_noStale_iff`).  It was not if
  the second of the two copies of user data faults: what it did not copy is counted all the same.
-/
namespace NoDrop

open Bytes

section Cases

variable {ty : EventType} {um : UserMem} {v : Value} {a : RingArgs}

/-- What a call can do: stop before it has stored anything, or go on with a known type. -/
theorem valToRing_cases (ty : EventType) (um : UserMem) (v : Value) (a : RingArgs) :
    ((valToRing ty um v a).res ≠ nodSuccess ∧ (valToRing ty um v a).args = a ∧
      (valToRing ty um v a).out = [] ∧
      ¬(a.argDataSize ≠ 0 ∧ ∃ t pre, argType ty v a.curarg = some (t, pre))) ∨
    (a.argDataSize ≠ 0 ∧ ∃ t pre, argType ty v a.curarg = some (t, pre)) := by
  by_cases hn : (gEventInfo ty).nparams ≤ a.curarg
  · have hv : valToRing ty um v a = ⟨nodFailureBug, a, []⟩ := if_pos hn
    have hnone : argType ty v a.curarg = none := if_pos hn
    rw [hv, hnone]
    refine .inl ⟨show nodFailureBug ≠ nodSuccess by decide, rfl, rfl, ?_⟩
    rintro ⟨-, t, pre, h⟩
    cases h
  by_cases hroom : a.argDataSize = 0
  · have hv : valToRing ty um v a = ⟨nodFailureBufferFull, a, []⟩ := by
      simp only [valToRing]
      rw [if_neg hn, if_pos hroom]
    rw [hv]
    exact .inl ⟨show nodFailureBufferFull ≠ nodSuccess by decide, rfl, rfl, fun h => h.1 hroom⟩
  cases ht : argType ty v a.curarg with
  | some tp => exact .inr ⟨hroom, tp.1, tp.2, rfl⟩
  | none =>
    -- an index out of the table's range
    have hv : valToRing ty um v a = ⟨nodFailureBug, a, []⟩ := by
      simp only [argType, hn, if_false] at ht
      simp only [valToRing]
      rw [if_neg hn, if_neg hroom]
      split at ht
      · rename_i hdyn
        rw [if_pos hdyn, Option.map_eq_none_iff.mp ht]
      · cases ht
    rw [hv]
    refine .inl ⟨show nodFailureBug ≠ nodSuccess by decide, rfl, rfl, ?_⟩
    rintro ⟨-, t, pre, h⟩
    cases h

end Cases

/-! ## In bounds -/

section Bounds

variable {ty : EventType} {um : UserMem} {v : Value} {a : RingArgs}

/-- What the callers of `val_to_ring` see to: the arguments start behind the array of lengths,
and what is used and what is left make up the buffer. -/
structure RingArgs.Ready (ty : EventType) (a : RingArgs) (bufferSize : Nat) : Prop where
  start : 2 * (gEventInfo ty).nparams ≤ a.argDataOffset
  size : a.argDataOffset + a.argDataSize = bufferSize
  lt : bufferSize < 2 ^ 32

/-- **In bounds, and the books kept.** -/
structure KeepsBooks (ty : EventType) (um : UserMem) (v : Value) (a : RingArgs)
    (bufferSize : Nat) : Prop where
  stores : ∀ w ∈ (valToRing ty um v a).out, ∀ j, w.Touches j →
    (2 * a.curarg ≤ j ∧ j < 2 * a.curarg + 2) ∨ (a.argDataOffset ≤ j ∧ j < bufferSize)
  size : (valToRing ty um v a).args.argDataOffset + (valToRing ty um v a).args.argDataSize =
    bufferSize
  curarg : (valToRing ty um v a).res = nodSuccess →
    (valToRing ty um v a).args.curarg = a.curarg + 1
  length : (valToRing ty um v a).res = nodSuccess →
    ∀ img : Image, a.argDataOffset + leNat ((img.writes (valToRing ty um v a).out).read
      (2 * a.curarg) 2) = (valToRing ty um v a).args.argDataOffset
  asserts : ¬PushTrips ty um v a

/-- A store of the end of the call: its length, or a byte of its room. -/
theorem pushArg_stores {t : ParamType} {pre max : Nat} {w : Write}
    (hw : w ∈ (pushArg t um v a pre max).out) :
    (∃ len, w = slot a.curarg len) ∨
      (a.argDataOffset ≤ w.off ∧ w.stop ≤ a.argDataOffset + max) := by
  unfold pushArg at hw
  split at hw
  · cases hw
  rename_i len ws hp
  have hstop := (pushData_within hp).stop_le
  rcases List.mem_append.mp hw with hw | hw
  · obtain ⟨w', hw', rfl⟩ := List.mem_map.mp hw
    have hle := hstop w' hw'
    refine .inr ⟨Nat.le_add_right .., ?_⟩
    rw [Write.stop_shift]
    exact Nat.add_le_add_left hle _
  · exact .inl ⟨_, List.mem_singleton.mp hw⟩

/-- A store of the call. -/
theorem valToRing_stores (hlt : a.argDataOffset + a.argDataSize < 2 ^ 32) {w : Write}
    (hw : w ∈ (valToRing ty um v a).out) :
    (∃ len, w = slot a.curarg len) ∨
      (a.argDataOffset ≤ w.off ∧ w.stop ≤ a.argDataOffset + a.argDataSize) := by
  rcases valToRing_cases ty um v a with ⟨-, -, hout, -⟩ | ⟨hroom, t, pre, ht⟩
  · rw [hout] at hw
    cases hw
  rw [valToRing_eq hroom ht] at hw
  have hpre : pre = 0 ∨ pre = 1 := (argType_cases ht).2.imp And.left And.left
  have hoff : (a.afterIndex pre).argDataOffset = a.argDataOffset + pre := by
    rcases hpre with rfl | rfl
    · rfl
    · exact u32_of_lt (by omega)
  rcases List.mem_append.mp hw with hw | hw
  · rcases hpre with rfl | rfl
    · exact .inl ⟨0, List.mem_singleton.mp hw⟩
    · rcases List.mem_cons.mp hw with rfl | hw
      · refine .inr ⟨Nat.le_refl _, ?_⟩
        simp only [Write.stop, List.length_singleton]
        omega
      · exact .inl ⟨1, List.mem_singleton.mp hw⟩
  · rcases pushArg_stores hw with h | ⟨h1, h2⟩
    · exact .inl h
    · rw [hoff] at h1 h2
      exact .inr ⟨by omega, by omega⟩

/-- **`val_to_ring` stays in bounds and keeps its books**, whatever it is given. -/
theorem valToRing_keepsBooks (ty : EventType) (um : UserMem) (v : Value) {a : RingArgs}
    {bufferSize : Nat} (h : a.Ready ty bufferSize) : KeepsBooks ty um v a bufferSize := by
  have hlt : a.argDataOffset + a.argDataSize < 2 ^ 32 := h.size ▸ h.lt
  have hsound := valToRing_sound ty um v hlt
  refine ⟨?_, hsound.room.trans h.size, fun hres => (hsound.succeeded hres).2.1, ?_,
    not_pushTrips ty um v a⟩
  · intro w hw j hj
    rcases valToRing_stores hlt hw with ⟨len, rfl⟩ | ⟨h1, h2⟩
    · simp only [Write.Touches, slot, Write.stop, leBytes_length] at hj
      exact .inl hj
    · rw [h.size] at h2
      exact .inr ⟨Nat.le_trans h1 hj.1, Nat.lt_of_lt_of_le hj.2 h2⟩
  · intro hres img
    obtain ⟨-, -, hmax, front, hout⟩ := hsound.succeeded hres
    have hle := hsound.offset_le
    have hmaxArg : nodMaxArgSize = 65000 := rfl
    rw [hout, read_slot_last, leNat_leBytes_of_lt (by omega)]
    omega

/-- An option of eight bytes of `setsockopt`, pushed with ten bytes of room. -/
theorem valToRing_keepsBooks_sockopt :
    KeepsBooks .socketSetsockopt ⟨fun _ => none, 0, fun _ _ => 0⟩
      { val := 7, dynIdx := 3 } ⟨4, 20, 10⟩ 30 :=
  valToRing_keepsBooks _ _ _ ⟨by decide, rfl, by decide⟩

end Bounds

/-! ## Failed calls -/

section Failed

variable {ty : EventType} {um : UserMem} {v : Value} {a : RingArgs}

/-- A failed call changes nothing a later call can see: the arguments are as they were, and a
value pushed in its place is encoded as if the call had not happened. -/
structure Harmless (ty : EventType) (um : UserMem) (v : Value) (a : RingArgs) : Prop where
  args : (valToRing ty um v a).args = a
  again : ∀ (um' : UserMem) (v' : Value) (img : Image),
    (valToRing ty um' v' a).res = nodSuccess →
    img.writes ((valToRing ty um v a).out ++ (valToRing ty um' v' (valToRing ty um v a).args).out) =
      img.writes (valToRing ty um' v' a).out

/-- The value of a `PT_DYN` parameter does not go into the room behind its index byte. -/
def StrandsIndex (ty : EventType) (v : Value) (a : RingArgs) : Prop :=
  a.argDataSize ≠ 0 ∧ ∃ t, argType ty v a.curarg = some (t, 1) ∧
    Refused t v (min a.argDataSize nodMaxArgSize - 1)

/-- Every type a `PT_DYN` parameter can stand for has a case in `val_to_ring`. -/
theorem dyn_hasCase (ty : EventType) (i : Nat) : ∀ t ∈ ((gEventInfo ty).param i).dyn,
    t = .bytebuf ∨ t.width.isSome := by
  have hall : ∀ p ∈ (gEventInfo ty).params, ∀ t ∈ p.dyn, t = .bytebuf ∨ t.width.isSome := by
    cases ty <;> decide
  intro t ht
  unfold EventInfo.param at ht
  rw [List.getD_eq_getElem?_getD] at ht
  cases hp : (gEventInfo ty).params[i]? with
  | none =>
    rw [hp] at ht
    cases ht
  | some p =>
    rw [hp] at ht
    exact hall p (List.mem_of_getElem? hp) t ht

theorem pushData_ne_bug {t : ParamType} (ht : t = .bytebuf ∨ t.width.isSome) (um : UserMem)
    (v : Value) (max : Nat) : pushData t um v max ≠ .error nodFailureBug := by
  intro h
  rcases ht with rfl | ht
  · have hb : pushBytebuf um v max = .error nodFailureBug := h
    rcases pushBytebuf_refused um v max with ⟨-, hfull⟩ | ⟨-, p, hok⟩
    · cases hb.symm.trans hfull
    · cases hb.symm.trans hok
  · obtain ⟨w, hw⟩ := Option.isSome_iff_exists.mp ht
    rw [pushData_scalar um v max hw, pushScalar] at h
    split at h
    · cases h
    · cases h

/-- The index byte is behind a `PT_DYN` parameter. -/
theorem argType_one {i : Nat} {t : ParamType} (h : argType ty v i = some (t, 1)) :
    t ∈ ((gEventInfo ty).param i).dyn := by
  obtain ⟨-, ⟨h0, -⟩ | ⟨-, -, ht⟩⟩ := argType_cases h
  · cases h0
  · exact List.mem_of_getElem? ht

/-- A call that fails after it has found the type has stored no argument data. -/
theorem valToRing_of_failed {t : ParamType} {pre : Nat} (hroom : a.argDataSize ≠ 0)
    (ht : argType ty v a.curarg = some (t, pre)) (hres : (valToRing ty um v a).res ≠ nodSuccess) :
    (valToRing ty um v a).args = a.afterIndex pre ∧
      (valToRing ty um v a).out = indexStores a v pre ∧
      ∀ p, pushData t um v (min a.argDataSize nodMaxArgSize - pre) ≠ .ok p := by
  rw [valToRing_eq hroom ht] at hres ⊢
  dsimp only at hres ⊢
  unfold pushArg at hres ⊢
  split
  · rename_i e he
    exact ⟨rfl, List.append_nil _, fun p hp => by cases he.symm.trans hp⟩
  · rename_i len ws hp
    rw [hp] at hres
    exact absurd rfl hres

/-- A call that succeeds writes its length, over whatever was there. -/
theorem covers_slot {um' : UserMem} {v' : Value} (hres : (valToRing ty um' v' a).res = nodSuccess)
    {j : Nat} (hj : 2 * a.curarg ≤ j ∧ j < 2 * a.curarg + 2) :
    ∃ w ∈ (valToRing ty um' v' a).out, w.Touches j := by
  rcases valToRing_cases ty um' v' a with ⟨hne, -⟩ | ⟨hroom, t, pre, ht⟩
  · exact absurd hres hne
  rw [valToRing_eq hroom ht]
  refine ⟨slot a.curarg pre, List.mem_append_left _ ?_, ?_⟩
  · obtain ⟨-, ⟨rfl, -⟩ | ⟨rfl, -⟩⟩ := argType_cases ht
    · exact List.mem_singleton.mpr rfl
    · exact List.mem_cons_of_mem _ (List.mem_singleton.mpr rfl)
  · simp only [Write.Touches, slot, Write.stop, leBytes_length]
    exact hj

/-- Stores into the length alone do not survive a later call. -/
theorem writes_slots_append {um' : UserMem} {v' : Value} {ws : List Write}
    (hws : ∀ w ∈ ws, ∃ len, w = slot a.curarg len)
    (hres : (valToRing ty um' v' a).res = nodSuccess) (img : Image) :
    img.writes (ws ++ (valToRing ty um' v' a).out) = img.writes (valToRing ty um' v' a).out := by
  rw [Image.writes_append]
  funext j
  by_cases hj : 2 * a.curarg ≤ j ∧ j < 2 * a.curarg + 2
  · exact Image.writes_eq_of_covered (covers_slot hres hj) _ _
  · refine Image.writes_congr (Image.writes_of_untouched fun w hw => ?_) _
    obtain ⟨len, rfl⟩ := hws w hw
    simp only [Write.Touches, slot, Write.stop, leBytes_length]
    exact hj

/-- **When a failed call is harmless**: unless the value of a `PT_DYN` parameter does not go into
the room behind its index byte. -/
theorem valToRing_harmless_iff (ty : EventType) (um : UserMem) (v : Value) (a : RingArgs) :
    ((valToRing ty um v a).res ≠ nodSuccess → Harmless ty um v a) ↔ ¬StrandsIndex ty v a := by
  constructor
  · rintro h ⟨hroom, t, ht, hr⟩
    have hp : pushData t um v (min a.argDataSize nodMaxArgSize - 1) =
        .error nodFailureBufferFull := by
      rcases pushData_cases t um v (min a.argDataSize nodMaxArgSize - 1) with
        ⟨-, hp⟩ | ⟨hn, -⟩ | ⟨hn, -⟩
      · exact hp
      · exact absurd hr hn
      · exact absurd hr hn
    have hv := @valToRing_eq _ um _ _ _ _ hroom ht
    simp only [pushArg, hp] at hv
    have hfull : (valToRing ty um v a).res ≠ nodSuccess := by
      rw [hv]
      exact show nodFailureBufferFull ≠ nodSuccess by decide
    have hargs := (h hfull).args
    rw [hv] at hargs
    have hsize : a.argDataSize - 1 = a.argDataSize := congrArg RingArgs.argDataSize hargs
    omega
  · intro hnot hres
    have hstay : (valToRing ty um v a).args = a ∧
        ∀ w ∈ (valToRing ty um v a).out, ∃ len, w = slot a.curarg len := by
      rcases valToRing_cases ty um v a with ⟨-, hargs, hout, -⟩ | ⟨hroom, t, pre, ht⟩
      · rw [hout]
        exact ⟨hargs, fun w hw => by cases hw⟩
      · obtain ⟨hargs, hout, hp⟩ := valToRing_of_failed hroom ht hres
        obtain ⟨-, ⟨rfl, -⟩ | ⟨rfl, -⟩⟩ := argType_cases ht
        · rw [hargs, hout]
          exact ⟨rfl, fun w hw => ⟨0, List.mem_singleton.mp hw⟩⟩
        · rcases pushData_cases t um v (min a.argDataSize nodMaxArgSize - 1) with
            ⟨hr, -⟩ | ⟨-, hbug⟩ | ⟨-, p, hok⟩
          · exact absurd ⟨hroom, t, ht, hr⟩ hnot
          · exact absurd hbug (pushData_ne_bug (dyn_hasCase ty _ t (argType_one ht)) um v _)
          · exact absurd hok (hp p)
    refine ⟨hstay.1, fun um' v' img hres' => ?_⟩
    rw [hstay.1]
    exact writes_slots_append hstay.2 hres' img

/-- An option of eight bytes of `setsockopt`, with eight bytes of room. -/
theorem valToRing_strands_sockopt :
    (valToRing .socketSetsockopt ⟨fun _ => none, 0, fun _ _ => 0⟩ { val := 7, dynIdx := 3 }
      ⟨4, 20, 8⟩).res = nodFailureBufferFull ∧
    (valToRing .socketSetsockopt ⟨fun _ => none, 0, fun _ _ => 0⟩ { val := 7, dynIdx := 3 }
      ⟨4, 20, 8⟩).args = ⟨4, 21, 7⟩ ∧
    ¬Harmless .socketSetsockopt ⟨fun _ => none, 0, fun _ _ => 0⟩ { val := 7, dynIdx := 3 }
      ⟨4, 20, 8⟩ := by
  refine ⟨by decide, by decide, fun h => ?_⟩
  exact absurd h.args (by decide)

end Failed

/-! ## Stale bytes -/

section Stale

variable {ty : EventType} {um : UserMem} {v : Value} {a : RingArgs}

/-- The bytes of the argument do not depend on what the memory held before. -/
def NoStale (ty : EventType) (um : UserMem) (v : Value) (a : RingArgs) : Prop :=
  ∀ img img' : Image,
    (img.writes (valToRing ty um v a).out).read a.argDataOffset
        ((valToRing ty um v a).args.argDataOffset - a.argDataOffset) =
      (img'.writes (valToRing ty um v a).out).read a.argDataOffset
        ((valToRing ty um v a).args.argDataOffset - a.argDataOffset)

/-- Torn user data is laid down with a hole. -/
theorem Torn.hole {t : ParamType} {m : Nat} (h : Torn t um v m) :
    ∃ p, pushData t um v m = .ok p ∧ ∃ j < p.1, ∀ w ∈ p.2, ¬w.Touches j := by
  obtain ⟨-, hdata⟩ := h.laid
  refine ⟨_, hdata, v.copied um m, h.copied_lt, fun w hw htouch => ?_⟩
  exact absurd ((h.touches_iff hdata).mp ⟨w, hw, htouch⟩) (Nat.lt_irrefl _)

/-- A hole in the piece is one in the argument. -/
theorem valToRing_hole {bufferSize : Nat} (h : a.Ready ty bufferSize)
    (htorn : ArgTorn ty um v a.curarg a.argDataSize) :
    (valToRing ty um v a).res = nodSuccess ∧
      ∃ j, a.argDataOffset ≤ j ∧ j < (valToRing ty um v a).args.argDataOffset ∧
        ∀ w ∈ (valToRing ty um v a).out, ¬w.Touches j := by
  have hlt : a.argDataOffset + a.argDataSize < 2 ^ 32 := h.size ▸ h.lt
  obtain ⟨t, pre, ht, htorn⟩ := htorn
  obtain ⟨p, hp, j, hj, hhole⟩ := htorn.hole
  have hroom : a.argDataSize ≠ 0 := by
    intro h0
    have hmore := htorn.2.2.2.2.1
    have hsnap : v.snapped (min a.argDataSize nodMaxArgSize - pre) ≤
        min a.argDataSize nodMaxArgSize - pre := Nat.min_le_right ..
    omega
  have hl : argLen ty um v a.curarg a.argDataSize = some (pre + p.1) := by
    simp only [argLen, hroom, ht, hp, if_false]
  have hle := argLen_le hl
  have hn := (argType_cases ht).1
  obtain ⟨t', pre', p', ht', -, hp', -, hout⟩ := valToRing_out hlt hl
  rw [ht] at ht'
  cases ht'
  rw [hp] at hp'
  cases hp'
  have hcall := valToRing_of_len hl
  have hend : (valToRing ty um v a).args.argDataOffset = a.argDataOffset + (pre + p.1) := by
    rw [hcall.2]
    exact u32_of_lt (by omega)
  refine ⟨hcall.1, a.argDataOffset + pre + j, by omega, by omega, fun w hw => ?_⟩
  have hstart := h.start
  have hslot : ∀ len, ¬(slot a.curarg len).Touches (a.argDataOffset + pre + j) := by
    intro len
    simp only [Write.Touches, slot, Write.stop, leBytes_length]
    omega
  rw [hout] at hw
  rcases List.mem_append.mp hw with hw | hw
  · unfold indexStores at hw
    split at hw
    · rw [List.mem_singleton.mp hw]
      exact hslot 0
    · rename_i hpre
      rcases List.mem_cons.mp hw with rfl | hw
      · simp only [Write.Touches, Write.stop, List.length_singleton]
        omega
      · rw [List.mem_singleton.mp hw]
        exact hslot 1
  rcases List.mem_append.mp hw with hw | hw
  · obtain ⟨w', hw', rfl⟩ := List.mem_map.mp hw
    rw [Write.touches_shift]
    exact hhole w' hw'
  · rw [List.mem_singleton.mp hw]
    exact hslot _

/-- **When no stale byte reaches a record**: unless user data is torn. -/
theorem valToRing_noStale_iff (ty : EventType) (um : UserMem) (v : Value) {a : RingArgs}
    {bufferSize : Nat} (h : a.Ready ty bufferSize) :
    ((valToRing ty um v a).res = nodSuccess → NoStale ty um v a) ↔
      ¬ArgTorn ty um v a.curarg a.argDataSize := by
  have hlt : a.argDataOffset + a.argDataSize < 2 ^ 32 := h.size ▸ h.lt
  constructor
  · intro hclean htorn
    obtain ⟨hres, j, hlo, hhi, huntouched⟩ := valToRing_hole h htorn
    have hread := Image.apply_eq_of_read_eq (hclean hres (fun _ => 0) fun _ => 1)
      (i := j - a.argDataOffset) (by omega)
    rw [Nat.add_sub_cancel' hlo, Image.writes_of_untouched huntouched,
      Image.writes_of_untouched huntouched] at hread
    exact absurd hread (by decide)
  · intro hwhole hres img img'
    cases hl : argLen ty um v a.curarg a.argDataSize with
    | none => exact absurd hres (valToRing_of_no_len hl).1
    | some n =>
      have hle := argLen_le hl
      have hstart := h.start
      obtain ⟨-, t, pre, p, ht, -, -⟩ := argLen_eq_some hl
      have hn := (argType_cases ht).1
      have hend : (valToRing ty um v a).args.argDataOffset - a.argDataOffset = n := by
        rw [(valToRing_of_len hl).2]
        simp only
        rw [u32_of_lt (by omega)]
        omega
      rw [hend]
      refine read_writes_of_agree (fun j hj => ?_) img img'
      exact valToRing_agree hlt hlt (by omega) hl hl (.inr ⟨by omega, by omega,
        fun ⟨t, pre, ht, htorn, _⟩ => hwhole ⟨t, pre, ht, htorn⟩⟩)

/-- Memory in which the `n` bytes from 4 KiB on are readable, and a copy that faults stores
nothing. -/
def shortMem (n : Nat) : UserMem :=
  ⟨fun x => if 0x1000 ≤ x ∧ x < 0x1000 + n then some 0x41 else none, 0x10000, fun _ _ => 0⟩

/-- The data of a `write` of 40 bytes from there. -/
def fortyBytes : Value := { val := 0x1000, len := 40, fromuser := true }

/-- Forty bytes that are there. -/
theorem valToRing_noStale_forty : NoStale .syscallWrite (shortMem 40) fortyBytes ⟨3, 32, 100⟩ := by
  have hready : RingArgs.Ready .syscallWrite ⟨3, 32, 100⟩ 132 := ⟨by decide, rfl, by decide⟩
  refine (valToRing_noStale_iff .syscallWrite (shortMem 40) fortyBytes hready).mpr ?_
    (by decide +kernel)
  rintro ⟨t, pre, ht, htorn⟩
  have ht' : some (ParamType.bytebuf, 0) = some (t, pre) := ht
  cases ht'
  exact absurd htorn.2.2.2.2.2 (by decide +kernel)

/-- **Forty bytes of which twenty are there**: byte 16 of the argument is what the memory held
before. -/
theorem valToRing_stale_twenty :
    (valToRing .syscallWrite (shortMem 20) fortyBytes ⟨3, 32, 100⟩).res = nodSuccess ∧
      ¬NoStale .syscallWrite (shortMem 20) fortyBytes ⟨3, 32, 100⟩ := by
  refine ⟨by decide +kernel, fun h => ?_⟩
  have hread := Image.apply_eq_of_read_eq (h (fun _ => 0) fun _ => 1) (i := 16)
    (by decide +kernel)
  exact absurd hread (by decide +kernel)

end Stale

end NoDrop
