import NoDrop.Bounds
import NoDrop.FreeSpace
import NoDrop.Pushes

/-! # Bytes that an attempt leaves as they were

A copy of user data that faults behind its first 16 bytes is counted in full.  The bytes of a
record that were not copied are what the memory held before: they are stale (`Filler.Stale`).
All others are a matter of the lengths: two attempts that give every argument the same length
leave the same bytes there (`Filler.run_agree`) and have the same stale ones
(`Filler.stale_iff`).

A string from user memory is copied in chunks and may spill over its end.  Where that could
reach into torn data, a stale byte would not be what the memory held before.  A filler is tidy
if no such string comes before such data (`Filler.Tidy`); then no store touches a stale byte
(`Filler.stale_untouched`).
-/
namespace NoDrop

open Bytes

/-! ## One argument -/

/-- Data of this parameter may be torn. -/
def ParamInfo.tears (p : ParamInfo) : Bool :=
  p.type == .bytebuf || (p.type == .dyn && p.dyn.contains .bytebuf)

/-- A kernel string is stored as long as it is counted. -/
theorem strlcpy_stop_le {str : List UInt8} {m : Nat} :
    ∀ w ∈ (strlcpy str m).2, w.stop ≤ (strlcpy str m).1 := by
  intro w hw
  simp only [strlcpy] at hw ⊢
  split at hw
  · cases hw
  · obtain rfl := List.mem_singleton.mp hw
    simp only [Write.stop, List.length_append, List.length_take, List.length_singleton]
    omega

/-- Kernel data and integers are stored as long as they are counted. -/
theorem pushData_stop_le {t : ParamType} {um : UserMem} {v : Value} {m : Nat} {p : Piece}
    (hown : v.fromuser = false ∨ t.width.isSome) (h : pushData t um v m = .ok p) :
    ∀ w ∈ p.2, w.stop ≤ p.1 := by
  have hsingle : ∀ {n : Nat} {bs : List UInt8}, bs.length ≤ n →
      ∀ w ∈ [(⟨0, bs⟩ : Write)], w.stop ≤ n := by
    intro n bs hle w hw
    obtain rfl := List.mem_singleton.mp hw
    simpa only [Write.stop, Nat.zero_add] using hle
  cases hw : t.width with
  | some w =>
    rw [pushData_scalar _ _ _ hw, pushScalar] at h
    split at h
    · cases h
      exact hsingle (Nat.le_of_eq (leBytes_length ..))
    · cases h
  | none =>
    have huser : v.fromuser = false := hown.resolve_right (by simp [hw])
    by_cases hb : t = .bytebuf
    · subst hb
      simp only [pushData, pushBytebuf, huser, if_false, Bool.false_eq_true] at h
      split at h
      · cases h
        exact fun w hw => by cases hw
      split at h
      · cases h
      · cases h
        exact hsingle (Nat.le_of_eq (Value.kread_length ..))
    by_cases hs : t = .sockaddr ∨ t = .socktuple ∨ t = .fdlist
    · have h : pushSockaddr um v m = .ok p := by
        rcases hs with rfl | rfl | rfl <;> exact h
      simp only [pushSockaddr, huser, if_false, Bool.false_eq_true] at h
      split at h
      · cases h
        exact fun w hw => by cases hw
      split at h
      · cases h
      · cases h
        exact hsingle (Nat.le_of_eq (Value.kread_length ..))
    by_cases hc : t = .charbuf ∨ t = .fspath ∨ t = .fsrelpath
    · have h : Except.ok (ε := Int) (pushCharbuf um v m) = .ok p := by
        rcases hc with rfl | rfl | rfl <;> exact h
      cases h
      simp only [pushCharbuf, huser, if_false, Bool.false_eq_true]
      split <;> exact strlcpy_stop_le
    · have hbug : pushData t um v m = .error nodFailureBug := by
        cases t <;> simp_all [pushData, ParamType.width]
      rw [hbug] at h
      cases h

section Argument

variable {ty : EventType} {um : UserMem} {v : Value} {i off room room' n j : Nat}

/-- Only user data of a parameter for it is torn. -/
theorem ArgTorn.tears (h : ArgTorn ty um v i room) :
    v.fromuser = true ∧ ((gEventInfo ty).param i).tears = true := by
  obtain ⟨t, pre, ht, rfl, -, huser, -⟩ := h
  refine ⟨huser, ?_⟩
  obtain ⟨-, ⟨-, hb, -⟩ | ⟨-, ⟨hd, -⟩, hmem⟩⟩ := argType_cases ht
  · simp [ParamInfo.tears, ← hb]
  · simp [ParamInfo.tears, hd, List.mem_of_getElem? hmem]

theorem ArgStale.torn (h : ArgStale ty um v i room j) : ArgTorn ty um v i room :=
  let ⟨t, pre, ht, htorn, _⟩ := h
  ⟨t, pre, ht, htorn⟩

instance {t : ParamType} {max : Nat} : Decidable (Torn t um v max) :=
  inferInstanceAs (Decidable (_ ∧ _))

instance : Decidable (ArgStale ty um v i room j) :=
  decidable_of_iff (∃ tp ∈ argType ty v i, Torn tp.1 um v (min room nodMaxArgSize - tp.2) ∧
      tp.2 + v.copied um (min room nodMaxArgSize - tp.2) ≤ j)
    ⟨fun ⟨tp, ht, h⟩ => ⟨tp.1, tp.2, ht, h⟩, fun ⟨t, pre, ht, h⟩ => ⟨(t, pre), ht, h⟩⟩

/-- The same length, the same stale bytes. -/
theorem ArgStale.of_len (h : ArgStale ty um v i room j) (hl : argLen ty um v i room = some n)
    (hl' : argLen ty um v i room' = some n) : ArgStale ty um v i room' j := by
  obtain ⟨t, pre, ht, htorn, hj⟩ := h
  obtain ⟨-, t₁, pre₁, p, ht₁, hp, hn⟩ := argLen_eq_some hl
  obtain ⟨-, t₂, pre₂, p', ht₂, hp', hn'⟩ := argLen_eq_some hl'
  rw [ht] at ht₁ ht₂
  cases ht₁
  cases ht₂
  obtain ⟨htorn', -, hcopied⟩ := htorn.of_len hp hp' (by omega)
  exact ⟨t, pre, ht, htorn', hcopied ▸ hj⟩

/-- What touches a byte of an argument's data: its index byte, or the data itself. -/
theorem touches_data (hw : off + room < 2 ^ 32) (hl : argLen ty um v i room = some n)
    (hi : 2 * i + 2 ≤ off) (hj : off ≤ j) {w : Write}
    (hmem : w ∈ (valToRing ty um v ⟨i, off, room⟩).out) (htouch : w.Touches j) :
    ∃ t pre p, argType ty v i = some (t, pre) ∧
      pushData t um v (min room nodMaxArgSize - pre) = .ok p ∧ n = pre + p.1 ∧
      (j < off + pre ∨ off + pre ≤ j ∧ ∃ w ∈ p.2, w.Touches (j - (off + pre))) := by
  obtain ⟨t, pre, p, ht, -, hp, hn, hout⟩ := valToRing_out hw hl
  refine ⟨t, pre, p, ht, hp, hn, ?_⟩
  have hslot : ∀ len, ¬ (slot i len).Touches j := by
    intro len
    simp only [Write.Touches, slot, Write.stop, leBytes_length]
    omega
  rw [hout] at hmem
  rcases List.mem_append.mp hmem with hmem | hmem
  · unfold indexStores at hmem
    split at hmem
    · rw [List.mem_singleton.mp hmem] at htouch
      exact absurd htouch (hslot 0)
    · rcases List.mem_cons.mp hmem with rfl | hmem
      · simp only [Write.Touches, Write.stop, List.length_singleton] at htouch
        exact Or.inl (by omega)
      · rw [List.mem_singleton.mp hmem] at htouch
        exact absurd htouch (hslot 1)
  rcases List.mem_append.mp hmem with hmem | hmem
  · obtain ⟨w', hw', rfl⟩ := List.mem_map.mp hmem
    have hle : off + pre ≤ j := Nat.le_trans (Nat.le_add_right ..) htouch.1
    rw [← Nat.add_sub_cancel' hle, Write.touches_shift] at htouch
    exact Or.inr ⟨hle, w', hw', htouch⟩
  · rw [List.mem_singleton.mp hmem] at htouch
    exact absurd htouch (hslot n)

/-- A stale byte is not touched. -/
theorem ArgStale.untouched (h : ArgStale ty um v i room (j - off)) (hw : off + room < 2 ^ 32)
    (hl : argLen ty um v i room = some n) (hi : 2 * i + 2 ≤ off) (hj : off ≤ j) :
    ∀ w ∈ (valToRing ty um v ⟨i, off, room⟩).out, ¬ w.Touches j := by
  intro w hmem htouch
  obtain ⟨t, pre, ht, htorn, hcopied⟩ := h
  obtain ⟨t', pre', p, ht', hp, -, hcase⟩ := touches_data hw hl hi hj hmem htouch
  rw [ht] at ht'
  cases ht'
  rcases hcase with hindex | ⟨hle, hdata⟩
  · omega
  · have := (htorn.touches_iff hp).mp hdata
    omega

/-- Kernel data and integers are stored in their own bytes. -/
theorem valToRing_own (hown : v.fromuser = false ∨ (((gEventInfo ty).param i).type.width).isSome)
    (hw : off + room < 2 ^ 32) (hl : argLen ty um v i room = some n) (hi : 2 * i + 2 ≤ off)
    (hj : off + n ≤ j) : ∀ w ∈ (valToRing ty um v ⟨i, off, room⟩).out, ¬ w.Touches j := by
  intro w hmem htouch
  obtain ⟨t, pre, p, ht, hp, hn, hcase⟩ := touches_data hw hl hi (by omega) hmem htouch
  have hown : v.fromuser = false ∨ t.width.isSome := by
    refine hown.imp_right fun hscalar => ?_
    obtain ⟨-, ⟨-, rfl, -⟩ | ⟨-, ⟨hd, -⟩, -⟩⟩ := argType_cases ht
    · exact hscalar
    · rw [hd] at hscalar
      cases hscalar
  rcases hcase with hindex | ⟨hle, w', hw', htouch⟩
  · omega
  · have hstop := pushData_stop_le hown hp w' hw'
    have := htouch.2
    omega

end Argument

/-! ## A whole filler -/

namespace Filler

variable {ty : EventType} {um : UserMem}

/-- The bytes of a record that arguments of the lengths `ls`, from argument `i` on, make
up: their lengths and their data. -/
def Made (i off : Nat) (ls : List Nat) (j : Nat) : Prop :=
  (2 * i ≤ j ∧ j < 2 * (i + ls.length)) ∨ (off ≤ j ∧ j < off + ls.sum)

/-- Byte `j` is in the data of an argument, behind what is copied of it.  A filler that goes on
after a refused push does not succeed, so that no record has such bytes. -/
def Stale (um : UserMem) : Filler ty → Nat → Nat → Nat → Nat → Prop
  | push v next, i, off, room, j | pushAnyway v _ next, i, off, room, j =>
      match argLen ty um v i room with
      | some n => (off ≤ j ∧ j < off + n ∧ ArgStale ty um v i room (j - off)) ∨
          next.Stale um (i + 1) (off + n) (room - n) j
      | none => False
  | store _ _ next, i, off, room, j => next.Stale um i off room j
  | ret _, _, _, _, _ | runaway, _, _, _, _ => False

instance decidableStale : ∀ (f : Filler ty) (i off room j : Nat),
    Decidable (f.Stale um i off room j)
  | push v next, i, off, room, j | pushAnyway v _ next, i, off, room, j =>
      match hl : argLen ty um v i room with
      | some n =>
          have := decidableStale next (i + 1) (off + n) (room - n) j
          decidable_of_iff ((off ≤ j ∧ j < off + n ∧ ArgStale ty um v i room (j - off)) ∨
            next.Stale um (i + 1) (off + n) (room - n) j) (by simp only [Stale, hl])
      | none => isFalse (by simp only [Stale, hl, not_false_eq_true])
  | store _ _ next, i, off, room, j => decidableStale next i off room j
  | ret _, _, _, _, _ | runaway, _, _, _, _ => isFalse id

/-- Nothing the filler pushes can be torn. -/
def Sturdy : Filler ty → Nat → Prop
  | push v next, i | pushAnyway v _ next, i =>
      ¬ (v.fromuser = true ∧ ((gEventInfo ty).param i).tears = true) ∧ next.Sturdy (i + 1)
  | store _ _ next, i => next.Sturdy i
  | ret _, _ | runaway, _ => True

/-- What can be torn comes behind integers and kernel data only. -/
def Tidy : Filler ty → Nat → Prop
  | push v next, i | pushAnyway v _ next, i =>
      ((v.fromuser = false ∨ (((gEventInfo ty).param i).type.width).isSome) ∨
        next.Sturdy (i + 1)) ∧ next.Tidy (i + 1)
  | store _ _ next, i => next.Tidy i
  | ret _, _ | runaway, _ => True

theorem Stale.le {f : Filler ty} {i off room j : Nat} (h : f.Stale um i off room j) : off ≤ j := by
  induction f generalizing i off room with
  | ret code => exact absurd h id
  | push v next ih | pushAnyway v _ next ih =>
    simp only [Stale] at h
    split at h
    · rcases h with h | h
      · exact h.1
      · have := ih h
        omega
    · exact absurd h id
  | store w inside next ih => exact ih h
  | runaway => exact absurd h id

/-- Stale bytes are bytes of arguments. -/
theorem Stale.lt {f : Filler ty} {i off room j : Nat} (h : f.Stale um i off room j) :
    j < off + (f.sizes um i room).sum := by
  induction f generalizing i off room with
  | ret code => exact absurd h id
  | push v next ih | pushAnyway v _ next ih =>
    simp only [Stale] at h
    split at h
    next m hl =>
      simp only [sizes, hl, List.sum_cons]
      rcases h with h | h
      · omega
      · have := ih h
        omega
    next => exact absurd h id
  | store w inside next ih => exact ih h
  | runaway => exact absurd h id

theorem Sturdy.not_stale {f : Filler ty} {i off room j : Nat} (h : f.Sturdy i) :
    ¬ f.Stale um i off room j := by
  induction f generalizing i off room with
  | ret code => exact id
  | push v next ih | pushAnyway v _ next ih =>
    simp only [Stale]
    split
    · rintro (⟨-, -, hstale⟩ | hnext)
      · exact h.1 hstale.torn.tears
      · exact ih h.2 hnext
    · exact id
  | store w inside next ih => exact ih h
  | runaway => exact id

/-- A push whose code is dropped is an ordinary one in a run that succeeds. -/
theorem pushAnyway_eq_push {v : Value} {plain : ∀ i, ((gEventInfo ty).param i).type ≠ .dyn}
    {next : Filler ty} {i off room n : Nat} (hfills : (pushAnyway v plain next).Fills i n)
    (hok : ((pushAnyway v plain next).run um ⟨i, off, room⟩).res = some nodSuccess) :
    (pushAnyway v plain next).run um ⟨i, off, room⟩ = (push v next).run um ⟨i, off, room⟩ ∧
      (pushAnyway v plain next).sizes um i room = (push v next).sizes um i room := by
  obtain ⟨⟨-, hscalar⟩, hfirst, -⟩ := hfills
  have hres : (valToRing ty um v ⟨i, off, room⟩).res = nodSuccess :=
    pushAnyway_success plain hscalar hfirst hok
  refine ⟨?_, ?_⟩
  · rw [run_push_of_success hres]
    rfl
  · cases hl : argLen ty um v i room with
    | none => exact absurd hres (valToRing_of_no_len (a := ⟨i, off, room⟩) hl).1
    | some m => simp only [sizes, hl]

/-- What comes behind an argument stores nothing in its length or its data. -/
theorem rest_untouched (next : Filler ty) {i off room n j : Nat} (hlt : off + room < 2 ^ 32)
    (hle : n ≤ room) (hi : i < (gEventInfo ty).nparams) (hstart : 2 * (gEventInfo ty).nparams ≤ off)
    (hj : (2 * i ≤ j ∧ j < 2 * i + 2) ∨ (off ≤ j ∧ j < off + n)) :
    ∀ w ∈ (next.run um ⟨i + 1, off + n, room - n⟩).out, ¬ w.Touches j := by
  intro w hw
  have hsound := run_sound um next ⟨i + 1, off + n, room - n⟩ (by simp only; omega)
  rcases hsound.stores w hw with ⟨j', len, hj', hn', rfl⟩ | ⟨h1, -⟩
  · simp only [Write.Touches, slot, Write.stop, leBytes_length] at hj' ⊢
    omega
  · simp only [Write.Touches] at h1 ⊢
    omega

/-! ### Two runs -/

section TwoRuns

variable {v : Value} {next f : Filler ty} {i off room room' n j : Nat}

/-- Two runs from the same position that succeed with the same lengths. -/
structure SameLengths (um : UserMem) (f : Filler ty) (i off room room' : Nat) : Prop where
  lt : off + room < 2 ^ 32
  lt' : off + room' < 2 ^ 32
  start : 2 * (gEventInfo ty).nparams ≤ off
  ok : (f.run um ⟨i, off, room⟩).res = some nodSuccess
  ok' : (f.run um ⟨i, off, room'⟩).res = some nodSuccess
  sizes : f.sizes um i room = f.sizes um i room'

/-- Their first arguments have the same length, and their rests the same lengths. -/
theorem SameLengths.push (h : SameLengths um (push v next) i off room room') :
    ∃ n, argLen ty um v i room = some n ∧ argLen ty um v i room' = some n ∧
      SameLengths um next (i + 1) (off + n) (room - n) (room' - n) := by
  obtain ⟨n, hl⟩ := argLen_of_success h.ok
  obtain ⟨n', hl'⟩ := argLen_of_success h.ok'
  have hle := argLen_le hl
  have hle' := argLen_le hl'
  have hok := h.ok
  have hok' := h.ok'
  have hsizes := h.sizes
  have hlt := h.lt
  have hlt' := h.lt'
  have hstart := h.start
  rw [run_push_of_len hlt hl] at hok
  rw [run_push_of_len hlt' hl'] at hok'
  simp only [Filler.sizes, hl, hl', List.cons.injEq] at hsizes
  obtain ⟨rfl, hsizes⟩ := hsizes
  exact ⟨n, hl, hl', by omega, by omega, by omega, hok, hok', hsizes⟩

theorem SameLengths.pushAnyway {plain : ∀ i, ((gEventInfo ty).param i).type ≠ .dyn}
    (h : SameLengths um (pushAnyway v plain next) i off room room')
    (hfills : (Filler.pushAnyway v plain next).Fills i n) :
    SameLengths um (Filler.push v next) i off room room' := by
  obtain ⟨hrun, hsz⟩ := pushAnyway_eq_push hfills h.ok
  obtain ⟨hrun', hsz'⟩ := pushAnyway_eq_push hfills h.ok'
  exact ⟨h.lt, h.lt', h.start, hrun ▸ h.ok, hrun' ▸ h.ok', by rw [← hsz, ← hsz', h.sizes]⟩

/-- One more argument in front. -/
theorem agree_push (h : SameLengths um (Filler.push v next) i off room room')
    (ih : ∀ {n}, SameLengths um next (i + 1) (off + n) (room - n) (room' - n) →
      Made (i + 1) (off + n) (next.sizes um (i + 1) (room - n)) j →
      ¬ next.Stale um (i + 1) (off + n) (room - n) j →
      Agree (next.run um ⟨i + 1, off + n, room - n⟩).out
        (next.run um ⟨i + 1, off + n, room' - n⟩).out j)
    (hj : Made i off ((Filler.push v next).sizes um i room) j)
    (hfresh : ¬ (Filler.push v next).Stale um i off room j) :
    Agree ((Filler.push v next).run um ⟨i, off, room⟩).out
      ((Filler.push v next).run um ⟨i, off, room'⟩).out j := by
  obtain ⟨n, hl, hl', hnext⟩ := h.push
  have hlt := h.lt
  have hlt' := h.lt'
  have hstart := h.start
  have hle := argLen_le hl
  have hle' := argLen_le hl'
  have hi : i < (gEventInfo ty).nparams := (argLen_le_max hl).1
  rw [run_push_of_len hlt hl, run_push_of_len hlt' hl']
  simp only [sizes, hl] at hj
  simp only [Stale, hl] at hfresh
  by_cases hrest : Made (i + 1) (off + n) (next.sizes um (i + 1) (room - n)) j
  · exact Agree.append_right _ _ (ih hnext hrest fun hs => hfresh (Or.inr hs))
  have hfirst : (2 * i ≤ j ∧ j < 2 * i + 2) ∨ (off ≤ j ∧ j < off + n) := by
    simp only [Made, List.length_cons, List.sum_cons] at hj hrest
    omega
  refine Agree.append_left (valToRing_agree hlt hlt' (by omega) hl hl' ?_)
    (rest_untouched next hlt hle hi hstart hfirst)
    (rest_untouched next hlt' hle' hi hstart hfirst)
  exact hfirst.imp_right fun hdata =>
    ⟨hdata.1, hdata.2, fun hs => hfresh (Or.inl ⟨hdata.1, hdata.2, hs⟩)⟩

/-- **The free space acts through the lengths alone**, over a whole filler: two runs with the same
lengths make up the same bytes, but for the stale ones. -/
theorem run_agree (f : Filler ty) (hfills : f.Fills i n)
    (h : SameLengths um f i off room room') (hj : Made i off (f.sizes um i room) j)
    (hfresh : ¬ f.Stale um i off room j) :
    Agree (f.run um ⟨i, off, room⟩).out (f.run um ⟨i, off, room'⟩).out j := by
  induction f generalizing i off room room' n with
  | ret code =>
    simp only [sizes, Made, List.length_nil, List.sum_nil] at hj
    omega
  | push v next ih => exact agree_push h (ih hfills.2) hj hfresh
  | pushAnyway v plain next ih =>
    obtain ⟨hrun, hsz⟩ := pushAnyway_eq_push hfills h.ok
    obtain ⟨hrun', -⟩ := pushAnyway_eq_push hfills h.ok'
    rw [hrun, hrun']
    exact agree_push (h.pushAnyway hfills) (ih hfills.2.2) (hsz ▸ hj) hfresh
  | store w inside next ih => exact ih hfills ⟨h.lt, h.lt', h.start, h.ok, h.ok', h.sizes⟩ hj hfresh
  | runaway => cases h.ok

/-- The stale bytes are a matter of the lengths too. -/
theorem Stale.of_sizes (hfills : f.Fills i n) (h : SameLengths um f i off room room')
    (hs : f.Stale um i off room j) : f.Stale um i off room' j := by
  induction f generalizing i off room room' n with
  | ret code => exact absurd hs id
  | push v next ih =>
    obtain ⟨m, hl, hl', hnext⟩ := h.push
    simp only [Stale, hl, hl'] at hs ⊢
    exact hs.imp (fun hs => ⟨hs.1, hs.2.1, hs.2.2.of_len hl hl'⟩) (ih hfills.2 hnext)
  | pushAnyway v plain next ih =>
    obtain ⟨m, hl, hl', hnext⟩ := (h.pushAnyway hfills).push
    simp only [Stale, hl, hl'] at hs ⊢
    exact hs.imp (fun hs => ⟨hs.1, hs.2.1, hs.2.2.of_len hl hl'⟩) (ih hfills.2.2 hnext)
  | store w inside next ih => exact ih hfills ⟨h.lt, h.lt', h.start, h.ok, h.ok', h.sizes⟩ hs
  | runaway => exact absurd hs id

end TwoRuns

/-! ### Stale bytes are not touched -/

section Untouched

variable {v : Value} {next f : Filler ty} {i off room n j : Nat}

theorem untouched_push (hlt : off + room < 2 ^ 32) (hstart : 2 * (gEventInfo ty).nparams ≤ off)
    (hok : ((push v next).run um ⟨i, off, room⟩).res = some nodSuccess)
    (ih : ∀ {n}, off + n + (room - n) < 2 ^ 32 →
      (next.run um ⟨i + 1, off + n, room - n⟩).res = some nodSuccess →
      next.Stale um (i + 1) (off + n) (room - n) j →
      ∀ w ∈ (next.run um ⟨i + 1, off + n, room - n⟩).out, ¬ w.Touches j)
    (hown : (v.fromuser = false ∨ (((gEventInfo ty).param i).type.width).isSome) ∨
      next.Sturdy (i + 1))
    (hs : (push v next).Stale um i off room j) :
    ∀ w ∈ ((push v next).run um ⟨i, off, room⟩).out, ¬ w.Touches j := by
  obtain ⟨n, hl⟩ := argLen_of_success hok
  have hle := argLen_le hl
  have hi : i < (gEventInfo ty).nparams := (argLen_le_max hl).1
  rw [run_push_of_len hlt hl] at hok ⊢
  simp only [Stale, hl] at hs
  intro w hw
  rcases hs with ⟨hlo, hhi, harg⟩ | hnext
  · rcases List.mem_append.mp hw with hw | hw
    · exact harg.untouched hlt hl (by omega) hlo w hw
    · exact rest_untouched next hlt hle hi hstart (Or.inr ⟨hlo, hhi⟩) w hw
  · rcases List.mem_append.mp hw with hw | hw
    · rcases hown with hown | hsturdy
      · exact valToRing_own hown hlt hl (by omega) hnext.le w hw
      · exact absurd hnext hsturdy.not_stale
    · exact ih (by omega) hok hnext w hw

/-- **No store of a tidy filler touches a stale byte.** -/
theorem stale_untouched (hfills : f.Fills i n) (htidy : f.Tidy i) (hlt : off + room < 2 ^ 32)
    (hstart : 2 * (gEventInfo ty).nparams ≤ off)
    (hok : (f.run um ⟨i, off, room⟩).res = some nodSuccess) (hs : f.Stale um i off room j) :
    ∀ w ∈ (f.run um ⟨i, off, room⟩).out, ¬ w.Touches j := by
  induction f generalizing i off room n with
  | ret code => exact absurd hs id
  | push v next ih =>
    exact untouched_push hlt hstart hok (fun hlt => ih hfills.2 htidy.2 hlt (by omega)) htidy.1 hs
  | pushAnyway v plain next ih =>
    obtain ⟨hrun, -⟩ := pushAnyway_eq_push hfills hok
    rw [hrun] at hok ⊢
    exact untouched_push hlt hstart hok (fun hlt => ih hfills.2.2 htidy.2 hlt (by omega)) htidy.1 hs
  | store w inside next ih => exact ih hfills htidy hlt hstart hok hs
  | runaway => exact absurd hs id

end Untouched

end Filler

end NoDrop
