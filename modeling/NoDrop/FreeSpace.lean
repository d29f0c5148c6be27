import NoDrop.Restart

/-! # Recorded content and free space

Whether the record of a system call depends on how full the buffer is.  It does: strings
are cut off or replaced by a placeholder in the room that is left, and a restart leaves a
gap.  What holds is that the free space acts through lengths alone: two calls of `val_to_ring`
that give an argument the same length lay down the same bytes (`valToRing_agree`), unless a
copy of user data faults half way and leaves old bytes in the record (`Torn`).

Where the record of a call goes (`Event.landing`), and what the memory there held before
(`Event.beneath`), is decided by the room that the buffer has.
-/
namespace NoDrop

open Bytes

/-! ## One argument in two rooms -/

theorem strlcpy_eq_of_len {str : List UInt8} {m m' : Nat}
    (h : (strlcpy str m).1 = (strlcpy str m').1) : strlcpy str m = strlcpy str m' := by
  simp only [strlcpy] at h
  by_cases hm : m = m'
  · rw [hm]
  have hfit : str.length + 1 ≤ m ∧ str.length + 1 ≤ m' := by omega
  simp only [strlcpy]
  rw [if_neg (by omega), if_neg (by omega), List.take_of_length_le (by omega),
    List.take_of_length_le (by omega), h]

theorem strlcpy_covered {str : List UInt8} {m j : Nat} (h : j < (strlcpy str m).1) :
    ∃ w ∈ (strlcpy str m).2, w.Touches j := by
  simp only [strlcpy] at h ⊢
  rw [if_neg (by omega)]
  refine ⟨_, List.mem_singleton.mpr rfl, Nat.zero_le _, ?_⟩
  simp only [Write.stop, List.length_append, List.length_take, List.length_singleton]
  omega

theorem strlcpy_agree {str : List UInt8} {m m' j : Nat}
    (h : (strlcpy str m).1 = (strlcpy str m').1) (hj : j < (strlcpy str m).1) :
    Agree (strlcpy str m).2 (strlcpy str m').2 j := by
  rw [← strlcpy_eq_of_len h]
  exact Agree.of_covered (strlcpy_covered hj)

/-- A placeholder hides what the failed copy stored before it. -/
theorem invalidUserMemory_agree {got got' : List UInt8} {m m' j : Nat}
    (h : (invalidUserMemory got m).1 = (invalidUserMemory got' m').1)
    (hj : j < (invalidUserMemory got m).1) :
    Agree (invalidUserMemory got m).2 (invalidUserMemory got' m').2 j :=
  Agree.append_right [_] [_] (strlcpy_agree h hj)

/-- A string that is copied whole in one room and replaced by the placeholder in the
other does not have the placeholder's length. -/
theorem strncpy_ne_placeholder {um : UserMem} {a m m' k : Nat}
    (h : (um.nodStrncpyFromUser a m).2 = ((k : Nat) : Int))
    (h' : (um.nodStrncpyFromUser a m').2 < 0) : k ≠ (strlcpy invalText m').1 := by
  intro hk
  simp only [strlcpy, invalText, List.length_cons, List.length_nil] at hk
  have hle := um.nodStrncpyFromUser_length_le a m
  rcases um.nodStrncpyFromUser_result a m with hr | ⟨k', hr, -, hk'⟩
  · omega
  have hfits : m' ≤ m ∨ 4 ∣ k := by
    by_cases hm : m' ≤ m
    · exact Or.inl hm
    · exact Or.inr (by omega)
  have := um.nodStrncpyFromUser_fits h (by omega) hfits
  omega

/-- A user string is copied whole, or replaced. -/
theorem pushCharbuf_user (um : UserMem) {v : Value} (m : Nat) (hval : v.val ≠ 0)
    (huser : v.fromuser) :
    (∃ k : Nat, (um.nodStrncpyFromUser v.val.toNat m).2 = k ∧
      k ≤ (um.nodStrncpyFromUser v.val.toNat m).1.length ∧
      pushCharbuf um v m = (k, [⟨0, (um.nodStrncpyFromUser v.val.toNat m).1⟩])) ∨
    ((um.nodStrncpyFromUser v.val.toNat m).2 < 0 ∧
      pushCharbuf um v m = invalidUserMemory (um.nodStrncpyFromUser v.val.toNat m).1 m) := by
  rw [pushCharbuf, if_neg hval, if_pos huser]
  rcases um.nodStrncpyFromUser_result v.val.toNat m with h | ⟨k, hk, -, hle⟩
  · have hneg : (um.nodStrncpyFromUser v.val.toNat m).2 < 0 := by omega
    exact Or.inr ⟨hneg, if_pos hneg⟩
  · refine Or.inl ⟨k, hk, hle, ?_⟩
    rw [if_neg (by omega), hk, Int.toNat_natCast]

theorem pushCharbuf_agree {um : UserMem} {v : Value} {m m' j : Nat}
    (h : (pushCharbuf um v m).1 = (pushCharbuf um v m').1) (hj : j < (pushCharbuf um v m).1) :
    Agree (pushCharbuf um v m).2 (pushCharbuf um v m').2 j := by
  by_cases hval : v.val = 0
  · simp only [pushCharbuf, hval, if_true] at h hj ⊢
    exact strlcpy_agree h hj
  by_cases huser : v.fromuser
  · rcases pushCharbuf_user um m hval huser with ⟨k, hk, hle, he⟩ | ⟨hneg, he⟩ <;>
      rcases pushCharbuf_user um m' hval huser with ⟨k', hk', -, he'⟩ | ⟨hneg', he'⟩ <;>
      rw [he, he'] at h <;> rw [he] at hj <;> rw [he, he']
    · simp only at h hj
      subst h
      refine Agree.of_take_eq ?_ hle hj
      rw [um.nodStrncpyFromUser_take hk, um.nodStrncpyFromUser_take hk']
    · exact absurd h (strncpy_ne_placeholder hk hneg')
    · exact absurd h.symm (strncpy_ne_placeholder hk' hneg)
    · exact invalidUserMemory_agree h hj
  · simp only [pushCharbuf, hval, huser, if_false, Bool.false_eq_true] at h hj ⊢
    exact strlcpy_agree h hj

/-- A copy of user data faults after the lookahead.  The argument's length is counted in
full all the same, and the bytes that were not copied are whatever the memory held. -/
def Torn (t : ParamType) (um : UserMem) (v : Value) (max : Nat) : Prop :=
  t = .bytebuf ∧ v.val ≠ 0 ∧ v.fromuser ∧ (um.nodCopyFromUser v.val.toNat v.lookahead).2 = 0 ∧
    v.lookahead < v.snapped max ∧
    (um.nodCopyFromUser (v.val.toNat + v.lookahead) (v.snapped max - v.lookahead)).2 ≠ 0

/-- What is laid down of user data. -/
theorem pushUserBytes_ok {um : UserMem} {v : Value} {m : Nat} {p : Piece}
    (h : pushUserBytes um v m = .ok p) :
    ((um.nodCopyFromUser v.val.toNat v.lookahead).2 ≠ 0 ∧
      p = invalidUserMemory (um.nodCopyFromUser v.val.toNat v.lookahead).1 m) ∨
    ((um.nodCopyFromUser v.val.toNat v.lookahead).2 = 0 ∧ v.snapped m = v.lookahead ∧
      p = (v.snapped m, [⟨0, (um.nodCopyFromUser v.val.toNat v.lookahead).1⟩])) ∨
    ((um.nodCopyFromUser v.val.toNat v.lookahead).2 = 0 ∧ v.lookahead < v.snapped m ∧
      p = (v.snapped m, ⟨0, (um.nodCopyFromUser v.val.toNat v.lookahead).1⟩ ::
        ⟨v.lookahead, (um.nodCopyFromUser (v.val.toNat + v.lookahead)
          (v.snapped m - v.lookahead)).1⟩ ::
        (if (um.nodCopyFromUser (v.val.toNat + v.lookahead) (v.snapped m - v.lookahead)).2 ≠ 0
          then (strlcpy invalText m).2 else []))) := by
  simp only [pushUserBytes] at h
  split at h
  · cases h
  rename_i hroom
  have hsnap : v.lookahead ≤ v.snapped m := by
    simp only [Value.lookahead, Value.snapped, snaplen] at hroom ⊢
    omega
  split at h
  · cases h
    exact Or.inl ⟨‹_›, rfl⟩
  rename_i hhead
  have hhead := not_ne_iff.mp hhead
  split at h
  · rename_i hlen
    have he : v.snapped m = v.lookahead := by
      simp only [Value.lookahead, Value.snapped, snaplen] at hlen hroom ⊢
      omega
    cases h
    exact Or.inr (Or.inl ⟨hhead, he, by rw [he, hlen]⟩)
  split at h
  · cases h
    exact Or.inr (Or.inr ⟨hhead, ‹_›, rfl⟩)
  · cases h
    exact Or.inr (Or.inl ⟨hhead, by omega, rfl⟩)

/-- Torn user data: the lookahead, as much of the rest as was copied, and the placeholder on top. -/
theorem Torn.laid {t : ParamType} {um : UserMem} {v : Value} {m : Nat} (h : Torn t um v m) :
    v.lookahead = 16 ∧ pushData t um v m = .ok (v.snapped m,
      ⟨0, (um.nodCopyFromUser v.val.toNat v.lookahead).1⟩ ::
      ⟨v.lookahead, (um.nodCopyFromUser (v.val.toNat + v.lookahead)
        (v.snapped m - v.lookahead)).1⟩ :: (strlcpy invalText m).2) := by
  obtain ⟨rfl, hval, huser, hhead, hmore, htail⟩ := h
  have hsnap : v.snapped m ≤ m := Nat.min_le_right ..
  have hle : v.snapped m ≤ v.len.toNat := Nat.le_trans (Nat.min_le_left ..) (Nat.min_le_left ..)
  have hlook : v.lookahead = 16 := by
    unfold Value.lookahead at hmore ⊢
    omega
  refine ⟨hlook, ?_⟩
  show pushBytebuf um v m = _
  simp only [pushBytebuf, pushUserBytes]
  rw [if_neg hval, if_pos huser, if_neg (by omega), if_neg (not_not.mpr hhead), if_neg (by omega),
    if_pos hmore, if_pos htail]

/-- What is copied of user data before the fault. -/
def Value.copied (um : UserMem) (v : Value) (max : Nat) : Nat :=
  v.lookahead +
    (um.nodCopyFromUser (v.val.toNat + v.lookahead) (v.snapped max - v.lookahead)).1.length

section Torn

variable {t : ParamType} {um : UserMem} {v : Value} {m m' : Nat} {p p' : Piece}

theorem Torn.copied_lt (h : Torn t um v m) : v.copied um m < v.snapped m := by
  obtain ⟨-, -, -, -, hmore, htail⟩ := h
  have htlen := um.nodCopyFromUser_length_lt htail
  unfold Value.copied
  omega

/-- The placeholder lies on the lookahead, so what is stored is what was copied. -/
theorem Torn.touches_iff (h : Torn t um v m) (hp : pushData t um v m = .ok p) {j : Nat} :
    (∃ w ∈ p.2, w.Touches j) ↔ j < v.copied um m := by
  obtain ⟨hlook, hdata⟩ := h.laid
  have hhlen := um.nodCopyFromUser_length h.2.2.2.1
  rw [hdata] at hp
  cases hp
  have hstop : ∀ w ∈ (strlcpy invalText m).2, w.stop ≤ 8 := by
    intro w hw
    simp only [strlcpy] at hw
    split at hw
    · cases hw
    · obtain rfl := List.mem_singleton.mp hw
      simp only [Write.stop, List.length_append, List.length_take, invalText, List.length_cons,
        List.length_nil]
      omega
  simp only [List.mem_cons, exists_eq_or_imp, Write.Touches, Write.stop, hhlen, Value.copied]
  constructor
  · rintro (⟨-, hj⟩ | ⟨-, hj⟩ | ⟨w, hw, -, hj⟩)
    · omega
    · omega
    · have := hstop w hw
      simp only [Write.stop] at this
      omega
  · intro hj
    by_cases hhead : j < v.lookahead
    · exact Or.inl ⟨Nat.zero_le _, by omega⟩
    · exact Or.inr (Or.inl ⟨by omega, hj⟩)

/-- In a room that gives the same length the data is torn in the same way. -/
theorem Torn.of_len (h : Torn t um v m) (hp : pushData t um v m = .ok p)
    (hp' : pushData t um v m' = .ok p') (hlen : p.1 = p'.1) :
    Torn t um v m' ∧ p = p' ∧ v.copied um m = v.copied um m' := by
  obtain ⟨hlook, hdata⟩ := h.laid
  obtain ⟨rfl, hval, huser, hhead, hmore, htail⟩ := h
  rw [hdata] at hp
  cases hp
  simp only at hlen
  have hle' : v.snapped m' ≤ m' := Nat.min_le_right ..
  have hle : v.snapped m ≤ m := Nat.min_le_right ..
  have hok : pushUserBytes um v m' = .ok p' := by
    have : pushBytebuf um v m' = .ok p' := hp'
    rwa [pushBytebuf, if_neg hval, if_pos huser] at this
  rcases pushUserBytes_ok hok with ⟨hfail, -⟩ | ⟨-, hs, rfl⟩ | ⟨-, hs, rfl⟩
  · exact absurd hhead hfail
  · simp only at hlen
    omega
  · simp only at hlen
    -- both rooms have place for the placeholder
    have htext : strlcpy invalText m = strlcpy invalText m' := by
      simp only [strlcpy, invalText, List.length_cons, List.length_nil]
      rw [if_neg (by omega), if_neg (by omega), List.take_of_length_le (by simp; omega),
        List.take_of_length_le (by simp; omega), Nat.min_eq_left (by omega),
        Nat.min_eq_left (by omega)]
    refine ⟨⟨rfl, hval, huser, hhead, hs, hlen ▸ htail⟩, ?_, ?_⟩
    · rw [← hlen, if_pos htail, htext]
    · simp only [Value.copied, hlen]

end Torn

theorem pushUserBytes_agree {um : UserMem} {v : Value} {m m' j : Nat} {p p' : Piece}
    (h : pushUserBytes um v m = .ok p) (h' : pushUserBytes um v m' = .ok p') (hlen : p.1 = p'.1)
    (hj : j < p.1)
    (hwhole : v.lookahead < v.snapped m →
      (um.nodCopyFromUser v.val.toNat v.lookahead).2 = 0 →
      (um.nodCopyFromUser (v.val.toNat + v.lookahead) (v.snapped m - v.lookahead)).2 = 0) :
    Agree p.2 p'.2 j := by
  rcases pushUserBytes_ok h with ⟨hf, rfl⟩ | ⟨hf, hs, rfl⟩ | ⟨hf, hs, rfl⟩ <;>
    rcases pushUserBytes_ok h' with ⟨hf', rfl⟩ | ⟨hf', hs', rfl⟩ | ⟨hf', hs', rfl⟩
  · exact invalidUserMemory_agree hlen hj
  iterate 2 exact absurd hf' hf
  · exact absurd hf hf'
  · have hl := um.nodCopyFromUser_length hf
    simp only at hj
    exact Agree.of_take_eq rfl (show j + 1 ≤ _ by omega) (by omega)
  · simp only at hlen
    omega
  · exact absurd hf hf'
  · simp only at hlen
    omega
  · -- both copies are whole, and the stores the same
    simp only at hlen hj
    have htail := hwhole hs hf
    rw [← hlen]
    simp only [htail, ne_eq, not_true_eq_false, if_false]
    have hl := um.nodCopyFromUser_length hf
    have hl' := um.nodCopyFromUser_length htail
    apply Agree.of_covered
    by_cases hhead : j < v.lookahead
    · refine ⟨_, List.mem_cons_self, Nat.zero_le _, ?_⟩
      simp only [Write.stop]
      omega
    · refine ⟨_, List.mem_cons_of_mem _ List.mem_cons_self, ?_, ?_⟩
      · simp only
        omega
      · simp only [Write.stop]
        omega

theorem pushBytebuf_agree {um : UserMem} {v : Value} {m m' j : Nat} {p p' : Piece}
    (h : pushBytebuf um v m = .ok p) (h' : pushBytebuf um v m' = .ok p') (hlen : p.1 = p'.1)
    (hj : j < p.1) (htorn : ¬ Torn .bytebuf um v m) : Agree p.2 p'.2 j := by
  by_cases hval : v.val = 0
  · simp only [pushBytebuf, hval, if_true] at h
    cases h
    simp at hj
  by_cases huser : v.fromuser
  · simp only [pushBytebuf, hval, huser, if_true, if_false] at h h'
    refine pushUserBytes_agree h h' hlen hj fun hs hf => ?_
    by_contra hne
    exact htorn ⟨rfl, hval, huser, hf, hs, hne⟩
  · simp only [pushBytebuf, hval, huser, if_false, Bool.false_eq_true] at h h'
    split at h
    · cases h
    split at h'
    · cases h'
    cases h
    cases h'
    simp only at hj
    exact Agree.of_take_eq rfl (show j + 1 ≤ _ by simp only [Value.kread_length]; omega) (by omega)

theorem pushSockaddr_agree {um : UserMem} {v : Value} {m m' j : Nat} {p p' : Piece}
    (h : pushSockaddr um v m = .ok p) (h' : pushSockaddr um v m' = .ok p') (hlen : p.1 = p'.1)
    (hj : j < p.1) : Agree p.2 p'.2 j := by
  by_cases hval : v.val = 0
  · simp only [pushSockaddr, hval, if_true] at h
    cases h
    simp at hj
  simp only [pushSockaddr, hval, if_false] at h h'
  split at h
  · cases h
  split at h'
  · cases h'
  by_cases huser : v.fromuser
  · simp only [huser, if_true] at h h'
    by_cases hf : (um.nodCopyFromUser v.val.toNat v.len.toNat).2 = 0
    · simp only [hf, ne_eq, not_true_eq_false, if_false] at h h'
      cases h
      cases h'
      have hl := um.nodCopyFromUser_length hf
      simp only at hj
      exact Agree.of_take_eq rfl (show j + 1 ≤ _ by omega) (by omega)
    · simp only [hf, ne_eq, not_false_eq_true, if_true] at h h'
      cases h
      cases h'
      exact invalidUserMemory_agree hlen hj
  · simp only [huser, if_false, Bool.false_eq_true] at h h'
    cases h
    cases h'
    simp only at hj
    exact Agree.of_take_eq rfl (show j + 1 ≤ _ by simp only [Value.kread_length]; omega) (by omega)

theorem pushScalar_agree {w : Nat} {v : Value} {m m' j : Nat} {p p' : Piece}
    (h : pushScalar w v m = .ok p) (h' : pushScalar w v m' = .ok p') (hj : j < p.1) :
    Agree p.2 p'.2 j := by
  simp only [pushScalar] at h h'
  split at h
  · split at h'
    · cases h
      cases h'
      simp only at hj
      exact Agree.of_take_eq rfl (show j + 1 ≤ _ by rw [leBytes_length]; omega) (by omega)
    · cases h'
  · cases h

/-- **The room acts through the length alone**: an argument laid down with the same
length in two rooms is laid down with the same bytes, as far as it is copied. -/
theorem pushData_agree {t : ParamType} {um : UserMem} {v : Value} {m m' j : Nat} {p p' : Piece}
    (h : pushData t um v m = .ok p) (h' : pushData t um v m' = .ok p') (hlen : p.1 = p'.1)
    (hj : j < p.1) (hcopied : Torn t um v m → j < v.copied um m) : Agree p.2 p'.2 j := by
  by_cases htorn : Torn t um v m
  · obtain ⟨-, rfl, -⟩ := htorn.of_len h h' hlen
    exact Agree.of_covered ((htorn.touches_iff h).mpr (hcopied htorn))
  by_cases hb : t = .bytebuf
  · subst hb
    exact pushBytebuf_agree h h' hlen hj htorn
  by_cases hs : t = .sockaddr ∨ t = .socktuple ∨ t = .fdlist
  · rcases hs with rfl | rfl | rfl
    all_goals exact pushSockaddr_agree h h' hlen hj
  by_cases hc : t = .charbuf ∨ t = .fspath ∨ t = .fsrelpath
  · rcases hc with rfl | rfl | rfl
    all_goals
      cases h
      cases h'
      exact pushCharbuf_agree hlen hj
  cases hw : t.width with
  | none =>
    have hbug : pushData t um v m = .error nodFailureBug := by
      cases t <;> simp_all [pushData, ParamType.width]
    rw [hbug] at h
    cases h
  | some w =>
    rw [pushData_scalar _ _ _ hw] at h h'
    exact pushScalar_agree h h' hj

/-! ## An argument of a filler -/

/-- Argument `i` is torn. -/
def ArgTorn (ty : EventType) (um : UserMem) (v : Value) (i room : Nat) : Prop :=
  ∃ t pre, argType ty v i = some (t, pre) ∧ Torn t um v (min room nodMaxArgSize - pre)

/-- Byte `j` of argument `i` is behind what is copied of it. -/
def ArgStale (ty : EventType) (um : UserMem) (v : Value) (i room j : Nat) : Prop :=
  ∃ t pre, argType ty v i = some (t, pre) ∧ Torn t um v (min room nodMaxArgSize - pre) ∧
    pre + v.copied um (min room nodMaxArgSize - pre) ≤ j

section Argument

variable {ty : EventType} {um : UserMem} {v : Value} {i off room room' n : Nat}

/-- The stores of an argument that is laid down. -/
theorem valToRing_out (hw : off + room < 2 ^ 32) (hl : argLen ty um v i room = some n) :
    ∃ t pre p, argType ty v i = some (t, pre) ∧ pre ≤ 1 ∧
      pushData t um v (min room nodMaxArgSize - pre) = .ok p ∧ n = pre + p.1 ∧
      (valToRing ty um v ⟨i, off, room⟩).out =
        indexStores ⟨i, off, room⟩ v pre ++ (p.2.map (Write.shift (off + pre)) ++ [slot i n]) := by
  have hle := argLen_le hl
  obtain ⟨hroom, t, pre, p, ht, hp, rfl⟩ := argLen_eq_some hl
  have hpre : pre = 0 ∨ pre = 1 := (argType_cases ht).2.imp And.left And.left
  have hoff : (RingArgs.afterIndex ⟨i, off, room⟩ pre).argDataOffset = off + pre := by
    rcases hpre with rfl | rfl
    · rfl
    · exact u32_of_lt (show off + 1 < 2 ^ 32 by omega)
  refine ⟨t, pre, p, ht, by omega, hp, rfl, ?_⟩
  rw [valToRing_eq hroom ht]
  simp only [pushArg, hp, hoff]
  rfl

/-- An argument laid down with the same length in two rooms. -/
theorem valToRing_agree (hw : off + room < 2 ^ 32) (hw' : off + room' < 2 ^ 32)
    (hstart : 2 * i + 2 ≤ off) (hl : argLen ty um v i room = some n)
    (hl' : argLen ty um v i room' = some n) {j : Nat}
    (hj : (2 * i ≤ j ∧ j < 2 * i + 2) ∨
      (off ≤ j ∧ j < off + n ∧ ¬ ArgStale ty um v i room (j - off))) :
    Agree (valToRing ty um v ⟨i, off, room⟩).out (valToRing ty um v ⟨i, off, room'⟩).out j := by
  obtain ⟨t, pre, p, ht, hpre, hp, hn, hout⟩ := valToRing_out hw hl
  obtain ⟨t', pre', p', ht', -, hp', hn', hout'⟩ := valToRing_out hw' hl'
  rw [ht] at ht'
  cases ht'
  rw [hout, hout']
  have hslot : off ≤ j → ∀ w ∈ [slot i n], ¬ w.Touches j := by
    intro hle w hw
    obtain rfl := List.mem_singleton.mp hw
    simp only [Write.Touches, slot, Write.stop, leBytes_length]
    omega
  rcases hj with ⟨h1, h2⟩ | ⟨h1, h2, hstale⟩
  · refine Agree.append_right _ _ (Agree.append_right _ _ (Agree.of_covered ?_))
    refine ⟨_, List.mem_singleton.mpr rfl, ?_⟩
    simp only [Write.Touches, slot, Write.stop, leBytes_length]
    omega
  by_cases hindex : j < off + pre
  · -- the index byte
    obtain rfl : pre = 1 := by omega
    have huntouched : ∀ p : Piece, ∀ w ∈ p.2.map (Write.shift (off + 1)) ++ [slot i n],
        ¬ w.Touches j := by
      intro p w hw
      rcases List.mem_append.mp hw with hw | hw
      · obtain ⟨w', -, rfl⟩ := List.mem_map.mp hw
        simp only [Write.Touches, Write.shift]
        omega
      · exact hslot h1 w hw
    refine Agree.append_left (Agree.of_covered ?_) (huntouched p) (huntouched p')
    refine ⟨⟨off, [v.dynIdx]⟩, by simp [indexStores], h1, ?_⟩
    simp only [Write.stop, List.length_singleton]
    omega
  · obtain ⟨k, rfl⟩ := Nat.exists_eq_add_of_le (Nat.le_of_not_lt hindex)
    refine Agree.append_right _ _ (Agree.append_left (Agree.shift _ ?_) (hslot h1) (hslot h1))
    refine pushData_agree hp hp' (by omega) (by omega) fun htorn => ?_
    by_contra hcopied
    exact hstale ⟨t, pre, ht, htorn, by omega⟩

end Argument

namespace Filler

variable {ty : EventType} {um : UserMem}

/-- The run of a filler whose next argument is laid down. -/
theorem run_push_of_len {v : Value} {next : Filler ty} {i off room n : Nat}
    (hw : off + room < 2 ^ 32) (hl : argLen ty um v i room = some n) :
    (push v next).run um ⟨i, off, room⟩ =
      { next.run um ⟨i + 1, off + n, room - n⟩ with
        out := (valToRing ty um v ⟨i, off, room⟩).out ++
          (next.run um ⟨i + 1, off + n, room - n⟩).out } := by
  have hle := argLen_le hl
  have h := valToRing_of_len (a := ⟨i, off, room⟩) hl
  simp only [u32_of_lt (show off + n < 2 ^ 32 by omega)] at h
  rw [run_push_of_success h.1, h.2]

/-- A run that succeeds lays its next argument down. -/
theorem argLen_of_success {v : Value} {next : Filler ty} {i off room : Nat}
    (hok : ((push v next).run um ⟨i, off, room⟩).res = some nodSuccess) :
    ∃ n, argLen ty um v i room = some n := by
  cases hl : argLen ty um v i room with
  | some n => exact ⟨n, rfl⟩
  | none =>
    have h := valToRing_of_no_len (a := ⟨i, off, room⟩) hl
    rw [run_push_of_failure h.1] at hok
    exact absurd (Option.some.inj hok) h.1

end Filler

/-! ## Where a record goes -/

instance {ty : EventType} (um : UserMem) (f : Filler ty) (i room : Nat) :
    Decidable (f.OutOfRoom um i room) :=
  decidable_of_iff _ (f.run_outOfRoom ⟨i, 0, room⟩)

/-- The room of the attempt that fills in a call's record, and the offset its arguments
start at. -/
def Event.landing (ev : Event) (b : NodBuffer) : Nat × Nat :=
  if b.flush.place (2 * ev.nargs) false = .page then (Place.page.size, 2 * ev.nargs)
  else if ev.filler.OutOfRoom ev.um 0 (argDataSize b.flush.atTail.size (2 * ev.nargs)) then
    (Place.page.size, 2 * ev.nargs + ev.laidDown b)
  else (b.flush.atTail.size, 2 * ev.nargs)

/-- The memory where that record goes, before the call. -/
def Event.beneath (ev : Event) (b : NodBuffer) : Image :=
  let p := if b.flush.place (2 * ev.nargs) false = .page ∨
      ev.filler.OutOfRoom ev.um 0 (argDataSize b.flush.atTail.size (2 * ev.nargs)) then Place.page
    else b.flush.atTail
  fun j => b.flush.mem p.region (p.base + j)

section Landing

variable {ev : Event} {b : NodBuffer} {fuel : Nat} {entryAddr : UInt64} {load : Int}
  {st : EventStatistic} {bs : List UInt8}

/-- The three ways a record goes. -/
theorem landing_cases (ev : Event) (b : NodBuffer) :
    (b.flush.place (2 * ev.nargs) false = .page ∧
      ev.landing b = (Place.page.size, 2 * ev.nargs)) ∨
    (b.flush.place (2 * ev.nargs) false = b.flush.atTail ∧
      ev.filler.OutOfRoom ev.um 0 (argDataSize b.flush.atTail.size (2 * ev.nargs)) ∧
      ev.landing b = (Place.page.size, 2 * ev.nargs + ev.laidDown b)) ∨
    (b.flush.place (2 * ev.nargs) false = b.flush.atTail ∧
      ¬ ev.filler.OutOfRoom ev.um 0 (argDataSize b.flush.atTail.size (2 * ev.nargs)) ∧
      ev.landing b = (b.flush.atTail.size, 2 * ev.nargs)) := by
  rcases b.flush.place_cases (2 * ev.nargs) false with hp | ⟨-, -, hp⟩
  · exact Or.inl ⟨hp, if_pos hp⟩
  · have hne : b.flush.place (2 * ev.nargs) false ≠ .page := by
      rw [hp]
      intro h
      cases h
    by_cases hfull : ev.filler.OutOfRoom ev.um 0
        (argDataSize b.flush.atTail.size (2 * ev.nargs))
    · exact Or.inr (Or.inl ⟨hp, hfull, by rw [Event.landing, if_neg hne, if_pos hfull]⟩)
    · exact Or.inr (Or.inr ⟨hp, hfull, by rw [Event.landing, if_neg hne, if_neg hfull]⟩)

/-- An attempt that comes to an end with room to spare has a code to show for it. -/
theorem attempt_done {size off : Nat}
    (hfull : ¬ ev.filler.OutOfRoom ev.um 0 (argDataSize size off))
    (haway : ¬ ev.filler.RunsAway ev.um 0 (argDataSize size off)) :
    ∃ code, (ev.attempt size off).res = some code ∧ code ≠ nodFailureBufferFull := by
  rw [← ev.attempt_outOfRoom] at hfull
  rw [← ev.attempt_runsAway] at haway
  obtain ⟨code, hcode⟩ := Option.ne_none_iff_exists'.mp haway
  exact ⟨code, hcode, fun h => hfull (by rw [hcode, h])⟩

theorem beneath_page (h : b.flush.place (2 * ev.nargs) false = .page ∨
      ev.filler.OutOfRoom ev.um 0 (argDataSize b.flush.atTail.size (2 * ev.nargs))) :
    ev.beneath b = b.flush.mem .overflow := by
  funext j
  rw [Event.beneath, if_pos h]
  simp only [Place.page, Nat.zero_add]

/-- The record of a call that ends is the record of the attempt where it lands. -/
theorem record_landing (hends : EndsInTwo ev b)
    (hrec : (doRecordOneEvent fuel entryAddr load ev b st).record = some bs) :
    ev.Succeeds (ev.attempt (ev.landing b).1 (ev.landing b).2) ∧
      bs = (ev.imageOf (ev.attempt (ev.landing b).1 (ev.landing b).2) (ev.beneath b)).read 0
        (hdrSize + (ev.attempt (ev.landing b).1 (ev.landing b).2).args.argDataOffset) ∧
      ((ev.landing b).2 ≠ 2 * ev.nargs →
        (ev.landing b).1 = Place.page.size ∧ ev.beneath b = b.flush.mem .overflow) := by
  have hmem : (ev.tryOnce false (2 * ev.nargs) b.flush).place = b.flush.atTail →
      (fun j => (ev.tryOnce false (2 * ev.nargs) b.flush).buf.mem Place.page.region
        (Place.page.base + j)) = b.flush.mem .overflow := by
    intro hp
    have := ev.tryOnce_mem_other false (2 * ev.nargs) b.flush (r := .overflow) (by decide)
      (by rw [← ev.tryOnce_place, hp]; simp [NodBuffer.atTail])
    funext j
    simp [Place.page, this]
  cases fuel with
  | zero => cases hrec
  | succ fuel =>
    simp only [doRecordOneEvent] at hrec
    rcases landing_cases ev b with ⟨hp, hl⟩ | ⟨hp, hfull, hl⟩ | ⟨hp, hfull, hl⟩
    · have hmem := beneath_page (Or.inl hp)
      obtain ⟨hfull, haway⟩ := hends.page hp
      obtain ⟨code, hres, hc⟩ := attempt_done hfull haway
      rw [Event.attempts_record hp (by decide) hres hc] at hrec
      split at hrec
      · rw [hl]
        refine ⟨‹_›, ?_, fun h => absurd rfl h⟩
        rw [← Option.some.inj hrec, hmem]
        simp only [Place.page, Nat.zero_add]
      · cases hrec
    · have hbeneath := beneath_page (Or.inr hfull)
      obtain ⟨hfull', haway⟩ := (hends.main hp).2 hfull
      obtain ⟨code, hres, hc⟩ := attempt_done hfull' haway
      have hrun : (ev.tryOnce false (2 * ev.nargs) b.flush).run =
          ev.attempt b.flush.atTail.size (2 * ev.nargs) := by
        rw [Event.tryOnce_run, hp]
      rw [← ev.attempt_outOfRoom] at hfull
      rw [Event.attempts_of_full (by rw [hrun]; exact hfull)] at hrec
      simp only [hrun, Event.restart_offset hp] at hrec
      cases fuel with
      | zero => cases hrec
      | succ fuel =>
        rw [Event.attempts_record (NodBuffer.place_restart ..) (by decide) hres hc,
          hmem (by rw [ev.tryOnce_place, hp]), ← hbeneath] at hrec
        split at hrec
        · rw [hl]
          exact ⟨‹_›, (Option.some.inj hrec).symm, fun _ => ⟨rfl, hbeneath⟩⟩
        · cases hrec
    · have hbeneath : ev.beneath b =
          fun j => b.flush.mem b.flush.atTail.region (b.flush.atTail.base + j) := by
        have hne : b.flush.atTail ≠ Place.page := by simp [NodBuffer.atTail, Place.page]
        rw [Event.beneath, if_neg (by rw [hp]; exact fun h => h.elim hne hfull)]
      obtain ⟨code, hres, hc⟩ := attempt_done hfull (hends.main hp).1
      rw [Event.attempts_record hp (by simp [NodBuffer.atTail]) hres hc, ← hbeneath] at hrec
      split at hrec
      · rw [hl]
        exact ⟨‹_›, (Option.some.inj hrec).symm, fun h => absurd rfl h⟩
      · cases hrec

theorem landing_bounds (ev : Event) (b : NodBuffer) :
    2 * ev.nargs ≤ (ev.landing b).2 ∧ (ev.landing b).1 < 2 ^ 32 := by
  have hlt := b.flush.freespace_lt
  have hpage : Place.page.size < 2 ^ 32 := by decide
  have hsize : b.flush.atTail.size = b.flush.freespace - hdrSize := rfl
  rcases landing_cases ev b with ⟨-, hl⟩ | ⟨-, -, hl⟩ | ⟨-, -, hl⟩ <;> rw [hl] <;>
    exact ⟨by simp, by simp only; omega⟩

/-- The array of lengths is inside the room. -/
theorem landing_inside (ev : Event) (b : NodBuffer) : 2 * ev.nargs ≤ (ev.landing b).1 := by
  have hn := ev.nargs_le
  have hpage : Place.page.size = 4068 := rfl
  have hmax : nodMaxEventParams = 32 := rfl
  rcases landing_cases ev b with ⟨-, hl⟩ | ⟨-, -, hl⟩ | ⟨hp, -, hl⟩
  · rw [hl]
    simp only
    omega
  · rw [hl]
    simp only
    omega
  · rcases b.flush.place_cases (2 * ev.nargs) false with hpg | ⟨-, hoff, -⟩
    · rw [hp] at hpg
      cases hpg
    · rw [hl]
      simp only [NodBuffer.atTail]
      omega

theorem flush_mem_overflow (b : NodBuffer) : b.flush.mem .overflow = b.mem .overflow := by
  unfold NodBuffer.flush
  split <;> simp

end Landing

/-- A recording that fits in the buffer lands there. -/
theorem landing_of_fits {ev : Event} {b : NodBuffer} (hf : b.filled = false)
    (hoff : 2 * ev.nargs + hdrSize ≤ b.freespace)
    (hs : ev.Succeeds (ev.attempt b.atTail.size (2 * ev.nargs))) :
    ev.landing b = (b.atTail.size, 2 * ev.nargs) := by
  have hflush : b.flush = b := by simp [NodBuffer.flush, hf]
  have hne : b.place (2 * ev.nargs) false ≠ .page := by
    rw [place_eq_atTail hoff]
    intro h
    cases h
  have hfull : ¬ ev.filler.OutOfRoom ev.um 0 (argDataSize b.atTail.size (2 * ev.nargs)) := by
    rw [← ev.attempt_outOfRoom, hs.1]
    decide
  rw [Event.landing, hflush, if_neg hne, if_neg hfull]

/-- The record of a recording that fits in the buffer. -/
theorem record_of_fits {ev : Event} {b : NodBuffer} (hf : b.filled = false)
    (hoff : 2 * ev.nargs + hdrSize ≤ b.freespace)
    (hs : ev.Succeeds (ev.attempt b.atTail.size (2 * ev.nargs))) :
    ∃ bs : List UInt8, (doRecordOneEvent 1 0 0 ev b ⟨0, 0, 0⟩).record = some bs ∧
      bs.length = hdrSize + (ev.attempt b.atTail.size (2 * ev.nargs)).args.argDataOffset := by
  have hflush : b.flush = b := by simp [NodBuffer.flush, hf]
  simp only [doRecordOneEvent, hflush]
  rw [Event.attempts_record (place_eq_atTail hoff) (by simp [NodBuffer.atTail]) hs.1 (by decide),
    if_pos hs]
  exact ⟨_, rfl, by rw [Image.read_length]⟩

/-- One page of user memory, with the string "/usr/lib". -/
def usrLib : UserMem where
  byte a :=
    if 4096 ≤ a ∧ a < 8192 then
      some ([0x2F, 0x75, 0x73, 0x72, 0x2F, 0x6C, 0x69, 0x62].getD (a - 4096) 0)
    else none
  limit := 2 ^ 47
  fault _ _ := 0

/-- `chdir("/usr/lib")`. -/
def chdirCall : Syscall := { Syscall.idle with nr := 80, arg := fun _ => 4096, um := usrLib }

/-- Its event. -/
def chdirEvent : Event := chdirCall.traced Kernel.idle 0 1 0 false

end NoDrop
