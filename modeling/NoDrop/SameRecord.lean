import NoDrop.BindAddr
import NoDrop.Encoder
import NoDrop.LastAttempt
import NoDrop.ResParam
import NoDrop.StaleBytes

/-! # When two records are the same

Two recordings of one system call, in two states of the buffer that differ in `tail`, leave the
same record exactly if three things are the same in both: where the arguments start, how long each
of them comes out, and, where a copy of user data faults half way, what the memory beneath the
record held before (`record_eq_iff`).

The first two can be read off a record, wherever its arguments start (`landing_hasLens`).  The
third is visible in it because no store touches a stale byte.  That needs a look at the fillers:
user data that can be torn comes behind integers and kernel data only, in most event types by the
types of their parameters, in the rest by what their fillers push (`traced_tidy`).
-/
namespace NoDrop

open Bytes Filler

/-! ## Every filler is tidy -/

namespace Filler

variable {ty : EventType}

/-- The filler pushes no user data. -/
def FromKernel (f : Filler ty) : Prop := ∀ v ∈ f.values, v.fromuser = false

variable {f g next : Filler ty} {v : Value} {i : Nat}

@[simp] theorem fromKernel_ret (code : Int) : (ret code : Filler ty).FromKernel :=
  fun v hv => by cases hv

@[simp] theorem fromKernel_done : (done : Filler ty).FromKernel := fromKernel_ret _

@[simp] theorem fromKernel_push :
    (push v next).FromKernel ↔ v.fromuser = false ∧ next.FromKernel := List.forall_mem_cons

@[simp] theorem fromKernel_pushes {vs : List Value} :
    (pushes vs next).FromKernel ↔ (∀ v ∈ vs, v.fromuser = false) ∧ next.FromKernel := by
  induction vs with
  | nil => simp [pushes]
  | cons v vs ih =>
    rw [List.forall_mem_cons, and_assoc, ← ih]
    exact fromKernel_push

theorem fromKernel_scratch {w : Write} (h : next.FromKernel) : (scratch w next).FromKernel := by
  unfold scratch
  split
  · exact h
  · exact fun v hv => by cases hv

theorem fromKernel_scratches {ws : List Write} (h : next.FromKernel) :
    (scratches ws next).FromKernel := by
  induction ws with
  | nil => exact h
  | cons w ws ih => exact fromKernel_scratch ih

theorem FromKernel.seq (hf : f.FromKernel) (hg : g.FromKernel) : (f.seq g).FromKernel := by
  induction f with
  | ret code =>
    simp only [Filler.seq]
    split
    · exact hg
    · exact hf
  | push v next ih | pushAnyway v _ next ih =>
    obtain ⟨hv, hnext⟩ := List.forall_mem_cons.mp hf
    exact List.forall_mem_cons.mpr ⟨hv, ih hnext⟩
  | store w inside next ih => exact ih hf
  | runaway => exact hf

/-- Kernel data is never torn. -/
theorem FromKernel.sturdy (h : f.FromKernel) : f.Sturdy i := by
  induction f generalizing i with
  | ret code => exact trivial
  | push v next ih | pushAnyway v _ next ih =>
    obtain ⟨hv, hnext⟩ := List.forall_mem_cons.mp h
    exact ⟨by simp [hv], ih hnext⟩
  | store w inside next ih => exact ih h
  | runaway => exact trivial

theorem Sturdy.tidy (h : f.Sturdy i) : f.Tidy i := by
  induction f generalizing i with
  | ret code => exact trivial
  | push v next ih | pushAnyway v _ next ih => exact ⟨Or.inr h.2, ih h.2⟩
  | store w inside next ih => exact ih h
  | runaway => exact trivial

/-- Kernel data in front does not matter. -/
theorem FromKernel.seq_tidy (hf : f.FromKernel) (hg : ∀ i, g.Tidy i) : (f.seq g).Tidy i := by
  induction f generalizing i with
  | ret code =>
    simp only [Filler.seq]
    split
    · exact hg i
    · exact trivial
  | push v next ih | pushAnyway v _ next ih =>
    obtain ⟨hv, hnext⟩ := List.forall_mem_cons.mp hf
    exact ⟨Or.inl (Or.inl hv), ih hnext⟩
  | store w inside next ih => exact ih hf
  | runaway => exact trivial

theorem tidy_scratches {ws : List Write} (h : next.Tidy i) : (scratches ws next).Tidy i := by
  induction ws with
  | nil => exact h
  | cons w ws ih =>
    show (scratch w (scratches ws next)).Tidy i
    unfold scratch
    split
    · exact ih
    · exact trivial

end Filler

/-- Before the last parameter whose data may be torn there are integers only. -/
def EventInfo.neat (e : EventInfo) : Bool :=
  (List.range e.params.length).all fun j =>
    !(e.param j).tears || (List.range j).all fun i => (e.param i).type.width.isSome

theorem EventInfo.width_of_neat {e : EventInfo} (h : e.neat = true) {i j : Nat} (hij : i < j)
    (hj : (e.param j).tears = true) : ((e.param i).type.width).isSome := by
  have hlen : j < e.params.length := by
    by_contra hlen
    have hnone : e.param j = ⟨.none, []⟩ := by
      simp only [EventInfo.param, List.getD_eq_getElem?_getD]
      rw [List.getElem?_eq_none (by omega), Option.getD_none]
    rw [hnone] at hj
    cases hj
  have hall := List.all_eq_true.mp h j (List.mem_range.mpr hlen)
  rw [hj, Bool.not_true, Bool.false_or] at hall
  exact List.all_eq_true.mp hall i (List.mem_range.mpr hij)

theorem tidy_of_neat {ty : EventType} (h : (gEventInfo ty).neat = true) (f : Filler ty) (i : Nat) :
    f.Tidy i := by
  have hsturdy : ∀ (g : Filler ty) (j : Nat), (∀ k ≥ j, ((gEventInfo ty).param k).tears = false) →
      g.Sturdy j := by
    intro g
    induction g with
    | ret code => exact fun _ _ => trivial
    | push v next ih | pushAnyway v _ next ih =>
      exact fun j hj => ⟨by simp [hj j (Nat.le_refl j)], ih _ fun k hk => hj k (by omega)⟩
    | store w inside next ih => exact ih
    | runaway => exact fun _ _ => trivial
  induction f generalizing i with
  | ret code => exact trivial
  | push v next ih | pushAnyway v _ next ih =>
    refine ⟨?_, ih (i + 1)⟩
    by_cases hw : (((gEventInfo ty).param i).type.width).isSome
    · exact Or.inl (Or.inr hw)
    · refine Or.inr (hsturdy _ _ fun k hk => ?_)
      by_contra htears
      exact hw (EventInfo.width_of_neat h (show i < k by omega) (by simpa using htears))
  | store w inside next ih => exact ih i
  | runaway => exact trivial

/-- The event types with data that may be torn behind anything else than integers. -/
theorem gSyscallEventTable_neat {n : Nat} (hn : n < tableSize) :
    (gEventInfo (gSyscallEventTable n)).neat = true ∨ gSyscallEventTable n = .socketSendto ∨
      gSyscallEventTable n = .socketSendmsg ∨ gSyscallEventTable n = .syscallClone_20 ∨
      gSyscallEventTable n = .syscallFork_20 ∨ gSyscallEventTable n = .syscallVfork_20 ∨
      gSyscallEventTable n = .syscallExecve_19 ∨ gSyscallEventTable n = .syscallExecveat ∨
      gSyscallEventTable n = .syscallClone3 := by
  revert n
  decide +kernel

section Fillers

variable {ty : EventType} {k : Kernel} {s : Syscall}

theorem fromKernel_procIdentity : (procIdentity k : Filler ty).FromKernel := by
  have hvm : ∀ v ∈ vmCounters k, v.fromuser = false := by
    unfold vmCounters
    split <;> simp [Value.imm]
  refine fromKernel_pushes.mpr ⟨?_, fromKernel_scratch fromKernel_done⟩
  simp only [List.forall_mem_append]
  exact ⟨⟨by simp [Value.imm, Value.text], hvm⟩, by simp⟩

theorem fromKernel_exeAndArgs {strings : List Write × List UInt8} {next : Filler ty}
    (h : next.FromKernel) : (exeAndArgs s strings next).FromKernel :=
  fromKernel_scratches (fromKernel_scratches (fromKernel_pushes.mpr ⟨by simp, h⟩))

theorem fromKernel_procHead : (procHead k s : Filler ty).FromKernel := by
  have hid := @fromKernel_procIdentity ty k
  refine fromKernel_pushes.mpr ⟨by simp [Value.imm], ?_⟩
  split
  · exact fromKernel_scratch (fromKernel_pushes.mpr ⟨by simp, hid⟩)
  split
  · split
    · exact fromKernel_scratch (fromKernel_ret _)
    · split
      · exact fromKernel_scratch (fromKernel_ret _)
      · exact fromKernel_exeAndArgs hid
  · exact fromKernel_scratch (fromKernel_exeAndArgs hid)

theorem fromKernel_procEnd : (procEnd k s : Filler ty).FromKernel := by
  unfold procEnd
  split
  · unfold cloneFields
    dsimp only
    have hids : ∀ flags : UInt64, (pushes [.imm (cloneFlagsToScap flags |||
        if k.inPidns then nodClChildInPidns else 0), .imm k.euid.toUInt64, .imm k.egid.toUInt64,
        .imm (sext k.vtid), .imm (sext k.vpid)] done : Filler ty).FromKernel :=
      fun flags => fromKernel_pushes.mpr ⟨by simp [Value.imm], fromKernel_done⟩
    split
    · exact hids _
    split
    · unfold fetch
      split
      · exact fromKernel_ret _
      · exact hids _
    · exact hids _
  split
  · exact fromKernel_scratches (fromKernel_scratches (fromKernel_pushes.mpr ⟨by simp [Value.imm],
      fromKernel_done⟩))
  · exact fromKernel_done

theorem fromKernel_fProcStartupdate :
    (fProcStartupdate k s : CheckedFiller ty).filler.FromKernel := by
  simp only [fProcStartupdate, CheckedFiller.filler_after, CheckedFiller.filler_asserts]
  exact fromKernel_procHead.seq (fromKernel_scratch (fromKernel_push.mpr ⟨rfl, fromKernel_procEnd⟩))

theorem fromKernel_parseReadvWritevBufs {iovsrc iovcnt retval : UInt64} {flags : PrbFlags} :
    (parseReadvWritevBufs s iovsrc iovcnt retval flags : Filler ty).FromKernel := by
  unfold parseReadvWritevBufs
  dsimp only
  have hdata : ∀ {off : Nat} {data : List UInt8 × Bool}, (if flags.pushData = false then
      .ret nodSuccess else if 0 < signed retval ∧ 0 < iovcnt.toNat then
      .scratch ⟨off, data.1⟩ <| if data.2 then
        .pushLast { val := s.strStorage + UInt64.ofNat off, len := UInt32.ofNat data.1.length,
                    mem := data.1 }
        else .ret nodFailureInvalidUserMemory
      else .pushLast { val := 0 } : Filler ty).FromKernel := by
    intro off data
    split
    · exact fromKernel_ret _
    split
    · refine fromKernel_scratch ?_
      split
      · exact fromKernel_push.mpr ⟨rfl, fromKernel_ret _⟩
      · exact fromKernel_ret _
    · exact fromKernel_push.mpr ⟨rfl, fromKernel_ret _⟩
  split
  · exact fromKernel_ret _
  split
  · exact fromKernel_ret _
  refine fromKernel_scratch ?_
  split
  · exact fromKernel_ret _
  split
  · exact fromKernel_push.mpr ⟨rfl, hdata⟩
  · exact hdata

theorem fromKernel_fSysSendmsg : (fSysSendmsg k s : CheckedFiller ty).filler.FromKernel := by
  unfold fSysSendmsg
  dsimp only
  split
  · exact fromKernel_pushes.mpr ⟨by simp [Value.imm], fromKernel_ret _⟩
  · simp only [CheckedFiller.filler_after, CheckedFiller.filler_asserts]
    refine FromKernel.seq ?_ ?_
    · exact fromKernel_pushes.mpr ⟨by simp [Value.imm], fromKernel_parseReadvWritevBufs⟩
    · exact fromKernel_scratches (fromKernel_push.mpr ⟨rfl, fromKernel_pushes.mpr
        ⟨by simp [Value.imm], fromKernel_parseReadvWritevBufs⟩⟩)

/-- The data of `sendto` comes last. -/
theorem tidy_fSysSendto (i : Nat) : (fSysSendto k s : CheckedFiller ty).filler.Tidy i := by
  simp only [fSysSendto, CheckedFiller.filler_after, CheckedFiller.filler_asserts]
  refine FromKernel.seq_tidy ?_ fun i => ?_
  · exact fromKernel_scratch (fromKernel_pushes.mpr ⟨by simp [fSysSendECommon, Value.imm],
      fromKernel_done⟩)
  · exact tidy_scratches ⟨Or.inl (Or.inl rfl), Or.inl (Or.inl rfl), Or.inr trivial, trivial⟩

/-- A path is not torn, wherever it comes. -/
theorem sturdy_push {next : Filler ty} {v : Value} {i : Nat}
    (ht : ((gEventInfo ty).param i).tears = false) (h : next.Sturdy (i + 1)) :
    (push v next).Sturdy i := ⟨by simp [ht], h⟩

/-- **Every system call is recorded tidily.** -/
theorem traced_tidy (hnr : s.nr.toNat < tableSize) (ts : UInt64) (tid : UInt32) (cpuid : UInt16)
    (force : Bool) : (s.traced k ts tid cpuid force).filler.Tidy 0 := by
  show (fillerCallback k s (gSyscallEventTable s.nr.toNat)).filler.Tidy 0
  have hproc := fun ty : EventType => @fromKernel_fProcStartupdate ty k s
  have hexecve : (fillerCallback k s .syscallExecve_19).filler =
      push (.user (s.arg 0)) (fProcStartupdate k s).filler := CheckedFiller.filler_after ..
  have hexecveat : (fillerCallback k s .syscallExecveat).filler =
      push (.imm (atFdcwd (s.arg 0))) (push (.user (s.arg 1))
        (push (.imm (execveatFlagsToScap (s.arg 4))) (fProcStartupdate k s).filler)) :=
    CheckedFiller.filler_after ..
  rcases gSyscallEventTable_neat hnr with
    h | h | h | h | h | h | h | h | h
  · exact tidy_of_neat h _ 0
  all_goals rw [h]
  · exact tidy_fSysSendto 0
  · exact fromKernel_fSysSendmsg.sturdy.tidy
  · exact (hproc _).sturdy.tidy
  · exact (hproc _).sturdy.tidy
  · exact (hproc _).sturdy.tidy
  · rw [hexecve]
    exact Sturdy.tidy (sturdy_push rfl (hproc _).sturdy)
  · rw [hexecveat]
    exact Sturdy.tidy (sturdy_push rfl (sturdy_push rfl (sturdy_push rfl (hproc _).sturdy)))
  · exact (hproc _).sturdy.tidy

end Fillers

/-! ## A record in two rooms -/

namespace Event

variable {ev : Event} {size size' n j : Nat}

/-- Byte `j` behind the header is stale in an attempt that starts its arguments at `off`. -/
def Stale (ev : Event) (size off j : Nat) : Prop :=
  ev.filler.Stale ev.um 0 off (argDataSize size off) j

instance (size off : Nat) : Decidable (ev.Stale size off j) :=
  inferInstanceAs (Decidable (ev.filler.Stale ..))

theorem header_covered (hj : j < hdrSize) (hlen : j < 16 ∨ 20 ≤ j) :
    ∃ w ∈ ev.header, w.Touches j := by
  simp only [hdrSize] at hj
  have : (0 ≤ j ∧ j < 8) ∨ (8 ≤ j ∧ j < 12) ∨ (14 ≤ j ∧ j < 16) ∨ (12 ≤ j ∧ j < 14) ∨
      (20 ≤ j ∧ j < 24) ∨ (24 ≤ j ∧ j < 28) := by omega
  simpa [header, Write.Touches, Write.stop] using this

section SameSizes

variable (h : 2 * ev.nargs ≤ size) (h' : 2 * ev.nargs ≤ size') (hlt : size < 2 ^ 32)
  (hlt' : size' < 2 ^ 32) (hs : ev.Succeeds (ev.attempt size (2 * ev.nargs)))
  (hs' : ev.Succeeds (ev.attempt size' (2 * ev.nargs)))
  (hsizes : ev.sizes size (2 * ev.nargs) = ev.sizes size' (2 * ev.nargs))
include h h' hlt hlt' hs hs' hsizes

/-- Two attempts with a clean start whose arguments have the same lengths. -/
theorem sameLengths :
    SameLengths ev.um ev.filler 0 (2 * ev.nargs) (argDataSize size (2 * ev.nargs))
      (argDataSize size' (2 * ev.nargs)) where
  lt := by rw [argDataSize_eq h hlt]; omega
  lt' := by rw [argDataSize_eq h' hlt']; omega
  start := Nat.le_refl _
  ok := hs.1
  ok' := hs'.1
  sizes := hsizes

/-- They end at the same offset. -/
theorem sameEnd : (ev.attempt size' (2 * ev.nargs)).args.argDataOffset =
    (ev.attempt size (2 * ev.nargs)).args.argDataOffset := by
  rw [← (ev.attempt_hasLens h hlt (Nat.le_refl _) hs).offset,
    ← (ev.attempt_hasLens h' hlt' (Nat.le_refl _) hs').offset, hsizes]

/-- The bytes of their records agree, but for the stale ones. -/
theorem imageOf_agree (hfills : ev.filler.Fills 0 n)
    (hj : j < hdrSize + (ev.attempt size (2 * ev.nargs)).args.argDataOffset)
    (hfresh : hdrSize ≤ j → ¬ ev.Stale size (2 * ev.nargs) (j - hdrSize)) (img img' : Image) :
    ev.imageOf (ev.attempt size (2 * ev.nargs)) img j =
      ev.imageOf (ev.attempt size' (2 * ev.nargs)) img' j := by
  have hls := ev.attempt_hasLens h hlt (Nat.le_refl _) hs
  have hlen := (read_imageOf_lens hls rfl hs).1
  have hend := hls.offset
  simp only at hend
  rw [imageOf, imageOf, sameEnd h h' hlt hlt' hs hs' hsizes]
  refine (?_ : Agree _ _ j) img img'
  rw [stores, stores]
  have hlenStore : j < 16 ∨ 20 ≤ j →
      ∀ w ∈ [lenStore (hdrSize + (ev.attempt size (2 * ev.nargs)).args.argDataOffset)],
        ¬ w.Touches j := by
    intro hj w hw
    obtain rfl := List.mem_singleton.mp hw
    simp only [lenStore, Write.Touches, Write.stop, leBytes_length]
    omega
  by_cases hl : 16 ≤ j ∧ j < 20
  · refine Agree.append_right _ _ (Agree.of_covered ⟨_, List.mem_singleton.mpr rfl, ?_⟩)
    simp only [lenStore, Write.Touches, Write.stop, leBytes_length]
    omega
  refine Agree.append_left ?_ (hlenStore (by omega)) (hlenStore (by omega))
  by_cases hh : j < hdrSize
  · have huntouched : ∀ r : FillerRun, ∀ w ∈ r.out.map (Write.shift hdrSize), ¬ w.Touches j := by
      intro r w hw
      obtain ⟨w', -, rfl⟩ := List.mem_map.mp hw
      simp only [Write.Touches, Write.shift]
      omega
    exact Agree.append_left (Agree.of_covered (header_covered hh (by omega))) (huntouched _)
      (huntouched _)
  · obtain ⟨k, rfl⟩ := Nat.exists_eq_add_of_le (Nat.le_of_not_lt hh)
    rw [Nat.add_sub_cancel_left] at hfresh
    refine Agree.append_right _ _ (Agree.shift _ (run_agree ev.filler hfills
      (sameLengths h h' hlt hlt' hs hs' hsizes) ?_ (hfresh (by omega))))
    show Made 0 (2 * ev.nargs) (ev.sizes size (2 * ev.nargs)) k
    simp only [Made]
    omega

end SameSizes

/-- A stale byte is what the memory held before. -/
theorem imageOf_stale (hfills : ev.filler.Fills 0 n) (htidy : ev.filler.Tidy 0)
    (h : 2 * ev.nargs ≤ size) (hlt : size < 2 ^ 32)
    (hs : ev.Succeeds (ev.attempt size (2 * ev.nargs))) (hj : ev.Stale size (2 * ev.nargs) j)
    (img : Image) :
    ev.imageOf (ev.attempt size (2 * ev.nargs)) img (hdrSize + j) = img (hdrSize + j) := by
  have hroom : 2 * ev.nargs + argDataSize size (2 * ev.nargs) < 2 ^ 32 := by
    rw [argDataSize_eq h hlt]
    omega
  rw [imageOf]
  refine Image.writes_of_untouched fun w hw => ?_
  rcases List.mem_append.mp hw with hw | hw
  · rcases List.mem_append.mp hw with hw | hw
    · have := header_stop_le w hw
      simp only [Write.Touches]
      omega
    · obtain ⟨w', hw', rfl⟩ := List.mem_map.mp hw
      rw [Write.touches_shift]
      exact stale_untouched hfills htidy hroom (Nat.le_refl _) hs.1 hj w' hw'
  · obtain rfl := List.mem_singleton.mp hw
    simp only [lenStore, Write.Touches, Write.stop, leBytes_length, hdrSize]
    omega

/-- **Two records with the same lengths are the same** exactly if the memory beneath them is, where
they are stale. -/
theorem imageOf_eq_iff (hfills : ev.filler.Fills 0 n) (htidy : ev.filler.Tidy 0)
    (h : 2 * ev.nargs ≤ size) (h' : 2 * ev.nargs ≤ size') (hlt : size < 2 ^ 32)
    (hlt' : size' < 2 ^ 32) (hs : ev.Succeeds (ev.attempt size (2 * ev.nargs)))
    (hs' : ev.Succeeds (ev.attempt size' (2 * ev.nargs)))
    (hsizes : ev.sizes size (2 * ev.nargs) = ev.sizes size' (2 * ev.nargs)) (img img' : Image) :
    (ev.imageOf (ev.attempt size (2 * ev.nargs)) img).read 0
        (hdrSize + (ev.attempt size (2 * ev.nargs)).args.argDataOffset) =
      (ev.imageOf (ev.attempt size' (2 * ev.nargs)) img').read 0
        (hdrSize + (ev.attempt size' (2 * ev.nargs)).args.argDataOffset) ↔
      ∀ j, ev.Stale size (2 * ev.nargs) j → img (hdrSize + j) = img' (hdrSize + j) := by
  have hend := (ev.attempt_hasLens h hlt (Nat.le_refl _) hs).offset
  have hstale : ∀ {j}, ev.Stale size (2 * ev.nargs) j → ev.Stale size' (2 * ev.nargs) j :=
    fun hj => Filler.Stale.of_sizes hfills (sameLengths h h' hlt hlt' hs hs' hsizes) hj
  simp only at hend
  rw [sameEnd h h' hlt hlt' hs hs' hsizes]
  constructor
  · intro he j hj
    have hlast : j < 2 * ev.nargs + (ev.sizes size (2 * ev.nargs)).sum := Filler.Stale.lt hj
    have hbyte := Image.apply_eq_of_read_eq he (i := hdrSize + j) (by omega)
    rwa [Nat.zero_add, imageOf_stale hfills htidy h hlt hs hj,
      imageOf_stale hfills htidy h' hlt' hs' (hstale hj)] at hbyte
  · intro hmem
    refine Image.read_congr fun j hj => ?_
    rw [Nat.zero_add]
    by_cases hfresh : hdrSize ≤ j → ¬ ev.Stale size (2 * ev.nargs) (j - hdrSize)
    · exact imageOf_agree h h' hlt hlt' hs hs' hsizes hfills hj hfresh img img'
    · obtain ⟨hle, hj⟩ := Classical.not_imp.mp hfresh
      have hj := not_not.mp hj
      have hbyte := hmem _ hj
      rwa [← imageOf_stale hfills htidy h hlt hs hj img,
        ← imageOf_stale hfills htidy h' hlt' hs' (hstale hj) img', Nat.add_sub_cancel' hle] at hbyte

end Event

/-! ## Two states of the buffer -/

/-- The event's arguments start at the same offset and have the same lengths in the two
states of the buffer. -/
structure SameLayout (ev : Event) (b b' : NodBuffer) : Prop where
  start : (ev.landing b).2 = (ev.landing b').2
  sizes : ev.sizes (ev.landing b).1 (ev.landing b).2 = ev.sizes (ev.landing b').1 (ev.landing b').2

/-- Where a copy of user data faults half way, what it leaves out is the same in the memory beneath
the two records. -/
def SameBeneath (ev : Event) (b b' : NodBuffer) : Prop :=
  ∀ j, ev.Stale (ev.landing b).1 (ev.landing b).2 j →
    ev.beneath b (hdrSize + j) = ev.beneath b' (hdrSize + j)

section TwoStates

variable {ev : Event} {b b' : NodBuffer} {tail : UInt32} {fuel fuel' n : Nat}
  {entryAddr entryAddr' : UInt64} {load load' : Int} {st st' : EventStatistic}
  {bs bs' : List UInt8}

/-- What a recording that leaves a record leaves. -/
theorem record_eq (hfills : ev.filler.Fills 0 n)
    (hrec : (doRecordOneEvent fuel entryAddr load ev b st).record = some bs) :
    ev.Succeeds (ev.attempt (ev.landing b).1 (ev.landing b).2) ∧
      bs = (ev.imageOf (ev.attempt (ev.landing b).1 (ev.landing b).2) (ev.beneath b)).read 0
        (hdrSize + (ev.attempt (ev.landing b).1 (ev.landing b).2).args.argDataOffset) ∧
      ((ev.landing b).2 ≠ 2 * ev.nargs →
        (ev.landing b).1 = Place.page.size ∧ ev.beneath b = b.flush.mem .overflow) :=
  record_landing (endsInTwo_of_record hfills hrec) hrec

theorem SameLayout.of_record_eq (hfills : ev.filler.Fills 0 n)
    (hrec : (doRecordOneEvent fuel entryAddr load ev b st).record = some bs)
    (hrec' : (doRecordOneEvent fuel' entryAddr' load' ev b' st').record = some bs')
    (he : bs = bs') : SameLayout ev b b' := by
  obtain ⟨hs, hbs, -⟩ := record_eq hfills hrec
  obtain ⟨hs', hbs', -⟩ := record_eq hfills hrec'
  obtain ⟨hstart, hsizes⟩ := Event.start_eq_of_hasLens (landing_hasLens hs) (landing_hasLens hs')
    rfl rfl (landing_bounds ev b).1 hs hs' (hbs.symm.trans (he.trans hbs'))
  exact ⟨hstart, hsizes⟩

/-- The same, for a call whose arguments start at the same offset in both states. -/
theorem record_eq_iff_sameBeneath (hfills : ev.filler.Fills 0 n) (htidy : ev.filler.Tidy 0)
    (hrec : (doRecordOneEvent fuel entryAddr load ev b st).record = some bs)
    (hrec' : (doRecordOneEvent fuel' entryAddr' load' ev (b.withTail tail) st').record = some bs')
    (hsame : SameLayout ev b (b.withTail tail)) :
    bs = bs' ↔ SameBeneath ev b (b.withTail tail) := by
  obtain ⟨hstart, hsizes⟩ := hsame
  obtain ⟨hs, rfl, hpage⟩ := record_eq hfills hrec
  obtain ⟨hs', rfl, hpage'⟩ := record_eq hfills hrec'
  obtain ⟨-, hlt⟩ := landing_bounds ev b
  obtain ⟨-, hlt'⟩ := landing_bounds ev (b.withTail tail)
  rw [SameBeneath]
  by_cases hclean : (ev.landing b).2 = 2 * ev.nargs
  · -- a clean start in both: the room acts through the lengths
    have hclean' := hstart.symm.trans hclean
    have hin := landing_inside ev b
    have hin' := landing_inside ev (b.withTail tail)
    rw [hclean] at hs hsizes ⊢
    rw [hclean'] at hs' hsizes ⊢
    exact Event.imageOf_eq_iff hfills htidy hin hin' hlt hlt' hs hs' hsizes _ _
  · -- a restart at the same offset in both: the same attempt on the same page
    obtain ⟨hsize, hmem⟩ := hpage hclean
    obtain ⟨hsize', hmem'⟩ := hpage' (by rw [← hstart]; exact hclean)
    have hbeneath : ev.beneath b = ev.beneath (b.withTail tail) := by
      rw [hmem, hmem', flush_mem_overflow, flush_mem_overflow]
      rfl
    rw [← hstart, hsize, hsize', hbeneath]
    exact iff_of_true rfl fun _ _ => rfl

end TwoStates

section

variable {k : Kernel} {s : Syscall} {ts : UInt64} {tid : UInt32} {cpuid : UInt16} {force : Bool}
  {b : NodBuffer} {tail : UInt32} {fuel fuel' : Nat} {entryAddr entryAddr' : UInt64}
  {load load' : Int} {st st' : EventStatistic} {bs bs' : List UInt8}

/-- **When the record does not depend on how full the buffer is.**  Two recordings of a system
call, in two states that differ in `tail`, that both leave a record leave the same one exactly
if the arguments start at the same offset and get the same lengths in both, and where a copy of
user data faults half way the memory beneath was the same. -/
theorem record_eq_iff (hnr : s.nr.toNat < tableSize)
    (hrec : (doRecordOneEvent fuel entryAddr load (s.traced k ts tid cpuid force) b st).record =
      some bs)
    (hrec' : (doRecordOneEvent fuel' entryAddr' load' (s.traced k ts tid cpuid force)
      (b.withTail tail) st').record = some bs') :
    bs = bs' ↔ SameLayout (s.traced k ts tid cpuid force) b (b.withTail tail) ∧
      SameBeneath (s.traced k ts tid cpuid force) b (b.withTail tail) := by
  obtain ⟨n, hfills⟩ := traced_fills_some (k := k) hnr ts tid cpuid force
  have htidy := traced_tidy (k := k) hnr ts tid cpuid force
  constructor
  · intro he
    have hsame := SameLayout.of_record_eq hfills hrec hrec' he
    exact ⟨hsame, (record_eq_iff_sameBeneath hfills htidy hrec hrec' hsame).mp he⟩
  · rintro ⟨hsame, hbeneath⟩
    exact (record_eq_iff_sameBeneath hfills htidy hrec hrec' hsame).mpr hbeneath

end

/-- `write` of 40 bytes of which 20 can be read. -/
def tornWrite : Syscall :=
  { Syscall.idle with nr := 1, arg := fun i => if i = 1 then 4096 else 40, ret := 40, um := shortMem 20 }

/-- Its event. -/
def tornWriteEvent : Event := tornWrite.traced Kernel.idle 0 1 0 false

/-- Byte 20 of the data of a torn `write` is stale, and the record is the same at the start of a
buffer of zeros and behind another record. -/
theorem tornWrite_record_eq :
    tornWriteEvent.Stale smallBuffer.atTail.size (2 * tornWriteEvent.nargs) 48 ∧ ∃ bs bs',
    (doRecordOneEvent 1 0 0 tornWriteEvent smallBuffer ⟨0, 0, 0⟩).record = some bs ∧
      (doRecordOneEvent 1 0 0 tornWriteEvent (smallBuffer.withTail 48) ⟨0, 0, 0⟩).record =
        some bs' ∧ bs = bs' := by
  have hs : tornWriteEvent.Succeeds (tornWriteEvent.attempt smallBuffer.atTail.size
      (2 * tornWriteEvent.nargs)) := by decide +kernel
  have hs' : tornWriteEvent.Succeeds (tornWriteEvent.attempt (smallBuffer.withTail 48).atTail.size
      (2 * tornWriteEvent.nargs)) := by decide +kernel
  have hoff : 2 * tornWriteEvent.nargs + hdrSize ≤ smallBuffer.freespace := by decide +kernel
  have hoff' : 2 * tornWriteEvent.nargs + hdrSize ≤ (smallBuffer.withTail 48).freespace := by
    decide +kernel
  have hl := landing_of_fits rfl hoff hs
  have hl' := landing_of_fits rfl hoff' hs'
  obtain ⟨bs, hbs, -⟩ := record_of_fits rfl hoff hs
  obtain ⟨bs', hbs', -⟩ := record_of_fits rfl hoff' hs'
  have hsame : SameLayout tornWriteEvent smallBuffer (smallBuffer.withTail 48) := by
    refine ⟨by rw [hl, hl'], ?_⟩
    rw [hl, hl']
    decide +kernel
  have hzero : ∀ (r : Region) (j : Nat), smallBuffer.mem r j = 0 := fun r j => by cases r <;> rfl
  have hbeneath : SameBeneath tornWriteEvent smallBuffer (smallBuffer.withTail 48) := by
    intro j _
    exact (hzero _ _).trans (hzero _ _).symm
  exact ⟨by decide +kernel, bs, bs', hbs, hbs',
    (record_eq_iff (by decide) hbs hbs').mpr ⟨hsame, hbeneath⟩⟩

/-- **The record depends on the free space**: with 48 bytes free the path has 8 bytes for
9, and `(INVAL)` is recorded in its place. -/
theorem chdirEvent_record_ne : ¬ ∀ (ev : Event) (b : NodBuffer) (tail : UInt32) (fuel : Nat)
    (entryAddr : UInt64) (load : Int) (st : EventStatistic) (bs bs' : List UInt8),
    (doRecordOneEvent fuel entryAddr load ev b st).record = some bs →
    (doRecordOneEvent fuel entryAddr load ev (b.withTail tail) st).record = some bs' →
    bs = bs' := by
  intro hall
  have hs : chdirEvent.Succeeds (chdirEvent.attempt (smallBuffer.withTail 4040).atTail.size
      (2 * chdirEvent.nargs)) := by decide +kernel
  have hs' : chdirEvent.Succeeds (chdirEvent.attempt (smallBuffer.withTail 4048).atTail.size
      (2 * chdirEvent.nargs)) := by decide +kernel
  obtain ⟨bs, h, hlen⟩ := record_of_fits rfl (by decide) hs
  obtain ⟨bs', h', hlen'⟩ := record_of_fits rfl (by decide) hs'
  have he : bs = bs' := hall chdirEvent (smallBuffer.withTail 4040) 4048 1 0 0 ⟨0, 0, 0⟩ bs bs' h h'
  rw [he, hlen'] at hlen
  revert hlen
  decide +kernel

end NoDrop
