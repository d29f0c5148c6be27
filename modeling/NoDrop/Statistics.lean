import NoDrop.CountInfo
import NoDrop.Delivery

/-! # The statistics

`g_stat` of `kmodule/events.c`: every cpu counts the events that reach a buffer, those a filler
gives up on, and those that are still in the buffer of a thread that ends.  `NOD_IOCTL_READ_STATISTICS`
adds the counters of all cpus, and `NOD_IOCTL_CLEAR_STATISTICS` sets them to zero.  Threads change
cpus, their buffers are drained and thrown away, and nobody stops recording for either call.

The books balance all the same (`statistics_balance`): of what the first counter has counted since
it was cleared, every event was handed to a monitor, or thrown away, or is in the third counter, or
is in a buffer now and in what `NOD_IOCTL_READ_BUFFER_COUNT_INFO` reports.  Events in an overflow page
are in none of them: they are counted as they leave it.  The second counter has exactly the calls
whose filler has given up; a call whose filler has pushed the wrong number of arguments is in no
counter.
-/
namespace NoDrop

open Bytes Runs

/-! ## The calls -/

/-- `tot_stat` of `nod_dev_ioctl`, for `NOD_IOCTL_READ_STATISTICS`. -/
def totStat (gStat : List EventStatistic) : EventStatistic :=
  gStat.foldl (fun tot stat => ⟨tot.nEvts + stat.nEvts, tot.nDropEvts + stat.nDropEvts,
    tot.nDropEvtsUnsolved + stat.nDropEvtsUnsolved⟩) ⟨0, 0, 0⟩

/-- Its bytes. -/
def EventStatistic.bytes (stat : EventStatistic) : List UInt8 :=
  leBytes 8 stat.nEvts ++ (leBytes 8 stat.nDropEvts ++ leBytes 8 stat.nDropEvtsUnsolved)

/-- `nod_dev_ioctl`, for `NOD_IOCTL_READ_STATISTICS`. -/
def ioctlReadStatistics (gStat : List EventStatistic) (arg : UInt64) (off : Nat) (u : UserSpace) :
    CallResult :=
  let got := u.copyToUser arg.toNat (totStat gStat).bytes
  ⟨if got.2 ≠ 0 then eFault else 0, u.stored ⟨arg.toNat, got.1⟩, off⟩

/-- `nod_dev_ioctl`, for `NOD_IOCTL_CLEAR_STATISTICS`. -/
def ioctlClearStatistics (gStat : List EventStatistic) : List EventStatistic :=
  gStat.map fun _ => ⟨0, 0, 0⟩

/-- `nod_dev_ioctl`, for `NOD_IOCTL_CLEAR_BUFFER`. -/
def ioctlClearBuffer (table : List NodBuffer) : List NodBuffer :=
  table.map fun b => b.resetBuffer ⟨true, true⟩

/-! ## How a call ends -/

/-- The last run of the filler in a call, from an attempt on. -/
def Event.lastRun (ev : Event) : Nat → Bool → Nat → NodBuffer → Option FillerRun
  | 0, _, _, _ => none
  | fuel + 1, restart, off, b =>
      let t := ev.tryOnce restart off b
      if t.run.res = some nodFailureBufferFull then
        ev.lastRun fuel true t.run.args.argDataOffset t.buf
      else some t.run

/-- The filler gives up. -/
def FillerRun.givesUp (run : FillerRun) : Bool := run.res ≠ some nodSuccess

/-- The filler has pushed too few arguments, or too many. -/
def FillerRun.misfills (run : FillerRun) (nargs : Nat) : Bool :=
  run.res = some nodSuccess ∧ run.args.curarg ≠ nargs

/-- A call that is refused. -/
def Event.refused (ev : Event) (fuel : Nat) (b : NodBuffer) : Bool :=
  (ev.lastRun fuel false (2 * ev.nargs) b.flush).any FillerRun.givesUp

/-- A call that leaves no record because its filler does not fit the event type. -/
def Event.misfilled (ev : Event) (fuel : Nat) (b : NodBuffer) : Bool :=
  (ev.lastRun fuel false (2 * ev.nargs) b.flush).any fun run => run.misfills ev.nargs

/-! ## The system and its history -/

/-- The events that wait in the buffers, and those in the overflow pages. -/
def unflushed (table : List NodBuffer) : Nat := (table.map fun b => b.info.nevents).sum
def parkedPages (table : List NodBuffer) : Nat := (table.map fun b => b.filled.toNat).sum

/-- What has happened since the statistics were cleared: what waited then, the calls of
`record_one_event`, those that filled in an event and those that did not, and what became of
events. -/
structure StatHistory where
  unflushed₀ : Nat
  parked₀ : Nat
  calls : Nat
  recorded : Nat
  refused : Nat
  misfilled : Nat
  handed : Nat
  discarded : Nat
  lostPages : Nat

/-- The counters of the cpus, the buffers of the threads in the table, and the history. -/
structure StatSystem where
  gStat : List EventStatistic
  table : List NodBuffer
  history : StatHistory

/-- What happens: a thread comes, records on some cpu, is drained by its monitor, and is released
on some cpu; and the two calls that clear. -/
inductive StatAct where
  | enter (i : Nat) (size : UInt64) (pages : Region → Image)
  | record (i cpu fuel : Nat) (entryAddr : UInt64) (load : Int) (ev : Event)
  | drain (i fuel : Nat)
  | release (i cpu : Nat)
  | clearBuffer
  | clearStatistics

/-- As long as nothing has happened. -/
def StatHistory.start (table : List NodBuffer) : StatHistory :=
  ⟨unflushed table, parkedPages table, 0, 0, 0, 0, 0, 0, 0⟩

/-- The module is loaded. -/
def StatSystem.start (cpus : Nat) : StatSystem :=
  ⟨List.replicate cpus ⟨0, 0, 0⟩, [], .start []⟩

def statStep (s : StatSystem) : StatAct → Option StatSystem
  | .enter i size pages =>
      if i ≤ s.table.length then
        (NodBuffer.initBuffer size pages).map fun b => { s with table := s.table.insertIdx i b }
      else none
  | .record i cpu fuel entryAddr load ev => do
      let b ← s.table[i]?
      let stat ← s.gStat[cpu]?
      let r := doRecordOneEvent fuel entryAddr load ev b stat
      r.ret.map fun _ =>
        { gStat := s.gStat.set cpu r.stat
          table := s.table.set i r.buf
          history := { s.history with
            calls := s.history.calls + 1
            recorded := s.history.recorded + r.record.toList.length
            refused := s.history.refused + (ev.refused fuel b).toNat
            misfilled := s.history.misfilled + (ev.misfilled fuel b).toNat } }
  | .drain i fuel => do
      let b ← s.table[i]?
      (nodMonitorMain fuel b).map fun (evts, b) =>
        { s with
          table := s.table.set i b
          history := { s.history with handed := s.history.handed + evts.length } }
  -- `nod_proc_release`
  | .release i cpu => do
      let b ← s.table[i]?
      let stat ← s.gStat[cpu]?
      some
        { gStat := s.gStat.set cpu
            { stat with nDropEvtsUnsolved := stat.nDropEvtsUnsolved + b.info.nevents }
          table := s.table.eraseIdx i
          history := { s.history with lostPages := s.history.lostPages + b.filled.toNat } }
  | .clearBuffer =>
      some
        { s with
          table := ioctlClearBuffer s.table
          history := { s.history with
            discarded := s.history.discarded + unflushed s.table
            lostPages := s.history.lostPages + parkedPages s.table } }
  | .clearStatistics =>
      some ⟨ioctlClearStatistics s.gStat, s.table, .start s.table⟩

/-- The condition on a step: a recording is safe. -/
def SafeStat (s : StatSystem) : StatAct → Prop
  | .record i _ _ _ _ ev => ∀ b ∈ s.table[i]?, Safe ev b
  | _ => True

/-! ## Sums over the cpus and over the table -/

section Sums

variable {A : Type} {l : List A} {i : Nat} {x y : A}

/-- One summand is replaced. -/
theorem sum_map_set (f : A → Nat) (hx : l[i]? = some x) :
    ((l.set i y).map f).sum + f x = (l.map f).sum + f y := by
  induction l generalizing i with
  | nil => cases hx
  | cons a l ih =>
    cases i with
    | zero =>
      obtain rfl := Option.some.inj hx
      simp only [List.set_cons_zero, List.map_cons, List.sum_cons]
      omega
    | succ i =>
      have hrest := ih hx
      simp only [List.set_cons_succ, List.map_cons, List.sum_cons]
      omega

/-- One summand is taken out. -/
theorem sum_map_eraseIdx (f : A → Nat) (hx : l[i]? = some x) :
    ((l.eraseIdx i).map f).sum + f x = (l.map f).sum := by
  induction l generalizing i with
  | nil => cases hx
  | cons a l ih =>
    cases i with
    | zero =>
      obtain rfl := Option.some.inj hx
      simp only [List.eraseIdx_cons_zero, List.map_cons, List.sum_cons]
      omega
    | succ i =>
      have hrest := ih hx
      simp only [List.eraseIdx_cons_succ, List.map_cons, List.sum_cons]
      omega

end Sums

/-- The counters of the cpus are added. -/
theorem totStat_eq (gStat : List EventStatistic) :
    totStat gStat = ⟨(gStat.map (·.nEvts)).sum, (gStat.map (·.nDropEvts)).sum,
      (gStat.map (·.nDropEvtsUnsolved)).sum⟩ := by
  have hfold : ∀ tot : EventStatistic,
      gStat.foldl (fun tot stat => ⟨tot.nEvts + stat.nEvts, tot.nDropEvts + stat.nDropEvts,
        tot.nDropEvtsUnsolved + stat.nDropEvtsUnsolved⟩) tot =
      ⟨tot.nEvts + (gStat.map (·.nEvts)).sum, tot.nDropEvts + (gStat.map (·.nDropEvts)).sum,
        tot.nDropEvtsUnsolved + (gStat.map (·.nDropEvtsUnsolved)).sum⟩ := by
    induction gStat with
    | nil => exact fun _ => rfl
    | cons stat gStat ih =>
      intro tot
      rw [List.foldl_cons, ih]
      simp only [List.map_cons, List.sum_cons, Nat.add_assoc]
  rw [totStat, hfold]
  simp only [Nat.zero_add]

/-- One cpu's counters change. -/
theorem totStat_set {gStat : List EventStatistic} {cpu : Nat} {stat : EventStatistic}
    (h : gStat[cpu]? = some stat) (stat' : EventStatistic) :
    (totStat (gStat.set cpu stat')).nEvts + stat.nEvts = (totStat gStat).nEvts + stat'.nEvts ∧
      (totStat (gStat.set cpu stat')).nDropEvts + stat.nDropEvts =
        (totStat gStat).nDropEvts + stat'.nDropEvts ∧
      (totStat (gStat.set cpu stat')).nDropEvtsUnsolved + stat.nDropEvtsUnsolved =
        (totStat gStat).nDropEvtsUnsolved + stat'.nDropEvtsUnsolved := by
  rw [totStat_eq, totStat_eq]
  exact ⟨sum_map_set _ h, sum_map_set _ h, sum_map_set _ h⟩

theorem totStat_cleared (gStat : List EventStatistic) :
    totStat (ioctlClearStatistics gStat) = ⟨0, 0, 0⟩ := by
  have hzero : ∀ f : EventStatistic → Nat, f ⟨0, 0, 0⟩ = 0 →
      ((ioctlClearStatistics gStat).map f).sum = 0 := by
    intro f hf
    rw [ioctlClearStatistics, List.map_map]
    exact sum_map_eq_zero.mpr fun _ _ => hf
  rw [totStat_eq, hzero _ rfl, hzero _ rfl, hzero _ rfl]

/-! ## One recording -/

/-- An event is counted as it reaches the buffer. -/
theorem attempts_nEvts (ev : Event) (load : Int) (fuel : Nat) (force restart : Bool) (off : Nat)
    (b : NodBuffer) (st : EventStatistic) :
    (ev.attempts load fuel force restart off b st).stat.nEvts + b.info.nevents =
      st.nEvts + (ev.attempts load fuel force restart off b st).buf.info.nevents := by
  induction fuel generalizing force restart off b with
  | zero => rfl
  | succ n ih =>
    have hinfo : (ev.tryOnce restart off b).buf.info = b.info := rfl
    simp only [Event.attempts]
    split
    · rw [hinfo]
    · split
      · rw [← hinfo]
        exact ih ..
      · simp only [Event.conclude]
        split
        · split
          · split
            · simp only [NodBuffer.write_info, hinfo]
              omega
            · simp only [NodBuffer.write_info, hinfo]
          · rw [hinfo]
        · rw [hinfo]

/-- The end of a call is one of three. -/
theorem conclude_counted {ev : Event} {load : Int} {force : Bool} {t : Attempt} {code : Int}
    (hres : t.run.res = some code) (st : EventStatistic) :
    (ev.conclude load force t code st).stat.nDropEvts = st.nDropEvts + t.run.givesUp.toNat ∧
      (ev.conclude load force t code st).record.toList.length + t.run.givesUp.toNat +
        (t.run.misfills ev.nargs).toNat = 1 := by
  by_cases hok : code = nodSuccess
  · have hgives : t.run.givesUp = false := by simp [FillerRun.givesUp, hres, hok]
    by_cases hcur : t.run.args.curarg = ev.nargs
    · have hmis : t.run.misfills ev.nargs = false := by simp [FillerRun.misfills, hcur]
      simp only [Event.conclude, if_pos hok, if_pos hcur, hgives, hmis]
      split <;> exact ⟨rfl, rfl⟩
    · have hmis : t.run.misfills ev.nargs = true := by simp [FillerRun.misfills, hres, hok, hcur]
      simp only [Event.conclude, if_pos hok, if_neg hcur, hgives, hmis]
      exact ⟨rfl, rfl⟩
  · have hgives : t.run.givesUp = true := by simp [FillerRun.givesUp, hres, hok]
    have hmis : t.run.misfills ev.nargs = false := by simp [FillerRun.misfills, hres, hok]
    simp only [Event.conclude, if_neg hok, hgives, hmis]
    exact ⟨rfl, rfl⟩

/-- A filler that gives up is counted, and a call that returns ends in one of three ways. -/
theorem attempts_nDropEvts (ev : Event) (load : Int) (fuel : Nat) (force restart : Bool)
    (off : Nat) (b : NodBuffer) (st : EventStatistic)
    (hret : (ev.attempts load fuel force restart off b st).ret ≠ none) :
    (ev.attempts load fuel force restart off b st).stat.nDropEvts =
        st.nDropEvts + ((ev.lastRun fuel restart off b).any FillerRun.givesUp).toNat ∧
      (ev.attempts load fuel force restart off b st).record.toList.length +
        ((ev.lastRun fuel restart off b).any FillerRun.givesUp).toNat +
        ((ev.lastRun fuel restart off b).any fun run => run.misfills ev.nargs).toNat = 1 := by
  induction fuel generalizing force restart off b with
  | zero => exact absurd rfl hret
  | succ n ih =>
    simp only [Event.attempts] at hret ⊢
    split
    case h_1 hres =>
      rw [hres] at hret
      exact absurd rfl hret
    case h_2 code hres =>
      rw [hres] at hret
      dsimp only at hret
      by_cases hfull : code = nodFailureBufferFull
      · rw [if_pos hfull] at hret ⊢
        have hlast : ev.lastRun (n + 1) restart off b = ev.lastRun n true
            (ev.tryOnce restart off b).run.args.argDataOffset (ev.tryOnce restart off b).buf := by
          rw [Event.lastRun, if_pos (by rw [hres, hfull])]
        rw [hlast]
        exact ih _ _ _ _ hret
      · rw [if_neg hfull]
        have hlast : ev.lastRun (n + 1) restart off b = some (ev.tryOnce restart off b).run := by
          rw [Event.lastRun, if_neg (by rw [hres]; exact fun h => hfull (Option.some.inj h))]
        rw [hlast]
        exact conclude_counted hres st

section Recording

variable {fuel : Nat} {entryAddr : UInt64} {load : Int} {ev : Event} {b : NodBuffer}
  {st : EventStatistic}

/-- The event of the overflow page is counted as it is moved to the buffer. -/
theorem doRecordOneEvent_nEvts :
    (doRecordOneEvent fuel entryAddr load ev b st).stat.nEvts + b.info.nevents =
      st.nEvts + (doRecordOneEvent fuel entryAddr load ev b st).buf.info.nevents := by
  have h := attempts_nEvts ev load fuel (ev.force || entryAddr = 0) false (2 * ev.nargs) b.flush
    (if b.filled then { st with nEvts := st.nEvts + 1 } else st)
  simp only [doRecordOneEvent]
  cases hf : b.filled with
  | false =>
    simp only [NodBuffer.flush, hf, Bool.false_eq_true, if_false] at h ⊢
    exact h
  | true =>
    simp only [NodBuffer.flush, hf, if_true] at h ⊢
    omega

theorem doRecordOneEvent_nDropEvts
    (hret : (doRecordOneEvent fuel entryAddr load ev b st).ret ≠ none) :
    (doRecordOneEvent fuel entryAddr load ev b st).stat.nDropEvts =
        st.nDropEvts + (ev.refused fuel b).toNat ∧
      (doRecordOneEvent fuel entryAddr load ev b st).record.toList.length +
        (ev.refused fuel b).toNat + (ev.misfilled fuel b).toNat = 1 := by
  have h := attempts_nDropEvts ev load fuel (ev.force || entryAddr = 0) false (2 * ev.nargs) b.flush
    (if b.filled then { st with nEvts := st.nEvts + 1 } else st) hret
  have hst : (if b.filled then { st with nEvts := st.nEvts + 1 } else st).nDropEvts =
      st.nDropEvts := by
    split <;> rfl
  rw [hst] at h
  exact h

/-- The events of a buffer and its page. -/
theorem Holds.contents_length {q : Queue (List UInt8)} (h : Holds b q) :
    q.contents.length = b.info.nevents + b.filled.toNat := by
  rw [Queue.contents, List.length_append, h.nevents, h.filled]
  cases q.parked <;> rfl

/-- A safe recording puts the event it fills in into the buffer or into the page. -/
theorem record_waits (h : ∃ q, Holds b q) (hs : Safe ev b)
    (hret : (doRecordOneEvent fuel entryAddr load ev b st).ret ≠ none) :
    (∃ q, Holds (doRecordOneEvent fuel entryAddr load ev b st).buf q) ∧
      (doRecordOneEvent fuel entryAddr load ev b st).buf.info.nevents +
          (doRecordOneEvent fuel entryAddr load ev b st).buf.filled.toNat =
        b.info.nevents + b.filled.toNat +
          (doRecordOneEvent fuel entryAddr load ev b st).record.toList.length := by
  obtain ⟨q, hq⟩ := h
  obtain ⟨q', hq', hcontents, -⟩ := record_refines hq hs hret
  refine ⟨⟨q', hq'⟩, ?_⟩
  have hlen := congrArg List.length hcontents
  rw [List.length_append, hq'.contents_length, hq.contents_length] at hlen
  exact hlen

end Recording

/-! ## The books -/

/-- The books balance. -/
structure Balanced (s : StatSystem) : Prop where
  holds : ∀ b ∈ s.table, ∃ q, Holds b q
  counted : (totStat s.gStat).nEvts + parkedPages s.table + s.history.lostPages =
    s.history.recorded + s.history.parked₀
  placed : (totStat s.gStat).nEvts + s.history.unflushed₀ =
    s.history.handed + s.history.discarded + (totStat s.gStat).nDropEvtsUnsolved +
      unflushed s.table
  dropped : (totStat s.gStat).nDropEvts = s.history.refused
  ended : s.history.recorded + s.history.refused + s.history.misfilled = s.history.calls

section Steps

variable {s s' : StatSystem}

theorem balanced_start (cpus : Nat) : Balanced (.start cpus) := by
  have hzero : totStat (StatSystem.start cpus).gStat = ⟨0, 0, 0⟩ := by
    have h := totStat_cleared (List.replicate cpus ⟨0, 0, 0⟩)
    rw [ioctlClearStatistics, List.map_replicate] at h
    exact h
  refine ⟨fun b hb => absurd hb List.not_mem_nil, ?_, ?_, ?_, rfl⟩
  all_goals
    rw [hzero]
    rfl

/-- A thread comes. -/
theorem Balanced.enter (h : Balanced s) {i : Nat} {size : UInt64} {pages : Region → Image}
    (hs : statStep s (.enter i size pages) = some s') : Balanced s' := by
  simp only [statStep] at hs
  split at hs
  · rename_i hi
    obtain ⟨b, hb, rfl⟩ := Option.map_eq_some_iff.mp hs
    have hq := initBuffer_holds hb
    have hnevents : b.info.nevents = 0 := hq.nevents
    have hfilled : b.filled.toNat = 0 := by rw [hq.filled]; rfl
    have hsum : ∀ f : NodBuffer → Nat, f b = 0 →
        ((s.table.insertIdx i b).map f).sum = (s.table.map f).sum := by
      intro f hf
      rw [(List.perm_insertIdx b s.table hi).map f |>.sum_eq, List.map_cons, List.sum_cons, hf,
        Nat.zero_add]
    refine ⟨fun x hx => ?_, ?_, ?_, h.dropped, h.ended⟩
    · rcases (List.mem_insertIdx hi).mp hx with rfl | hx
      · exact ⟨_, hq⟩
      · exact h.holds x hx
    · rw [parkedPages, hsum _ hfilled]
      exact h.counted
    · rw [unflushed, hsum _ hnevents]
      exact h.placed
  · cases hs

/-- A safe recording. -/
theorem Balanced.record (h : Balanced s) {i cpu fuel : Nat} {entryAddr : UInt64} {load : Int}
    {ev : Event} (hc : SafeStat s (.record i cpu fuel entryAddr load ev))
    (hs : statStep s (.record i cpu fuel entryAddr load ev) = some s') : Balanced s' := by
  obtain ⟨b, hb, hs⟩ := Option.bind_eq_some_iff.mp hs
  obtain ⟨stat, hstat, hs⟩ := Option.bind_eq_some_iff.mp hs
  obtain ⟨ret, hret, rfl⟩ := Option.map_eq_some_iff.mp hs
  have hret' : (doRecordOneEvent fuel entryAddr load ev b stat).ret ≠ none := by
    rw [hret]
    exact Option.some_ne_none ret
  obtain ⟨hholds, hwaits⟩ := record_waits (h.holds b (List.mem_of_getElem? hb)) (hc b hb) hret'
  have hevts := @doRecordOneEvent_nEvts fuel entryAddr load ev b stat
  obtain ⟨hdrops, hends⟩ := doRecordOneEvent_nDropEvts hret'
  have hunsolved := doRecordOneEvent_unsolved fuel entryAddr load ev b stat
  generalize doRecordOneEvent fuel entryAddr load ev b stat = r at *
  obtain ⟨htot, hdrop, hlost⟩ := totStat_set hstat r.stat
  have hparked := sum_map_set (y := r.buf) (fun b : NodBuffer => b.filled.toNat) hb
  have hunflushed := sum_map_set (y := r.buf) (fun b : NodBuffer => b.info.nevents) hb
  have hcounted := h.counted
  have hplaced := h.placed
  have hdropped := h.dropped
  have hended := h.ended
  simp only [parkedPages, unflushed] at hcounted hplaced
  refine ⟨fun x hx => ?_, ?_, ?_, ?_, ?_⟩
  · rcases List.mem_or_eq_of_mem_set hx with hx | rfl
    · exact h.holds x hx
    · exact hholds
  · simp only [parkedPages]
    omega
  · simp only [unflushed]
    omega
  · dsimp only
    omega
  · dsimp only
    omega

/-- The monitor is handed what is in the buffer. -/
theorem Balanced.drain (h : Balanced s) {i fuel : Nat}
    (hs : statStep s (.drain i fuel) = some s') : Balanced s' := by
  obtain ⟨b, hb, hs⟩ := Option.bind_eq_some_iff.mp hs
  obtain ⟨⟨evts, b'⟩, hm, rfl⟩ := Option.map_eq_some_iff.mp hs
  obtain ⟨q, hq⟩ := h.holds b (List.mem_of_getElem? hb)
  obtain ⟨rfl, hq'⟩ := nodMonitorMain_holds hq hm
  have hnevents : b'.info.nevents = 0 := hq'.nevents
  have hhanded := hq.nevents
  have hfilled : b'.filled = b.filled := hq'.filled.trans hq.filled.symm
  have hparked := sum_map_set (y := b') (fun b : NodBuffer => b.filled.toNat) hb
  have hunflushed := sum_map_set (y := b') (fun b : NodBuffer => b.info.nevents) hb
  have hcounted := h.counted
  have hplaced := h.placed
  simp only [parkedPages, unflushed] at hcounted hplaced
  refine ⟨fun x hx => ?_, ?_, ?_, h.dropped, h.ended⟩
  · rcases List.mem_or_eq_of_mem_set hx with hx | rfl
    · exact h.holds x hx
    · exact ⟨_, hq'⟩
  · simp only [parkedPages]
    rw [hfilled] at hparked
    omega
  · simp only [unflushed]
    omega

/-- The thread ends: what is in its buffer is counted, and its page is lost. -/
theorem Balanced.release (h : Balanced s) {i cpu : Nat}
    (hs : statStep s (.release i cpu) = some s') : Balanced s' := by
  obtain ⟨b, hb, hs⟩ := Option.bind_eq_some_iff.mp hs
  obtain ⟨stat, hstat, hs⟩ := Option.bind_eq_some_iff.mp hs
  obtain rfl := Option.some.inj hs
  obtain ⟨htot, hdrop, hlost⟩ := totStat_set hstat
    { stat with nDropEvtsUnsolved := stat.nDropEvtsUnsolved + b.info.nevents }
  have hparked := sum_map_eraseIdx (fun b : NodBuffer => b.filled.toNat) hb
  have hunflushed := sum_map_eraseIdx (fun b : NodBuffer => b.info.nevents) hb
  have hcounted := h.counted
  have hplaced := h.placed
  have hdropped := h.dropped
  simp only [parkedPages, unflushed] at hcounted hplaced
  dsimp only at htot hdrop hlost
  refine ⟨fun x hx => h.holds x (List.mem_of_mem_eraseIdx hx), ?_, ?_, ?_, h.ended⟩
  · simp only [parkedPages]
    omega
  · simp only [unflushed]
    omega
  · dsimp only
    omega

/-- The buffers are thrown away. -/
theorem Balanced.clearBuffer (h : Balanced s) (hs : statStep s .clearBuffer = some s') :
    Balanced s' := by
  obtain rfl := Option.some.inj hs
  have hparked : parkedPages (ioctlClearBuffer s.table) = 0 := by
    rw [parkedPages, ioctlClearBuffer, List.map_map]
    exact sum_map_eq_zero.mpr fun _ _ => rfl
  have hunflushed : unflushed (ioctlClearBuffer s.table) = 0 := by
    rw [unflushed, ioctlClearBuffer, List.map_map]
    exact sum_map_eq_zero.mpr fun _ _ => rfl
  have hcounted := h.counted
  have hplaced := h.placed
  refine ⟨fun x hx => ?_, ?_, ?_, h.dropped, h.ended⟩
  · obtain ⟨b, hb, rfl⟩ := List.mem_map.mp hx
    obtain ⟨q, hq⟩ := h.holds b hb
    exact ⟨_, resetBuffer_holds hq ⟨true, true⟩⟩
  · dsimp only
    omega
  · dsimp only
    omega

theorem Balanced.clearStatistics (h : Balanced s) (hs : statStep s .clearStatistics = some s') :
    Balanced s' := by
  obtain rfl := Option.some.inj hs
  have hzero := totStat_cleared s.gStat
  refine ⟨h.holds, ?_, ?_, congrArg EventStatistic.nDropEvts hzero, rfl⟩
  all_goals
    dsimp only [StatHistory.start]
    rw [hzero]
    simp

theorem Balanced.step {a : StatAct} (h : Balanced s) (hc : SafeStat s a)
    (hs : stepOf statStep s a s') : Balanced s' := by
  cases a with
  | enter i size pages => exact h.enter hs
  | record i cpu fuel entryAddr load ev => exact h.record hc hs
  | drain i fuel => exact h.drain hs
  | release i cpu => exact h.release hs
  | clearBuffer => exact h.clearBuffer hs
  | clearStatistics => exact h.clearStatistics hs

end Steps

/-- The words of the structure that is copied out. -/
theorem readStatistics_words {gStat : List EventStatistic} {arg : UInt64} {off : Nat}
    {u : UserSpace} (h : (ioctlReadStatistics gStat arg off u).ret = 0) :
    let mem := (ioctlReadStatistics gStat arg off u).user.mem
    mem.word arg.toNat = (totStat gStat).nEvts % 2 ^ 64 ∧
      mem.word (arg.toNat + 8) = (totStat gStat).nDropEvts % 2 ^ 64 ∧
      mem.word (arg.toNat + 16) = (totStat gStat).nDropEvtsUnsolved % 2 ^ 64 := by
  have hcopy : (u.copyToUser arg.toNat (totStat gStat).bytes).2 = 0 := by
    by_contra hne
    simp only [ioctlReadStatistics, ne_eq, hne, not_false_eq_true, if_true] at h
    exact absurd h (by decide)
  have hmem : (ioctlReadStatistics gStat arg off u).user.mem =
      u.mem.write ⟨arg.toNat, (totStat gStat).bytes⟩ := by
    simp only [ioctlReadStatistics, UserSpace.stored, (UserSpace.copyToUser_done hcopy).1]
  generalize totStat gStat = tot at hmem
  obtain ⟨n, k, l⟩ := tot
  simp only [EventStatistic.bytes] at hmem
  have hn := Image.read_write_part u.mem arg.toNat [] (leBytes 8 n) (leBytes 8 k ++ leBytes 8 l)
  have hk := Image.read_write_part u.mem arg.toNat (leBytes 8 n) (leBytes 8 k) (leBytes 8 l)
  have hl := Image.read_write_part u.mem arg.toNat (leBytes 8 n ++ leBytes 8 k) (leBytes 8 l) []
  simp only [List.nil_append, List.append_nil, List.length_append, List.append_assoc,
    leBytes_length, List.length_nil, Nat.add_zero] at hn hk hl
  dsimp only
  rw [hmem, Image.word, Image.word, Image.word, hn, hk, hl, leNat_leBytes, leNat_leBytes,
    leNat_leBytes]
  exact ⟨rfl, rfl, rfl⟩

/-- **The books balance.**  In every run whose recordings are safe, on any number of cpus: of the
events that were filled in, the first counter has counted all that do not wait in an overflow
page or were lost there; of those it has counted, each was handed to a monitor, thrown away, counted
as unsolved, or is reported as unflushed; the second counter is the number of calls whose filler has
given up, and every other call has filled in an event or had a filler that does not fit its type.
Whoever asks for the counters gets these. -/
theorem statistics_balance {cpus : Nat} {tr : List (StatSystem × StatAct)} {s : StatSystem}
    (hrun : Run (stepOf statStep) (.start cpus) tr s) (hc : Meets SafeStat tr) :
    (totStat s.gStat).nEvts + parkedPages s.table + s.history.lostPages =
        s.history.recorded + s.history.parked₀ ∧
      (totStat s.gStat).nEvts + s.history.unflushed₀ =
        s.history.handed + s.history.discarded + (totStat s.gStat).nDropEvtsUnsolved +
          (bufferCountInfo s.table).unflushedCount ∧
      (totStat s.gStat).nDropEvts = s.history.refused ∧
      s.history.recorded + s.history.refused + s.history.misfilled = s.history.calls ∧
      ∀ arg off u, (ioctlReadStatistics s.gStat arg off u).ret = 0 →
        let mem := (ioctlReadStatistics s.gStat arg off u).user.mem
        mem.word arg.toNat = (totStat s.gStat).nEvts % 2 ^ 64 ∧
          mem.word (arg.toNat + 8) = (totStat s.gStat).nDropEvts % 2 ^ 64 ∧
          mem.word (arg.toNat + 16) = (totStat s.gStat).nDropEvtsUnsolved % 2 ^ 64 := by
  have h := hrun.invariant (fun h hc hs => h.step hc hs) (balanced_start cpus) hc
  refine ⟨h.counted, ?_, h.dropped, h.ended, fun _ _ _ => readStatistics_words⟩
  rw [bufferCountInfo_eq]
  exact h.placed

instance : ∀ (s : StatSystem) (a : StatAct), Decidable (SafeStat s a)
  | s, .record i _ _ _ _ ev =>
      match h : s.table[i]? with
      | none => .isTrue fun b hb => by rw [h] at hb; cases hb
      | some b => decidable_of_iff (Safe ev b)
          ⟨fun hs x hx => by rw [h] at hx; exact Option.some.inj hx ▸ hs, fun hs => hs b h⟩
  | _, .enter .. => inferInstanceAs (Decidable True)
  | _, .drain .. => inferInstanceAs (Decidable True)
  | _, .release .. => inferInstanceAs (Decidable True)
  | _, .clearBuffer => inferInstanceAs (Decidable True)
  | _, .clearStatistics => inferInstanceAs (Decidable True)

/-- `getresuid` with pointers to nothing. -/
def blindGetresuid : Event :=
  Syscall.traced Kernel.idle { Syscall.idle with nr := 118 } 0 1 0 false

/-- On the second of two cpus a thread records a `close`, and a `getresuid` that is refused; its
buffer is drained, and it records another `close` before it ends on the first. -/
theorem statistics_balance_close : ∃ tr s, Run (stepOf statStep) (.start 2) tr s ∧
    (s.history.recorded = 2 ∧ s.history.handed = 1 ∧ s.history.calls = 3) ∧
    (totStat s.gStat).nEvts = 2 ∧ (totStat s.gStat).nDropEvts = 1 ∧
    (totStat s.gStat).nDropEvtsUnsolved = 1 := by
  have hexec : (execMeeting SafeStat statStep (.start 2)
      [.enter 0 4096 fun _ _ => 0, .record 0 1 1 0 (-1) closeEvent,
        .record 0 1 1 0 (-1) blindGetresuid, .drain 0 2, .record 0 1 1 0 (-1) closeEvent,
        .release 0 0]).map (fun s => ((s.history.recorded, s.history.handed, s.history.calls),
          s.history.refused, (totStat s.gStat).nDropEvtsUnsolved, parkedPages s.table,
          s.history.lostPages, s.history.parked₀)) = some ((2, 1, 3), 1, 1, 0, 0, 0) := by
    decide +kernel
  obtain ⟨s, hs, hend⟩ := Option.map_eq_some_iff.mp hexec
  obtain ⟨tr, -, hrun, hmeets⟩ := exists_run_of_execMeeting hs
  obtain ⟨hcounted, -, hdropped, -, -⟩ := statistics_balance hrun hmeets
  obtain ⟨hhist, hend⟩ := Prod.mk.inj hend
  obtain ⟨hrefused, hend⟩ := Prod.mk.inj hend
  obtain ⟨hunsolved, hend⟩ := Prod.mk.inj hend
  obtain ⟨hpages, hend⟩ := Prod.mk.inj hend
  obtain ⟨hlost, hparked⟩ := Prod.mk.inj hend
  obtain ⟨hrec, hhist⟩ := Prod.mk.inj hhist
  obtain ⟨hhanded, hcalls⟩ := Prod.mk.inj hhist
  rw [hpages, hlost, hparked, hrec] at hcounted
  exact ⟨tr, s, hrun, ⟨hrec, hhanded, hcalls⟩, hcounted, hdropped.trans hrefused, hunsolved⟩

end NoDrop
