import NoDrop.Delivery
import NoDrop.RecordWriter

/-! # From the system call to the record

The monitor's half of a thread's life, with its files: in every activation `nod_monitor_main`
opens the record, writes every record of the buffer to it as `hdr->len` bytes, and closes it.
A record is appended to over all activations of the process, and read later by the same lengths.

While every activation opens the record of one kind, that record is what the monitor was handed
(`record_complete`): reading it gives these events back, in order and once each, and the events of
the thread are these and the ones that wait in the buffer.
-/
namespace NoDrop

open Bytes Runs

/-! ## Files -/

/-- The records of a process: by which handle each is open, and what is in it. -/
structure RecordFiles where
  openBy : RecordKind → Option Nat
  content : RecordKind → List UInt8

namespace RecordFiles

/-- `fopen` or `gzopen` with `"ab"`, `fwrite` or `gzwrite`, and `fclose` or `gzclose`.  There is no
outcome for a handle that is not open. -/
def apply (fs : RecordFiles) : RecordOp (List UInt8) → Option RecordFiles
  | .opened k h => some { fs with openBy := Function.update fs.openBy k (some h) }
  | .write k h evt =>
      if h ≠ none ∧ fs.openBy k = h then
        some { fs with content := Function.update fs.content k (fs.content k ++ evt) }
      else none
  | .close k h =>
      if h ≠ none ∧ fs.openBy k = h then
        some { fs with openBy := Function.update fs.openBy k none }
      else none

/-- One operation after the other. -/
def applyAll (fs : RecordFiles) (ops : List (RecordOp (List UInt8))) : Option RecordFiles :=
  ops.foldlM apply fs

/-- Nothing has been recorded. -/
def empty : RecordFiles := ⟨fun _ => none, fun _ => []⟩

variable {fs : RecordFiles} {k : RecordKind} {h : Nat}

theorem applyAll_cons (fs : RecordFiles) (op : RecordOp (List UInt8))
    (ops : List (RecordOp (List UInt8))) :
    fs.applyAll (op :: ops) = (fs.apply op).bind fun fs' => fs'.applyAll ops := rfl

/-- Events written to the open record are appended to it. -/
theorem applyAll_writes (hopen : fs.openBy k = some h) (evts : List (List UInt8))
    (rest : List (RecordOp (List UInt8))) :
    fs.applyAll (evts.map (.write k (some h)) ++ rest) =
      applyAll { fs with content := Function.update fs.content k (fs.content k ++ evts.flatten) }
        rest := by
  induction evts generalizing fs with
  | nil =>
    rw [List.flatten_nil, List.append_nil, Function.update_eq_self]
    rfl
  | cons evt evts ih =>
    have hrest := @ih ⟨fs.openBy, Function.update fs.content k (fs.content k ++ evt)⟩ hopen
    rw [List.map_cons, List.cons_append, applyAll_cons, apply,
      if_pos ⟨Option.some_ne_none h, hopen⟩, Option.bind_some, hrest, List.flatten_cons]
    simp only [Function.update_self, Function.update_idem, List.append_assoc]

/-- **Opening the record, writing some events and closing it.** -/
theorem applyAll_session (hclosed : ∀ l, fs.openBy l = none) (evts : List (List UInt8)) :
    fs.applyAll (.opened k h :: (evts.map (.write k (some h)) ++ [.close k (some h)])) =
      some { fs with content := Function.update fs.content k (fs.content k ++ evts.flatten) } := by
  have hopen : (Function.update fs.openBy k (some h)) k = some h := Function.update_self ..
  rw [applyAll_cons, apply, Option.bind_some, applyAll_writes hopen, applyAll_cons, apply,
    if_pos ⟨Option.some_ne_none h, hopen⟩, Option.bind_some, Function.update_idem, ← hclosed k,
    Function.update_eq_self]
  rfl

end RecordFiles

/-! ## The thread and its monitor -/

/-- A thread with its monitor's writer: `rw`, the number of activations so far, and the files;
there are none any more once a handle was used that is not open. -/
structure Recorder where
  thread : Thread
  rw : RecordWriter
  now : Nat
  files : Option RecordFiles

/-- What happens: an activation of the monitor, with the record flag it finds and whether the
record can be opened, or anything else the thread does. -/
inductive RecorderAct where
  | activate (fuel : Nat) (flag : Int32) (opens : Bool)
  | other (act : ThreadAct)

/-- A new thread, in a process whose monitor is loaded afresh. -/
def Recorder.start (b : NodBuffer) : Recorder := ⟨.start b, .init, 0, some .empty⟩

def recorderStep (r : Recorder) : RecorderAct → Option Recorder
  | .activate fuel flag opens => do
      let fs ← r.files
      let t ← threadStep r.thread (.drain fuel)
      let (evts, _) ← nodMonitorMain fuel r.thread.buf
      let (rw, ops) := recordEvents r.now r.rw ⟨flag, evts, opens⟩
      some ⟨t, rw, r.now + 1, fs.applyAll ops⟩
  | .other (.drain _) => none
  | .other act => do
      let _ ← r.files
      (threadStep r.thread act).map fun t => { r with thread := t }

/-- The condition on a step: the monitor opens the record of this kind, and recordings keep their
events. -/
def RecordsInto (k : RecordKind) (r : Recorder) : RecorderAct → Prop
  | .activate _ flag opens => flag = k.mode ∧ opens = true
  | .other act => KeepsEvents r.thread act

/-- Reading a record: from length to length. -/
def readRecord (content : List UInt8) : Option (List (List UInt8)) :=
  monitorLoop (fun i => content.getD i 0) content.length content.length 0

/-- **Framed records are read back.** -/
theorem readRecord_flatten {recs : List (List UInt8)} (h : ∀ r ∈ recs, Framed r) :
    readRecord recs.flatten = some recs := by
  have hread : Image.read (fun i => recs.flatten.getD i 0) 0 recs.flatten.length =
      recs.flatten := by
    rw [Image.read_getD (Nat.zero_add _).le, List.drop_zero, List.take_length]
  have hfuel : recs.length ≤ recs.flatten.length := by
    clear hread
    induction recs with
    | nil => exact Nat.le_refl 0
    | cons r recs ih =>
      have hr := (h r List.mem_cons_self).hdr
      have hrest := ih fun s hs => h s (List.mem_cons_of_mem r hs)
      rw [List.flatten_cons, List.length_cons, List.length_append]
      simp only [hdrSize] at hr
      omega
  have hloop := monitorLoop_framed h hread hfuel
  rw [Nat.zero_add] at hloop
  exact hloop

/-! ## The invariant -/

/-- The record of kind `k` is what was delivered. -/
structure Archived (k : RecordKind) (r : Recorder) : Prop where
  flowing : Flowing r.thread
  framed : ∀ evt ∈ r.thread.delivered, Framed evt
  mode : r.rw.mode = -1 ∨ r.rw.mode = k.mode
  files : ∃ fs, r.files = some fs ∧ (∀ l, fs.openBy l = none) ∧
    fs.content k = r.thread.delivered.flatten

variable {k : RecordKind} {r r' : Recorder}

/-- What an activation does with files when it opens the record. -/
theorem recordEvents_opens {rw : RecordWriter} (hmode : rw.mode = -1 ∨ rw.mode = k.mode)
    (evts : List (List UInt8)) (now : Nat) : ∃ rw', rw'.mode = k.mode ∧
      recordEvents now rw ⟨k.mode, evts, true⟩ =
        (rw', .opened k now :: (evts.map (.write k (some now)) ++ [.close k (some now)])) := by
  obtain ⟨rw', ops, hnew, hlatch, ⟨l, hl, -, hhandle, -, rfl⟩ | ⟨hno, -, -⟩⟩ :=
    newRecordWriter_cases (List UInt8) now true rw k.mode
  · obtain rfl := RecordKind.mode_inj hl
    have hmode' : rw'.mode = k.mode := by
      rw [hlatch, latch]
      rcases hmode with h | h
      · rw [if_pos h]
      · rw [h, ite_self]
    refine ⟨rw', hmode', ?_⟩
    unfold recordEvents
    rw [hnew]
    dsimp only
    rw [funext (writeRecordWriter_of_mode hmode'), closeRecordWriter_of_mode hmode', hhandle,
      List.map_eq_flatMap]
    rfl
  · exact absurd ⟨rfl, rfl⟩ (hno k)

/-- The monitor's loop on a thread. -/
theorem threadStep_drain {t t' : Thread} {fuel : Nat} (hs : threadStep t (.drain fuel) = some t') :
    ∃ evts b, nodMonitorMain fuel t.buf = some (evts, b) ∧ t.phase ≠ .released ∧
      t'.delivered = t.delivered ++ evts := by
  simp only [threadStep] at hs
  split at hs
  · rename_i exiting hp
    obtain ⟨⟨evts, b⟩, hm, rfl⟩ := Option.map_eq_some_iff.mp hs
    exact ⟨evts, b, hm, by rw [hp]; exact Phase.noConfusion, rfl⟩
  · cases hs

/-- A recording hands over nothing. -/
theorem record_delivered {t t' : Thread} {fuel : Nat} {ev : Event} {load : LoadOutcome}
    {leaving : Bool} (h : t.record fuel ev load leaving = some t') :
    t'.delivered = t.delivered := by
  obtain ⟨ret, -, rfl⟩ := Option.map_eq_some_iff.mp h
  rfl

/-- Only the monitor's loop hands something over. -/
theorem threadStep_delivered {t t' : Thread} {act : ThreadAct} (hact : ∀ fuel, act ≠ .drain fuel)
    (hs : threadStep t act = some t') : t'.delivered = t.delivered := by
  cases act with
  | drain fuel => exact absurd rfl (hact fuel)
  | syscall _ _ _ | exit _ _ _ =>
    simp only [threadStep] at hs
    split at hs
    · exact record_delivered hs
    · cases hs
  | release =>
    simp only [threadStep] at hs
    split at hs
    · cases hs
      rfl
    · cases hs

/-- What an activation does. -/
theorem recorderStep_activate {fuel : Nat} {flag : Int32} {opens : Bool}
    (hs : recorderStep r (.activate fuel flag opens) = some r') :
    ∃ fs evts b, r.files = some fs ∧ threadStep r.thread (.drain fuel) = some r'.thread ∧
      nodMonitorMain fuel r.thread.buf = some (evts, b) ∧
      r'.rw = (recordEvents r.now r.rw ⟨flag, evts, opens⟩).1 ∧
      r'.files = fs.applyAll (recordEvents r.now r.rw ⟨flag, evts, opens⟩).2 := by
  obtain ⟨fs, hfs, hs⟩ := Option.bind_eq_some_iff.mp hs
  obtain ⟨t, ht, hs⟩ := Option.bind_eq_some_iff.mp hs
  obtain ⟨⟨evts, b⟩, hm, hs⟩ := Option.bind_eq_some_iff.mp hs
  obtain rfl := Option.some.inj hs
  exact ⟨fs, evts, b, hfs, ht, hm, rfl, rfl⟩

/-- Anything else is a step of the thread, and hands over nothing. -/
theorem recorderStep_other {act : ThreadAct} (hs : recorderStep r (.other act) = some r') :
    threadStep r.thread act = some r'.thread ∧ r'.thread.delivered = r.thread.delivered ∧
      r'.rw = r.rw ∧ r'.files = r.files := by
  have hnotDrain : ∀ fuel, act ≠ .drain fuel := by
    rintro fuel rfl
    cases hs
  obtain ⟨t, ht, rfl⟩ : ∃ t, threadStep r.thread act = some t ∧ r' = { r with thread := t } := by
    cases act with
    | drain fuel => exact absurd rfl (hnotDrain fuel)
    | syscall _ _ _ | exit _ _ _ | release =>
      obtain ⟨fs, -, hs⟩ := Option.bind_eq_some_iff.mp hs
      obtain ⟨t, ht, rfl⟩ := Option.map_eq_some_iff.mp hs
      exact ⟨t, ht, rfl⟩
  exact ⟨ht, threadStep_delivered hnotDrain ht, rfl, rfl⟩

/-- **An activation appends what was handed over to the record.** -/
theorem Archived.activate (A : Archived k r) {fuel : Nat} {flag : Int32} {opens : Bool}
    (hc : RecordsInto k r (.activate fuel flag opens))
    (hs : recorderStep r (.activate fuel flag opens) = some r') : Archived k r' := by
  obtain ⟨rfl, rfl⟩ := hc
  obtain ⟨fs, hfs, hclosed, hcontent⟩ := A.files
  obtain ⟨fs', evts, b, hfs', hdrain, hm, hrw, hfiles⟩ := recorderStep_activate hs
  obtain rfl := Option.some.inj (hfs.symm.trans hfs')
  obtain ⟨evts', b', hm', hphase, hdelivered⟩ := threadStep_drain hdrain
  obtain ⟨rfl, rfl⟩ := Prod.mk.inj (Option.some.inj (hm.symm.trans hm'))
  obtain ⟨q, hq, -, -⟩ := A.flowing.flow hphase
  obtain ⟨rfl, -⟩ := nodMonitorMain_holds hq hm
  obtain ⟨rw', hmode, hops⟩ := recordEvents_opens A.mode q.main r.now
  rw [hops] at hrw hfiles
  rw [RecordFiles.applyAll_session hclosed] at hfiles
  refine ⟨A.flowing.step (a := .drain fuel) trivial hdrain, fun evt hevt => ?_,
    .inr (by rw [hrw]; exact hmode), _, hfiles, hclosed, ?_⟩
  · rw [hdelivered, List.mem_append] at hevt
    rcases hevt with hevt | hevt
    · exact A.framed evt hevt
    · exact hq.framed evt (List.mem_append_left _ hevt)
  · rw [hdelivered, List.flatten_append, ← hcontent]
    exact Function.update_self ..

/-- Anything else leaves the files and what was delivered. -/
theorem Archived.other (A : Archived k r) {act : ThreadAct}
    (hc : RecordsInto k r (.other act)) (hs : recorderStep r (.other act) = some r') :
    Archived k r' := by
  obtain ⟨hstep, hdelivered, hrw, hfiles⟩ := recorderStep_other hs
  refine ⟨A.flowing.step hc hstep, ?_, ?_, ?_⟩
  · rw [hdelivered]
    exact A.framed
  · rw [hrw]
    exact A.mode
  · rw [hfiles, hdelivered]
    exact A.files

theorem Archived.step {act : RecorderAct} (A : Archived k r) (hc : RecordsInto k r act)
    (hs : stepOf recorderStep r act r') : Archived k r' := by
  cases act with
  | activate fuel flag opens => exact A.activate hc hs
  | other act => exact A.other hc hs

/-- **The record is complete.**  In every run of a thread in which the monitor always opens the
record of one kind, that record can be read, and gives what was handed to the monitor: every event
that was recorded and does not wait in the buffer, in order and once each. -/
theorem record_complete {size : UInt64} {pages : Region → Image} {b₀ : NodBuffer}
    {tr : List (Recorder × RecorderAct)} (hinit : NodBuffer.initBuffer size pages = some b₀)
    (hrun : Run (stepOf recorderStep) (Recorder.start b₀) tr r)
    (hc : Meets (RecordsInto k) tr) : ∃ fs waiting, r.files = some fs ∧
      readRecord (fs.content k) = some r.thread.delivered ∧
      r.thread.recorded = r.thread.delivered ++ waiting ∧
      (r.thread.phase = .released → waiting.length = r.thread.stat.nDropEvtsUnsolved) := by
  have hflow : Flowing (Thread.start b₀) := by
    refine ⟨fun _ => ⟨_, initBuffer_holds hinit, rfl, fun _ => rfl⟩, fun _ => rfl, ?_⟩
    intro hr
    cases hr
  have h₀ : Archived k (Recorder.start b₀) :=
    ⟨hflow, fun evt h => absurd h List.not_mem_nil, .inl rfl, _, rfl, fun _ => rfl, rfl⟩
  have A := hrun.invariant (fun h hc hs => h.step hc hs) h₀ hc
  obtain ⟨fs, hfs, -, hcontent⟩ := A.files
  have hread : readRecord (fs.content k) = some r.thread.delivered := by
    rw [hcontent]
    exact readRecord_flatten A.framed
  by_cases hp : r.thread.phase = .released
  · obtain ⟨lost, hlost, hlen⟩ := A.flowing.accounted hp
    exact ⟨fs, lost, hfs, hread, hlost, fun _ => hlen⟩
  · obtain ⟨q, -, hq, -⟩ := A.flowing.flow hp
    exact ⟨fs, q.contents, hfs, hread, hq, fun h => absurd h hp⟩

/-- When there is an activation. -/
theorem recorderStep_activates {fs : RecordFiles} {t : Thread} {evts : List (List UInt8)}
    {b : NodBuffer} {fuel : Nat} (hfs : r.files = some fs)
    (hdrain : threadStep r.thread (.drain fuel) = some t)
    (hm : nodMonitorMain fuel r.thread.buf = some (evts, b)) (flag : Int32) (opens : Bool) :
    recorderStep r (.activate fuel flag opens) =
      some ⟨t, (recordEvents r.now r.rw ⟨flag, evts, opens⟩).1, r.now + 1,
        fs.applyAll (recordEvents r.now r.rw ⟨flag, evts, opens⟩).2⟩ := by
  simp only [recorderStep, hfs, hdrain, hm]
  rfl

/-- A monitor that can be loaded. -/
def loaded : LoadOutcome := ⟨nodSuccessLoad, 4096⟩

/-- A recording after which the thread is in the monitor. -/
theorem record_of_loaded {t : Thread} {fuel : Nat} {ev : Event} (leaving : Bool)
    (hforced : (doRecordOneEvent fuel t.entryAddr loaded.ret ev t.buf t.stat).forced = true)
    (hret : (doRecordOneEvent fuel t.entryAddr loaded.ret ev t.buf t.stat).ret =
      some loaded.ret) :
    ∃ t', t.record fuel ev loaded leaving = some t' ∧
      t'.buf = (doRecordOneEvent fuel t.entryAddr loaded.ret ev t.buf t.stat).buf ∧
      t'.phase = .monitor leaving :=
  ⟨_, Option.map_eq_some_iff.mpr ⟨_, hret, rfl⟩, rfl, if_pos ⟨hforced, rfl⟩⟩

/-- A thread that exits at once is in the monitor, with the event of its exit in the buffer. -/
theorem exit_loads : ∃ t evt,
    threadStep (.start smallBuffer) (.exit 1 exitEvent loaded) = some t ∧
      t.phase = .monitor true ∧ Holds t.buf ⟨[evt], none⟩ := by
  have hs : exitEvent.Succeeds
      (exitEvent.attempt smallBuffer.atTail.size (2 * exitEvent.nargs)) := by
    decide
  obtain ⟨hsafe, -, -⟩ := safe_of_fits rfl (by decide) (by decide) hs
  have hfit := record_fits 0 (Thread.start smallBuffer).entryAddr loaded.ret
    (Thread.start smallBuffer).stat rfl (by decide) hs
  obtain ⟨hforced, hret⟩ := record_fits_forced 0 loaded.ret (Thread.start smallBuffer).stat rfl
    (by decide) hs (.inl rfl)
  obtain ⟨t, hrec, hbuf, hphase⟩ := record_of_loaded (t := .start smallBuffer) true
    hforced hret
  obtain ⟨evt, hevt⟩ := Option.isSome_iff_exists.mp hfit.record
  obtain ⟨⟨main, parked⟩, hq, hcontents, -⟩ :=
    record_refines (initBuffer_holds initBuffer_small) hsafe (hret.trans_ne (Option.some_ne_none _))
  -- the page is empty, and so the event is in the buffer
  obtain rfl : parked = none :=
    Option.not_isSome_iff_eq_none.mp (Bool.eq_false_iff.mp (hq.filled.symm.trans hfit.filled))
  obtain rfl : main = [evt] := by
    rw [hevt] at hcontents
    simpa [Queue.contents] using hcontents
  refine ⟨t, evt, ?_, hphase, hbuf ▸ hq⟩
  rw [threadStep, if_pos ⟨rfl, rfl⟩]
  exact hrec

/-- A thread that exits at once, into a monitor that can be loaded: the event of its exit is in
the record. -/
theorem record_complete_exit : ∃ tr r fs waiting evt,
    Run (stepOf recorderStep) (Recorder.start smallBuffer) tr r ∧ r.files = some fs ∧
      readRecord (fs.content .gzfile) = some [evt] ∧ r.thread.recorded = [evt] ++ waiting := by
  obtain ⟨t, evt, hexit, hphase, hbuf⟩ := exit_loads
  obtain ⟨⟨evts, b⟩, hm⟩ := nodMonitorMain_returns hbuf
  obtain ⟨rfl, -⟩ := nodMonitorMain_holds hbuf hm
  have hdrain : threadStep t (.drain 1) = some { t with
      buf := b, phase := .exiting, delivered := t.delivered ++ [evt] } := by
    simp only [threadStep, hphase]
    exact Option.map_eq_some_iff.mpr ⟨_, hm, rfl⟩
  -- the exit, and the monitor
  have h₁ : recorderStep (.start smallBuffer) (.other (.exit 1 exitEvent loaded)) =
      some { Recorder.start smallBuffer with thread := t } := by
    simp only [recorderStep, Recorder.start, hexit]
    rfl
  have h₂ := recorderStep_activates (r := { Recorder.start smallBuffer with thread := t }) rfl
    hdrain hm RecordKind.gzfile.mode true
  have hrun := (Run.snoc (Run.nil : Run (stepOf recorderStep) _ _ _) h₁).snoc h₂
  have hsafe : Safe exitEvent smallBuffer ∧ CleanRestart exitEvent smallBuffer ∧
      NotParked exitEvent smallBuffer :=
    safe_of_fits rfl (by decide) (by decide) (by decide)
  obtain ⟨fs, waiting, hfs, hread, hrec, -⟩ := record_complete initBuffer_small hrun
    (meets_snoc.mpr ⟨meets_snoc.mpr ⟨meets_nil, hsafe.1, hsafe.2.2⟩, rfl, rfl⟩)
  have hnone : t.delivered = [] := threadStep_delivered (fun _ h => ThreadAct.noConfusion h) hexit
  rw [hnone, List.nil_append] at hread hrec
  exact ⟨_, _, fs, waiting, evt, hrun, hfs, hread, hrec⟩

end NoDrop
