import NoDrop.Events
import NoDrop.Lib.Runs
import NoDrop.Monitor

/-! # Delivery

One traced thread over its whole life: system calls recorded by `record_one_event`,
monitor activations that succeed or fail, the monitor draining the buffer after every
activation that succeeds, the exit through `exit_filter`, the monitor's own exit and
`nod_proc_release`.

Two lists are kept beside the thread: the records filled in completely, in the order of
the calls (`recorded`), and those handed to the loop of `nod_monitor_main`, in the order
of the loop (`delivered`).  The invariant is that what was recorded is what was delivered
followed by what waits in the queue.

It breaks where a call is not `Safe`, and at the end of the thread: `nod_proc_release`
counts the records of the buffer as unsolved, but not the parked one, which only a next
call would have moved there.
-/
namespace NoDrop

open Bytes Runs

/-- Where the thread is. -/
inductive Phase where
  /-- In the application. -/
  | out
  /-- In the monitor, with the event of an exit to come (`exiting`) or not. -/
  | monitor (exiting : Bool)
  /-- Past `exit_filter`, to be released. -/
  | exiting
  | released
deriving DecidableEq, Repr

/-- The thread will not record another event. -/
def Phase.leaving : Phase → Bool
  | .out | .monitor false => false
  | .monitor true | .exiting | .released => true

/-- The thread, with its history. -/
structure Thread where
  buf : NodBuffer
  stat : EventStatistic
  entryAddr : UInt64
  phase : Phase
  recorded : List (List UInt8)
  delivered : List (List UInt8)

/-- The outcome of a call of `nod_load_monitor`: its return value, and `p->entry_addr`
afterwards. -/
structure LoadOutcome where
  ret : Int
  entryAddr : UInt64

/-- What the thread does.  Recordings come with the outcome of the load they may ask for,
and with the number of attempts within which they return. -/
inductive ThreadAct where
  | syscall (fuel : Nat) (ev : Event) (load : LoadOutcome)
  | exit (fuel : Nat) (ev : Event) (load : LoadOutcome)
  | drain (fuel : Nat)
  | release

/-- A new thread, after `nod_alloc_procinfo`. -/
def Thread.start (b : NodBuffer) : Thread := ⟨b, ⟨0, 0, 0⟩, 0, .out, [], []⟩

/-- A recording, of the thread's exit (`leaving`) or of another system call.  The thread
then is in the monitor if that was loaded. -/
def Thread.record (t : Thread) (fuel : Nat) (ev : Event) (load : LoadOutcome) (leaving : Bool) :
    Option Thread :=
  let r := doRecordOneEvent fuel t.entryAddr load.ret ev t.buf t.stat
  r.ret.map fun ret =>
    { t with
      buf := r.buf
      stat := r.stat
      entryAddr := if r.forced then load.entryAddr else t.entryAddr
      phase :=
        if r.forced ∧ ret = nodSuccessLoad then .monitor leaving
        else if leaving then .exiting else .out
      recorded := t.recorded ++ r.record.toList }

/-- One step of the thread. -/
def threadStep (t : Thread) : ThreadAct → Option Thread
  | .syscall fuel ev load =>
      if t.phase = .out ∧ ev.force = false then t.record fuel ev load false else none
  -- `exit_filter` in status `NOD_OUT`: force the load, and let the system call go on
  -- only if that failed
  | .exit fuel ev load =>
      if t.phase = .out ∧ ev.force = true then t.record fuel ev load true else none
  -- the monitor returns to the application, or exits in its place
  | .drain fuel =>
      match t.phase with
      | .monitor exiting =>
          (nodMonitorMain fuel t.buf).map fun (evts, b) =>
            { t with
              buf := b
              phase := if exiting then .exiting else .out
              delivered := t.delivered ++ evts }
      | _ => none
  -- `nod_proc_release`
  | .release =>
      if t.phase = .exiting then
        some { t with
          stat := { t.stat with
            nDropEvtsUnsolved := t.stat.nDropEvtsUnsolved + t.buf.info.nevents }
          phase := .released }
      else none

/-- Every record filled in was delivered once, in the order of recording, or is counted in
`n_drop_evts_unsolved`. -/
def Accounted (t : Thread) : Prop :=
  ∃ lost, t.recorded = t.delivered ++ lost ∧ lost.length = t.stat.nDropEvtsUnsolved

/-! ## The condition -/

/-- The condition on a step: recordings are safe, and the last one is not parked. -/
def KeepsEvents (t : Thread) : ThreadAct → Prop
  | .syscall _ ev _ => Safe ev t.buf
  | .exit _ ev _ => Safe ev t.buf ∧ NotParked ev t.buf
  | _ => True

instance : ∀ (t : Thread) (a : ThreadAct), Decidable (KeepsEvents t a)
  | t, .syscall _ ev _ => inferInstanceAs (Decidable (Safe ev t.buf))
  | t, .exit _ ev _ => inferInstanceAs (Decidable (Safe ev t.buf ∧ NotParked ev t.buf))
  | _, .drain _ => inferInstanceAs (Decidable True)
  | _, .release => inferInstanceAs (Decidable True)

/-! ## The invariant -/

/-- Before the release: what was recorded is what was delivered and what waits, and
nothing waits in the page once the thread is leaving.  After it, every record is
accounted for. -/
structure Flowing (t : Thread) : Prop where
  flow : t.phase ≠ .released → ∃ q, Holds t.buf q ∧ t.recorded = t.delivered ++ q.contents ∧
    (t.phase.leaving = true → q.parked = none)
  unsolved : t.phase ≠ .released → t.stat.nDropEvtsUnsolved = 0
  accounted : t.phase = .released → Accounted t

/-- Recording does not touch the count of unsolved events. -/
theorem attempts_unsolved (ev : Event) (load : Int) (fuel : Nat) (force restart : Bool) (off : Nat)
    (b : NodBuffer) (st : EventStatistic) :
    (ev.attempts load fuel force restart off b st).stat.nDropEvtsUnsolved =
      st.nDropEvtsUnsolved := by
  induction fuel generalizing force restart off b with
  | zero => rfl
  | succ n ih =>
    simp only [Event.attempts]
    split
    · rfl
    · split
      · exact ih ..
      · simp only [Event.conclude]
        repeat' split
        all_goals rfl

theorem doRecordOneEvent_unsolved (fuel : Nat) (entryAddr : UInt64) (load : Int) (ev : Event)
    (b : NodBuffer) (st : EventStatistic) :
    (doRecordOneEvent fuel entryAddr load ev b st).stat.nDropEvtsUnsolved =
      st.nDropEvtsUnsolved := by
  simp only [doRecordOneEvent, attempts_unsolved]
  split <;> rfl

/-- An event that is not parked leaves the page empty. -/
theorem filled_of_notParked {fuel : Nat} {entryAddr : UInt64} {load : Int} {ev : Event}
    {b : NodBuffer} {st : EventStatistic} (h : NotParked ev b)
    (hret : (doRecordOneEvent fuel entryAddr load ev b st).ret ≠ none) :
    (doRecordOneEvent fuel entryAddr load ev b st).buf.filled = false := by
  obtain ⟨hp, hfull⟩ := h
  obtain ⟨n, code, rfl, hres⟩ := Event.attempts_cases hret
  have hc : code ≠ nodFailureBufferFull := by
    rintro rfl
    rw [Event.tryOnce_run, hp] at hres
    exact hfull hres
  have hf : (ev.tryOnce false (2 * ev.nargs) b.flush).buf.filled = false := by
    rw [Event.tryOnce_filled, hp, flush_filled]
    rfl
  simp only [doRecordOneEvent, Event.attempts_of_done hres hc]
  by_cases hs : ev.Succeeds (ev.tryOnce false (2 * ev.nargs) b.flush).run
  · obtain rfl := succeeds_code hs hres
    rw [Event.conclude_buf_main hs hf]
    exact hf
  · rw [(Event.conclude_of_not_succeeds hres hs).2]
    exact hf

/-- A safe recording keeps the flow. -/
theorem record_flowing {t t' : Thread} {fuel : Nat} {ev : Event} {load : LoadOutcome}
    {leaving : Bool} (h : Flowing t) (hout : t.phase = .out) (hs : Safe ev t.buf)
    (hpark : leaving = true → NotParked ev t.buf)
    (hrec : t.record fuel ev load leaving = some t') : Flowing t' := by
  have hne : t.phase ≠ .released := by rw [hout]; decide
  obtain ⟨q, hq, hflow, -⟩ := h.flow hne
  obtain ⟨ret, hret, rfl⟩ := Option.map_eq_some_iff.mp hrec
  have hret' : (doRecordOneEvent fuel t.entryAddr load.ret ev t.buf t.stat).ret ≠ none := by
    rw [hret]
    simp
  obtain ⟨q', hq', hcontents, -⟩ := record_refines hq hs hret'
  -- the phases a recording leads to
  have hphase : ∀ p : Phase, p = (if (doRecordOneEvent fuel t.entryAddr load.ret ev t.buf
      t.stat).forced ∧ ret = nodSuccessLoad then .monitor leaving
      else if leaving then .exiting else .out) → p ≠ .released ∧ p.leaving = leaving := by
    intro p hp
    subst hp
    cases leaving <;> split <;> simp [Phase.leaving]
  refine ⟨fun _ => ⟨q', hq', ?_, ?_⟩, ?_, fun hr => absurd hr (hphase _ rfl).1⟩
  · simp only [hflow, hcontents, List.append_assoc]
  · intro hl
    rw [(hphase _ rfl).2] at hl
    have hf := filled_of_notParked (hpark hl) hret'
    simpa [hq'.filled] using hf
  · intro _
    rw [doRecordOneEvent_unsolved]
    exact h.unsolved hne

theorem Flowing.step {t t' : Thread} {a : ThreadAct} (h : Flowing t) (hc : KeepsEvents t a)
    (hs : stepOf threadStep t a t') : Flowing t' := by
  cases a with
  | syscall fuel ev load =>
    simp only [stepOf, threadStep] at hs
    split at hs
    · rename_i hp
      exact record_flowing h hp.1 hc (fun hl => by cases hl) hs
    · cases hs
  | exit fuel ev load =>
    simp only [stepOf, threadStep] at hs
    split at hs
    · rename_i hp
      exact record_flowing h hp.1 hc.1 (fun _ => hc.2) hs
    · cases hs
  | drain fuel =>
    simp only [stepOf, threadStep] at hs
    split at hs
    · rename_i exiting hp
      have hne : t.phase ≠ .released := by rw [hp]; simp
      obtain ⟨q, hq, hflow, hpark⟩ := h.flow hne
      obtain ⟨⟨evts, b⟩, hm, rfl⟩ := Option.map_eq_some_iff.mp hs
      obtain ⟨rfl, hq'⟩ := nodMonitorMain_holds hq hm
      refine ⟨fun _ => ⟨_, hq', ?_, ?_⟩, fun _ => h.unsolved hne, ?_⟩
      · simp only [hflow, Queue.contents, List.nil_append, List.append_assoc]
      · intro hl
        apply hpark
        rw [hp]
        cases exiting
        · exact hl
        · rfl
      · intro hr
        cases exiting <;> cases hr
    · cases hs
  | release =>
    simp only [stepOf, threadStep] at hs
    split at hs
    · rename_i hp
      have hne : t.phase ≠ .released := by rw [hp]; decide
      obtain ⟨q, hq, hflow, hpark⟩ := h.flow hne
      cases hs
      refine ⟨fun hr => absurd rfl hr, fun hr => absurd rfl hr, fun _ => ⟨q.contents, hflow, ?_⟩⟩
      have hnone := hpark (by rw [hp]; rfl)
      simp [h.unsolved hne, hq.nevents, Queue.contents, hnone]
    · cases hs

/-- **Exactly-once delivery**: in every run of a thread from `init_buffer` to
`nod_proc_release` whose recordings are safe and whose exit is not parked, every record
filled in was handed to the monitor's loop once and in order, or is counted. -/
theorem accounted_of_run {size : UInt64} {pages : Region → Image} {b₀ : NodBuffer} {t : Thread}
    {tr : List (Thread × ThreadAct)} (hinit : NodBuffer.initBuffer size pages = some b₀)
    (hrun : Run (stepOf threadStep) (Thread.start b₀) tr t) (hc : Meets KeepsEvents tr)
    (hrel : t.phase = .released) : Accounted t := by
  have h₀ : Flowing (Thread.start b₀) := by
    refine ⟨fun _ => ⟨_, initBuffer_holds hinit, rfl, fun _ => rfl⟩, fun _ => rfl, ?_⟩
    intro hr
    cases hr
  exact (hrun.invariant (fun h hc hs => h.step hc hs) h₀ hc).accounted hrel

/-! ## A run that loses an event -/

/-- `exit`, which the table of events does not list, and so is recorded in 32 bytes as a
generic event. -/
def exitEvent : Event := Syscall.idle.event .generic true

theorem exitEvent_attempt :
    exitEvent.Succeeds (exitEvent.attempt Place.page.size (2 * exitEvent.nargs)) := by
  decide

/-- The monitor cannot be loaded. -/
def notLoaded : LoadOutcome := ⟨-1, 0⟩

/-- A recording after which the thread goes on without the monitor. -/
theorem record_of_not_loaded {t : Thread} {fuel : Nat} {ev : Event} (leaving : Bool)
    (h : (doRecordOneEvent fuel t.entryAddr notLoaded.ret ev t.buf t.stat).ret =
        some notLoaded.ret ∨
      (doRecordOneEvent fuel t.entryAddr notLoaded.ret ev t.buf t.stat).ret = some nodSuccess) :
    ∃ t', t.record fuel ev notLoaded leaving = some t' ∧
      t'.buf = (doRecordOneEvent fuel t.entryAddr notLoaded.ret ev t.buf t.stat).buf ∧
      t'.stat = (doRecordOneEvent fuel t.entryAddr notLoaded.ret ev t.buf t.stat).stat ∧
      t'.phase = (if leaving then .exiting else .out) ∧
      t'.recorded = t.recorded ++
        (doRecordOneEvent fuel t.entryAddr notLoaded.ret ev t.buf t.stat).record.toList ∧
      t'.delivered = t.delivered := by
  have hnot : ∀ c, c = notLoaded.ret ∨ c = nodSuccess → c ≠ nodSuccessLoad := by
    rintro c (rfl | rfl) <;> decide
  obtain ⟨c, hret, hc⟩ : ∃ c, (doRecordOneEvent fuel t.entryAddr notLoaded.ret ev t.buf
      t.stat).ret = some c ∧ c ≠ nodSuccessLoad := by
    rcases h with h | h
    · exact ⟨_, h, hnot _ (Or.inl rfl)⟩
    · exact ⟨_, h, hnot _ (Or.inr rfl)⟩
  refine ⟨_, Option.map_eq_some_iff.mpr ⟨c, hret, rfl⟩, rfl, rfl, ?_, rfl, rfl⟩
  simp only [hc, and_false, if_false]

/-- `chdir` with a path of 979 bytes, recorded in 1020. -/
def longChdir : Event :=
  Syscall.event
    { Syscall.idle with
      arg := fun _ => 4096
      um :=
        { byte := fun a => if 4096 ≤ a ∧ a < 8192 then
            some (if a < 4096 + 979 then 0x61 else 0) else none
          limit := 2 ^ 47
          fault := fun _ _ => 0 } } .syscallChdir false

/-- The monitor is loaded. -/
def loadedAt (entryAddr : UInt64) : LoadOutcome := ⟨nodSuccessLoad, entryAddr⟩

/-- Four long paths fill the buffer, so that a `close` is parked; the monitor is loaded and drains
the four.  The exit moves the parked record to the buffer, but the monitor cannot be loaded again,
and the two records are counted. -/
theorem accounted_after_exit : ∃ tr t, Run (stepOf threadStep) (Thread.start smallBuffer) tr t ∧
    t.phase = .released ∧ t.recorded.length = 6 ∧ t.delivered.length = 4 ∧
      t.stat.nDropEvtsUnsolved = 2 ∧ Accounted t := by
  have hexec : (execMeeting KeepsEvents threadStep (Thread.start smallBuffer)
      [.syscall 1 longChdir notLoaded, .syscall 1 longChdir notLoaded,
        .syscall 1 longChdir notLoaded, .syscall 1 longChdir notLoaded,
        .syscall 1 closeEvent (loadedAt 4096), .drain 5, .exit 1 exitEvent notLoaded,
        .release]).map (fun t => (t.phase, t.recorded.length, t.delivered.length,
          t.stat.nDropEvtsUnsolved)) = some (.released, 6, 4, 2) := by
    decide +kernel
  obtain ⟨t, ht, hend⟩ := Option.map_eq_some_iff.mp hexec
  obtain ⟨hrel, hend⟩ := Prod.mk.inj hend
  obtain ⟨hrec, hend⟩ := Prod.mk.inj hend
  obtain ⟨hdel, huns⟩ := Prod.mk.inj hend
  obtain ⟨tr, -, hrun, hmeets⟩ := exists_run_of_execMeeting ht
  exact ⟨tr, t, hrun, hrel, hrec, hdel, huns, accounted_of_run initBuffer_small hrun hmeets hrel⟩

/-- A thread after `n` `close`s in a buffer of one page, without a monitor. -/
structure Closed (n : Nat) (t : Thread) : Prop where
  buf : FilledTo n t.buf
  stat : t.stat.nDropEvts = 0 ∧ t.stat.nDropEvtsUnsolved = 0
  out : t.phase = .out
  recorded : t.recorded.length = n
  delivered : t.delivered = []

theorem closed_run (n : Nat) (hn : 48 * n ≤ 4096) :
    ∃ tr t, Run (stepOf threadStep) (Thread.start smallBuffer) tr t ∧ Closed n t := by
  induction n with
  | zero =>
    exact ⟨[], _, Run.nil, filledTo_zero, ⟨rfl, rfl⟩, rfl, rfl, rfl⟩
  | succ n ih =>
    obtain ⟨tr, t, hrun, ht⟩ := ih (by omega)
    obtain ⟨hbuf, hfit⟩ := ht.buf.close hn 0 t.entryAddr notLoaded.ret t.stat
    rw [Nat.zero_add] at hbuf hfit
    obtain ⟨bs, hbs⟩ := Option.isSome_iff_exists.mp hfit.record
    obtain ⟨t', hrec, h1, h2, h3, h4, h5⟩ := record_of_not_loaded false hfit.ret
    have hs : stepOf threadStep t (.syscall 1 closeEvent notLoaded) t' := by
      rw [stepOf, threadStep, if_pos ⟨ht.out, rfl⟩, hrec]
    refine ⟨_, t', hrun.snoc hs, ?_, ?_, h3, ?_, ?_⟩
    · rw [h1]
      exact hbuf
    · rw [h2, hfit.stat]
      exact ht.stat
    · rw [h4, hbs, List.length_append, ht.recorded]
      rfl
    · rw [h5, ht.delivered]

/-- **An event can be lost uncounted**: after 85 `close`s the record of the exit does not
fit and is parked; the release counts the 85 records of the buffer. -/
theorem exit_event_lost : ¬ ∀ (size : UInt64) (pages : Region → Image) (b₀ : NodBuffer)
    (t : Thread) (tr : List (Thread × ThreadAct)), NodBuffer.initBuffer size pages = some b₀ →
    Run (stepOf threadStep) (Thread.start b₀) tr t → t.phase = .released →
    t.recorded.length ≤ t.delivered.length + t.stat.nDropEvts + t.stat.nDropEvtsUnsolved := by
  intro hall
  obtain ⟨tr, t, hrun, ht⟩ := closed_run 85 (by omega)
  have hpark := record_parks 0 t.entryAddr notLoaded.ret t.stat ht.buf.filled
    (ht.buf.place_eq_page _) exitEvent_attempt
  rw [Nat.zero_add] at hpark
  obtain ⟨bs, hbs⟩ := Option.isSome_iff_exists.mp hpark.record
  obtain ⟨t', hrec, h1, h2, h3, h4, h5⟩ := record_of_not_loaded true hpark.ret
  have hs : stepOf threadStep t (.exit 1 exitEvent notLoaded) t' := by
    rw [stepOf, threadStep, if_pos ⟨ht.out, rfl⟩, hrec]
  have hrel : stepOf threadStep t' .release { t' with
      stat := { t'.stat with nDropEvtsUnsolved := t'.stat.nDropEvtsUnsolved + t'.buf.info.nevents }
      phase := .released } := by
    have hexit : t'.phase = .exiting := h3
    rw [stepOf, threadStep, if_pos hexit]
  have hbound := hall _ _ _ _ _ initBuffer_small ((hrun.snoc hs).snoc hrel) rfl
  rw [h1, h2, h4, h5, hpark.stat, hpark.info, hbs, ht.delivered, ht.buf.nevents, ht.stat.1,
    ht.stat.2, List.length_append, ht.recorded] at hbound
  simp at hbound

end NoDrop
