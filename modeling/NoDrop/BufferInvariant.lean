import NoDrop.Events
import NoDrop.Lib.Runs
import NoDrop.Monitor

/-! # The buffer's representation invariant

Every run of a thread's buffer, from `init_buffer` through any calls of
`do_record_one_event`, `reset_buffer` and drains by the monitor.  `BufferInv` is what a
reader of the buffer may rely on: `tail` is inside the buffer, the bytes before it are
`nevents` complete records, and a filled overflow page holds one.

The recorder does not keep it in every run.  `overflow.filled` is set before the filler
runs, so a filler that fails in the page leaves no record there; the flush overwrites a
buffer that was not drained; and a restart with arguments already laid down leaves a gap
in the record.  `bufferInv_of_run` is the invariant for the runs that do none of this,
and `not_bufferInv` a run of small system calls that does the first.
-/
namespace NoDrop

open Bytes Runs

/-- The representation invariant of `struct nod_buffer`. -/
structure BufferInv (b : NodBuffer) : Prop where
  tail_le : b.info.tail.toNat ≤ b.info.bufferSize.toNat
  records : ∃ recs : List (List UInt8), recs.length = b.info.nevents ∧
    (b.mem .buffer).read 0 b.info.tail.toNat = recs.flatten ∧ ∀ r ∈ recs, Complete r
  overflow : b.filled = true → hdrLen (b.mem .overflow) ≤ pageSize ∧
    Complete ((b.mem .overflow).read 0 (hdrLen (b.mem .overflow)))

/-- What happens to a buffer.  A recording comes with the outcome of the monitor load it
may ask for, and with the number of attempts within which it returns. -/
inductive BufferOp where
  | record (fuel : Nat) (entryAddr : UInt64) (load : Int) (ev : Event) (st : EventStatistic)
  | reset (flags : InitFlags)
  | drain (fuel : Nat)

/-- One operation; a call that does not return has no next state. -/
def bufferStep (b : NodBuffer) : BufferOp → Option NodBuffer
  | .record fuel entryAddr load ev st =>
      let r := doRecordOneEvent fuel entryAddr load ev b st
      r.ret.map fun _ => r.buf
  | .reset flags => some (b.resetBuffer flags)
  | .drain fuel => (nodMonitorMain fuel b).map Prod.snd

/-- The condition on a step: a recording is safe, and if it is restarted then with nothing
laid down. -/
def KeepsRecords (b : NodBuffer) : BufferOp → Prop
  | .record _ _ _ ev _ => Safe ev b ∧ CleanRestart ev b
  | _ => True

/-- The buffer holds complete records only. -/
def HoldsComplete (b : NodBuffer) : Prop := ∃ q, Holds b q ∧ ∀ r ∈ q.contents, Complete r

theorem HoldsComplete.bufferInv {b : NodBuffer} (h : HoldsComplete b) : BufferInv b := by
  obtain ⟨q, hq, hcomp⟩ := h
  refine ⟨hq.tail_le, ⟨q.main, hq.nevents.symm, hq.bytes, ?_⟩, ?_⟩
  · intro r hr
    exact hcomp r (List.mem_append_left _ hr)
  · intro hf
    obtain ⟨r, hr⟩ := Option.isSome_iff_exists.mp (hq.filled ▸ hf)
    obtain ⟨hread, hle⟩ := hq.parked r hr
    have hlen : hdrLen (b.mem .overflow) = r.length := by
      rw [← hread, Image.read_length]
    rw [hread]
    exact ⟨hlen ▸ hle, hcomp r (List.mem_append_right _ (by simp [hr]))⟩

/-- One step. -/
theorem HoldsComplete.step {b b' : NodBuffer} {op : BufferOp} (h : HoldsComplete b)
    (hc : KeepsRecords b op) (hs : stepOf bufferStep b op b') : HoldsComplete b' := by
  obtain ⟨q, hq, hcomp⟩ := h
  cases op with
  | record fuel entryAddr load ev st =>
    obtain ⟨ret, hret, rfl⟩ := Option.map_eq_some_iff.mp hs
    obtain ⟨q', hq', hcontents, hrec⟩ := record_refines hq hc.1 (by rw [hret]; simp)
    refine ⟨q', hq', ?_⟩
    intro r hr
    rw [hcontents] at hr
    rcases List.mem_append.mp hr with hr | hr
    · exact hcomp r hr
    · exact hrec hc.2 r (by simpa using hr)
  | reset flags =>
    cases hs
    refine ⟨_, resetBuffer_holds hq flags, ?_⟩
    intro r hr
    split at hr
    · simp [Queue.contents] at hr
    · exact hcomp r hr
  | drain fuel =>
    obtain ⟨⟨evts, b''⟩, hm, rfl⟩ := Option.map_eq_some_iff.mp hs
    obtain ⟨-, hq'⟩ := nodMonitorMain_holds hq hm
    refine ⟨_, hq', ?_⟩
    intro r hr
    exact hcomp r (List.mem_append_right _ (by simpa [Queue.contents] using hr))

/-- **The invariant holds in every state reached from `init_buffer`**, for every buffer
size it accepts, in every run whose recordings are safe and restarted cleanly. -/
theorem bufferInv_of_run {size : UInt64} {pages : Region → Image} {b₀ b : NodBuffer}
    {tr : List (NodBuffer × BufferOp)} (hinit : NodBuffer.initBuffer size pages = some b₀)
    (hrun : Run (stepOf bufferStep) b₀ tr b) (hc : Meets KeepsRecords tr) : BufferInv b := by
  have h₀ : HoldsComplete b₀ := ⟨_, initBuffer_holds hinit, by simp [Queue.contents]⟩
  exact (hrun.invariant (fun h hc hs => h.step hc hs) h₀ hc).bufferInv

/-! ## A run that breaks it -/

/-- The recording of one `close` by a thread for which the monitor cannot be loaded. -/
def closeOp : BufferOp := .record 1 0 (-1) closeEvent ⟨0, 0, 0⟩

theorem close_step {b : NodBuffer} {n : Nat} (h : FilledTo n b) (hn : 48 * (n + 1) ≤ 4096) :
    ∃ b', stepOf bufferStep b closeOp b' ∧ FilledTo (n + 1) b' := by
  obtain ⟨h', hfit⟩ := h.close hn 0 0 (-1) ⟨0, 0, 0⟩
  refine ⟨_, ?_, h'⟩
  rcases hfit.ret with hret | hret <;>
    simp only [stepOf, bufferStep, closeOp, hret, Option.map_some]

/-- A run of one `close` meets the condition. -/
theorem bufferInv_after_close :
    ∃ b, Run (stepOf bufferStep) smallBuffer [(smallBuffer, closeOp)] b ∧ BufferInv b := by
  obtain ⟨b, hstep, -⟩ := close_step filledTo_zero (by decide)
  have hrun : Run (stepOf bufferStep) smallBuffer [(smallBuffer, closeOp)] b :=
    Run.nil.snoc hstep
  have hs : closeEvent.Succeeds (closeEvent.attempt smallBuffer.atTail.size
      (2 * closeEvent.nargs)) := by
    decide
  obtain ⟨hsafe, hclean, -⟩ := safe_of_fits rfl (by decide) (by decide) hs
  refine ⟨b, hrun, bufferInv_of_run initBuffer_small hrun ?_⟩
  intro x hx
  obtain rfl := List.mem_singleton.mp hx
  exact ⟨hsafe, hclean⟩

theorem closes_run (n : Nat) (hn : 48 * n ≤ 4096) :
    ∃ tr b, Run (stepOf bufferStep) smallBuffer tr b ∧ FilledTo n b := by
  induction n with
  | zero => exact ⟨[], smallBuffer, Run.nil, filledTo_zero⟩
  | succ n ih =>
    obtain ⟨tr, b, hrun, hb⟩ := ih (by omega)
    obtain ⟨b', hs, hb'⟩ := close_step hb hn
    exact ⟨_, b', hrun.snoc hs, hb'⟩

/-- `splice`, whose row declares four parameters and fills in five. -/
def spliceEvent : Event := Syscall.idle.event .syscallSplice false

theorem spliceEvent_attempt :
    (spliceEvent.attempt Place.page.size 8).res = some nodFailureBug := by
  decide

/-- **The invariant fails in some run**: after 85 `close`s the buffer has no room for the
header of a `splice`, the filler fails in the overflow page, and the page counts as filled
without a record. -/
theorem not_bufferInv : ¬ ∀ (size : UInt64) (pages : Region → Image) (b₀ b : NodBuffer)
    (tr : List (NodBuffer × BufferOp)), NodBuffer.initBuffer size pages = some b₀ →
    Run (stepOf bufferStep) b₀ tr b → BufferInv b := by
  intro hall
  obtain ⟨tr, b, hrun, hb⟩ := closes_run 85 (by omega)
  have hrec := record_fails_in_page 0 0 (-1) ⟨0, 0, 0⟩ hb.filled (hb.place_eq_page _) spliceEvent_attempt
    (by decide) (by decide)
  rw [Nat.zero_add] at hrec
  obtain ⟨hret, hfilled, hlen⟩ := hrec
  have hstep : stepOf bufferStep b (.record 1 0 (-1) spliceEvent ⟨0, 0, 0⟩)
      (doRecordOneEvent 1 0 (-1) spliceEvent b ⟨0, 0, 0⟩).buf := by
    rcases hret with hret | hret <;> simp only [stepOf, bufferStep, hret, Option.map_some]
  obtain ⟨-, hcomp⟩ := (hall _ _ _ _ _ initBuffer_small (hrun.snoc hstep)).overflow hfilled
  have hhdr := hcomp.hdr
  rw [hlen, hb.overflow, Image.read_length] at hhdr
  exact absurd hhdr (by decide)

end NoDrop
