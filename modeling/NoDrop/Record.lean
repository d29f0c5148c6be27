import Mathlib.Logic.Function.Basic
import NoDrop.Filler

/-! # Recording one event

`struct nod_buffer` and `do_record_one_event` of `kmodule/events.c`.

A thread's events go into its buffer one after another, at `tail`.  An event that does
not fit goes to the one-page overflow area instead, `overflow.filled` is set and the
monitor is loaded at once to drain the buffer; the next call then starts by moving the
page's record to the front of the buffer.  The code restarts an attempt that ran out of
room by `goto restart`, with `arg_data_offset` as the aborted attempt left it.

The model keeps the `goto` as a loop with fuel, so that a call that goes round for ever
is a call that returns at no fuel.  `nod_load_monitor` does not touch the buffer; its
return value is a parameter.  Every store is logged with the region it goes to.
-/
namespace NoDrop

open Bytes

/-! ## The buffer -/

/-- `struct nod_buffer_info`, the page that is shared with user space. -/
structure BufferInfo where
  nevents : Nat
  tail : UInt32
  nSolvedEvts : Nat
  bufferSize : UInt64

/-- The memory a recording may write to. -/
inductive Region where
  | buffer | overflow | strStorage
deriving DecidableEq, Repr

/-- `struct nod_buffer`.  `allocated` is the size `init_buffer` asked `vmalloc_user` for;
the code keeps it only in the shared `info`. -/
structure NodBuffer where
  info : BufferInfo
  mem : Region → Image
  filled : Bool
  eventCount : Nat
  allocated : Nat

/-- `struct nod_event_statistic`, summed over the CPUs. -/
structure EventStatistic where
  nEvts : Nat
  nDropEvts : Nat
  nDropEvtsUnsolved : Nat
deriving DecidableEq, Repr

/-- `NOD_INIT_INFO` and `NOD_INIT_COUNT`. -/
structure InitFlags where
  info : Bool
  count : Bool

/-- `nod_event_set_buffer_size`: the sizes it accepts. -/
def nodEventSetBufferSize (size : UInt64) : Option UInt64 :=
  if size.toNat < pageSize then none
  else if size.toNat % pageSize ≠ 0 then none
  else some size

namespace NodBuffer

/-- `reset_buffer`. -/
def resetBuffer (b : NodBuffer) (flags : InitFlags) : NodBuffer :=
  let b := if flags.info then
    { b with info := { b.info with nevents := 0, tail := 0 }, filled := false } else b
  if flags.count then { b with eventCount := 0 } else b

/-- `init_buffer`, where the allocations succeed.  `vmalloc_user` clears the buffer;
`__get_free_page` leaves in the two pages whatever was there. -/
def initBuffer (size : UInt64) (pages : Region → Image) : Option NodBuffer :=
  -- an empty `vmalloc_user` fails
  if size.toNat % pageSize ≠ 0 ∨ size = 0 then none
  else
    some <| resetBuffer
      { info := ⟨0, 0, 0, size⟩, mem := Function.update pages .buffer fun _ => 0, filled := false,
        eventCount := 0, allocated := size.toNat } ⟨true, true⟩

/-- `info->buffer_size - info->tail` as the `uint32_t` it is assigned to. -/
def freespace (b : NodBuffer) : Nat := (b.info.bufferSize - b.info.tail.toUInt64).toUInt32.toNat

/-- Some stores into a region. -/
def write (b : NodBuffer) (r : Region) (ws : List Write) : NodBuffer :=
  { b with mem := Function.update b.mem r ((b.mem r).writes ws) }

@[simp] theorem write_info (b : NodBuffer) (r : Region) (ws : List Write) :
    (b.write r ws).info = b.info := rfl

@[simp] theorem write_filled (b : NodBuffer) (r : Region) (ws : List Write) :
    (b.write r ws).filled = b.filled := rfl

@[simp] theorem write_allocated (b : NodBuffer) (r : Region) (ws : List Write) :
    (b.write r ws).allocated = b.allocated := rfl

@[simp] theorem write_mem_self (b : NodBuffer) (r : Region) (ws : List Write) :
    (b.write r ws).mem r = (b.mem r).writes ws := by
  simp [write]

theorem write_mem_of_ne (b : NodBuffer) {r r' : Region} (ws : List Write) (h : r' ≠ r) :
    (b.write r ws).mem r' = b.mem r' := by
  simp [write, h]

end NodBuffer

/-! ## The event header -/

/-- `sizeof(struct nod_event_hdr)`. -/
def hdrSize : Nat := 28

/-- `NOD_EVENT_HDR_MAGIC`. -/
def nodEventHdrMagic : Nat := 0xCAFEBABE

/-- An event to record: what `record_one_event` passes on, and what the filler does with
the system call's registers and memory. -/
structure Event where
  type : EventType
  ts : UInt64
  tid : UInt32
  cpuid : UInt16
  force : Bool
  um : UserMem
  filler : Filler type

namespace Event

/-- `args.nargs`. -/
def nargs (ev : Event) : Nat := (gEventInfo ev.type).nparams

/-- The header fields stored before the filler runs; `len` is stored after it. -/
def header (ev : Event) : List Write :=
  [⟨0, leBytes 8 ev.ts.toNat⟩, ⟨8, leBytes 4 ev.tid.toNat⟩, ⟨14, leBytes 2 ev.type.toNat⟩,
    ⟨12, leBytes 2 ev.cpuid.toNat⟩, ⟨20, leBytes 4 ev.nargs⟩, ⟨24, leBytes 4 nodEventHdrMagic⟩]

end Event

/-- The store of `hdr->len`. -/
def lenStore (len : Nat) : Write := ⟨16, leBytes 4 len⟩

/-- `hdr->len` of the record at the front of an image. -/
def hdrLen (img : Image) : Nat := leNat (img.read 16 4)

/-! ## The call -/

/-- Where an attempt puts its record: the region, the offset of the header and
`args.buffer_size`. -/
structure Place where
  region : Region
  base : Nat
  size : Nat
deriving DecidableEq, Repr

/-- The record goes to the overflow page. -/
def Place.page : Place := ⟨.overflow, 0, pageSize - hdrSize⟩

/-- The choice made at `restart:`. -/
def NodBuffer.place (b : NodBuffer) (off : Nat) (restart : Bool) : Place :=
  if b.freespace < off + hdrSize ∨ restart then .page
  else ⟨.buffer, b.info.tail.toNat, b.freespace - hdrSize⟩

/-- The filler's run in `size` bytes for lengths and arguments, the arguments from `off`
on; `args.buffer_size - args.arg_data_offset` is a `uint32_t`. -/
def Event.attempt (ev : Event) (size off : Nat) : FillerRun :=
  ev.filler.run ev.um ⟨0, off, (size + 2 ^ 32 - off) % 2 ^ 32⟩

/-- The stores of an attempt relative to the header. -/
def Event.stores (ev : Event) (r : FillerRun) : List Write :=
  ev.header ++ r.out.map (Write.shift hdrSize)

/-- The log of some stores, at an offset in a region. -/
def logAt (region : Region) (base : Nat) (ws : List Write) : List (Region × Write) :=
  ws.map fun w => (region, w.shift base)

/-- One attempt: where it goes, what the filler did, and the buffer and the stores it
leaves. -/
structure Attempt where
  place : Place
  run : FillerRun
  buf : NodBuffer
  log : List (Region × Write)

/-- From `restart:` to the return of `nod_filler_callback`. -/
def Event.tryOnce (ev : Event) (restart : Bool) (off : Nat) (b : NodBuffer) : Attempt :=
  let pl := b.place off restart
  let r := ev.attempt pl.size off
  { place := pl
    run := r
    buf := NodBuffer.write (NodBuffer.write { b with filled := b.filled || pl.region = .overflow }
      pl.region ((ev.stores r).map (Write.shift pl.base))) .strStorage r.scratch
    log := logAt pl.region pl.base (ev.stores r) ++ logAt .strStorage 0 r.scratch }

/-- What a call leaves: its return value (`none` if it does not return), whether it
called `nod_load_monitor`, the buffer, the statistic and the stores.  `record` is what
the call is for: the bytes of the record, if the filler filled it in completely. -/
structure Recorded where
  ret : Option Int
  forced : Bool
  record : Option (List UInt8)
  buf : NodBuffer
  stat : EventStatistic
  log : List (Region × Write)

/-- The end of the call, for a filler code other than `NOD_FAILURE_BUFFER_FULL`. -/
def Event.conclude (ev : Event) (load : Int) (force : Bool) (t : Attempt) (code : Int)
    (st : EventStatistic) : Recorded :=
  let finish (force : Bool) (record : Option (List UInt8)) (b : NodBuffer) (st : EventStatistic)
      (log : List (Region × Write)) : Recorded :=
    ⟨some (if force then load else code), force, record, b, st, t.log ++ log⟩
  if code = nodSuccess then
    if t.run.args.curarg = ev.nargs then
      let size := hdrSize + t.run.args.argDataOffset
      let b := t.buf.write t.place.region [(lenStore size).shift t.place.base]
      let record := some ((b.mem t.place.region).read t.place.base size)
      let log := logAt t.place.region t.place.base [lenStore size]
      if b.filled = false then
        finish force record
          { b with info := { b.info with
              tail := UInt32.ofNat (b.info.tail.toNat + size), nevents := b.info.nevents + 1 } }
          { st with nEvts := st.nEvts + 1 } log
      else finish force record b st log
    else finish false none t.buf st []
  else finish force none t.buf { st with nDropEvts := st.nDropEvts + 1 } []

/-- The loop at `restart:`, for at most `fuel` attempts. -/
def Event.attempts (ev : Event) (load : Int) :
    Nat → Bool → Bool → Nat → NodBuffer → EventStatistic → Recorded
  | 0, force, _, _, b, st => ⟨none, force, none, b, st, []⟩
  | fuel + 1, force, restart, off, b, st =>
      let t := ev.tryOnce restart off b
      let force := force || t.place.region = .overflow
      match t.run.res with
      | none => ⟨none, force, none, t.buf, st, t.log⟩
      | some code =>
          if code = nodFailureBufferFull then
            let r := ev.attempts load fuel force true t.run.args.argDataOffset t.buf st
            { r with log := t.log ++ r.log }
          else ev.conclude load force t code st

/-- The move of the overflow page's record to the front of the buffer. -/
def NodBuffer.flush (b : NodBuffer) : NodBuffer :=
  if b.filled then
    { b with
      info := { b.info with
        tail := UInt32.ofNat (hdrLen (b.mem .overflow)), nevents := b.info.nevents + 1 }
      mem := Function.update b.mem .buffer
        ((b.mem .buffer).write ⟨0, (b.mem .overflow).read 0 (hdrLen (b.mem .overflow))⟩)
      filled := false }
  else b

/-- The stores of the flush. -/
def NodBuffer.flushLog (b : NodBuffer) : List (Region × Write) :=
  if b.filled then [(.buffer, ⟨0, (b.mem .overflow).read 0 (hdrLen (b.mem .overflow))⟩)] else []

/-- `do_record_one_event`, in at most `fuel` attempts.  `entryAddr` is `p->entry_addr`
and `load` what `nod_load_monitor` returns if it is called. -/
def doRecordOneEvent (fuel : Nat) (entryAddr : UInt64) (load : Int) (ev : Event) (b : NodBuffer)
    (st : EventStatistic) : Recorded :=
  let st' := if b.filled then { st with nEvts := st.nEvts + 1 } else st
  let r := ev.attempts load fuel (ev.force || entryAddr = 0) false (2 * ev.nargs) b.flush st'
  { r with log := b.flushLog ++ r.log }

end NoDrop
