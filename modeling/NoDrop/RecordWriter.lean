import Mathlib.Data.List.Basic
import Mathlib.Data.UInt
import Mathlib.Tactic.Common

/-! # The record writer

`monitor/src/record_writer.c`.  Each time the monitor is activated, `nod_monitor_main` opens
the record, writes every event and closes it.  There are two kinds of record, a plain file and
a compressed one, and `struct record_writer` has a pointer for each.

Which kind is opened follows the flag of this activation.  Which kind is written and closed
follows `rw.mode`, which is the flag of the first activation of the process and is never
changed.  When the flag has changed since, or the file could not be opened, the writer writes
to and closes a pointer that is `NULL` or was closed before, or leaves an open file behind
(`ownsHandles_iff`).

An open file is named by the number of the activation that has opened it.
-/
namespace NoDrop

/-! ## Data -/

/-- The two kinds of record. -/
inductive RecordKind where
  | file
  | gzfile
deriving DecidableEq

/-- `NOD_RECORD_MODE_START` and `NOD_RECORD_MODE_COMPRESS`. -/
def RecordKind.mode : RecordKind → Int32
  | .file => 1
  | .gzfile => 2

theorem RecordKind.mode_inj {k l : RecordKind} (h : k.mode = l.mode) : k = l := by
  cases k <;> cases l <;> first | rfl | exact absurd h (by decide)

/-- `struct record_writer`. -/
structure RecordWriter where
  mode : Int32
  file : Option Nat
  gzfile : Option Nat

/-- The pointer for a kind. -/
def RecordWriter.handle (rw : RecordWriter) : RecordKind → Option Nat
  | .file => rw.file
  | .gzfile => rw.gzfile

/-- What the writer does with files. -/
inductive RecordOp (Event : Type) where
  | opened (kind : RecordKind) (handle : Nat)
  | write (kind : RecordKind) (handle : Option Nat) (evt : Event)
  | close (kind : RecordKind) (handle : Option Nat)
deriving DecidableEq

/-- An activation of the monitor: the flag, the events in the buffer, and whether `fopen` or
`gzopen` succeeds. -/
structure Recording (Event : Type) where
  flag : Int32
  events : List Event
  opens : Bool

/-! ## `monitor/src/record_writer.c` -/

section Code

variable {Event : Type}

/-- `rw`, as the monitor is loaded. -/
def RecordWriter.init : RecordWriter := ⟨-1, none, none⟩

/-- `new_record_writer`, in activation `now`. -/
def newRecordWriter (now : Nat) (opens : Bool) (rw : RecordWriter) (mode : Int32) :
    RecordWriter × List (RecordOp Event) :=
  -- only update at the first time
  let rw := if rw.mode = -1 then { rw with mode := mode } else rw
  if mode = 1 then
    if opens then ({ rw with file := some now }, [.opened .file now])
    else ({ rw with file := none }, [])
  else if mode = 0 then ({ rw with file := none }, [])
  else if mode = 2 then
    if opens then ({ rw with gzfile := some now }, [.opened .gzfile now])
    else ({ rw with gzfile := none }, [])
  else (rw, [])

/-- `write_record_writer`. -/
def writeRecordWriter (rw : RecordWriter) (evt : Event) : List (RecordOp Event) :=
  if rw.mode = 1 then [.write .file rw.file evt]
  else if rw.mode = 0 then []
  else if rw.mode = 2 then [.write .gzfile rw.gzfile evt]
  else []

/-- `close_record_writer`. -/
def closeRecordWriter (rw : RecordWriter) : List (RecordOp Event) :=
  if rw.mode = 1 then [.close .file rw.file]
  else if rw.mode = 0 then []
  else if rw.mode = 2 then [.close .gzfile rw.gzfile]
  else []

/-- The record in `nod_monitor_main`. -/
def recordEvents (now : Nat) (rw : RecordWriter) (a : Recording Event) :
    RecordWriter × List (RecordOp Event) :=
  let r := newRecordWriter now a.opens rw a.flag
  (r.1, r.2 ++ a.events.flatMap (writeRecordWriter r.1) ++ closeRecordWriter r.1)

/-- The activations of a process, one after the other: what each does with files. -/
def recordRun : Nat → RecordWriter → List (Recording Event) → List (List (RecordOp Event))
  | _, _, [] => []
  | now, rw, a :: as =>
      (recordEvents now rw a).2 :: recordRun (now + 1) (recordEvents now rw a).1 as

/-- What a process does from the start. -/
def recordAll (as : List (Recording Event)) : List (List (RecordOp Event)) :=
  recordRun 0 .init as

/-! ## What the code is for -/

/-- An operation on an open file of a kind. -/
inductive Uses (kind : RecordKind) (handle : Option Nat) : RecordOp Event → Prop
  | write (evt : Event) : Uses kind handle (.write kind handle evt)
  | close : Uses kind handle (.close kind handle)

/-- Writing to an open file. -/
def RecordOp.writesTo (kind : RecordKind) (handle : Nat) : RecordOp Event → Bool
  | .write k h _ => k = kind ∧ h = some handle
  | _ => false

/-- Closing an open file. -/
def RecordOp.closes (kind : RecordKind) (handle : Nat) : RecordOp Event → Bool
  | .close k h => k = kind ∧ h = some handle
  | _ => false

/-- The writer only uses what it has opened in the same activation; it closes what it has
opened, once; and it writes the events, each once. -/
structure OwnsHandles (as : List (Recording Event)) (ops : List (List (RecordOp Event))) :
    Prop where
  used : ∀ (i : Nat) l, ops[i]? = some l → ∀ op ∈ l, ∀ k h, Uses k h op →
    h = some i ∧ RecordOp.opened k i ∈ l
  closed : ∀ (i : Nat) l, ops[i]? = some l → ∀ k h, RecordOp.opened k h ∈ l →
    ops.flatten.filter (RecordOp.closes k h) = [.close k (some h)]
  written : ∀ (i : Nat) a, as[i]? = some a → ∀ k : RecordKind, a.flag = k.mode → a.opens = true →
    ops.flatten.filter (RecordOp.writesTo k i) = a.events.map (.write k (some i))

/-- The first of some flags that is not `-1`, which stands for no flag. -/
def firstFlag (flags : List Int32) : Int32 := (flags.find? (· ≠ -1)).getD (-1)

/-- A record of the kind of the first flag is opened, and no other. -/
def OpensFirst (as : List (Recording Event)) : Prop :=
  ∀ (i : Nat) a, as[i]? = some a → ∀ k : RecordKind,
    firstFlag ((as.take (i + 1)).map (·.flag)) = k.mode ↔ a.flag = k.mode ∧ a.opens = true

end Code

/-! ## One activation -/

section Activation

variable {Event : Type} {now : Nat} {rw : RecordWriter} {a : Recording Event}

/-- The mode, once it is set, stays. -/
def latch (mode flag : Int32) : Int32 := if mode = -1 then flag else mode

/-- Every open file is from an earlier activation. -/
def RecordWriter.Earlier (now : Nat) (rw : RecordWriter) : Prop :=
  ∀ k h, rw.handle k = some h → h < now

/-- What `new_record_writer` does: it sets the mode, and opens a record of the flag's kind or
none. -/
theorem newRecordWriter_cases (Event : Type) (now : Nat) (opens : Bool) (rw : RecordWriter)
    (flag : Int32) :
    ∃ rw' ops, (newRecordWriter now opens rw flag : _ × List (RecordOp Event)) = (rw', ops) ∧
      rw'.mode = latch rw.mode flag ∧
      ((∃ k : RecordKind, flag = k.mode ∧ opens = true ∧ rw'.handle k = some now ∧
          (∀ l, l ≠ k → rw'.handle l = rw.handle l) ∧ ops = [.opened k now]) ∨
        ((∀ k : RecordKind, ¬(flag = k.mode ∧ opens = true)) ∧
          (∀ k, rw'.handle k = none ∨ rw'.handle k = rw.handle k) ∧ ops = [])) := by
  -- the mode is set first, and leaves the pointers as they are
  obtain ⟨rw', hrw, hmode, hhandle⟩ : ∃ rw' : RecordWriter,
      (if rw.mode = -1 then { rw with mode := flag } else rw) = rw' ∧
      rw'.mode = latch rw.mode flag ∧ ∀ k, rw'.handle k = rw.handle k := by
    refine ⟨_, rfl, ?_, ?_⟩
    · unfold latch
      split <;> rfl
    · intro k
      split <;> cases k <;> rfl
  unfold newRecordWriter
  rw [hrw]
  by_cases h1 : flag = 1
  · rw [if_pos h1]
    cases opens with
    | true =>
      refine ⟨_, _, if_pos rfl, hmode, .inl ⟨.file, h1, rfl, rfl, ?_, rfl⟩⟩
      intro l hl
      cases l with
      | file => exact absurd rfl hl
      | gzfile => exact hhandle .gzfile
    | false =>
      refine ⟨_, _, if_neg Bool.false_ne_true, hmode, .inr ⟨by simp, ?_, rfl⟩⟩
      intro k
      cases k with
      | file => exact .inl rfl
      | gzfile => exact .inr (hhandle .gzfile)
  · rw [if_neg h1]
    by_cases h0 : flag = 0
    · rw [if_pos h0]
      refine ⟨_, _, rfl, hmode, .inr ⟨?_, ?_, rfl⟩⟩
      · rintro k ⟨hk, -⟩
        rw [h0] at hk
        cases k <;> exact absurd hk (by decide)
      · intro k
        cases k with
        | file => exact .inl rfl
        | gzfile => exact .inr (hhandle .gzfile)
    · rw [if_neg h0]
      by_cases h2 : flag = 2
      · rw [if_pos h2]
        cases opens with
        | true =>
          refine ⟨_, _, if_pos rfl, hmode, .inl ⟨.gzfile, h2, rfl, rfl, ?_, rfl⟩⟩
          intro l hl
          cases l with
          | file => exact hhandle .file
          | gzfile => exact absurd rfl hl
        | false =>
          refine ⟨_, _, if_neg Bool.false_ne_true, hmode, .inr ⟨by simp, ?_, rfl⟩⟩
          intro k
          cases k with
          | file => exact .inr (hhandle .file)
          | gzfile => exact .inl rfl
      · rw [if_neg h2]
        refine ⟨_, _, rfl, hmode, .inr ⟨?_, fun k => .inr (hhandle k), rfl⟩⟩
        rintro k ⟨hk, -⟩
        cases k with
        | file => exact h1 hk
        | gzfile => exact h2 hk

/-- Writing and closing follow the mode. -/
theorem writeRecordWriter_of_mode {k : RecordKind} (h : rw.mode = k.mode) (evt : Event) :
    writeRecordWriter rw evt = [.write k (rw.handle k) evt] := by
  unfold writeRecordWriter
  rw [h]
  cases k <;> rfl

theorem closeRecordWriter_of_mode {k : RecordKind} (h : rw.mode = k.mode) :
    (closeRecordWriter rw : List (RecordOp Event)) = [.close k (rw.handle k)] := by
  unfold closeRecordWriter
  rw [h]
  cases k <;> rfl

theorem writeRecordWriter_of_other (h : ∀ k : RecordKind, rw.mode ≠ k.mode) (evt : Event) :
    writeRecordWriter rw evt = [] := by
  unfold writeRecordWriter
  rw [if_neg (show rw.mode ≠ 1 from h .file), if_neg (show rw.mode ≠ 2 from h .gzfile), ite_self]

theorem closeRecordWriter_of_other (h : ∀ k : RecordKind, rw.mode ≠ k.mode) :
    (closeRecordWriter rw : List (RecordOp Event)) = [] := by
  unfold closeRecordWriter
  rw [if_neg (show rw.mode ≠ 1 from h .file), if_neg (show rw.mode ≠ 2 from h .gzfile), ite_self]

/-- What an activation does after it has opened the record. -/
theorem recordEvents_uses (rw : RecordWriter) (events : List Event) :
    (∃ k : RecordKind, rw.mode = k.mode ∧
      events.flatMap (writeRecordWriter rw) ++ closeRecordWriter rw =
        events.map (.write k (rw.handle k)) ++ [.close k (rw.handle k)]) ∨
    ((∀ k : RecordKind, rw.mode ≠ k.mode) ∧
      events.flatMap (writeRecordWriter rw) ++ closeRecordWriter rw = []) := by
  by_cases hk : ∃ k : RecordKind, rw.mode = k.mode
  · obtain ⟨k, hk⟩ := hk
    refine .inl ⟨k, hk, ?_⟩
    rw [closeRecordWriter_of_mode hk, funext (writeRecordWriter_of_mode hk), List.map_eq_flatMap]
  · have hk' : ∀ k : RecordKind, rw.mode ≠ k.mode := fun k h => hk ⟨k, h⟩
    refine .inr ⟨hk', ?_⟩
    rw [closeRecordWriter_of_other hk', funext (writeRecordWriter_of_other hk')]
    simp

/-- What an activation does, in terms of what it has opened and of the mode. -/
structure RecordsAs (now : Nat) (a : Recording Event) (rw' : RecordWriter)
    (ops : List (RecordOp Event)) : Prop where
  earlier : rw'.Earlier (now + 1)
  opened : ∀ k h, RecordOp.opened k h ∈ ops ↔ h = now ∧ a.flag = k.mode ∧ a.opens = true
  handle : ∀ k, rw'.handle k = some now ↔ a.flag = k.mode ∧ a.opens = true
  uses : ∀ op ∈ ops, ∀ k h, Uses k h op → rw'.mode = k.mode ∧ h = rw'.handle k
  close : ∀ k : RecordKind, rw'.mode = k.mode → RecordOp.close k (rw'.handle k) ∈ ops
  closes : ∀ k : RecordKind, rw'.mode = k.mode → rw'.handle k = some now →
    ops.filter (RecordOp.closes k now) = [.close k (some now)]
  writes : ∀ k : RecordKind, rw'.mode = k.mode → rw'.handle k = some now →
    ops.filter (RecordOp.writesTo k now) = a.events.map (.write k (some now))

/-- What is opened, and where the pointers are then. -/
theorem newRecordWriter_spec (Event : Type) (he : rw.Earlier now) (opens : Bool) (flag : Int32) :
    ∃ rw' ops, (newRecordWriter now opens rw flag : _ × List (RecordOp Event)) = (rw', ops) ∧
      rw'.mode = latch rw.mode flag ∧ rw'.Earlier (now + 1) ∧
      (∀ k, rw'.handle k = some now ↔ flag = k.mode ∧ opens = true) ∧
      (∀ op, op ∈ ops ↔ ∃ k : RecordKind, op = .opened k now ∧ flag = k.mode ∧ opens = true) := by
  obtain ⟨rw', ops, hnew, hmode, ⟨k, hk, ho, hhandle, hother, rfl⟩ | ⟨hno, hhandle, rfl⟩⟩ :=
    newRecordWriter_cases Event now opens rw flag
  · refine ⟨rw', _, hnew, hmode, ?_, ?_, ?_⟩
    · intro l h hl
      by_cases hlk : l = k
      · rw [hlk, hhandle] at hl
        cases hl
        exact Nat.lt_succ_self now
      · rw [hother l hlk] at hl
        exact Nat.lt_succ_of_lt (he l h hl)
    · intro l
      constructor
      · intro hl
        by_cases hlk : l = k
        · rw [hlk]
          exact ⟨hk, ho⟩
        · rw [hother l hlk] at hl
          exact absurd (he l now hl) (Nat.lt_irrefl now)
      · rintro ⟨hl, -⟩
        rw [← RecordKind.mode_inj (hk.symm.trans hl)]
        exact hhandle
    · intro op
      rw [List.mem_singleton]
      constructor
      · rintro rfl
        exact ⟨k, rfl, hk, ho⟩
      · rintro ⟨l, rfl, hl, -⟩
        rw [RecordKind.mode_inj (hk.symm.trans hl)]
  · refine ⟨rw', _, hnew, hmode, ?_, ?_, ?_⟩
    · intro k h hk
      rcases hhandle k with hn | hn
      · rw [hn] at hk
        cases hk
      · rw [hn] at hk
        exact Nat.lt_succ_of_lt (he k h hk)
    · intro k
      refine iff_of_false ?_ (hno k)
      intro hk
      rcases hhandle k with hn | hn
      · rw [hn] at hk
        cases hk
      · rw [hn] at hk
        exact absurd (he k now hk) (Nat.lt_irrefl now)
    · intro op
      refine iff_of_false List.not_mem_nil ?_
      rintro ⟨k, -, hk⟩
      exact hno k hk

/-- Opening does not write or close. -/
theorem filter_opened {pre : List (RecordOp Event)} (hpre : ∀ op ∈ pre, ∃ k, op = .opened k now)
    {p : RecordOp Event → Bool} (hp : ∀ k, p (.opened k now) = false) : pre.filter p = [] := by
  rw [List.filter_eq_nil_iff]
  intro op hop
  obtain ⟨k, rfl⟩ := hpre op hop
  rw [hp]
  exact Bool.false_ne_true

theorem RecordOp.closes_uses {k : RecordKind} {h : Nat} {op : RecordOp Event}
    (hop : op.closes k h = true) : Uses k (some h) op := by
  cases op with
  | close l f =>
    obtain ⟨rfl, rfl⟩ := of_decide_eq_true hop
    exact .close
  | _ => cases hop

theorem RecordOp.writesTo_uses {k : RecordKind} {h : Nat} {op : RecordOp Event}
    (hop : op.writesTo k h = true) : Uses k (some h) op := by
  cases op with
  | write l f evt =>
    obtain ⟨rfl, rfl⟩ := of_decide_eq_true hop
    exact .write evt
  | _ => cases hop

/-- The writes and the close of an activation, picked out. -/
theorem filter_closes (k : RecordKind) (now : Nat) (events : List Event) :
    (events.map (RecordOp.write k (some now)) ++ [RecordOp.close k (some now)]).filter
      (RecordOp.closes k now) = [.close k (some now)] := by
  rw [List.filter_append, List.filter_eq_nil_iff.mpr, List.nil_append]
  · simp [RecordOp.closes]
  · intro op hop
    obtain ⟨evt, -, rfl⟩ := List.mem_map.mp hop
    exact Bool.false_ne_true

theorem filter_writesTo (k : RecordKind) (now : Nat) (events : List Event) :
    (events.map (RecordOp.write k (some now)) ++ [RecordOp.close k (some now)]).filter
      (RecordOp.writesTo k now) = events.map (.write k (some now)) := by
  rw [List.filter_append, List.filter_eq_self.mpr]
  · simp [RecordOp.writesTo]
  · intro op hop
    obtain ⟨evt, -, rfl⟩ := List.mem_map.mp hop
    simp [RecordOp.writesTo]

/-- An activation, as a whole. -/
theorem recordEvents_recorded (he : rw.Earlier now) (a : Recording Event) :
    ∃ rw' ops, recordEvents now rw a = (rw', ops) ∧ rw'.mode = latch rw.mode a.flag ∧
      RecordsAs now a rw' ops := by
  obtain ⟨rw', pre, hnew, hmode, hearlier, hhandle, hpre⟩ :=
    newRecordWriter_spec Event he a.opens a.flag
  obtain ⟨post, hpost⟩ : ∃ post,
      a.events.flatMap (writeRecordWriter rw') ++ closeRecordWriter rw' = post := ⟨_, rfl⟩
  refine ⟨rw', pre ++ post, ?_, hmode, ?_⟩
  · unfold recordEvents
    rw [hnew]
    show (rw', _ ++ _ ++ _) = _
    rw [List.append_assoc, hpost]
  have huses := recordEvents_uses rw' a.events
  rw [hpost] at huses
  have hopens : ∀ op ∈ pre, ∃ k, op = RecordOp.opened k now := by
    intro op hop
    obtain ⟨k, hk, -⟩ := (hpre op).mp hop
    exact ⟨k, hk⟩
  have hopened : ∀ k h, RecordOp.opened k h ∈ pre ↔ h = now ∧ a.flag = k.mode ∧ a.opens = true := by
    intro k h
    rw [hpre]
    constructor
    · rintro ⟨l, hl, hflag⟩
      cases hl
      exact ⟨rfl, hflag⟩
    · rintro ⟨rfl, hflag⟩
      exact ⟨k, rfl, hflag⟩
  rcases huses with ⟨k, hk, rfl⟩ | ⟨hk, rfl⟩
  · refine ⟨hearlier, ?_, hhandle, ?_, ?_, ?_, ?_⟩
    · intro l h
      rw [← hopened, List.mem_append]
      simp
    · intro op hop l h hl
      rw [List.mem_append] at hop
      rcases hop with hop | hop
      · obtain ⟨k', rfl⟩ := hopens op hop
        cases hl
      · rw [List.mem_append, List.mem_map, List.mem_singleton] at hop
        rcases hop with ⟨evt, -, rfl⟩ | rfl
        · cases hl
          exact ⟨hk, rfl⟩
        · cases hl
          exact ⟨hk, rfl⟩
    · intro l hl
      rw [← RecordKind.mode_inj (hk.symm.trans hl)]
      simp
    · intro l hl hnow
      obtain rfl := RecordKind.mode_inj (hk.symm.trans hl)
      rw [List.filter_append, filter_opened hopens fun _ => rfl, hnow, filter_closes,
        List.nil_append]
    · intro l hl hnow
      obtain rfl := RecordKind.mode_inj (hk.symm.trans hl)
      rw [List.filter_append, filter_opened hopens fun _ => rfl, hnow, filter_writesTo,
        List.nil_append]
  · rw [List.append_nil]
    refine ⟨hearlier, hopened, hhandle, ?_, fun k h => absurd h (hk k), fun k h => absurd h (hk k),
      fun k h => absurd h (hk k)⟩
    intro op hop k h hu
    obtain ⟨k', rfl⟩ := hopens op hop
    cases hu

end Activation

/-! ## All activations of a process -/

section Run

variable {Event : Type} {as : List (Recording Event)}

theorem foldl_latch (flags : List Int32) (mode : Int32) :
    flags.foldl latch mode = if mode = -1 then firstFlag flags else mode := by
  induction flags generalizing mode with
  | nil => simp [firstFlag]
  | cons f fs ih =>
    rw [List.foldl_cons, ih]
    unfold latch firstFlag
    by_cases hm : mode = -1
    · by_cases hf : f = -1
      · simp [hm, hf]
      · simp [hm, hf]
    · simp [hm]

/-- Every activation of a run is one as above, with the first flag as the mode. -/
theorem recordRun_recorded {now : Nat} {rw : RecordWriter} (he : rw.Earlier now) {i : Nat}
    {a : Recording Event} (ha : as[i]? = some a) :
    ∃ rw' ops, (recordRun now rw as)[i]? = some ops ∧
      rw'.mode = ((as.take (i + 1)).map (·.flag)).foldl latch rw.mode ∧
      RecordsAs (now + i) a rw' ops := by
  induction as generalizing now rw i with
  | nil => cases ha
  | cons b bs ih =>
    obtain ⟨rw', ops, hrec, hmode, hb⟩ := recordEvents_recorded he b
    cases i with
    | zero =>
      cases ha
      refine ⟨rw', ops, ?_, ?_, hb⟩
      · rw [recordRun, hrec]
        rfl
      · rw [hmode]
        rfl
    | succ i =>
      obtain ⟨rw'', ops', hops, hmode', hrec'⟩ := ih hb.earlier ha
      refine ⟨rw'', ops', ?_, ?_, ?_⟩
      · rw [recordRun, hrec]
        exact hops
      · rw [hmode', hmode]
        rfl
      · rw [Nat.add_right_comm] at hrec'
        exact hrec'

theorem recordRun_length (now : Nat) (rw : RecordWriter) (as : List (Recording Event)) :
    (recordRun now rw as).length = as.length := by
  induction as generalizing now rw with
  | nil => rfl
  | cons a as ih => rw [recordRun, List.length_cons, ih, List.length_cons]

theorem init_earlier : RecordWriter.init.Earlier 0 := by
  intro k h hk
  cases k <;> cases hk

/-- The same from the start. -/
theorem recordAll_recorded {i : Nat} {a : Recording Event} (ha : as[i]? = some a) :
    ∃ rw' ops, (recordAll as)[i]? = some ops ∧
      rw'.mode = firstFlag ((as.take (i + 1)).map (·.flag)) ∧ RecordsAs i a rw' ops := by
  obtain ⟨rw', ops, hops, hmode, hrec⟩ := recordRun_recorded init_earlier ha
  rw [foldl_latch, if_pos (show RecordWriter.init.mode = -1 from rfl)] at hmode
  rw [Nat.zero_add] at hrec
  exact ⟨rw', ops, hops, hmode, hrec⟩

theorem recordAll_activation {i : Nat} {ops : List (RecordOp Event)}
    (h : (recordAll as)[i]? = some ops) : ∃ a, as[i]? = some a := by
  obtain ⟨hi, -⟩ := List.getElem?_eq_some_iff.mp h
  rw [recordAll, recordRun_length] at hi
  exact ⟨as[i], List.getElem?_eq_getElem hi⟩

/-- What is only in one of the lists is found there. -/
theorem filter_flatten_of_only {α : Type} {ls : List (List α)} {p : α → Bool} {i : Nat} {l : List α}
    (hi : ls[i]? = some l) (honly : ∀ (j : Nat) l', ls[j]? = some l' → j ≠ i → l'.filter p = []) :
    ls.flatten.filter p = l.filter p := by
  induction ls generalizing i with
  | nil => cases hi
  | cons m ms ih =>
    rw [List.flatten_cons, List.filter_append]
    cases i with
    | zero =>
      cases hi
      have hrest : ms.flatten.filter p = [] := by
        rw [List.filter_eq_nil_iff]
        intro x hx
        obtain ⟨l', hl', hx⟩ := List.mem_flatten.mp hx
        obtain ⟨j, hj⟩ := List.mem_iff_getElem?.mp hl'
        have hnil := honly (j + 1) l' hj (Nat.succ_ne_zero j)
        exact List.filter_eq_nil_iff.mp hnil x hx
      rw [hrest, List.append_nil]
    | succ i =>
      rw [honly 0 m rfl (Nat.succ_ne_zero i).symm, List.nil_append]
      exact ih hi fun j l' hj hne => honly (j + 1) l' hj fun h => hne (Nat.succ.inj h)

/-- The activations that open what the mode says use no file but their own. -/
theorem OpensFirst.used (h : OpensFirst as) {i : Nat} {l : List (RecordOp Event)}
    (hl : (recordAll as)[i]? = some l) {op : RecordOp Event} (hop : op ∈ l) {k : RecordKind}
    {f : Option Nat} (hu : Uses k f op) : f = some i ∧ RecordOp.opened k i ∈ l := by
  obtain ⟨a, ha⟩ := recordAll_activation hl
  obtain ⟨rw', ops, hops, hmode, hrec⟩ := recordAll_recorded ha
  cases hl.symm.trans hops
  obtain ⟨hk, rfl⟩ := hrec.uses op hop k f hu
  have hflag := (h i a ha k).mp (hmode.symm.trans hk)
  exact ⟨(hrec.handle k).mpr hflag, (hrec.opened k i).mpr ⟨rfl, hflag⟩⟩

/-- **The writer owns its handles exactly in the processes where every activation opens the
record that the first flag asks for, and no other.** -/
theorem ownsHandles_iff (as : List (Recording Event)) :
    OwnsHandles as (recordAll as) ↔ OpensFirst as := by
  constructor
  · intro h i a ha k
    obtain ⟨rw', ops, hops, hmode, hrec⟩ := recordAll_recorded ha
    rw [← hmode]
    constructor
    · intro hk
      -- the record is closed, and so it was opened here
      have hused := h.used i ops hops _ (hrec.close k hk) k _ .close
      exact ((hrec.opened k i).mp hused.2).2
    · intro hflag
      -- what was opened is closed somewhere, and that can only be here
      have hclosed := h.closed i ops hops k i ((hrec.opened k i).mpr ⟨rfl, hflag⟩)
      have hmem : RecordOp.close k (some i) ∈ (recordAll as).flatten :=
        List.mem_of_mem_filter (hclosed ▸ List.mem_singleton_self _)
      obtain ⟨l, hl, hmem⟩ := List.mem_flatten.mp hmem
      obtain ⟨j, hj⟩ := List.mem_iff_getElem?.mp hl
      obtain ⟨hij, -⟩ := h.used j l hj _ hmem k _ .close
      cases hij
      cases hops.symm.trans hj
      exact (hrec.uses _ hmem k _ .close).1
  · intro h
    -- another activation neither closes nor writes what this one has opened
    have honly : ∀ {p : RecordOp Event → Bool} {i : Nat} {k : RecordKind},
        (∀ op, p op = true → Uses k (some i) op) → ∀ (j : Nat) l, (recordAll as)[j]? = some l →
        j ≠ i → l.filter p = [] := by
      intro p i k hp j l hl hne
      rw [List.filter_eq_nil_iff]
      intro op hop hpop
      obtain ⟨hij, -⟩ := h.used hl hop (hp op hpop)
      exact hne (Option.some.inj hij).symm
    refine ⟨fun i l hl op hop k f hu => h.used hl hop hu, ?_, ?_⟩
    · intro i l hl k f hopened
      obtain ⟨a, ha⟩ := recordAll_activation hl
      obtain ⟨rw', ops, hops, hmode, hrec⟩ := recordAll_recorded ha
      cases hl.symm.trans hops
      obtain ⟨rfl, hflag⟩ := (hrec.opened k f).mp hopened
      rw [filter_flatten_of_only hl (honly fun op => RecordOp.closes_uses)]
      exact hrec.closes k (hmode.trans ((h f a ha k).mpr hflag)) ((hrec.handle k).mpr hflag)
    · intro i a ha k hk ho
      obtain ⟨rw', ops, hops, hmode, hrec⟩ := recordAll_recorded ha
      rw [filter_flatten_of_only hops (honly fun op => RecordOp.writesTo_uses)]
      exact hrec.writes k (hmode.trans ((h i a ha k).mpr ⟨hk, ho⟩)) ((hrec.handle k).mpr ⟨hk, ho⟩)

/-- **The writer writes to `NULL`**: the thread was recorded when the monitor was first
activated, and recording has been turned off since. -/
theorem record_flag_changed : ¬ ∀ as : List (Recording Nat), OwnsHandles as (recordAll as) := by
  intro hall
  have hopens := hall [⟨1, [7], true⟩, ⟨0, [8], true⟩]
  obtain ⟨hused, -⟩ := hopens.used 1 [.write .file none 8, .close .file none] rfl
    (.write .file none 8) (by simp) .file none (.write 8)
  cases hused

end Run

end NoDrop
