import NoDrop.Rendering

/-! # The fields a script asks for

`monitor/src/lua_field.c`: a script asks for a field with `chisel.request_field`, gets an
index, and reads the field of the current event with `evt.field` and this index.

The fields asked for are in a table with sixteen entries.  The table is the monitor's, not the
script's: when the script is loaded again, or another one, its requests are added to those of
all scripts before it.  So the requests of all loads together must not be more than sixteen
(`fieldsSurvive_iff`).
-/
namespace NoDrop

open Bytes Numerals

/-! ## Data -/

/-- `enum nod_field_kind`. -/
inductive FieldKind where
  | evtTime | evtType | evtTid | evtArg
deriving DecidableEq, Repr

/-- `struct nod_field_desc`. -/
structure FieldDesc where
  kind : FieldKind
  argName : List UInt8
deriving DecidableEq, Repr

/-- `NOD_MAX_FIELDS`. -/
def nodMaxFields : Nat := 16

/-- `NOD_MAX_ARG_NAME`. -/
def nodMaxArgName : Nat := 32

/-- A name that a script may ask for. -/
inductive FieldName where
  | time | type | tid
  | arg (name : { n : List UInt8 // n.length < nodMaxArgName ∧ 0 ∉ n })

/-- The name as it is written. -/
def FieldName.text : FieldName → List UInt8
  | .time => ascii "evt.time"
  | .type => ascii "evt.type"
  | .tid => ascii "evt.tid"
  | .arg name => ascii "evt.arg." ++ name

/-! ## `monitor/src/lua_field.c` -/

/-- `lua_request_field`: the index or the message of the error, and the table afterwards, of
which the first `g_nr_fields` entries are kept. -/
def luaRequestField (gFields : List FieldDesc) (s : List UInt8) :
    Except (List UInt8) Nat × List FieldDesc :=
  if nodMaxFields ≤ gFields.length then
    (.error (ascii "too many fields requested (max 16)"), gFields)
  else if s = ascii "evt.time" then (.ok gFields.length, gFields ++ [⟨.evtTime, []⟩])
  else if s = ascii "evt.type" then (.ok gFields.length, gFields ++ [⟨.evtType, []⟩])
  else if s = ascii "evt.tid" then (.ok gFields.length, gFields ++ [⟨.evtTid, []⟩])
  else if s.take 8 = ascii "evt.arg." then
    (.ok gFields.length, gFields ++ [⟨.evtArg, (s.drop 8).take (nodMaxArgName - 1)⟩])
  else (.error (ascii "unknown field: " ++ s), gFields)

/-- The loop of `push_arg_as_string`, from parameter `i` on. -/
def pushArgLoop (img : Image) (argName : List UInt8) : List Param → Nat → Nat → Option (List UInt8)
  | [], _, _ => none
  | p :: ps, i, data =>
      if ascii p.text.name = argName then some (tmpText p img data (argAt img i))
      else pushArgLoop img argName ps (i + 1) (data + argAt img i)

/-- `push_arg_as_string`; without such an argument, `nil`. -/
def pushArgAsString (hdr : EventHdr) (img : Image) (argName : List UInt8) : Option (List UInt8) :=
  pushArgLoop img argName (eventParams hdr.type) 0 (2 * (gEventInfo hdr.type).nparams)

/-- `lua_evt_field`: the value, or the message of the error. -/
def luaEvtField (gFields : List FieldDesc) (evt : Option (EventHdr × Image)) (idx : Int) :
    Except (List UInt8) (Option (List UInt8)) :=
  match evt with
  | none => .error (ascii "evt.field() called with no current event")
  | some (hdr, img) =>
      if idx < 0 then .error (ascii "invalid field index " ++ decimal 0 idx)
      else
        match gFields[idx.toNat]? with
        | none => .error (ascii "invalid field index " ++ decimal 0 idx)
        | some f =>
            match f.kind with
            | .evtTime => .ok (some (numeral 10 hdr.ts.toNat))
            | .evtType => .ok (some (ascii (gEventText hdr.type).name))
            | .evtTid => .ok (some (numeral 10 hdr.tid.toNat))
            | .evtArg => .ok (pushArgAsString hdr img f.argName)

/-- A script is loaded and makes its requests: their results, and the table afterwards.  The
script may go on after an error. -/
def requestFields : List FieldDesc → List FieldName →
    List (Except (List UInt8) Nat) × List FieldDesc
  | gFields, [] => ([], gFields)
  | gFields, f :: fs =>
      let r := luaRequestField gFields f.text
      let rs := requestFields r.2 fs
      (r.1 :: rs.1, rs.2)

/-- The loads of a monitor, one after the other. -/
def fieldLoads : List FieldDesc → List (List FieldName) →
    List (List (Except (List UInt8) Nat) × List FieldDesc)
  | _, [] => []
  | gFields, fs :: loads =>
      requestFields gFields fs :: fieldLoads (requestFields gFields fs).2 loads

/-! ## What the code is for -/

/-- Where the bytes of argument `i` are. -/
def argData (ty : EventType) (img : Image) (i : Nat) : Nat :=
  2 * (gEventInfo ty).nparams + ((List.range i).map (argAt img)).sum

/-- What a name stands for, in an event.  An argument is the first one with the name. -/
def fieldValue (f : FieldName) (hdr : EventHdr) (img : Image) : Option (List UInt8) :=
  match f with
  | .time => some (numeral 10 hdr.ts.toNat)
  | .type => some (ascii (gEventText hdr.type).name)
  | .tid => some (numeral 10 hdr.tid.toNat)
  | .arg name =>
      ((List.range (gEventInfo hdr.type).nparams).find? fun i =>
        ascii ((gEventText hdr.type).param i).name = name).map fun i =>
          tmpText ⟨((gEventInfo hdr.type).param i).type, (gEventText hdr.type).param i⟩ img
            (argData hdr.type img i) (argAt img i)

/-- Every request of a load has succeeded, and with its index the script reads, in every
event, the field it asked for. -/
def LoadServed (fs : List FieldName)
    (r : List (Except (List UInt8) Nat) × List FieldDesc) : Prop :=
  List.Forall₂ (fun f res => ∃ idx : Nat, res = .ok idx ∧
    ∀ hdr img, luaEvtField r.2 (some (hdr, img)) idx = .ok (fieldValue f hdr img)) fs r.1

/-- Every load is served. -/
def FieldsSurvive (loads : List (List FieldName)) : Prop :=
  List.Forall₂ LoadServed loads (fieldLoads [] loads)

/-! ## Requests -/

section Requests

variable {gFields : List FieldDesc}

/-- The entry of a name. -/
def FieldName.desc : FieldName → FieldDesc
  | .time => ⟨.evtTime, []⟩
  | .type => ⟨.evtType, []⟩
  | .tid => ⟨.evtTid, []⟩
  | .arg name => ⟨.evtArg, name⟩

/-- A request succeeds as long as there is room in the table. -/
theorem luaRequestField_text (gFields : List FieldDesc) (f : FieldName) :
    luaRequestField gFields f.text =
      if nodMaxFields ≤ gFields.length then
        (.error (ascii "too many fields requested (max 16)"), gFields)
      else (.ok gFields.length, gFields ++ [f.desc]) := by
  unfold luaRequestField
  split
  · rfl
  · cases f with
    | time => exact if_pos rfl
    | type =>
      rw [if_neg (by decide)]
      exact if_pos rfl
    | tid =>
      rw [if_neg (by decide), if_neg (by decide)]
      exact if_pos rfl
    | arg name =>
      -- the eight characters before the name tell it from the other three
      have hlen : (ascii "evt.arg.").length = 8 := by decide
      have hname : name.1.length ≤ nodMaxArgName - 1 := Nat.le_sub_one_of_lt name.2.1
      have htake : (FieldName.arg name).text.take 8 = ascii "evt.arg." := List.take_left' hlen
      have hdrop : (FieldName.arg name).text.drop 8 = name := List.drop_left' hlen
      have hne : ∀ lit, (ascii lit).take 8 ≠ ascii "evt.arg." →
          (FieldName.arg name).text ≠ ascii lit := by
        intro lit hlit heq
        rw [heq] at htake
        exact hlit htake
      rw [if_neg (hne _ (by decide)), if_neg (hne _ (by decide)), if_neg (hne _ (by decide)),
        if_pos htake, hdrop, List.take_of_length_le hname]
      rfl

/-- The loop finds the first argument with the name. -/
theorem pushArgLoop_eq (ty : EventType) (img : Image) (argName : List UInt8) (i n : Nat) :
    pushArgLoop img argName ((List.range' i n).map fun i =>
        ⟨((gEventInfo ty).param i).type, (gEventText ty).param i⟩) i (argData ty img i) =
      ((List.range' i n).find? fun i => ascii ((gEventText ty).param i).name = argName).map fun i =>
        tmpText ⟨((gEventInfo ty).param i).type, (gEventText ty).param i⟩ img
          (argData ty img i) (argAt img i) := by
  induction n generalizing i with
  | zero => rfl
  | succ n ih =>
    have hnext : argData ty img i + argAt img i = argData ty img (i + 1) := by
      simp [argData, List.range_succ, Nat.add_assoc]
    rw [List.range'_succ, List.map_cons, pushArgLoop, List.find?_cons]
    by_cases hname : ascii ((gEventText ty).param i).name = argName
    · rw [if_pos hname, decide_eq_true hname]
      rfl
    · rw [if_neg hname, decide_eq_false hname, hnext]
      exact ih (i + 1)

/-- With its entry in the table, a name is read as what it stands for. -/
theorem luaEvtField_desc {i : Nat} {f : FieldName} (h : gFields[i]? = some f.desc)
    (hdr : EventHdr) (img : Image) :
    luaEvtField gFields (some (hdr, img)) i = .ok (fieldValue f hdr img) := by
  have hi : ¬(i : Int) < 0 := by omega
  simp only [luaEvtField, if_neg hi, Int.toNat_natCast, h]
  cases f with
  | time => rfl
  | type => rfl
  | tid => rfl
  | arg name =>
    have hloop := pushArgLoop_eq hdr.type img name 0 (gEventInfo hdr.type).nparams
    rw [← List.range_eq_range'] at hloop
    exact congrArg _ hloop

/-- What was in the table stays there. -/
theorem requestFields_extends (gFields : List FieldDesc) (fs : List FieldName) :
    ∃ more, (requestFields gFields fs).2 = gFields ++ more := by
  induction fs generalizing gFields with
  | nil => exact ⟨[], (List.append_nil _).symm⟩
  | cons f fs ih =>
    rw [requestFields, luaRequestField_text]
    by_cases hfull : nodMaxFields ≤ gFields.length
    · rw [if_pos hfull]
      exact ih gFields
    · rw [if_neg hfull]
      obtain ⟨more, hmore⟩ := ih (gFields ++ [f.desc])
      exact ⟨f.desc :: more, hmore.trans (List.append_cons ..).symm⟩

/-- A load is served when there is room for its requests. -/
theorem loadServed_iff (hroom : gFields.length ≤ nodMaxFields) (fs : List FieldName) :
    LoadServed fs (requestFields gFields fs) ↔ gFields.length + fs.length ≤ nodMaxFields := by
  induction fs generalizing gFields with
  | nil => exact iff_of_true .nil hroom
  | cons f fs ih =>
    unfold LoadServed
    rw [requestFields, luaRequestField_text, List.length_cons]
    by_cases hfull : nodMaxFields ≤ gFields.length
    · -- the first request fails
      rw [if_pos hfull]
      refine iff_of_false ?_ (by omega)
      rintro (_ | ⟨⟨idx, hidx, -⟩, -⟩)
      cases hidx
    · rw [if_neg hfull]
      have hroom' : (gFields ++ [f.desc]).length ≤ nodMaxFields := by
        rw [List.length_append, List.length_singleton]
        omega
      have ih := ih hroom'
      rw [List.length_append, List.length_singleton] at ih
      obtain ⟨more, hmore⟩ := requestFields_extends (gFields ++ [f.desc]) fs
      have hget : (requestFields (gFields ++ [f.desc]) fs).2[gFields.length]? = some f.desc := by
        rw [hmore]
        simp
      constructor
      · intro h
        have hrest := ih.mp (List.forall₂_cons.mp h).2
        omega
      · intro h
        exact .cons ⟨gFields.length, rfl, luaEvtField_desc hget⟩ (ih.mpr (by omega))

/-- The entries of a load that is served. -/
theorem requestFields_length (hroom : gFields.length ≤ nodMaxFields) {fs : List FieldName}
    (h : gFields.length + fs.length ≤ nodMaxFields) :
    (requestFields gFields fs).2.length = gFields.length + fs.length := by
  induction fs generalizing gFields with
  | nil => rfl
  | cons f fs ih =>
    rw [List.length_cons] at h
    rw [requestFields, luaRequestField_text, if_neg (by omega)]
    have hlen : (gFields ++ [f.desc]).length = gFields.length + 1 := by simp
    have ih := ih (hlen.symm ▸ (by omega : gFields.length + 1 ≤ nodMaxFields)) (by omega)
    show (requestFields (gFields ++ [f.desc]) fs).2.length = gFields.length + (fs.length + 1)
    omega

theorem fieldLoads_served_iff (hroom : gFields.length ≤ nodMaxFields)
    (loads : List (List FieldName)) :
    List.Forall₂ LoadServed loads (fieldLoads gFields loads) ↔
      gFields.length + (loads.map List.length).sum ≤ nodMaxFields := by
  induction loads generalizing gFields with
  | nil => exact iff_of_true .nil hroom
  | cons fs loads ih =>
    rw [fieldLoads, List.forall₂_cons, loadServed_iff hroom, List.map_cons, List.sum_cons]
    by_cases hfs : gFields.length + fs.length ≤ nodMaxFields
    · have hlen := requestFields_length hroom hfs
      rw [ih (hlen ▸ hfs), hlen, Nat.add_assoc]
      exact and_iff_right hfs
    · exact iff_of_false (fun h => hfs h.1) (by omega)

end Requests

/-- **The fields survive reloads exactly as long as all loads together ask for no more than the
table has entries.** -/
theorem fieldsSurvive_iff (loads : List (List FieldName)) :
    FieldsSurvive loads ↔ (loads.map List.length).sum ≤ nodMaxFields := by
  unfold FieldsSurvive
  rw [fieldLoads_served_iff (Nat.zero_le _), List.length_nil, Nat.zero_add]

/-- **A script that asks for nine fields cannot be loaded twice.** -/
theorem fields_exhausted : ¬ ∀ loads : List (List FieldName),
    (∀ fs ∈ loads, fs.length ≤ nodMaxFields) → FieldsSurvive loads := by
  intro hall
  have h := hall [List.replicate 9 .time, List.replicate 9 .time] (by decide)
  exact absurd ((fieldLoads_served_iff (Nat.zero_le _) _).mp h) (by decide)

end NoDrop
