import NoDrop.Lib.Runs
import Mathlib.Data.UInt
import Mathlib.Logic.Function.Basic

/-! # Which script the monitors run

The path of the Lua script and its time of modification are one variable of the kernel
module, `g_lua_state`, which is read and written as a whole by two `ioctl`s of
`kmodule/proc.c`.  The control program writes it when it selects a script
(`scripts/ctrl/nodrop-ctl.c`).  Every monitor reads it when it starts, looks at the file,
and if the file has changed writes back what it has read with the new time
(`monitor/src/startup.c`).

Each `ioctl` is one atomic step here, and the monitors and the control program may take
theirs in any order.  A monitor writes the path back with the time.  If another script has
been selected since the monitor read the state, that selection is lost
(`selection_lost`); it is lost in no other way (`selection_kept_iff`).
-/
namespace NoDrop

open Runs

/-! ## Data -/

/-- `struct nod_lua_state`, with the path as the string it is. -/
structure LuaState where
  luaPath : List UInt8
  luaMtime : UInt64
deriving DecidableEq, Repr

/-- Where a monitor is in its refresh, and its `kstate`. -/
inductive RefreshPc where
  | out
  /-- Before `stat`. -/
  | read (kstate : LuaState)
  /-- Before `NOD_IOCTL_SET_LUA_STATE`. -/
  | changed (kstate : LuaState)
deriving DecidableEq, Repr

/-- The monitor's copy of the state. -/
def RefreshPc.kstate : RefreshPc → Option LuaState
  | .out => none
  | .read kstate | .changed kstate => some kstate

/-- `g_lua_state` and the monitors `ι`. -/
structure LuaSystem (ι : Type) where
  gLuaState : LuaState
  monitor : ι → RefreshPc

/-- What happens, as one atomic step. -/
inductive LuaAct (ι : Type) where
  /-- `NOD_IOCTL_GET_LUA_STATE` by a monitor, which may fail. -/
  | get (m : ι) (ok : Bool)
  /-- `stat` of the path: the file's `st_mtime`, or failure. -/
  | stat (m : ι) (mtime : Option UInt64)
  /-- `NOD_IOCTL_SET_LUA_STATE` by a monitor. -/
  | set (m : ι)
  /-- `NOD_IOCTL_SET_LUA_STATE` by the control program. -/
  | select (state : LuaState)

/-! ## The code -/

section Code

variable {ι : Type} [DecidableEq ι]

/-- The module is loaded, and no monitor runs. -/
def LuaSystem.init : LuaSystem ι := ⟨⟨[], 0⟩, fun _ => .out⟩

/-- Monitor `m` goes on to `pc`. -/
def LuaSystem.goto (s : LuaSystem ι) (m : ι) (pc : RefreshPc) : LuaSystem ι :=
  { s with monitor := Function.update s.monitor m pc }

/-- The refresh in `nod_start_main` once it has its `kstate`: without a time there is
nothing to refresh. -/
def refreshed (kstate : LuaState) : RefreshPc :=
  if kstate.luaMtime ≠ 0 then .read kstate else .out

/-- The refresh once `stat` has returned. -/
def restated (kstate : LuaState) (mtime : Option UInt64) : RefreshPc :=
  match mtime with
  | none => .out
  | some t => if t ≠ kstate.luaMtime then .changed { kstate with luaMtime := t } else .out

/-- One step. -/
def luaStep (s : LuaSystem ι) : LuaAct ι → Option (LuaSystem ι)
  | .get m ok =>
    match s.monitor m with
    | .out => some (s.goto m (refreshed (if ok then s.gLuaState else ⟨[], 0⟩)))
    | _ => none
  | .stat m mtime =>
    match s.monitor m with
    | .read kstate => some (s.goto m (restated kstate mtime))
    | _ => none
  | .set m =>
    match s.monitor m with
    | .changed kstate => some ({ s with gLuaState := kstate }.goto m .out)
    | _ => none
  | .select state => some { s with gLuaState := state }

/-! ## The selection -/

/-- What the control program has done: the path it selected last, and for each monitor the
path that was selected when the monitor last read the state. -/
structure Selection (ι : Type) where
  path : List UInt8
  seen : ι → List UInt8

/-- The selection after a step. -/
def Selection.after (c : Selection ι) : LuaAct ι → Selection ι
  | .get m _ => { c with seen := Function.update c.seen m c.path }
  | .stat .. | .set _ => c
  | .select state => { c with path := state.luaPath }

/-- The selection after some steps of a run.  At first no script is selected. -/
def selection (tr : List (LuaSystem ι × LuaAct ι)) : Selection ι :=
  (tr.map Prod.snd).foldl Selection.after ⟨[], fun _ => []⟩

/-- In every state of the run `g_lua_state.lua_path` is the path selected last. -/
def KeepsSelection (tr : List (LuaSystem ι × LuaAct ι)) (t : LuaSystem ι) : Prop :=
  (∀ pre s a post, tr = pre ++ (s, a) :: post → s.gLuaState.luaPath = (selection pre).path) ∧
    t.gLuaState.luaPath = (selection tr).path

/-- Whenever a monitor writes the state back, the script selected is the one that was
selected when it read the state. -/
def RefreshesUndisturbed (tr : List (LuaSystem ι × LuaAct ι)) : Prop :=
  ∀ pre s m post, tr = pre ++ (s, LuaAct.set m) :: post →
    (selection pre).seen m = (selection pre).path

end Code

/-! ## When it is kept -/

section Kept

variable {ι : Type} [DecidableEq ι] {s t : LuaSystem ι} {a : LuaAct ι}
  {tr : List (LuaSystem ι × LuaAct ι)}

/-- What a step does. -/
theorem luaStep_cases (h : stepOf luaStep s a t) :
    (∃ m ok, a = .get m ok ∧
      t = s.goto m (refreshed (if ok then s.gLuaState else ⟨[], 0⟩))) ∨
    (∃ m mtime kstate, a = .stat m mtime ∧ s.monitor m = .read kstate ∧
      t = s.goto m (restated kstate mtime)) ∨
    (∃ m kstate, a = .set m ∧ s.monitor m = .changed kstate ∧
      t = { s with gLuaState := kstate }.goto m .out) ∨
    (∃ state, a = .select state ∧ t = { s with gLuaState := state }) := by
  cases a with
  | get m ok =>
    simp only [stepOf, luaStep] at h
    split at h
    · exact .inl ⟨m, ok, rfl, (Option.some.inj h).symm⟩
    · cases h
  | stat m mtime =>
    simp only [stepOf, luaStep] at h
    split at h
    · exact .inr (.inl ⟨m, mtime, _, rfl, ‹_›, (Option.some.inj h).symm⟩)
    · cases h
  | set m =>
    simp only [stepOf, luaStep] at h
    split at h
    · exact .inr (.inr (.inl ⟨m, _, rfl, ‹_›, (Option.some.inj h).symm⟩))
    · cases h
  | select state => exact .inr (.inr (.inr ⟨state, rfl, (Option.some.inj h).symm⟩))

omit [DecidableEq ι] in
theorem refreshed_kstate {kstate k : LuaState} (h : (refreshed kstate).kstate = some k) :
    k = kstate := by
  unfold refreshed at h
  split at h
  · exact (Option.some.inj h).symm
  · cases h

omit [DecidableEq ι] in
theorem restated_path {kstate k : LuaState} {mtime : Option UInt64}
    (h : (restated kstate mtime).kstate = some k) : k.luaPath = kstate.luaPath := by
  unfold restated at h
  split at h
  · cases h
  · split at h
    · rw [← Option.some.inj h]
    · cases h

theorem goto_kstate {m n : ι} {pc : RefreshPc} {k : LuaState}
    (h : ((s.goto m pc).monitor n).kstate = some k) :
    (n = m ∧ pc.kstate = some k) ∨ (n ≠ m ∧ (s.monitor n).kstate = some k) := by
  have h : (Function.update s.monitor m pc n).kstate = some k := h
  by_cases hn : n = m
  · subst hn
    rw [Function.update_self] at h
    exact .inl ⟨rfl, h⟩
  · rw [Function.update_of_ne hn] at h
    exact .inr ⟨hn, h⟩

/-- Every monitor's copy has the path that was selected when it was made. -/
def CopiesSeen (c : Selection ι) (s : LuaSystem ι) : Prop :=
  ∀ m kstate, (s.monitor m).kstate = some kstate → kstate.luaPath = c.seen m

/-- A monitor that reads the state while it has the selected path reads that path. -/
theorem CopiesSeen.step {c : Selection ι} (hc : CopiesSeen c s)
    (hpath : s.gLuaState.luaPath = c.path) (h : stepOf luaStep s a t) :
    CopiesSeen (c.after a) t := by
  intro n k hk
  rcases luaStep_cases h with ⟨m, ok, rfl, rfl⟩ | ⟨m, mtime, kstate, rfl, hread, rfl⟩ |
    ⟨m, kstate, rfl, hchanged, rfl⟩ | ⟨state, rfl, rfl⟩
  · rcases goto_kstate hk with ⟨rfl, hkept⟩ | ⟨hne, hk⟩
    · show k.luaPath = Function.update c.seen n c.path n
      rw [Function.update_self, refreshed_kstate hkept, ← hpath]
      cases ok with
      | true => rfl
      | false =>
        -- the state of a failed read has no time, and is not kept
        simp [refreshed, RefreshPc.kstate] at hkept
    · show k.luaPath = Function.update c.seen m c.path n
      rw [Function.update_of_ne hne]
      exact hc n k hk
  · rcases goto_kstate hk with ⟨rfl, hkept⟩ | ⟨-, hk⟩
    · rw [restated_path hkept]
      exact hc n kstate (by rw [hread]; rfl)
    · exact hc n k hk
  · rcases goto_kstate hk with ⟨-, hk⟩ | ⟨-, hk⟩
    · cases hk
    · exact hc n k hk
  · exact hc n k hk

/-- A step keeps the selection unless it writes back a path that is no longer selected. -/
theorem step_keeps_iff {c : Selection ι} (hc : CopiesSeen c s)
    (hpath : s.gLuaState.luaPath = c.path) (h : stepOf luaStep s a t) :
    t.gLuaState.luaPath = (c.after a).path ↔ ∀ m, a = .set m → c.seen m = c.path := by
  rcases luaStep_cases h with ⟨m, ok, rfl, rfl⟩ | ⟨m, mtime, kstate, rfl, hread, rfl⟩ |
    ⟨m, kstate, rfl, hchanged, rfl⟩ | ⟨state, rfl, rfl⟩
  · exact iff_of_true hpath fun n hn => by cases hn
  · exact iff_of_true hpath fun n hn => by cases hn
  · have hk : kstate.luaPath = c.seen m := hc m kstate (by rw [hchanged]; rfl)
    show kstate.luaPath = c.path ↔ _
    rw [hk]
    constructor
    · rintro heq n hn
      cases hn
      exact heq
    · exact fun hall => hall m rfl
  · exact iff_of_true rfl fun n hn => by cases hn

omit [DecidableEq ι] in
theorem snoc_eq_split {x : LuaSystem ι × LuaAct ι} {pre post : List (LuaSystem ι × LuaAct ι)}
    {y : LuaSystem ι × LuaAct ι} (h : tr ++ [x] = pre ++ y :: post) :
    (∃ post', tr = pre ++ y :: post') ∨ (tr = pre ∧ x = y) := by
  rcases List.eq_nil_or_concat post with rfl | ⟨post', z, rfl⟩
  · obtain ⟨rfl, hx⟩ := List.append_inj' h rfl
    exact .inr ⟨rfl, (List.cons.inj hx).1⟩
  · rw [List.concat_eq_append, ← List.cons_append, ← List.append_assoc] at h
    exact .inl ⟨post', (List.append_inj' h rfl).1⟩

theorem selection_snoc (tr : List (LuaSystem ι × LuaAct ι)) (s : LuaSystem ι) (a : LuaAct ι) :
    selection (tr ++ [(s, a)]) = (selection tr).after a := by
  simp [selection]

theorem keepsSelection_snoc :
    KeepsSelection (tr ++ [(s, a)]) t ↔
      KeepsSelection tr s ∧ t.gLuaState.luaPath = ((selection tr).after a).path := by
  unfold KeepsSelection
  rw [selection_snoc]
  constructor
  · rintro ⟨hall, hlast⟩
    refine ⟨⟨?_, hall tr s a [] rfl⟩, hlast⟩
    rintro pre u b post rfl
    exact hall pre u b (post ++ [(s, a)]) (by simp)
  · rintro ⟨⟨hall, hs⟩, hlast⟩
    refine ⟨?_, hlast⟩
    intro pre u b post he
    rcases snoc_eq_split he with ⟨post', rfl⟩ | ⟨rfl, heq⟩
    · exact hall pre u b post' rfl
    · cases heq
      exact hs

theorem refreshesUndisturbed_snoc :
    RefreshesUndisturbed (tr ++ [(s, a)]) ↔
      RefreshesUndisturbed tr ∧
        ∀ m, a = .set m → (selection tr).seen m = (selection tr).path := by
  constructor
  · intro hall
    refine ⟨?_, ?_⟩
    · rintro pre u m post rfl
      exact hall pre u m (post ++ [(s, a)]) (by simp)
    · rintro m rfl
      exact hall tr s m [] rfl
  · rintro ⟨hall, hlast⟩ pre u m post he
    rcases snoc_eq_split he with ⟨post', rfl⟩ | ⟨rfl, heq⟩
    · exact hall pre u m post' rfl
    · cases heq
      exact hlast m rfl

/-- **The selection is kept exactly in the runs whose refreshes are undisturbed.** -/
theorem selection_kept_iff (hrun : Run (stepOf luaStep) LuaSystem.init tr t) :
    KeepsSelection tr t ↔ RefreshesUndisturbed tr := by
  -- as long as the selection is kept, the copies of the monitors have the paths they saw
  have hboth : (KeepsSelection tr t ↔ RefreshesUndisturbed tr) ∧
      (KeepsSelection tr t → CopiesSeen (selection tr) t) := by
    induction hrun with
    | nil =>
      refine ⟨iff_of_true ⟨?_, rfl⟩ ?_, fun _ m k hk => by cases hk⟩
      · intro pre u b post he
        cases pre <;> cases he
      · intro pre u m post he
        cases pre <;> cases he
    | snoc _ hstep ih =>
      obtain ⟨ihiff, ihseen⟩ := ih
      rw [keepsSelection_snoc, refreshesUndisturbed_snoc, selection_snoc, ← ihiff]
      refine ⟨and_congr_right fun hk => step_keeps_iff (ihseen hk) hk.2 hstep, ?_⟩
      rintro ⟨hk, -⟩
      exact (ihseen hk).step hk.2 hstep
  exact hboth.1

end Kept

/-! ## One monitor -/

/-- A script, and another one. -/
def scriptA : LuaState := ⟨[47, 97], 1⟩
def scriptB : LuaState := ⟨[47, 98], 1⟩

/-- The monitor finds the script changed, and nobody interferes. -/
theorem selection_kept_alone : ∃ tr t,
    Run (stepOf luaStep) (LuaSystem.init : LuaSystem Unit) tr t ∧
      t.gLuaState = ⟨[47, 97], 2⟩ ∧ KeepsSelection tr t := by
  have hrun : Run (stepOf luaStep) (LuaSystem.init : LuaSystem Unit)
      [(LuaSystem.init, .select scriptA),
        (⟨scriptA, fun _ => .out⟩, .get () true),
        (LuaSystem.goto ⟨scriptA, fun _ => .out⟩ () (.read scriptA), .stat () (some 2)),
        (LuaSystem.goto (LuaSystem.goto ⟨scriptA, fun _ => .out⟩ () (.read scriptA)) ()
          (.changed ⟨[47, 97], 2⟩), .set ())]
      (LuaSystem.goto ⟨⟨[47, 97], 2⟩, _⟩ () .out) :=
    (((Run.nil.snoc rfl).snoc rfl).snoc rfl).snoc rfl
  refine ⟨_, _, hrun, rfl, (selection_kept_iff hrun).mpr ?_⟩
  intro pre s m post he
  rcases pre with _ | ⟨x, _ | ⟨y, _ | ⟨z, _ | ⟨w, pre⟩⟩⟩⟩
  · cases he
  · cases he
  · cases he
  · cases he
    rfl
  · simp at he

/-- **A selection is lost** when it is made while a monitor holds the script before it,
which has changed. -/
theorem selection_lost : ¬ ∀ (tr : List (LuaSystem Unit × LuaAct Unit)) (t : LuaSystem Unit),
    Run (stepOf luaStep) LuaSystem.init tr t → KeepsSelection tr t := by
  intro h
  have hrun : Run (stepOf luaStep) (LuaSystem.init : LuaSystem Unit)
      [(LuaSystem.init, .select scriptA),
        (⟨scriptA, fun _ => .out⟩, .get () true),
        (LuaSystem.goto ⟨scriptA, fun _ => .out⟩ () (.read scriptA), .select scriptB),
        (LuaSystem.goto ⟨scriptB, fun _ => .out⟩ () (.read scriptA), .stat () (some 2)),
        (LuaSystem.goto (LuaSystem.goto ⟨scriptB, fun _ => .out⟩ () (.read scriptA)) ()
          (.changed ⟨[47, 97], 2⟩), .set ())]
      (LuaSystem.goto ⟨⟨[47, 97], 2⟩, _⟩ () .out) :=
    ((((Run.nil.snoc rfl).snoc rfl).snoc rfl).snoc rfl).snoc rfl
  have hpath := (h _ _ hrun).2
  exact absurd hpath (by decide)

end NoDrop
