import NoDrop.LuaState
import Mathlib.Data.List.TakeWhile

/-! # Loading the script

`lua_run_script` of `monitor/src/lua_runtime.c`.  The monitor remembers the state of the last
call in `run_state`, and a call with this state returns at once.  Any other state is
remembered, and then the file is read into a buffer and run.

So the state counts as loaded before anything has been done for it.  What may go wrong after
that is forgotten by the next call, and a file that does not fit the buffer, or has a `NUL` in
it, is run in part (`loadsWholly_iff`).

What the file system and the Lua library do is given with each call (`ScriptCall`).
-/
namespace NoDrop

/-! ## Data -/

/-- A call of `lua_run_script`, and what the calls it makes return. -/
structure ScriptCall where
  globalState : LuaState
  /-- The contents of the file, if it can be opened. -/
  file : Option (List UInt8)
  /-- How much each `fread` would give if there were enough to read and room for it.  After
  the last one nothing is given. -/
  freads : List Nat
  /-- `luaL_loadbuffer` and `lua_pcall`. -/
  compiles : Bool
  runs : Bool

/-- What a call has done: the return value, and the code that has been run to its end. -/
structure ScriptRun where
  ret : Int
  ran : Option (List UInt8)

/-- `sizeof(g_script_buf) - 1`. -/
def mxSize : Nat := 8191

/-! ## `monitor/src/lua_runtime.c` -/

/-- The loop of `lua_load_script`: how much of a file of length `len` is in the buffer in the
end, where `size` is there already. -/
def loadLoop (len : Nat) : List Nat → Nat → Nat
  | [], size => size
  | k :: ks, size =>
      if size < mxSize then
        let n := min k (min (mxSize - size) (len - size))
        if n = 0 then size else loadLoop len ks (size + n)
      else size

/-- `lua_load_script`: the buffer, up to where it is terminated. -/
def luaLoadScript (runState : LuaState) (c : ScriptCall) : Option (List UInt8) :=
  if runState.luaMtime = 0 then none
  else c.file.map fun contents => contents.take (loadLoop contents.length c.freads 0)

/-- `lua_run_code`.  The code ends where `strlen` says. -/
def luaRunCode (buf : List UInt8) (c : ScriptCall) : ScriptRun :=
  if ¬c.compiles then ⟨-1, none⟩
  else if ¬c.runs then ⟨-2, none⟩
  else ⟨0, some (buf.takeWhile (· ≠ 0))⟩

/-- `lua_run_script`: what it has done, and `run_state` afterwards.  `lua_on_init`, which is
called at the end, has no say in the result. -/
def luaRunScript (runState : LuaState) (c : ScriptCall) : ScriptRun × LuaState :=
  if c.globalState = runState then (⟨0, none⟩, runState)
  else
    match luaLoadScript c.globalState c with
    | none => (⟨-1, none⟩, c.globalState)
    | some buf => (luaRunCode buf c, c.globalState)

/-- Some calls, one after the other: what each has done, and `run_state` after it. -/
def scriptRuns : LuaState → List ScriptCall → List (ScriptRun × LuaState)
  | _, [] => []
  | runState, c :: cs =>
      luaRunScript runState c :: scriptRuns (luaRunScript runState c).2 cs

/-- `run_state` after `lua_runtime_init`. -/
def runStateInit : LuaState := ⟨[], 0⟩

/-! ## What the code is for -/

/-- The call has run all of the file. -/
def RunsWhole (c : ScriptCall) (r : ScriptRun) : Prop := ∃ contents, c.file = some contents ∧
  r.ran = some contents

/-- A state counts as loaded only when all of its file has been run since the state was last a
different one; and a call that has failed leaves a `run_state` with which the same state is
tried again. -/
structure LoadsWholly (cs : List ScriptCall) (rs : List (ScriptRun × LuaState)) : Prop where
  loaded : ∀ (i : Nat) c r, cs[i]? = some c → rs[i]? = some r → r.1.ret = 0 →
    c.globalState.luaMtime ≠ 0 → ∃ j ≤ i,
      (∀ (m : Nat) d, j ≤ m → m ≤ i → cs[m]? = some d → d.globalState = c.globalState) ∧
      ∃ d q, cs[j]? = some d ∧ rs[j]? = some q ∧ RunsWhole d q.1
  retried : ∀ (i : Nat) c r, cs[i]? = some c → rs[i]? = some r → r.1.ret ≠ 0 →
    c.globalState ≠ r.2

/-- The file can be opened, it fits the buffer, all of it is read, it has no `NUL`, and it
compiles and runs. -/
structure LoadsWell (c : ScriptCall) : Prop where
  mtime : c.globalState.luaMtime ≠ 0
  file : ∃ contents, c.file = some contents ∧ contents.length ≤ mxSize ∧
    contents.length ≤ (c.freads.takeWhile (0 < ·)).sum ∧ 0 ∉ contents
  compiles : c.compiles = true
  runs : c.runs = true

/-- The state of the call before, where `s` is the one before the first. -/
def stateBefore (s : LuaState) (cs : List ScriptCall) : Nat → LuaState
  | 0 => s
  | i + 1 => (cs[i]?).elim s (·.globalState)

/-- Every call has the state of the call before, or loads well. -/
def AllLoadWell (cs : List ScriptCall) : Prop :=
  ∀ (i : Nat) c, cs[i]? = some c → c.globalState = stateBefore runStateInit cs i ∨ LoadsWell c

/-! ## One call -/

section Call

variable {s : LuaState} {c : ScriptCall}

/-- The loop reads what it is given, as far as there is room. -/
theorem loadLoop_eq {len size : Nat} (ks : List Nat) (hlen : size ≤ len) (hmx : size ≤ mxSize) :
    loadLoop len ks size = min (min len mxSize) (size + (ks.takeWhile (0 < ·)).sum) := by
  induction ks generalizing size with
  | nil =>
    rw [loadLoop, List.takeWhile_nil, List.sum_nil]
    omega
  | cons k ks ih =>
    rw [loadLoop]
    by_cases hlt : size < mxSize
    · rw [if_pos hlt]
      dsimp only
      by_cases hk : k = 0
      · subst hk
        rw [if_pos (Nat.zero_min _)]
        simp
        omega
      · rw [List.takeWhile_cons_of_pos (by simpa using Nat.pos_of_ne_zero hk), List.sum_cons]
        by_cases hn : min k (min (mxSize - size) (len - size)) = 0
        · rw [if_pos hn]
          omega
        · rw [if_neg hn, ih (by omega) (by omega)]
          omega
    · rw [if_neg hlt]
      omega

/-- A file that fits and is given as a whole is read as a whole, and no other. -/
theorem take_loadLoop_eq_self {contents : List UInt8} {ks : List Nat} :
    contents.take (loadLoop contents.length ks 0) = contents ↔
      contents.length ≤ mxSize ∧ contents.length ≤ (ks.takeWhile (0 < ·)).sum := by
  rw [List.take_eq_self_iff, loadLoop_eq ks (Nat.zero_le _) (Nat.zero_le _)]
  omega

theorem luaRunScript_same (h : c.globalState = s) : luaRunScript s c = (⟨0, none⟩, s) :=
  if_pos h

theorem luaRunScript_state (s : LuaState) (c : ScriptCall) :
    (luaRunScript s c).2 = c.globalState := by
  unfold luaRunScript
  split
  · exact Eq.symm ‹_›
  · split <;> rfl

/-- `strlen` finds the end of a buffer without `NUL`. -/
theorem takeWhile_ne_zero_eq_self {l : List UInt8} : l.takeWhile (· ≠ 0) = l ↔ 0 ∉ l := by
  rw [List.takeWhile_eq_self_iff]
  constructor
  · intro h h0
    simpa using h 0 h0
  · intro h x hx
    simp only [decide_eq_true_eq]
    rintro rfl
    exact h hx

/-- A new state: the call succeeds when the file can be opened, and compiles and runs, and
then it has run what `strlen` finds in the buffer. -/
theorem luaRunScript_new (h : c.globalState ≠ s) :
    (luaRunScript s c).1.ret = 0 ↔
      c.globalState.luaMtime ≠ 0 ∧ c.compiles = true ∧ c.runs = true ∧
      ∃ contents, c.file = some contents ∧ (luaRunScript s c).1.ran =
        some ((contents.take (loadLoop contents.length c.freads 0)).takeWhile (· ≠ 0)) := by
  unfold luaRunScript luaLoadScript
  rw [if_neg h]
  by_cases hm : c.globalState.luaMtime = 0
  · simp [hm]
  · rw [if_neg hm]
    cases hf : c.file with
    | none => simp
    | some contents =>
      cases hc : c.compiles with
      | false => simp [luaRunCode, hc]
      | true =>
        cases hr : c.runs with
        | false => simp [luaRunCode, hc, hr]
        | true => simp [luaRunCode, hc, hr, hm]

/-- Nothing is left out exactly when the buffer has all of the file and `strlen` finds its
end. -/
theorem takeWhile_take_eq_self {l : List UInt8} {n : Nat} :
    (l.take n).takeWhile (· ≠ 0) = l ↔ l.take n = l ∧ 0 ∉ l := by
  constructor
  · intro h
    have htake : l.take n = l := by
      have hpre : (l.take n).takeWhile (· ≠ 0) <+: l.take n := List.takeWhile_prefix _
      have hle := hpre.length_le
      rw [h] at hle
      have htake : l.take n <+: l := List.take_prefix n l
      exact htake.eq_of_length_le hle
    rw [htake] at h
    exact ⟨htake, takeWhile_ne_zero_eq_self.mp h⟩
  · rintro ⟨htake, h0⟩
    rw [htake]
    exact takeWhile_ne_zero_eq_self.mpr h0

/-- A new state is run as a whole exactly when it loads well. -/
theorem luaRunScript_whole (h : c.globalState ≠ s) :
    ((luaRunScript s c).1.ret = 0 ∧ RunsWhole c (luaRunScript s c).1) ↔ LoadsWell c := by
  rw [luaRunScript_new h]
  constructor
  · rintro ⟨⟨hm, hc, hr, contents, hf, hran⟩, contents', hf', hran'⟩
    cases hf.symm.trans hf'
    have heq := Option.some.inj (hran.symm.trans hran')
    obtain ⟨htake, h0⟩ := takeWhile_take_eq_self.mp heq
    obtain ⟨hlen, hsum⟩ := take_loadLoop_eq_self.mp htake
    exact ⟨hm, ⟨contents, hf, hlen, hsum, h0⟩, hc, hr⟩
  · rintro ⟨hm, ⟨contents, hf, hlen, hsum, h0⟩, hc, hr⟩
    have hran : (luaRunScript s c).1.ran = some contents := by
      have htake := take_loadLoop_eq_self.mpr ⟨hlen, hsum⟩
      simp only [luaRunScript, if_neg h, luaLoadScript, if_neg hm, hf, Option.map_some, luaRunCode,
        hc, hr, htake, takeWhile_ne_zero_eq_self.mpr h0]
      rfl
    refine ⟨⟨hm, hc, hr, contents, hf, ?_⟩, contents, hf, hran⟩
    rw [takeWhile_take_eq_self.mpr ⟨take_loadLoop_eq_self.mpr ⟨hlen, hsum⟩, h0⟩, hran]

end Call

/-! ## All calls -/

section Calls

variable {cs : List ScriptCall} {c : ScriptCall} {i : Nat}

theorem stateBefore_succ (s : LuaState) (hc : cs[i]? = some c) :
    stateBefore s cs (i + 1) = c.globalState := by
  rw [stateBefore, hc]
  rfl

/-- Before every call but the first there is another. -/
theorem exists_call_before (hc : cs[i + 1]? = some c) : ∃ d, cs[i]? = some d := by
  have hlt := (List.getElem?_eq_some_iff.mp hc).1
  exact ⟨cs[i], List.getElem?_eq_getElem (Nat.lt_of_succ_lt hlt)⟩

/-- Each call is made with the state of the one before. -/
theorem scriptRuns_get (s : LuaState) (hc : cs[i]? = some c) :
    (scriptRuns s cs)[i]? = some (luaRunScript (stateBefore s cs i) c) := by
  induction cs generalizing s i with
  | nil => cases hc
  | cons d ds ih =>
    cases i with
    | zero =>
      cases hc
      rfl
    | succ i =>
      have hbefore : stateBefore d.globalState ds i = stateBefore s (d :: ds) (i + 1) := by
        cases i with
        | zero => rfl
        | succ i =>
          obtain ⟨e, he⟩ := exists_call_before hc
          rw [stateBefore_succ s he]
          exact stateBefore_succ _ he
      rw [scriptRuns, luaRunScript_state, List.getElem?_cons_succ, ih d.globalState hc, hbefore]

/-- The calls that load well, or have nothing to load, succeed. -/
theorem AllLoadWell.ret (h : AllLoadWell cs) (hc : cs[i]? = some c) :
    (luaRunScript (stateBefore runStateInit cs i) c).1.ret = 0 := by
  by_cases hsame : c.globalState = stateBefore runStateInit cs i
  · rw [luaRunScript_same hsame]
  · have hwell := (h i c hc).resolve_left hsame
    exact ((luaRunScript_whole hsame).mpr hwell).1

/-- With such calls, a state with a time has been run when it was new. -/
theorem AllLoadWell.loaded (h : AllLoadWell cs) (hc : cs[i]? = some c)
    (hm : c.globalState.luaMtime ≠ 0) : ∃ j ≤ i,
      (∀ (m : Nat) d, j ≤ m → m ≤ i → cs[m]? = some d → d.globalState = c.globalState) ∧
      ∃ d q, cs[j]? = some d ∧ (scriptRuns runStateInit cs)[j]? = some q ∧ RunsWhole d q.1 := by
  induction i generalizing c with
  | zero =>
    -- at first no state with a time is remembered
    have hnew : c.globalState ≠ stateBefore runStateInit cs 0 := fun he => hm (by rw [he]; rfl)
    have hwell := (h 0 c hc).resolve_left hnew
    refine ⟨0, Nat.le_refl 0, ?_, c, _, hc, scriptRuns_get _ hc,
      ((luaRunScript_whole hnew).mpr hwell).2⟩
    intro m d _ hm0 hd
    rw [Nat.le_zero.mp hm0] at hd
    cases hc.symm.trans hd
    rfl
  | succ i ih =>
    by_cases hsame : c.globalState = stateBefore runStateInit cs (i + 1)
    · -- the state was there before this call
      obtain ⟨b, hb⟩ := exists_call_before hc
      have hstate : c.globalState = b.globalState := hsame.trans (stateBefore_succ _ hb)
      obtain ⟨j, hji, hall, hrun⟩ := ih hb (hstate ▸ hm)
      refine ⟨j, Nat.le_succ_of_le hji, ?_, hrun⟩
      intro m d hjm hmi hd
      rcases Nat.le_succ_iff.mp hmi with hmi | rfl
      · rw [hall m d hjm hmi hd, hstate]
      · cases hc.symm.trans hd
        rfl
    · have hwell := (h (i + 1) c hc).resolve_left hsame
      refine ⟨i + 1, Nat.le_refl _, ?_, c, _, hc, scriptRuns_get _ hc,
        ((luaRunScript_whole hsame).mpr hwell).2⟩
      intro m d hjm hmi hd
      rw [Nat.le_antisymm hmi hjm] at hd
      cases hc.symm.trans hd
      rfl

/-- **A script counts as loaded only when all of it ran, exactly in the runs where every new
state loads well.** -/
theorem loadsWholly_iff (cs : List ScriptCall) :
    LoadsWholly cs (scriptRuns runStateInit cs) ↔ AllLoadWell cs := by
  constructor
  · intro h i c hc
    refine or_iff_not_imp_left.mpr fun hnew => ?_
    have hrun := scriptRuns_get runStateInit hc
    have hstate := luaRunScript_state (stateBefore runStateInit cs i) c
    -- a call that fails has remembered its state already
    have hret : (luaRunScript (stateBefore runStateInit cs i) c).1.ret = 0 := by
      by_contra hret
      exact h.retried i c _ hc hrun hret hstate.symm
    have hm := ((luaRunScript_new hnew).mp hret).1
    obtain ⟨j, hji, hall, d, q, hd, hq, hwhole⟩ := h.loaded i c _ hc hrun hret hm
    -- and no call before this one has its state
    obtain rfl : j = i := by
      rcases Nat.lt_or_eq_of_le hji with hlt | heq
      · obtain ⟨k, rfl⟩ : ∃ k, i = k + 1 := ⟨i - 1, by omega⟩
        obtain ⟨b, hb⟩ := exists_call_before hc
        refine absurd ?_ hnew
        rw [stateBefore_succ _ hb]
        exact (hall k b (Nat.le_of_lt_succ hlt) (Nat.le_succ k) hb).symm
      · exact heq
    cases hc.symm.trans hd
    cases hrun.symm.trans hq
    exact (luaRunScript_whole hnew).mp ⟨hret, hwhole⟩
  · intro h
    constructor
    · intro i c r hc hr _ hm
      exact h.loaded hc hm
    · intro i c r hc hr hret
      cases (scriptRuns_get runStateInit hc).symm.trans hr
      exact absurd (h.ret hc) hret

end Calls

/-- **A script that cannot be read counts as loaded** from the second call on. -/
theorem unreadable_script_loaded : ¬ ∀ cs : List ScriptCall,
    LoadsWholly cs (scriptRuns runStateInit cs) := by
  intro hall
  have h := hall [⟨scriptA, none, [], true, true⟩]
  exact h.retried 0 _ _ rfl rfl (by decide) rfl

end NoDrop
