import Mathlib.Data.List.Basic
import Mathlib.Data.UInt

/-! # Runs of a step relation

A system is a step relation `step : σ → α → σ → Prop`: in state `s` the action `a` may
lead to state `t`.  A `Run` is a finite sequence of steps, together with its trace, the
list of the actions each with the state it was taken in.  A condition on steps is then a
condition on the entries of the trace, and the invariant rule (`Run.invariant`) is about
the runs all of whose steps meet one.

A deterministic system `f : σ → α → Option σ` is the relation `f s a = some t`
(`stepOf`); `exec` runs it, and `exists_run_of_exec` makes a run of the result.  `execMeeting` does
so as long as a condition that can be decided holds.
-/
namespace NoDrop.Runs

variable {σ α : Type}

/-- Runs from a state, with their trace. -/
inductive Run (step : σ → α → σ → Prop) (s : σ) : List (σ × α) → σ → Prop
  | nil : Run step s [] s
  | snoc {tr : List (σ × α)} {t u : σ} {a : α} :
      Run step s tr t → step t a u → Run step s (tr ++ [(t, a)]) u

/-- Every step of the trace meets the condition. -/
def Meets (C : σ → α → Prop) (tr : List (σ × α)) : Prop := ∀ x ∈ tr, C x.1 x.2

theorem meets_nil {C : σ → α → Prop} : Meets C ([] : List (σ × α)) := by
  intro x hx
  cases hx

theorem meets_snoc {C : σ → α → Prop} {tr : List (σ × α)} {t : σ} {a : α} :
    Meets C (tr ++ [(t, a)]) ↔ Meets C tr ∧ C t a := by
  simp only [Meets, List.mem_append, List.mem_singleton, or_imp, forall_and, forall_eq]

/-- **The invariant rule.**  What holds at the start and is kept by every step that meets
the condition holds at the end of every run whose steps all meet it. -/
theorem Run.invariant {step : σ → α → σ → Prop} {C : σ → α → Prop} {I : σ → Prop}
    (hstep : ∀ {t a u}, I t → C t a → step t a u → I u) {s t : σ} {tr : List (σ × α)}
    (h : Run step s tr t) (hs : I s) (hc : Meets C tr) : I t := by
  induction h with
  | nil => exact hs
  | snoc _ hlast ih =>
    obtain ⟨hc, hca⟩ := meets_snoc.mp hc
    exact hstep (ih hc) hca hlast

/-- What the invariant and the condition give of a step, every step of the run has. -/
theorem Run.meets {step : σ → α → σ → Prop} {C D : σ → α → Prop} {I : σ → Prop}
    (hstep : ∀ {t a u}, I t → C t a → step t a u → I u)
    (hD : ∀ {t a u}, I t → C t a → step t a u → D t a) {s t : σ} {tr : List (σ × α)}
    (h : Run step s tr t) (hs : I s) (hc : Meets C tr) : Meets D tr := by
  induction h with
  | nil => exact meets_nil
  | snoc hrun hlast ih =>
    obtain ⟨hc, hca⟩ := meets_snoc.mp hc
    have hI := hrun.invariant (I := I) hstep hs hc
    exact meets_snoc.mpr ⟨ih hc, hD hI hca hlast⟩

/-- The relation of a deterministic system. -/
def stepOf (f : σ → α → Option σ) (s : σ) (a : α) (t : σ) : Prop := f s a = some t

/-- Running a deterministic system. -/
def exec (f : σ → α → Option σ) : σ → List α → Option σ
  | s, [] => some s
  | s, a :: as => (f s a).bind fun t => exec f t as

theorem Run.cons {step : σ → α → σ → Prop} {s t u : σ} {a : α} {tr : List (σ × α)}
    (h : step s a t) (hr : Run step t tr u) : Run step s ((s, a) :: tr) u := by
  induction hr with
  | nil => exact Run.snoc Run.nil h
  | snoc _ hlast ih => exact Run.snoc ih hlast

theorem exists_run_of_exec {f : σ → α → Option σ} {s t : σ} {as : List α}
    (h : exec f s as = some t) : ∃ tr, tr.map Prod.snd = as ∧ Run (stepOf f) s tr t := by
  induction as generalizing s with
  | nil =>
    cases h
    exact ⟨[], rfl, Run.nil⟩
  | cons a as ih =>
    obtain ⟨s', hs', h⟩ := Option.bind_eq_some_iff.mp h
    obtain ⟨tr, htr, hrun⟩ := ih h
    exact ⟨(s, a) :: tr, by rw [List.map_cons, htr], hrun.cons hs'⟩

/-- Running a deterministic system as long as its steps meet the condition. -/
def execMeeting (C : σ → α → Prop) [∀ s a, Decidable (C s a)] (f : σ → α → Option σ) :
    σ → List α → Option σ
  | s, [] => some s
  | s, a :: as => if C s a then (f s a).bind fun t => execMeeting C f t as else none

theorem exists_run_of_execMeeting {C : σ → α → Prop} [∀ s a, Decidable (C s a)]
    {f : σ → α → Option σ} {s t : σ} {as : List α} (h : execMeeting C f s as = some t) :
    ∃ tr, tr.map Prod.snd = as ∧ Run (stepOf f) s tr t ∧ Meets C tr := by
  induction as generalizing s with
  | nil =>
    cases h
    exact ⟨[], rfl, Run.nil, meets_nil⟩
  | cons a as ih =>
    rw [execMeeting] at h
    split at h
    case isFalse => cases h
    case isTrue hc =>
      obtain ⟨s', hs', h⟩ := Option.bind_eq_some_iff.mp h
      obtain ⟨tr, htr, hrun, hmeets⟩ := ih h
      refine ⟨(s, a) :: tr, by rw [List.map_cons, htr], hrun.cons hs', ?_⟩
      intro x hx
      rcases List.mem_cons.mp hx with rfl | hx
      · exact hc
      · exact hmeets x hx

end NoDrop.Runs
