import Mathlib.Data.List.Perm.Basic
import Mathlib.Tactic.Common

/-! # A ledger of what is held

A program takes things from its surroundings and gives them back.  The `Ledger` is kept by the
surroundings: what the program holds, and what it gave back without holding it.

That the books are right is a statement about the ledger as a whole (`Ledger.Shows`): it lists certain
things, in any order, and nothing was given back that was not held.  So a program that gives back each
thing it has taken (`Shows.give`), in whatever order, leaves a ledger that shows what it showed before,
and giving something back twice can not be balanced by forgetting something else.
-/
namespace NoDrop

/-- What is held, and what was given back without being held. -/
structure Ledger (α : Type) where
  held : List α
  stray : List α

namespace Ledger

section Taking

variable {α : Type}

/-- Nothing has been taken. -/
def empty : Ledger α := ⟨[], []⟩

/-- Take something. -/
def take (l : Ledger α) (a : α) : Ledger α := { l with held := a :: l.held }

/-- Take some things, the first one first. -/
def takeAll (l : Ledger α) (as : List α) : Ledger α := as.foldl take l

/-- The books are right: these things are held, and nothing else was ever given back. -/
structure Shows (l : Ledger α) (as : List α) : Prop where
  held : l.held.Perm as
  stray : l.stray = []

theorem shows_empty : (empty : Ledger α).Shows [] := ⟨List.Perm.nil, rfl⟩

variable {l : Ledger α} {as bs : List α}

theorem Shows.congr (h : l.Shows as) (hp : as.Perm bs) : l.Shows bs :=
  ⟨h.held.trans hp, h.stray⟩

theorem Shows.take (h : l.Shows as) (a : α) : (l.take a).Shows (a :: as) :=
  ⟨h.held.cons a, h.stray⟩

theorem Shows.takeAll (h : l.Shows bs) (as : List α) : (l.takeAll as).Shows (as ++ bs) := by
  induction as generalizing l bs with
  | nil => exact h
  | cons a as ih => exact (ih (h.take a)).congr List.perm_middle

end Taking

section Giving

variable {α : Type} [DecidableEq α]

/-- Give something back. -/
def give (l : Ledger α) (a : α) : Ledger α :=
  if a ∈ l.held then { l with held := l.held.erase a } else { l with stray := a :: l.stray }

variable {l : Ledger α} {a : α} {as : List α}

/-- **Giving back what is held.** -/
theorem Shows.give (h : l.Shows (a :: as)) : (l.give a).Shows as := by
  have hmem : a ∈ l.held := h.held.mem_iff.mpr List.mem_cons_self
  rw [Ledger.give, if_pos hmem]
  refine ⟨?_, h.stray⟩
  have herase := h.held.erase a
  rwa [List.erase_cons_head] at herase

end Giving

end Ledger

end NoDrop
