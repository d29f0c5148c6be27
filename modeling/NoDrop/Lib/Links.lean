import Mathlib.Data.List.Nodup
import Mathlib.Data.UInt

/-! # Doubly linked lists

A list of nodes threaded through two link fields, seen as functions of the node: `next` and
`prev`.  `Links next prev p l e` says that the nodes of `l` are linked in this order, with `p`
before the first and `e` after the last one.  Nothing is said of the links of `p` and `e`
themselves, so that one node that belongs to no list can stand at both ends of every list.

The two edits are `Links.push` at the front and `Links.unlink` anywhere.  Both are stated over the
fields after the edit, of which only the values at the nodes of the list matter.
-/
namespace NoDrop

variable {α : Type} {next prev next' prev' : α → α} {p p' e e' x : α} {l l₁ l₂ : List α}

/-- The nodes of `l` are linked in order, between `p` and `e`. -/
def Links (next prev : α → α) : α → List α → α → Prop
  | _, [], _ => True
  | p, x :: l, e => prev x = p ∧ next x = l.headD e ∧ Links next prev x l e

namespace Links

theorem append_iff : Links next prev p (l₁ ++ l₂) e ↔
    Links next prev p l₁ (l₂.headD e) ∧ Links next prev (l₁.getLastD p) l₂ e := by
  induction l₁ generalizing p with
  | nil => simp [Links]
  | cons x l₁ ih =>
    have hhead : (l₁ ++ l₂).headD e = l₁.headD (l₂.headD e) := by
      cases l₁ with
      | nil => rfl
      | cons y l => rfl
    have hlast : (x :: l₁).getLastD p = l₁.getLastD x := by
      cases l₁ with
      | nil => rfl
      | cons y l => rfl
    rw [List.cons_append, Links, Links, ih, hhead, hlast, and_assoc, and_assoc]

/-- Only the links of the members matter. -/
theorem congr (h : Links next prev p l e) (hn : ∀ y ∈ l, next' y = next y)
    (hp : ∀ y ∈ l, prev' y = prev y) : Links next' prev' p l e := by
  induction l generalizing p with
  | nil => trivial
  | cons x l ih =>
    obtain ⟨hprev, hnext, hl⟩ := h
    refine ⟨?_, ?_, ?_⟩
    · rw [hp x List.mem_cons_self, hprev]
    · rw [hn x List.mem_cons_self, hnext]
    · exact ih hl (fun y hy => hn y (List.mem_cons_of_mem x hy))
        (fun y hy => hp y (List.mem_cons_of_mem x hy))

/-- Another node in front: the first member points back to it. -/
theorem entry (h : Links next prev p l e) (hd : l.Nodup) (hn : ∀ y ∈ l, next' y = next y)
    (hp : ∀ y ∈ l, y ≠ l.headD e → prev' y = prev y) (hh : ∀ y ∈ l.head?, prev' y = p') :
    Links next' prev' p' l e := by
  cases l with
  | nil => trivial
  | cons x l =>
    obtain ⟨-, hnext, hl⟩ := h
    refine ⟨hh x rfl, (hn x List.mem_cons_self).trans hnext, ?_⟩
    refine hl.congr (fun y hy => hn y (List.mem_cons_of_mem x hy)) (fun y hy => ?_)
    refine hp y (List.mem_cons_of_mem x hy) ?_
    rintro rfl
    exact (List.nodup_cons.mp hd).1 hy

/-- Another node at the end: the last member points on to it. -/
theorem exit (h : Links next prev p l e) (hd : l.Nodup) (hp : ∀ y ∈ l, prev' y = prev y)
    (hn : ∀ y ∈ l, y ≠ l.getLastD p → next' y = next y) (hl : ∀ y ∈ l.getLast?, next' y = e') :
    Links next' prev' p l e' := by
  induction l generalizing p with
  | nil => trivial
  | cons x l ih =>
    obtain ⟨hprev, hnext, htail⟩ := h
    obtain ⟨hx, hd⟩ := List.nodup_cons.mp hd
    refine ⟨(hp x List.mem_cons_self).trans hprev, ?_, ?_⟩
    · cases l with
      | nil => exact hl x rfl
      | cons y l =>
        have hne : x ≠ (x :: y :: l).getLastD p := by
          intro heq
          refine hx ?_
          have hmem : (y :: l).getLast (List.cons_ne_nil y l) ∈ y :: l := List.getLast_mem _
          rw [show (x :: y :: l).getLastD p = (y :: l).getLast (List.cons_ne_nil y l) from rfl] at heq
          rwa [← heq] at hmem
        exact (hn x List.mem_cons_self hne).trans hnext
    · refine ih htail hd (fun y hy => hp y (List.mem_cons_of_mem x hy)) (fun y hy hne => ?_) ?_
      · refine hn y (List.mem_cons_of_mem x hy) ?_
        cases l with
        | nil => simp at hy
        | cons z l => exact hne
      · intro y hy
        refine hl y ?_
        cases l with
        | nil => simp at hy
        | cons z l => simpa using hy

/-- **A node is pushed at the front.** -/
theorem push (h : Links next prev p l e) (hd : l.Nodup) (hx : next' x = l.headD e)
    (hx' : prev' x = p) (hn : ∀ y ∈ l, next' y = next y)
    (hp : ∀ y ∈ l, y ≠ l.headD e → prev' y = prev y) (hh : ∀ y ∈ l.head?, prev' y = x) :
    Links next' prev' p (x :: l) e :=
  ⟨hx', hx, h.entry hd hn hp hh⟩

/-- The neighbours of a member. -/
theorem neighbours (h : Links next prev p (l₁ ++ x :: l₂) e) :
    prev x = l₁.getLastD p ∧ next x = l₂.headD e := by
  obtain ⟨-, hprev, hnext, -⟩ := append_iff.mp h
  exact ⟨hprev, hnext⟩

/-- **A member is taken out**: its neighbours are linked to each other. -/
theorem unlink (h : Links next prev p (l₁ ++ x :: l₂) e) (hd : (l₁ ++ x :: l₂).Nodup)
    (hn : ∀ y ∈ l₁ ++ l₂, y ≠ l₁.getLastD p → next' y = next y)
    (hp : ∀ y ∈ l₁ ++ l₂, y ≠ l₂.headD e → prev' y = prev y)
    (hl : ∀ y ∈ l₁.getLast?, next' y = l₂.headD e)
    (hh : ∀ y ∈ l₂.head?, prev' y = l₁.getLastD p) (hpe : p ∉ l₂) (hep : e ∉ l₁) :
    Links next' prev' p (l₁ ++ l₂) e := by
  obtain ⟨h₁, -, -, h₂⟩ := append_iff.mp h
  obtain ⟨hd₁, hd₂, hdis⟩ := List.nodup_append.mp hd
  have hd₂ := (List.nodup_cons.mp hd₂).2
  have hlast : ∀ y ∈ l₂, y ≠ l₁.getLastD p := by
    rintro y hy rfl
    cases l₁ using List.reverseRecOn with
    | nil => exact hpe hy
    | append_singleton l z =>
      simp only [List.getLastD_concat] at hy
      exact hdis z (by simp) z (List.mem_cons_of_mem x hy) rfl
  have hhead : ∀ y ∈ l₁, y ≠ l₂.headD e := by
    rintro y hy rfl
    cases l₂ with
    | nil => exact hep hy
    | cons z l => exact hdis z hy z (by simp) rfl
  refine append_iff.mpr ⟨?_, ?_⟩
  · exact h₁.exit hd₁ (fun y hy => hp y (List.mem_append_left _ hy) (hhead y hy))
      (fun y hy hne => hn y (List.mem_append_left _ hy) hne) hl
  · exact h₂.entry hd₂ (fun y hy => hn y (List.mem_append_right _ hy) (hlast y hy))
      (fun y hy hne => hp y (List.mem_append_right _ hy) hne) hh

end Links

end NoDrop
