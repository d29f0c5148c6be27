import Mathlib.Tactic.Common

/-! # Computations that may give up

Code of the form "do this, or `goto err`" changes a state, and what it has changed stays
changed when it gives up.  `Fallible σ ε α` is a computation on states `σ` that returns a value
of `α`, or gives up with an error of `ε`, and leaves a state in both cases.

What a client needs is how a sequence succeeds (`bind_ok_iff`) or gives up (`bind_error_iff`),
and that what every step does to the state, whether it succeeds or not, the sequence does
(`Within.bind`).  Where it matters what was done before, a `Triple` says what holds after success
and what holds where the computation gives up (`Triple.bind`).  A computation on a state with more in it
may be the same when that is forgotten (`Forgets.bind`).
-/
namespace NoDrop

/-- A computation that returns a value or gives up, and leaves a state either way. -/
def Fallible (σ ε α : Type) : Type := σ → Except ε α × σ

namespace Fallible

variable {σ ε α β : Type}

/-- Give up. -/
def fail (e : ε) : Fallible σ ε α := fun s => (.error e, s)

/-- A computation that cannot fail. -/
def lift (f : σ → α × σ) : Fallible σ ε α := fun s => (.ok (f s).1, (f s).2)

instance instMonad : Monad (Fallible σ ε) where
  pure a := fun s => (.ok a, s)
  bind m f := fun s =>
    match m s with
    | (.ok a, s) => f a s
    | (.error e, s) => (.error e, s)

theorem pure_apply (a : α) (s : σ) : (pure a : Fallible σ ε α) s = (.ok a, s) := rfl

/-! ## Success and failure of a sequence -/

theorem bind_of_ok {m : Fallible σ ε α} {f : α → Fallible σ ε β} {s u : σ} {a : α}
    (h : m s = (.ok a, u)) : (m >>= f) s = f a u := by
  show (match m s with | (.ok a, s) => f a s | (.error e, s) => (.error e, s)) = _
  rw [h]

theorem bind_of_error {m : Fallible σ ε α} {f : α → Fallible σ ε β} {s u : σ} {e : ε}
    (h : m s = (.error e, u)) : (m >>= f) s = (.error e, u) := by
  show (match m s with | (.ok a, s) => f a s | (.error e, s) => (.error e, s)) = _
  rw [h]

theorem bind_ok_iff {m : Fallible σ ε α} {f : α → Fallible σ ε β} {s t : σ} {b : β} :
    (m >>= f) s = (.ok b, t) ↔ ∃ a u, m s = (.ok a, u) ∧ f a u = (.ok b, t) := by
  show (match m s with | (.ok a, s) => f a s | (.error e, s) => (.error e, s)) = _ ↔ _
  rcases m s with ⟨r, u⟩
  cases r with
  | ok a => simp
  | error e => simp

theorem bind_error_iff {m : Fallible σ ε α} {f : α → Fallible σ ε β} {s t : σ} {e : ε} :
    (m >>= f) s = (.error e, t) ↔
      m s = (.error e, t) ∨ ∃ a u, m s = (.ok a, u) ∧ f a u = (.error e, t) := by
  show (match m s with | (.ok a, s) => f a s | (.error e, s) => (.error e, s)) = _ ↔ _
  rcases m s with ⟨r, u⟩
  cases r with
  | ok a => simp
  | error e => simp

theorem bind_assoc {γ : Type} (m : Fallible σ ε α) (f : α → Fallible σ ε β)
    (g : β → Fallible σ ε γ) : (m >>= f) >>= g = m >>= fun a => f a >>= g := by
  funext s
  rcases h : m s with ⟨r, u⟩
  cases r with
  | ok a =>
    rw [bind_of_ok h]
    rcases h' : f a u with ⟨r', u'⟩
    have hmf : (m >>= f) s = (r', u') := (bind_of_ok h).trans h'
    cases r' with
    | ok b => rw [bind_of_ok hmf, bind_of_ok h']
    | error e => rw [bind_of_error hmf, bind_of_error h']
  | error e => rw [bind_of_error h, bind_of_error (bind_of_error h)]

/-! ## What every step does -/

/-- Whatever the outcome, the state afterwards is related to the one before, and an error is one
of `E`. -/
structure Within (R : σ → σ → Prop) (E : ε → Prop) (m : Fallible σ ε α) : Prop where
  state : ∀ s, R s (m s).2
  error : ∀ s e, (m s).1 = .error e → E e

namespace Within

variable {R : σ → σ → Prop} {E : ε → Prop}

theorem fail (hrefl : ∀ s, R s s) {e : ε} (he : E e) :
    Within R E (Fallible.fail e : Fallible σ ε α) := by
  refine ⟨hrefl, fun s e' h => ?_⟩
  cases h
  exact he

theorem lift {f : σ → α × σ} (hf : ∀ s, R s (f s).2) :
    Within R E (Fallible.lift f : Fallible σ ε α) :=
  ⟨hf, fun s e h => by cases h⟩

theorem pure (hrefl : ∀ s, R s s) (a : α) : Within R E (Pure.pure a : Fallible σ ε α) :=
  ⟨hrefl, fun s e h => by cases h⟩

theorem bind (htrans : ∀ {s t u}, R s t → R t u → R s u) {m : Fallible σ ε α}
    {f : α → Fallible σ ε β} (hm : Within R E m) (hf : ∀ a, Within R E (f a)) :
    Within R E (m >>= f) := by
  constructor
  · intro s
    have hs := hm.state s
    rcases h : m s with ⟨r, u⟩
    rw [h] at hs
    cases r with
    | ok a =>
      rw [bind_of_ok h]
      exact htrans hs ((hf a).state u)
    | error e =>
      rw [bind_of_error h]
      exact hs
  · intro s e he
    rcases h : (m >>= f) s with ⟨r, u⟩
    rw [h] at he
    dsimp only at he
    rw [he] at h
    rcases bind_error_iff.mp h with h' | ⟨a, t, -, h'⟩
    · exact hm.error s e (congrArg Prod.fst h')
    · exact (hf a).error t e (congrArg Prod.fst h')

end Within

/-! ## Before and after -/

/-- From a state of `P` the computation returns a value and a state of `Q`, or gives up with an
error and a state of `E`. -/
def Triple (P : σ → Prop) (m : Fallible σ ε α) (Q : α → σ → Prop) (E : ε → σ → Prop) : Prop :=
  ∀ s, P s → (∀ a t, m s = (.ok a, t) → Q a t) ∧ ∀ e t, m s = (.error e, t) → E e t

namespace Triple

variable {P : σ → Prop} {Q : α → σ → Prop} {E : ε → σ → Prop}

/-- A computation that is given as a function of the state. -/
theorem of_outcome {m : Fallible σ ε α}
    (h : ∀ s, P s → match m s with | (.ok a, t) => Q a t | (.error e, t) => E e t) :
    Triple P m Q E := by
  refine fun s hs => ⟨fun a t heq => ?_, fun e t heq => ?_⟩
  · have hout := h s hs
    rw [heq] at hout
    exact hout
  · have hout := h s hs
    rw [heq] at hout
    exact hout

theorem pure {a : α} (h : ∀ s, P s → Q a s) :
    Triple P (Pure.pure a : Fallible σ ε α) Q E := by
  refine fun s hs => ⟨fun b t heq => ?_, fun e t heq => ?_⟩
  · cases heq
    exact h s hs
  · cases heq

theorem fail {e : ε} (h : ∀ s, P s → E e s) : Triple P (Fallible.fail e) Q E := by
  refine fun s hs => ⟨fun b t heq => ?_, fun e' t heq => ?_⟩
  · cases heq
  · cases heq
    exact h s hs

theorem lift {f : σ → α × σ} (h : ∀ s, P s → Q (f s).1 (f s).2) :
    Triple P (Fallible.lift f) Q E := by
  refine fun s hs => ⟨fun b t heq => ?_, fun e t heq => ?_⟩
  · cases heq
    exact h s hs
  · cases heq

/-- **The rule of a sequence.** -/
theorem bind {m : Fallible σ ε α} {f : α → Fallible σ ε β} {R : β → σ → Prop}
    (hm : Triple P m Q E) (hf : ∀ a, Triple (Q a) (f a) R E) : Triple P (m >>= f) R E := by
  refine fun s hs => ⟨fun b t heq => ?_, fun e t heq => ?_⟩
  · obtain ⟨a, u, hu, ht⟩ := bind_ok_iff.mp heq
    exact (hf a u ((hm s hs).1 a u hu)).1 b t ht
  · rcases bind_error_iff.mp heq with hu | ⟨a, u, hu, ht⟩
    · exact (hm s hs).2 e t hu
    · exact (hf a u ((hm s hs).1 a u hu)).2 e t ht

theorem post {m : Fallible σ ε α} {R : α → σ → Prop} (h : Triple P m Q E)
    (hQ : ∀ a s, Q a s → R a s) : Triple P m R E :=
  fun s hs => ⟨fun a t ht => hQ a t ((h s hs).1 a t ht), (h s hs).2⟩

/-- What is known before does not depend on the state. -/
theorem known {m : Fallible σ ε α} {known : Prop} (h : known → Triple P m Q E) :
    Triple (fun s => known ∧ P s) m Q E := fun s hs => h hs.1 s hs.2

end Triple

/-! ## Less of the state -/

/-- As far as the part `π` of the state goes, `m'` is `m`. -/
def Forgets {τ : Type} (π : τ → σ) (m' : Fallible τ ε α) (m : Fallible σ ε α) : Prop :=
  ∀ s, m (π s) = ((m' s).1, π (m' s).2)

theorem Forgets.bind {τ : Type} {π : τ → σ} {m' : Fallible τ ε α} {m : Fallible σ ε α}
    {f' : α → Fallible τ ε β} {f : α → Fallible σ ε β} (hm : Forgets π m' m)
    (hf : ∀ a, Forgets π (f' a) (f a)) : Forgets π (m' >>= f') (m >>= f) := by
  intro s
  have hs := hm s
  rcases h : m' s with ⟨r, u⟩
  rw [h] at hs
  cases r with
  | ok a => rw [bind_of_ok h, bind_of_ok hs, hf a u]
  | error e => rw [bind_of_error h, bind_of_error hs]

end Fallible

end NoDrop
