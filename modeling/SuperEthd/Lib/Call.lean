import Mathlib.Data.List.Basic

/-! # Calls that return or stop

Stateful code is modelled in core's `EStateM ε σ`: a call started in a state either
returns a value or stops for a reason of type `ε`, and leaves a state in both cases.
This module has the judgement that says what a call may do (`Meets`), its rules, the rule for
a list of calls made one after the other (`Meets.runAll_prefix`), and the judgement that two calls
cannot be told apart (`Agree`).
-/
namespace Call

variable {ε σ α β ι : Type}

/-- Run a computation that does not touch the state. -/
def ofExcept : Except ε α → EStateM ε σ α
  | .ok a => pure a
  | .error e => throw e

@[simp] theorem run_ofExcept_ok (a : α) (s : σ) :
    (ofExcept (.ok a : Except ε α)).run s = .ok a s := rfl

@[simp] theorem run_ofExcept_error (e : ε) (s : σ) :
    (ofExcept (.error e : Except ε α)).run s = .error e s := rfl

/-- Core states this only for a `throw` that returns no value. -/
@[simp] theorem run_throw (e : ε) (s : σ) :
    (throw e : EStateM ε σ α).run s = .error e s := rfl

theorem run_bind_of_ok {x : EStateM ε σ α} {f : α → EStateM ε σ β} {s s' : σ} {a : α}
    (h : x.run s = .ok a s') : (x >>= f).run s = (f a).run s' := by
  rw [EStateM.run_bind, h]

/-- A sequence of two calls returns exactly when both do. -/
theorem run_bind_eq_ok {x : EStateM ε σ α} {f : α → EStateM ε σ β} {s s'' : σ} {b : β} :
    (x >>= f).run s = .ok b s'' ↔ ∃ a s', x.run s = .ok a s' ∧ (f a).run s' = .ok b s'' := by
  rw [EStateM.run_bind]
  cases h : x.run s <;> simp

/-- The call returned, in a state that passes the test. -/
def okAnd (p : σ → Bool) : EStateM.Result ε σ α → Bool
  | .ok _ s => p s
  | .error _ _ => false

theorem exists_of_okAnd {p : σ → Bool} {r : EStateM.Result ε σ α} (h : okAnd p r = true) :
    ∃ a s, r = .ok a s ∧ p s = true := by
  cases r with
  | ok a s => exact ⟨a, s, rfl, h⟩
  | error e s => cases h

/-! ## What a call may do -/

/-- Started in a state satisfying `P`, the call returns with `Q` or stops with `E`. -/
def Meets (P : σ → Prop) (x : EStateM ε σ α) (Q : α → σ → Prop) (E : ε → σ → Prop) : Prop :=
  ∀ s, P s → match x.run s with
    | .ok a s' => Q a s'
    | .error e s' => E e s'

namespace Meets
variable {P P' : σ → Prop} {x : EStateM ε σ α} {Q Q' : α → σ → Prop} {E E' : ε → σ → Prop}

theorem of_run {s : σ} (h : Meets P x Q E) (hs : P s) :
    (∃ a s', x.run s = .ok a s' ∧ Q a s') ∨ ∃ e s', x.run s = .error e s' ∧ E e s' := by
  have hx := h s hs
  cases hr : x.run s with
  | ok a s' => rw [hr] at hx; exact Or.inl ⟨a, s', rfl, hx⟩
  | error e s' => rw [hr] at hx; exact Or.inr ⟨e, s', rfl, hx⟩

theorem ok {s s' : σ} {a : α} (h : Meets P x Q E) (hs : P s) (hr : x.run s = .ok a s') :
    Q a s' := by
  have hx := h s hs
  rwa [hr] at hx

theorem error {s s' : σ} {e : ε} (h : Meets P x Q E) (hs : P s) (hr : x.run s = .error e s') :
    E e s' := by
  have hx := h s hs
  rwa [hr] at hx

theorem mono (h : Meets P x Q E) (hP : ∀ s, P' s → P s) (hQ : ∀ a s, Q a s → Q' a s)
    (hE : ∀ e s, E e s → E' e s) : Meets P' x Q' E' := by
  intro s hs
  rcases h.of_run (hP s hs) with ⟨a, s', hr, hq⟩ | ⟨e, s', hr, he⟩
  · rw [hr]; exact hQ a s' hq
  · rw [hr]; exact hE e s' he

/-- Nothing is said. -/
theorem trivial (x : EStateM ε σ α) : Meets P x (fun _ _ => True) fun _ _ => True := by
  intro s _
  cases x.run s <;> exact True.intro

theorem pure (a : α) : Meets (Q a) (Pure.pure a : EStateM ε σ α) Q E := fun _ h => h

theorem bind {f : α → EStateM ε σ β} {R : β → σ → Prop} (hx : Meets P x Q E)
    (hf : ∀ a, Meets (Q a) (f a) R E) : Meets P (x >>= f) R E := by
  intro s hs
  rw [EStateM.run_bind]
  rcases hx.of_run hs with ⟨a, s', hr, hq⟩ | ⟨e, s', hr, he⟩
  · rw [hr]; exact hf a s' hq
  · rw [hr]; exact he

theorem returns {s t : σ} {a : α} (hr : x.run s = .ok a t) (hq : Q a t) :
    Meets (· = s) x Q E := by
  rintro _ rfl
  rw [hr]
  exact hq

/-- The first call is known to return. -/
theorem bind_returns {f : α → EStateM ε σ β} {R : β → σ → Prop} {s t : σ} {a : α}
    (hr : x.run s = .ok a t) (hf : Meets (· = t) (f a) R E) : Meets (· = s) (x >>= f) R E := by
  rintro _ rfl
  rw [run_bind_of_ok hr]
  exact hf t rfl

theorem bind_get {f : σ → EStateM ε σ β} {R : β → σ → Prop}
    (h : ∀ s, P s → Meets (· = s) (f s) R E) : Meets P (get >>= f) R E :=
  fun s hs => h s hs s rfl

theorem bind_set {f : PUnit → EStateM ε σ β} {R : β → σ → Prop} {s' : σ}
    (h : Meets (· = s') (f ⟨⟩) R E) : Meets P (set s' >>= f) R E :=
  fun _ _ => h s' rfl

theorem bind_ofExcept {γ : Type} {r : Except ε γ} {f : γ → EStateM ε σ β} {R : β → σ → Prop}
    (ok : ∀ a, r = .ok a → Meets P (f a) R E) (error : ∀ e s, r = .error e → P s → E e s) :
    Meets P (ofExcept r >>= f) R E := by
  cases r with
  | ok a => exact ok a rfl
  | error e => exact fun s hs => error e s rfl hs

theorem ite {c : Prop} [Decidable c] {y : EStateM ε σ α} (hx : c → Meets P x Q E)
    (hy : ¬c → Meets P y Q E) : Meets P (if c then x else y) Q E := by
  split
  · exact hx ‹_›
  · exact hy ‹_›

end Meets

/-! ## Calls that agree -/

/-- Started in `s` and `t`, the calls return the same value in states that `Q` relates, or stop for
the same reason in states that `E` relates. -/
def Agree (s t : σ) (x y : EStateM ε σ α) (Q : α → σ → σ → Prop) (E : σ → σ → Prop) : Prop :=
  match x.run s, y.run t with
  | .ok a s', .ok b t' => a = b ∧ Q a s' t'
  | .error e s', .error f t' => e = f ∧ E s' t'
  | _, _ => False

namespace Agree
variable {s t s' t' : σ} {x y : EStateM ε σ α} {Q : α → σ → σ → Prop} {E : σ → σ → Prop}
  {f g : α → EStateM ε σ β} {R : β → σ → σ → Prop}

theorem returns {a : α} (hx : x.run s = .ok a s') (hy : y.run t = .ok a t') (hq : Q a s' t') :
    Agree s t x y Q E := by
  rw [Agree, hx, hy]
  exact ⟨rfl, hq⟩

/-- Both calls return. -/
theorem ok {a b : α} (h : Agree s t x y Q E) (hx : x.run s = .ok a s') (hy : y.run t = .ok b t') :
    a = b ∧ Q a s' t' := by
  unfold Agree at h
  rw [hx, hy] at h
  exact h

/-- The sequence rule, where what the first call did is known. -/
theorem bind_run (h : Agree s t x y Q E)
    (hf : ∀ a s' t', x.run s = .ok a s' → Q a s' t' → Agree s' t' (f a) (g a) R E) :
    Agree s t (x >>= f) (y >>= g) R E := by
  unfold Agree at h
  cases hx : x.run s with
  | ok a s' =>
    cases hy : y.run t with
    | ok b t' =>
      rw [hx, hy] at h
      obtain ⟨rfl, hq⟩ := h
      rw [Agree, run_bind_of_ok hx, run_bind_of_ok hy]
      exact hf a s' t' hx hq
    | error e t' =>
      rw [hx, hy] at h
      exact h.elim
  | error e s' =>
    cases hy : y.run t with
    | ok b t' =>
      rw [hx, hy] at h
      exact h.elim
    | error e' t' =>
      rw [hx, hy] at h
      rw [Agree, EStateM.run_bind, hx, EStateM.run_bind, hy]
      exact h

theorem bind (h : Agree s t x y Q E)
    (hf : ∀ a s' t', Q a s' t' → Agree s' t' (f a) (g a) R E) :
    Agree s t (x >>= f) (y >>= g) R E :=
  h.bind_run fun a s' t' _ => hf a s' t'

theorem bind_returns {a : α} (hx : x.run s = .ok a s') (hy : y.run t = .ok a t')
    (hf : Agree s' t' (f a) (g a) R E) : Agree s t (x >>= f) (y >>= g) R E := by
  rw [Agree, run_bind_of_ok hx, run_bind_of_ok hy]
  exact hf

/-- Each call goes on with its own state. -/
theorem bind_get {f g : σ → EStateM ε σ β} (h : Agree s t (f s) (g t) R E) :
    Agree s t (get >>= f) (get >>= g) R E := h

theorem bind_ofExcept {r : Except ε α} (ok : ∀ a, r = .ok a → Agree s t (f a) (g a) R E)
    (error : E s t) : Agree s t (ofExcept r >>= f) (ofExcept r >>= g) R E := by
  cases r with
  | ok a => exact ok a rfl
  | error e => exact ⟨rfl, error⟩

theorem ite {c : Prop} [Decidable c] {x' y' : EStateM ε σ α} (h : c → Agree s t x y Q E)
    (h' : ¬c → Agree s t x' y' Q E) :
    Agree s t (if c then x else x') (if c then y else y') Q E := by
  by_cases hc : c
  · rw [if_pos hc, if_pos hc]
    exact h hc
  · rw [if_neg hc, if_neg hc]
    exact h' hc

end Agree

/-! ## Calls one after the other -/

/-- Make the call `f i` for each `i` of the list, in order. -/
def runAll (f : ι → EStateM ε σ Unit) : List ι → EStateM ε σ Unit
  | [] => pure ()
  | i :: xs => do
    f i
    runAll f xs

/-- A run of two lists is the first run followed by the second. -/
theorem runAll_append (f : ι → EStateM ε σ Unit) (xs ys : List ι) :
    runAll f (xs ++ ys) = (do runAll f xs; runAll f ys) := by
  induction xs with
  | nil => simp [runAll]
  | cons i xs ih => simp only [List.cons_append, runAll, ih, bind_assoc]

namespace Meets
variable {f : ι → EStateM ε σ Unit} {E : ε → σ → Prop}

/-- **The run rule**: what holds of the inputs consumed so far and the state, and is kept
by each call, holds after the run. -/
theorem runAll_prefix {I : List ι → σ → Prop}
    (step : ∀ done i, Meets (I done) (f i) (fun _ => I (done ++ [i])) E) (xs done : List ι) :
    Meets (I done) (runAll f xs) (fun _ => I (done ++ xs)) E := by
  induction xs generalizing done with
  | nil =>
    rw [List.append_nil]
    exact Meets.pure (Q := fun _ => I done) ()
  | cons i xs ih =>
    have h := ih (done ++ [i])
    rw [List.append_assoc, List.singleton_append] at h
    exact (step done i).bind fun _ => h

end Meets
end Call
