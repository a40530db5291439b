import Mathlib.Data.List.Basic

/-! # Paths of a labelled transition system

A path is a finite run: a list of labels, each taking the system from the state the one
before it left.  Runs are composed and taken apart along the list (`append`, `append_iff`),
and what every step keeps holds at the end (`invariant`). -/

variable {S A : Type}

/-- From `s`, doing the labels in order leads to `u`. -/
inductive StepPath (step : S → A → S → Prop) : S → List A → S → Prop
  | nil (s : S) : StepPath step s [] s
  | cons {s t u : S} {a : A} {as : List A} : step s a t → StepPath step t as u → StepPath step s (a :: as) u

namespace StepPath
variable {step : S → A → S → Prop} {s t u : S} {a : A} {as bs : List A}

theorem single (h : step s a t) : StepPath step s [a] t := cons h (nil t)

theorem append (h1 : StepPath step s as t) (h2 : StepPath step t bs u) : StepPath step s (as ++ bs) u := by
  induction h1 with
  | nil => exact h2
  | cons h _ ih => exact cons h (ih h2)

theorem concat (h1 : StepPath step s as t) (h2 : step t a u) : StepPath step s (as ++ [a]) u :=
  h1.append (single h2)

theorem nil_iff : StepPath step s [] t ↔ s = t := by
  constructor
  · rintro ⟨⟩; rfl
  · rintro rfl; exact nil s

theorem cons_iff : StepPath step s (a :: as) u ↔ ∃ t, step s a t ∧ StepPath step t as u := by
  constructor
  · rintro ⟨⟩
    exact ⟨_, ‹_›, ‹_›⟩
  · rintro ⟨t, h1, h2⟩
    exact cons h1 h2

/-- A path over two lists passes through a state between them. -/
theorem append_iff : StepPath step s (as ++ bs) u ↔ ∃ t, StepPath step s as t ∧ StepPath step t bs u := by
  induction as generalizing s with
  | nil => simp [nil_iff]
  | cons a as ih =>
    simp only [List.cons_append, cons_iff, ih]
    constructor
    · rintro ⟨t, h1, v, h2, h3⟩
      exact ⟨v, ⟨t, h1, h2⟩, h3⟩
    · rintro ⟨v, ⟨t, h1, h2⟩, h3⟩
      exact ⟨t, h1, v, h2, h3⟩

theorem concat_iff : StepPath step s (as ++ [a]) u ↔ ∃ t, StepPath step s as t ∧ step t a u := by
  simp only [append_iff, cons_iff, nil_iff, exists_eq_right]

/-- **The invariant rule**: what every step keeps holds at the end of a path. -/
theorem invariant {I : S → Prop} (keep : ∀ s a t, I s → step s a t → I t)
    (h : StepPath step s as u) (hs : I s) : I u := by
  induction h with
  | nil => exact hs
  | cons h _ ih => exact ih (keep _ _ _ hs h)

/-- The invariant rule for an invariant that also speaks of the labels done so far. -/
theorem invariant_prefix {I : List A → S → Prop} (done : List A)
    (keep : ∀ done s a t, I done s → step s a t → I (done ++ [a]) t)
    (h : StepPath step s as u) (hs : I done s) : I (done ++ as) u := by
  induction h generalizing done with
  | nil => rwa [List.append_nil]
  | @cons _ _ _ a as h _ ih =>
    have := ih (done ++ [a]) (keep _ _ _ _ hs h)
    rwa [List.append_assoc, List.singleton_append] at this

/-- What an invariant says of every step that is done in it holds of all the labels. -/
theorem forall_labels {I : S → Prop} {Q : A → Prop} (keep : ∀ s a t, I s → step s a t → Q a ∧ I t)
    (h : StepPath step s as u) (hs : I s) : ∀ a ∈ as, Q a := by
  induction h with
  | nil => exact fun a ha => absurd ha List.not_mem_nil
  | cons h _ ih =>
    obtain ⟨ha, ht⟩ := keep _ _ _ hs h
    exact List.forall_mem_cons.mpr ⟨ha, ih ht⟩

/-- A path of steps that also are steps of another system. -/
theorem imp {step' : S → A → S → Prop} (h : StepPath step s as u)
    (hstep : ∀ a ∈ as, ∀ s t, step s a t → step' s a t) : StepPath step' s as u := by
  induction h with
  | nil => exact nil _
  | cons h _ ih =>
    exact cons (hstep _ List.mem_cons_self _ _ h)
      (ih fun a ha => hstep a (List.mem_cons_of_mem _ ha))

/-- Each label of a path is a step of it. -/
theorem exists_step (h : StepPath step s as u) (ha : a ∈ as) : ∃ t v, step t a v := by
  obtain ⟨l1, l2, rfl⟩ := List.append_of_mem ha
  obtain ⟨t, -, h2⟩ := append_iff.mp h
  obtain ⟨v, hv, -⟩ := cons_iff.mp h2
  exact ⟨t, v, hv⟩

/-- **The states along a path**, by the number of labels done. -/
theorem exists_trace (h : StepPath step s as u) :
    ∃ f : Nat → S, f 0 = s ∧ f as.length = u ∧ ∀ i a, as[i]? = some a → step (f i) a (f (i + 1)) := by
  induction h with
  | nil s => exact ⟨fun _ => s, rfl, rfl, fun i a hi => by simp at hi⟩
  | @cons s t u a as hstep _ ih =>
    obtain ⟨f, h0, hend, hf⟩ := ih
    refine ⟨fun i => i.casesOn s f, rfl, hend, fun i b hi => ?_⟩
    cases i with
    | zero =>
      obtain rfl : a = b := Option.some.inj hi
      show step s a (f 0)
      rwa [h0]
    | succ i => exact hf i b hi

end StepPath
